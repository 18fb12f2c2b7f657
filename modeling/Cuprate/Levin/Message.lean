import Cuprate.Levin.Codec

/-!
# Levin messages

What can be sent to a peer (`net/levin/src/message.rs`): a message body, a whole bucket, or a dummy
that the peer should ignore; and how a message is cut into buckets of one size.
-/

namespace Cuprate.Levin

/-- A levin message that can be sent to a peer. -/
inductive LevinMessage (T C : Type) where
  | body (message : T)
  | bucket (bucket : Bucket C)
  /-- A dummy message of exactly this size (in bytes) on the wire. -/
  | dummy (size : UInt64)

section

variable {T C : Type} [LevinCommand C]

/-- Makes a dummy message of `size` bytes on the wire. The source panics when `size` is smaller than
a header. -/
def makeDummyMessage (protocol : Protocol) (size : UInt64) : Bucket C where
  header := {
    signature := protocol.signature
    size := size
    haveToReturnData := false
    command := fromU32 0
    returnCode := 0
    flags := .DUMMY
    protocolVersion := protocol.version }
  body := List.replicate (size.toNat - HEADER_SIZE) 0

variable [LevinBody T C]

/-- The bucket that is sent for a message. `.ok none` stands for a panic: a builder field that was
not set, or a dummy smaller than a header. -/
def toBucket (protocol : Protocol) : LevinMessage T C → Except BucketError (Option (Bucket C))
  | .body message => BucketBuilder.finish <$> LevinBody.encode message (.new protocol)
  | .bucket bucket => .ok (some bucket)
  | .dummy size =>
    .ok (if size.toNat < HEADER_SIZE then none else some (makeDummyMessage protocol size))

/-- Appends zeros up to the length `size`. -/
def padTo (size : Nat) (bytes : List UInt8) : List UInt8 :=
  bytes ++ List.replicate (size - bytes.length) 0

/-- The bodies of the fragments after the first one, each of the size `dataSpace`. -/
def fragmentBodies (dataSpace : Nat) : Nat → List UInt8 → List (List UInt8)
  | 0, _ => []
  | amount + 1, body =>
    padTo dataSpace (body.take dataSpace) :: fragmentBodies dataSpace amount (body.drop dataSpace)

def fragmentHead (protocol : Protocol) (fragmentSize : UInt64) : BucketHead C where
  signature := protocol.signature
  size := fragmentSize - .ofNat HEADER_SIZE
  haveToReturnData := false
  command := fromU32 0
  returnCode := 0
  flags := .empty
  protocolVersion := protocol.version

def Bucket.toggleFlags (flags : Flags) (bucket : Bucket C) : Bucket C :=
  { bucket with header := { bucket.header with flags := bucket.header.flags.toggle flags } }

/-- Cuts a bucket into buckets which, when serialised, all have the size `fragmentSize`. -/
def fragmentBucket (protocol : Protocol) (fragmentSize : UInt64) (bucket : Bucket C) :
    Except BucketError (List (Bucket C)) :=
  let size := fragmentSize.toNat
  if !bucket.header.flags.intersects ⟨Flags.REQUEST.bits ||| Flags.RESPONSE.bits⟩ then
    .error (.invalidFragmentedMessage
      "Can't make a fragmented message out of a message which is already fragmented")
  else if bucket.body.length + HEADER_SIZE ≤ size then
    if bucket.body.length + HEADER_SIZE < size then
      .ok [{ header := { bucket.header with size := fragmentSize - .ofNat HEADER_SIZE }
             body := padTo (size - HEADER_SIZE) bucket.body }]
    else .ok [bucket]
  else
    let dataSpace := size - HEADER_SIZE
    let amountOfFragments := (bucket.body.length + HEADER_SIZE + (dataSpace - 1)) / dataSpace
    -- the first fragment holds the header of the bucket that is sent, too
    let firstSpace := size - HEADER_SIZE * 2
    let bodies := (bucket.header.toBytes ++ bucket.body.take firstSpace) ::
      fragmentBodies dataSpace (amountOfFragments - 1) (bucket.body.drop firstSpace)
    let buckets := bodies.map fun body =>
      ({ header := fragmentHead protocol fragmentSize, body := body } : Bucket C)
    .ok ((buckets.modifyHead (Bucket.toggleFlags .START_FRAGMENT)).modifyLast
      (Bucket.toggleFlags .END_FRAGMENT))

/-- Fragments the message into buckets of `fragmentSize` bytes on the wire. `.ok none` stands for a
panic: a size that is too small, or a builder field that was not set. -/
def makeFragmentedMessages (protocol : Protocol) (fragmentSize : UInt64) (message : T) :
    Except BucketError (Option (List (Bucket C))) :=
  if fragmentSize.toNat < 2 * HEADER_SIZE then .ok none
  else
    (toBucket protocol (.body message)).bind fun bucket =>
      match bucket with
      | none => .ok none
      | some bucket => some <$> fragmentBucket protocol fragmentSize bucket

/-- Appends the bytes of a message to `dst`. -/
def encodeMessage (protocol : Protocol) (item : LevinMessage T C) (dst : List UInt8) :
    Except BucketError (Option (List UInt8)) :=
  Option.map (fun bucket => LevinBucketCodec.encode bucket dst) <$> toBucket protocol item

end

end Cuprate.Levin
