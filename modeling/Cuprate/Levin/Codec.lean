import Cuprate.Levin.Bucket
import Cuprate.Stream.Proofs.DecoderProofs

/-!
# The levin codecs

The two-level streaming decoder of `net/levin/src/codec.rs`. `LevinBucketCodec` cuts the byte stream
into buckets; `LevinMessageCodec` loops over the buckets, skips dummies, joins fragments and decodes
one message at a time. `decode` returns what the source returns (`Ok(None)` is `.ok none`) with the
codec and the buffer it leaves behind.
-/

namespace Cuprate.Levin

open Cuprate.Stream

/-! ## Buckets -/

/-- What the bucket codec waits for. -/
inductive LevinBucketState (C : Type) where
  | waitingForHeader
  | waitingForBody (head : BucketHead C)
deriving DecidableEq, Repr

/-- The codec of buckets. -/
structure LevinBucketCodec (C : Type) where
  state : LevinBucketState C
  protocol : Protocol
  handshakeMessageSeen : Bool
deriving DecidableEq, Repr

namespace LevinBucketCodec

variable {C : Type}

def new (protocol : Protocol) : LevinBucketCodec C where
  state := .waitingForHeader
  protocol := protocol
  handshakeMessageSeen := false

/-- The arm of the decoding loop that waits for the body announced by `head`. -/
def decodeBody (codec : LevinBucketCodec C) (head : BucketHead C) (src : List UInt8) :
    Except BucketError (Option (Bucket C)) × LevinBucketCodec C × List UInt8 :=
  let bodyLen := head.size.toNat
  if src.length < bodyLen then (.ok none, codec, src)
  else
    (.ok (some { header := head, body := src.take bodyLen }),
      { codec with state := .waitingForHeader }, src.drop bodyLen)

theorem decodeBody_some {codec codec' : LevinBucketCodec C} {head : BucketHead C} {src rest : List UInt8}
    {bucket : Bucket C} (h : codec.decodeBody head src = (.ok (some bucket), codec', rest)) :
    rest.length ≤ src.length ∧ codec'.state = .waitingForHeader := by
  simp only [decodeBody] at h
  split at h
  · simp at h
  · simp only [Prod.mk.injEq] at h
    obtain ⟨-, rfl, rfl⟩ := h
    simp

variable [LevinCommand C]

/-- Whether a header announces a body above the limits in force. -/
def exceedsMaxSize (codec : LevinBucketCodec C) (head : BucketHead C) : Bool :=
  codec.protocol.maxPacketSize < head.size || bucketSizeLimit head.command < head.size ||
    (!codec.handshakeMessageSeen && codec.protocol.maxPacketSizeBeforeHandshake < head.size)

def acceptHead (codec : LevinBucketCodec C) (head : BucketHead C) : LevinBucketCodec C :=
  { codec with
    state := .waitingForBody head
    handshakeMessageSeen := codec.handshakeMessageSeen || isHandshake head.command }

/-- One call of the bucket decoder: the arm for the header falls through to the one for the body. -/
def decode (codec : LevinBucketCodec C) (src : List UInt8) :
    Except BucketError (Option (Bucket C)) × LevinBucketCodec C × List UInt8 :=
  match codec.state with
  | .waitingForHeader =>
    if src.length < HEADER_SIZE then (.ok none, codec, src)
    else
      let (head, rest) := BucketHead.fromBytes src
      if codec.exceedsMaxSize head then (.error .bucketExceededMaxSize, codec, rest)
      else (codec.acceptHead head).decodeBody head rest
  | .waitingForBody head => codec.decodeBody head src

/-- Appends the bytes of a bucket to `dst`. -/
def encode (item : Bucket C) (dst : List UInt8) : List UInt8 :=
  dst ++ item.header.toBytes ++ item.body

/-- Twice the buffered bytes, and one more while a header is held: one with an empty body becomes a
bucket without reading a byte. -/
def size (codec : LevinBucketCodec C) (src : List UInt8) : Nat :=
  2 * src.length + match codec.state with
    | .waitingForHeader => 0
    | .waitingForBody _ => 1

theorem decode_progress {codec codec' : LevinBucketCodec C} {src rest : List UInt8} {bucket : Bucket C}
    (h : codec.decode src = (.ok (some bucket), codec', rest)) :
    codec'.size rest < codec.size src := by
  unfold decode at h
  split at h
  · next hst =>
    split at h
    · simp at h
    · next hlen =>
      simp only at h
      split at h
      · simp at h
      · obtain ⟨hle, hst'⟩ := decodeBody_some h
        simp only [BucketHead.fromBytes, List.length_drop, HEADER_SIZE] at hle hlen
        simp only [size, hst, hst']
        omega
  · next head hst =>
    obtain ⟨hle, hst'⟩ := decodeBody_some h
    simp only [size, hst, hst']
    omega

def decoder (C : Type) [LevinCommand C] : Decoder (LevinBucketCodec C) UInt8 (Bucket C) BucketError where
  poll := decode
  size := size
  progress := decode_progress

end LevinBucketCodec

/-! ## Messages -/

/-- What the message codec waits for. -/
inductive MessageState where
  | waitingForBucket
  /-- Waiting for the rest of a fragmented message; the bytes received so far are kept. -/
  | waitingForRestOfFragment (bytes : List UInt8)
deriving DecidableEq, Repr

section Message

variable {T C : Type} [LevinCommand C] [LevinBody T C]

/-- What the message codec does with a bucket while it is not inside a fragmented message. -/
def handleBucket (codec : LevinBucketCodec C) (bucket : Bucket C) :
    Except BucketError (Option T) × LevinBucketCodec C × MessageState :=
  let flags := bucket.header.flags
  if flags.contains .DUMMY then (.ok none, codec, .waitingForBucket)
  else if flags.contains .END_FRAGMENT then
    (.error (.invalidHeaderFlags "Flag end fragment received before a start fragment"), codec,
      .waitingForBucket)
  else if flags.contains .START_FRAGMENT then
    (.ok none, codec, .waitingForRestOfFragment bucket.body)
  else
    (do
      let messageType ← MessageType.fromFlagsAndHaveToReturn flags bucket.header.haveToReturnData
      some <$> decodeMessage bucket.body messageType bucket.header.command,
      codec, .waitingForBucket)

/-- The combined bytes of a fragmented message, after its last fragment was received. -/
def handleFragmentedMessage (codec : LevinBucketCodec C) (bytes : List UInt8) :
    Except BucketError (Option T) × LevinBucketCodec C × MessageState :=
  if bytes.length < HEADER_SIZE then
    (.error (.invalidFragmentedMessage
      "Fragmented message is not large enough to build a bucket."), codec, .waitingForBucket)
  else
    let header : BucketHead C := (BucketHead.fromBytes (bytes.take HEADER_SIZE)).1
    if bucketSizeLimit header.command < header.size then
      (.error .bucketExceededMaxSize, codec, .waitingForBucket)
    else if bytes.length - HEADER_SIZE < header.size.toNat then
      (.error (.invalidFragmentedMessage
        "Fragmented message does not have enough bytes to fill bucket body"), codec,
        .waitingForBucket)
    else
      match MessageType.fromFlagsAndHaveToReturn header.flags header.haveToReturnData with
      | .error e => (.error e, codec, .waitingForBucket)
      | .ok messageType =>
        (some <$> decodeMessage (bytes.drop HEADER_SIZE) messageType header.command,
          { codec with
            handshakeMessageSeen := codec.handshakeMessageSeen || isHandshake header.command },
          .waitingForBucket)

/-- The limit on the combined bytes of a fragmented message. -/
def maxFragmentedSize (codec : LevinBucketCodec C) : Nat :=
  if codec.handshakeMessageSeen then codec.protocol.maxPacketSize.toNat
  else codec.protocol.maxPacketSizeBeforeHandshake.toNat

/-- What the message codec does with a bucket inside a fragmented message. -/
def handleFragment (codec : LevinBucketCodec C) (bytes : List UInt8) (bucket : Bucket C) :
    Except BucketError (Option T) × LevinBucketCodec C × MessageState :=
  let flags := bucket.header.flags
  if flags.contains .DUMMY then (.ok none, codec, .waitingForRestOfFragment bytes)
  else if maxFragmentedSize codec < bytes.length + bucket.body.length then
    (.error (.invalidFragmentedMessage "Fragmented message exceeded maximum size"), codec,
      .waitingForRestOfFragment bytes)
  else if flags.contains .END_FRAGMENT then handleFragmentedMessage codec (bytes ++ bucket.body)
  else (.ok none, codec, .waitingForRestOfFragment (bytes ++ bucket.body))

/-- The body of the loop of the message decoder: `.ok none` goes on to the next bucket. -/
def handle (codec : LevinBucketCodec C) (state : MessageState) (bucket : Bucket C) :
    Except BucketError (Option T) × LevinBucketCodec C × MessageState :=
  match state with
  | .waitingForBucket => handleBucket codec bucket
  | .waitingForRestOfFragment bytes => handleFragment codec bytes bucket

theorem handle_codec (codec : LevinBucketCodec C) (state : MessageState) (bucket : Bucket C) :
    (handle (T := T) codec state bucket).2.1.state = codec.state ∧
      (handle (T := T) codec state bucket).2.1.protocol = codec.protocol := by
  cases state with
  | waitingForBucket =>
    simp only [handle, handleBucket]
    split_ifs <;> exact ⟨rfl, rfl⟩
  | waitingForRestOfFragment bytes =>
    simp only [handle, handleFragment, handleFragmentedMessage]
    split_ifs <;> first | exact ⟨rfl, rfl⟩ | (split <;> exact ⟨rfl, rfl⟩)

theorem sizeStable_handle : (LevinBucketCodec.decoder C).SizeStable (handle (T := T)) := by
  intro codec state bucket src
  simp [LevinBucketCodec.decoder, LevinBucketCodec.size, (handle_codec codec state bucket).1]

end Message

/-- The state of a message codec: its bucket codec and the fragments received so far. -/
abbrev LevinMessageCodec (C : Type) := LevinBucketCodec C × MessageState

namespace LevinMessageCodec

variable {C : Type}

def new (protocol : Protocol) : LevinMessageCodec C :=
  (LevinBucketCodec.new protocol, .waitingForBucket)

variable [LevinCommand C]

/-- The message codec: the loop around the bucket decoder. -/
def decoder (T : Type) [LevinBody T C] : Decoder (LevinMessageCodec C) UInt8 T BucketError :=
  (LevinBucketCodec.decoder C).through handle sizeStable_handle

/-- Calls `decode` until it returns `None` or an error. -/
def decodeAll (T : Type) [LevinBody T C] (codec : LevinMessageCodec C) (src : List UInt8) :
    List T × Option BucketError :=
  ((decoder T).drain codec src).1

/-- Appends each chunk to the buffer and calls `decode` until it returns `None` or an error. -/
def feedChunks (T : Type) [LevinBody T C] (codec : LevinMessageCodec C) (chunks : List (List UInt8)) :
    List T × Option BucketError :=
  (decoder T).feed codec [] chunks

end LevinMessageCodec

end Cuprate.Levin
