import Cuprate.Stream.Bytes

/-!
# Levin buckets

The header of a levin bucket (`net/levin/src/header.rs`) with its 33 little-endian bytes, and the
types of `net/levin/src/lib.rs`: the protocol settings, buckets and their builder, and the interface
(`LevinBody`) between the levin codec and the messages it carries.
-/

namespace Cuprate.Levin

open Cuprate.Stream

def HEADER_SIZE : Nat := 33

/-- The flags of a bucket. -/
structure Flags where
  bits : UInt32
deriving DecidableEq, Repr

namespace Flags

def REQUEST : Flags := ⟨0b0000_0001⟩
def RESPONSE : Flags := ⟨0b0000_0010⟩
def START_FRAGMENT : Flags := ⟨0b0000_0100⟩
def END_FRAGMENT : Flags := ⟨0b0000_1000⟩

def DUMMY : Flags := ⟨START_FRAGMENT.bits ||| END_FRAGMENT.bits⟩

def empty : Flags := ⟨0⟩

/-- Whether all bits of `other` are set. -/
def contains (flags other : Flags) : Bool := flags.bits &&& other.bits == other.bits

/-- Whether one of the bits of `other` is set. -/
def intersects (flags other : Flags) : Bool := flags.bits &&& other.bits != 0

/-- Flips the bits of `other`. -/
def toggle (flags other : Flags) : Flags := ⟨flags.bits ^^^ other.bits⟩

end Flags

/-- A levin command: every `u32` is a command, and each command has a size limit. -/
class LevinCommand (C : Type) where
  fromU32 : UInt32 → C
  toU32 : C → UInt32
  toU32_fromU32 : ∀ x, toU32 (fromU32 x) = x
  bucketSizeLimit : C → UInt64
  isHandshake : C → Bool

export LevinCommand (fromU32 toU32 bucketSizeLimit isHandshake)

/-- The header of a bucket. -/
structure BucketHead (C : Type) where
  signature : UInt64
  size : UInt64
  haveToReturnData : Bool
  command : C
  returnCode : Int32
  flags : Flags
  protocolVersion : UInt32
deriving DecidableEq, Repr

namespace BucketHead

variable {C : Type} [LevinCommand C]

/-- Builds the header from the first `HEADER_SIZE` bytes of `buf`, unchecked. The second component
is the rest of the buffer. -/
def fromBytes (buf : List UInt8) : BucketHead C × List UInt8 :=
  ({ signature := .ofNat (leValue (buf.take 8))
     size := .ofNat (leValue ((buf.drop 8).take 8))
     haveToReturnData := leValue ((buf.drop 16).take 1) != 0
     command := fromU32 (.ofNat (leValue ((buf.drop 17).take 4)))
     returnCode := (UInt32.ofNat (leValue ((buf.drop 21).take 4))).toInt32
     flags := ⟨.ofNat (leValue ((buf.drop 25).take 4))⟩
     protocolVersion := .ofNat (leValue ((buf.drop 29).take 4)) },
   buf.drop HEADER_SIZE)

/-- The bytes of the header, as `write_bytes_into` appends them to a buffer. -/
def toBytes (head : BucketHead C) : List UInt8 :=
  leBytes 8 head.signature.toNat ++ leBytes 8 head.size.toNat ++
    leBytes 1 (if head.haveToReturnData then 1 else 0) ++ leBytes 4 (toU32 head.command).toNat ++
    leBytes 4 head.returnCode.toUInt32.toNat ++ leBytes 4 head.flags.bits.toNat ++
    leBytes 4 head.protocolVersion.toNat

@[simp] theorem length_toBytes (head : BucketHead C) : head.toBytes.length = HEADER_SIZE := by
  simp [toBytes, HEADER_SIZE]

theorem fromBytes_toBytes (head : BucketHead C) (hcmd : fromU32 (toU32 head.command) = head.command)
    (rest : List UInt8) : fromBytes (head.toBytes ++ rest) = (head, rest) := by
  obtain ⟨sig, size, ret, cmd, code, flags, ver⟩ := head
  have h8 : ∀ x : UInt64, leValue (leBytes 8 x.toNat) = x.toNat := fun x =>
    leValue_leBytes (by have := x.toNat_lt; norm_num at this ⊢; omega)
  have h4 : ∀ x : UInt32, leValue (leBytes 4 x.toNat) = x.toNat := fun x =>
    leValue_leBytes (by have := x.toNat_lt; norm_num at this ⊢; omega)
  have h1 : ∀ b : Bool, leValue (leBytes 1 (if b then 1 else 0)) = if b then 1 else 0 := by decide
  simp only at hcmd
  simp [fromBytes, toBytes, HEADER_SIZE, List.drop_append, List.drop_of_length_le, h8, h4, h1, hcmd]
  cases ret <;> rfl

end BucketHead

/-- Possible errors when working with levin buckets. -/
inductive BucketError where
  | invalidHeaderFlags (msg : String)
  | bucketExceededMaxSize
  | invalidFragmentedMessage (msg : String)
  | invalidHeaderSignature
  | bodyDecodingError (msg : String)
  | unknownCommand
deriving DecidableEq, Repr

/-- The limits and the signature of a protocol. -/
structure Protocol where
  version : UInt32
  signature : UInt64
  maxPacketSizeBeforeHandshake : UInt64
  maxPacketSize : UInt64
deriving DecidableEq, Repr

def Protocol.default : Protocol where
  version := 1
  signature := 0x0101010101012101
  maxPacketSizeBeforeHandshake := 256 * 1000
  maxPacketSize := 100000000

/-- A header and a body. -/
structure Bucket (C : Type) where
  header : BucketHead C
  body : List UInt8
deriving DecidableEq, Repr

/-- Whether the message is a request, response or notification. -/
inductive MessageType where
  | request
  | response
  | notification
deriving DecidableEq, Repr

namespace MessageType

def haveToReturnData : MessageType → Bool
  | request => true
  | response | notification => false

/-- The message type given the `flags` and `have_to_return_data` fields of a header. -/
def fromFlagsAndHaveToReturn (flags : Flags) (haveToReturn : Bool) : Except BucketError MessageType :=
  if flags = .REQUEST ∧ haveToReturn then .ok request
  else if flags = .REQUEST ∧ !haveToReturn then .ok notification
  else if flags = .RESPONSE ∧ !haveToReturn then .ok response
  else .error (.invalidHeaderFlags "Unable to assign a message type to this bucket")

def asFlags : MessageType → Flags
  | request | notification => .REQUEST
  | response => .RESPONSE

theorem fromFlags_asFlags (ty : MessageType) :
    fromFlagsAndHaveToReturn ty.asFlags ty.haveToReturnData = .ok ty := by
  cases ty <;> rfl

end MessageType

/-- The values a bucket is built from. -/
structure BucketBuilder (C : Type) where
  signature : Option UInt64
  ty : Option MessageType
  command : Option C
  returnCode : Option Int32
  protocolVersion : Option UInt32
  body : Option (List UInt8)

namespace BucketBuilder

variable {C : Type}

def new (protocol : Protocol) : BucketBuilder C where
  signature := some protocol.signature
  ty := none
  command := none
  returnCode := none
  protocolVersion := some protocol.version
  body := none

/-- The finished bucket. `none` stands for the panic on a field that was never set. -/
def finish (builder : BucketBuilder C) : Option (Bucket C) := do
  let body ← builder.body
  let ty ← builder.ty
  let signature ← builder.signature
  let command ← builder.command
  let returnCode ← builder.returnCode
  let protocolVersion ← builder.protocolVersion
  return {
    header := {
      signature
      size := .ofNat body.length
      haveToReturnData := ty.haveToReturnData
      command
      returnCode
      flags := ty.asFlags
      protocolVersion }
    body }

end BucketBuilder

/-- The messages a levin codec carries: how a body is decoded under the data of its header, and how
a message fills a bucket. -/
class LevinBody (T : Type) (C : outParam Type) where
  decodeMessage : List UInt8 → MessageType → C → Except BucketError T
  encode : T → BucketBuilder C → Except BucketError (BucketBuilder C)

export LevinBody (decodeMessage)

end Cuprate.Levin
