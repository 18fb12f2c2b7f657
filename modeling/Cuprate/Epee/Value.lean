import Cuprate.Epee.Object

/-!
# Epee values

The types that have a value in the format (`net/epee-encoding/src/{value,container_as_blob}.rs`,
`types/fixed-bytes/src/lib.rs`). Each gives its marker, how it is read after its marker and how it
is written, and whether a field of this type is written at all. `Bytes` and `Vec<u8>` are the same
here.
-/

namespace Cuprate.Epee

open Cuprate.Stream

/-- How a value is read and written. -/
structure EpeeValue (α : Type) where
  marker : Marker
  read : Marker → Read α
  shouldWrite : α → Bool := fun _ => true
  /-- The value of a field that is missing. -/
  epeeDefaultValue : Option α := none
  write : α → List UInt8

/-- Bytes of a fixed number, `[u8; N]`. -/
def Octets (N : Nat) : Type := { bytes : List UInt8 // bytes.length = N }
deriving DecidableEq

/-- A fixed number of bytes. The constructors check their number, but for the default, which has
none. -/
structure ByteArray (N : Nat) where
  bytes : List UInt8
  isLength : bytes.length = N ∨ bytes = []
deriving DecidableEq

def ByteArray.default (N : Nat) : ByteArray N := ⟨[], .inr rfl⟩

def ByteArray.tryFrom (N : Nat) (value : List UInt8) : Option (ByteArray N) :=
  if h : value.length = N then some ⟨value, .inl h⟩ else none

/-- Bytes that are split into arrays of `N` bytes. -/
structure ByteArrayVec (N : Nat) where
  bytes : List UInt8
  isMultiple : bytes.length % N = 0
deriving DecidableEq

namespace ByteArrayVec

variable {N : Nat}

def len (v : ByteArrayVec N) : Nat := v.bytes.length / N

def isEmpty (v : ByteArrayVec N) : Bool := v.len == 0

def tryFrom (N : Nat) (value : List UInt8) : Option (ByteArrayVec N) :=
  if h : value.length % N = 0 then some ⟨value, h⟩ else none

end ByteArrayVec

def Text : Type := { bytes : List UInt8 // isUtf8 bytes = true }
deriving DecidableEq

variable {α : Type}

def okOr (e : Error) : Option α → Read α
  | some a => pure a
  | none => .fail e

/-- Fails if the marker is another one. -/
def expectMarker (expected marker : Marker) : Read Unit :=
  if marker = expected then pure () else .fail (.format "Marker does not match expected Marker")

/-- Writes bytes with their length. -/
def writeBytes (t : List UInt8) : List UInt8 := writeVarint t.length ++ t

namespace EpeeValue

def number (innerMarker : InnerMarker) (size : Nat) (ofNat : Nat → α) (toNat : α → Nat) : EpeeValue α where
  marker := .new innerMarker
  read marker := do
    expectMarker (.new innerMarker) marker
    let bytes ← checkedRead size
    pure (ofNat (leValue bytes))
  write a := leBytes size (toNat a)

def u8 : EpeeValue UInt8 := number .U8 1 .ofNat UInt8.toNat
def u16 : EpeeValue UInt16 := number .U16 2 .ofNat UInt16.toNat
def u32 : EpeeValue UInt32 := number .U32 4 .ofNat UInt32.toNat
def u64 : EpeeValue UInt64 := number .U64 8 .ofNat UInt64.toNat
def i64 : EpeeValue Int64 := number .I64 8 (fun n => (UInt64.ofNat n).toInt64) fun a => a.toUInt64.toNat

def bool : EpeeValue Bool where
  marker := .new .Bool
  read marker := do
    expectMarker (.new .Bool) marker
    let b ← checkedReadU8
    pure (b != 0)
  write a := [if a then 1 else 0]

/-- Reads bytes with their length. -/
def readBytes (marker : Marker) : Read (List UInt8) := do
  expectMarker (.new .String) marker
  let len ← readVarint U64_BOUND
  if len > MAX_STRING_LEN_POSSIBLE then .fail (.format "Byte array exceeded max length")
  else .take len (.io "Not enough bytes to fill object")

def bytes : EpeeValue (List UInt8) where
  marker := .new .String
  read := readBytes
  shouldWrite a := !a.isEmpty
  epeeDefaultValue := some []
  write := writeBytes

def octets (N : Nat) : EpeeValue (Octets N) where
  marker := .new .String
  read marker := do
    let bytes ← readBytes marker
    if h : bytes.length = N then pure ⟨bytes, h⟩ else .fail (.format "Byte array has incorrect length")
  write a := writeBytes a.1

def byteArray (N : Nat) : EpeeValue (ByteArray N) where
  marker := .new .String
  read marker := do
    expectMarker (.new .String) marker
    let len ← readVarint U64_BOUND
    if len ≠ N then .fail (.format "Byte array has incorrect length")
    else do
      let bytes ← .take N (.io "Not enough bytes to fill object")
      okOr (.format "Field has invalid length") (ByteArray.tryFrom N bytes)
  write a := writeBytes a.bytes

def byteArrayVec (N : Nat) : EpeeValue (ByteArrayVec N) where
  marker := .new .String
  read marker := do
    let bytes ← readBytes marker
    okOr (.format "Field has invalid length") (ByteArrayVec.tryFrom N bytes)
  shouldWrite a := !a.isEmpty
  epeeDefaultValue := ByteArrayVec.tryFrom N []
  write a := writeBytes a.bytes

def text : EpeeValue Text where
  marker := .new .String
  read marker := do
    let bytes ← readBytes marker
    if h : isUtf8 bytes = true then pure ⟨bytes, h⟩ else .fail (.format "Invalid string")
  shouldWrite a := !a.1.isEmpty
  epeeDefaultValue := some ⟨[], rfl⟩
  write a := writeBytes a.1

/-- A sequence of values. -/
def vec (v : EpeeValue α) : EpeeValue (List α) where
  marker := v.marker.intoSeq
  read marker :=
    if marker.isSeq then do
      let len ← readVarint U64_BOUND
      .replicate (v.read (.new marker.innerMarker)) len
    else .fail (.format "Marker is not sequence when a sequence was expected")
  shouldWrite a := !a.isEmpty
  epeeDefaultValue := some []
  write a := writeVarint a.length ++ a.flatMap v.write

/-- A value that may be missing. The source panics when it writes a missing one, which no field
does. -/
def option (v : EpeeValue α) : EpeeValue (Option α) where
  marker := v.marker
  read marker := do
    let a ← v.read marker
    pure (some a)
  shouldWrite
    | some a => v.shouldWrite a
    | none => false
  epeeDefaultValue := some none
  write
    | some a => v.write a
    | none => []

/-- An object as a value. -/
def ofObject (o : EpeeObject α) : EpeeValue α where
  marker := .new .Object
  read marker := do
    expectMarker (.new .Object) marker
    readObject o.toEpeeObjectBuilder
  write := writeObject o

/-- Cuts bytes into `n` parts of the given size. -/
def chunks (size : Nat) : Nat → List UInt8 → List (List UInt8)
  | 0, _ => []
  | n + 1, bytes => bytes.take size :: chunks size n (bytes.drop size)

/-- A list of `u64`s that is written as one string. -/
def containerAsBlob : EpeeValue (List UInt64) where
  marker := .new .String
  read marker := do
    let bytes ← readBytes marker
    if bytes.length % 8 ≠ 0 then .fail (.value "Can't convert blob container to Vec type.")
    else pure ((chunks 8 (bytes.length / 8) bytes).map fun chunk => .ofNat (leValue chunk))
  shouldWrite a := !a.isEmpty
  epeeDefaultValue := some []
  write a := writeBytes (a.flatMap fun n => leBytes 8 n.toNat)

end EpeeValue

/-- Reads a marker and a value. -/
def readEpeeValue (v : EpeeValue α) : Read α := do
  let marker ← readMarker
  v.read marker

/-- Writes a marker and a value. -/
def writeEpeeValue (v : EpeeValue α) (val : α) : List UInt8 := v.marker.asU8 :: v.write val

/-- Writes a field, unless its value is one that is not written. -/
def writeField (v : EpeeValue α) (fieldName : String) (val : α) : List UInt8 :=
  if v.shouldWrite val then writeFieldName (asciiBytes fieldName) ++ writeEpeeValue v val else []

end Cuprate.Epee
