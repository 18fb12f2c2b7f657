import Cuprate.Collections.Result
import Cuprate.Epee.Varint
import Cuprate.Stream.Bytes

/-!
# Epee objects

Reading and writing objects, and skipping the values of unknown fields
(`net/epee-encoding/src/lib.rs`). An object is the number of its fields, and for each field its
name, a marker with its type (`marker.rs`) and a value. The type that is read is given by its
builder, which is asked for each field in turn.
-/

namespace Cuprate.Epee

open Cuprate.Stream Reader

/-- The type of a value. -/
inductive InnerMarker where
  | I64 | I32 | I16 | I8 | U64 | U32 | U16 | U8 | F64 | String | Bool | Object
deriving DecidableEq, Repr

/-- The size of the values of a type, if they all have one. -/
def InnerMarker.size : InnerMarker → Option Nat
  | .I64 | .U64 | .F64 => some 8
  | .I32 | .U32 => some 4
  | .I16 | .U16 => some 2
  | .I8 | .U8 | .Bool => some 1
  | .String | .Object => none

/-- The type of a value or of a sequence of values. -/
structure Marker where
  innerMarker : InnerMarker
  isSeq : Bool
deriving DecidableEq, Repr

namespace Marker

def new (innerMarker : InnerMarker) : Marker := ⟨innerMarker, false⟩

/-- The marker of a sequence of values. The source asserts that the values are not sequences. -/
def intoSeq (marker : Marker) : Marker :=
  if marker.innerMarker = .U8 then ⟨.String, false⟩ else ⟨marker.innerMarker, true⟩

def innerAsU8 : InnerMarker → UInt8
  | .I64 => 1
  | .I32 => 2
  | .I16 => 3
  | .I8 => 4
  | .U64 => 5
  | .U32 => 6
  | .U16 => 7
  | .U8 => 8
  | .F64 => 9
  | .String => 10
  | .Bool => 11
  | .Object => 12

/-- The byte of a marker. -/
def asU8 (marker : Marker) : UInt8 :=
  if marker.isSeq then innerAsU8 marker.innerMarker ||| 0x80 else innerAsU8 marker.innerMarker

/-- The type of a byte. -/
def tryFromInner (value : UInt8) : Except Error InnerMarker :=
  match value.toNat with
  | 1 => .ok .I64
  | 2 => .ok .I32
  | 3 => .ok .I16
  | 4 => .ok .I8
  | 5 => .ok .U64
  | 6 => .ok .U32
  | 7 => .ok .U16
  | 8 => .ok .U8
  | 9 => .ok .F64
  | 10 => .ok .String
  | 11 => .ok .Bool
  | 12 => .ok .Object
  | _ => .error (.format "Unknown value Marker")

/-- The marker of a byte. -/
def tryFrom (value : UInt8) : Except Error Marker :=
  let isSeq : Bool := value &&& 0x80 > 0
  let value := if isSeq then value ^^^ 0x80 else value
  (tryFromInner value).map fun innerMarker => ⟨innerMarker, isSeq⟩

theorem tryFrom_asU8 (marker : Marker) : tryFrom marker.asU8 = .ok marker := by
  obtain ⟨innerMarker, isSeq⟩ := marker
  cases innerMarker <;> cases isSeq <;> rfl

theorem innerAsU8_of_tryFromInner {value : UInt8} {innerMarker : InnerMarker}
    (h : tryFromInner value = .ok innerMarker) : value = innerAsU8 innerMarker := by
  unfold tryFromInner at h
  apply UInt8.toNat_inj.mp
  split at h <;> cases h <;> assumption

theorem asU8_of_tryFrom {value : UInt8} {marker : Marker} (h : tryFrom value = .ok marker) :
    value = marker.asU8 := by
  obtain ⟨innerMarker, hinner, rfl⟩ := Collections.map_eq_ok.mp h
  have hvalue := innerAsU8_of_tryFromInner hinner
  by_cases hseq : value &&& 0x80 > 0
  · rw [if_pos (decide_eq_true hseq)] at hvalue
    have hback : value = innerAsU8 innerMarker ^^^ 0x80 := by
      rw [← hvalue, UInt8.xor_assoc, UInt8.xor_self, UInt8.xor_zero]
    have hbit : innerAsU8 innerMarker ^^^ 0x80 = innerAsU8 innerMarker ||| 0x80 :=
        by cases innerMarker <;> rfl
    rw [asU8, if_pos (decide_eq_true hseq), hback, hbit]
  · rw [if_neg (by simpa using hseq)] at hvalue
    rw [asU8, if_neg (by simpa using hseq), hvalue]

end Marker

def readMarker : Read Marker := do
  let value ← checkedReadU8
  .lift (Marker.tryFrom value)

theorem reads_readMarker {bytes : List UInt8} {marker : Marker} :
    readMarker.Reads bytes marker ↔ bytes = [marker.asU8] := by
  unfold readMarker checkedReadU8
  constructor
  · intro h
    obtain ⟨x₁, x₂, value, rfl, hvalue, hmarker⟩ := reads_bind.mp h
    obtain rfl := reads_next.mp hvalue
    obtain ⟨rfl, hok⟩ := reads_lift.mp hmarker
    rw [Marker.asU8_of_tryFrom hok, List.append_nil]
  · rintro rfl
    exact (reads_next.mpr rfl).bind_nil (reads_lift.mpr ⟨rfl, Marker.tryFrom_asU8 marker⟩)

/-- What every object starts with. -/
def HEADER : List UInt8 := [0x01, 0x11, 0x01, 0x01, 0x01, 0x01, 0x02, 0x01, 0x01]

/-- The maximum length a byte array (marked as a string) can be. -/
def MAX_STRING_LEN_POSSIBLE : Nat := 2000000000

def MAX_DEPTH_OF_SKIPPED_OBJECTS : Nat := 20

def MAX_NUM_FIELDS : Nat := 1000

/-- What builds a `T` from the format. -/
structure EpeeObjectBuilder (T : Type) where
  Builder : Type
  default : Builder
  /-- Called when the name of a field has been read. It returns whether the field was needed and has
  been read. -/
  addField : Builder → List UInt8 → Read (Builder × Bool)
  finish : Builder → Except Error T

/-- How an object is read and written. -/
structure EpeeObject (T : Type) extends EpeeObjectBuilder T where
  numberOfFields : T → Nat
  writeFields : T → List UInt8

/-- Reads the header. -/
def readHeader : Read Unit := do
  let buf ← checkedRead HEADER.length
  if buf = HEADER then pure () else .fail (.format "Data does not contain header")

def readFieldNameBytes : Read (List UInt8) := do
  let len ← checkedReadU8
  checkedRead len.toNat

/-- Reads the name of a field. -/
def readFieldName : Read (List UInt8) := do
  let fieldNameBytes ← readFieldNameBytes
  if isUtf8 fieldNameBytes then pure fieldNameBytes else .fail (.value "Invalid utf8 str")

variable {T : Type}

/-- One round of the loop of `read_object`. -/
def readField (skip : Read Unit) (o : EpeeObjectBuilder T) (objectBuilder : o.Builder) :
    Read o.Builder := do
  let fieldName ← readFieldName
  let added ← o.addField objectBuilder fieldName
  if added.2 then pure added.1
  else do
    skip
    pure added.1

/-- Reads the number of fields. -/
def readNumberOfFields : Read Nat := do
  let number ← readVarint U64_BOUND
  if number > MAX_NUM_FIELDS then
    .fail (.format "Data has object with more fields than the maximum allowed")
  else pure number

/-- Reads an object; `skip` skips the values of fields that are not needed. -/
def readObjectWith (skip : Read Unit) (o : EpeeObjectBuilder T) : Read T := do
  let number ← readNumberOfFields
  let objectBuilder ← iterate (readField skip o) number o.default
  .lift (o.finish objectBuilder)

/-! ## Skipping -/

def skipObject : EpeeObjectBuilder Unit where
  Builder := Unit
  default := ()
  addField _ _ := pure ((), false)
  finish _ := .ok ()

def advance (n : Nat) : Read Unit := do
  let _ ← checkedRead n
  pure ()

/-- One round of the loop of `skip_epee_value`. The types of a constant size do not get here. -/
def skipElement (skipInner : Read Unit) : InnerMarker → Read Unit
  | .String => do
    let len ← readVarint U64_BOUND
    advance len
  | .Object => skipInner
  | _ => pure ()

/-- The type and the number of the values that are skipped. The number is an `i32`, as no type is
written for it. -/
def readSkipped : Read (InnerMarker × Nat) := do
  let marker ← readMarker
  let len ← (if marker.isSeq then readVarint I32_BOUND else pure 1 : Read Nat)
  pure (marker.innerMarker, len)

/-- Skips a value; `skipInner` skips an object inside of it. -/
def skipValueWith (skipInner : Read Unit) : Read Unit := do
  let skipped ← readSkipped
  match skipped.1.size with
  | some size =>
    if U64_BOUND ≤ size * skipped.2 then .fail (.value "List is too big") else advance (size * skipped.2)
  | none => iterate (fun _ => skipElement skipInner skipped.1) skipped.2 ()

/-- Skips a value. The argument is how many objects may be nested in it: the maximum depth less
`skipped_objects`. -/
def skipEpeeValue : Nat → Read Unit
  | 0 => skipValueWith (.fail (.format "Depth of skipped objects exceeded maximum"))
  | allowed + 1 => skipValueWith (readObjectWith (skipEpeeValue allowed) skipObject)

/-- Reads an object inside of which no object is being skipped. -/
def readObject (o : EpeeObjectBuilder T) : Read T :=
  readObjectWith (skipEpeeValue MAX_DEPTH_OF_SKIPPED_OBJECTS) o

def readHeadObject (o : EpeeObjectBuilder T) : Read T := do
  readHeader
  readObject o

/-- Reads an object from bytes; what comes after it is left in the buffer. -/
def fromBytes (o : EpeeObjectBuilder T) (buf : List UInt8) : Except Error T :=
  ((readHeadObject o).run buf).map Prod.fst

def writeFieldName (name : List UInt8) : List UInt8 := UInt8.ofNat name.length :: name

/-- Writes an object without the header. -/
def writeObject (o : EpeeObject T) (val : T) : List UInt8 :=
  writeVarint (o.numberOfFields val) ++ o.writeFields val

/-- Writes an object with the header. -/
def toBytes (o : EpeeObject T) (val : T) : List UInt8 := HEADER ++ writeObject o val

end Cuprate.Epee
