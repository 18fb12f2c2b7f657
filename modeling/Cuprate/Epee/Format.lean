import Cuprate.Epee.Object

/-!
# The epee format

Which bytes are a value of the format: a marker, and then a scalar, a string, an object, or a
sequence of one of them. Values are nested up to a depth, and sequences are shorter than a bound.
-/

namespace Cuprate.Epee

open Cuprate.Stream

section

variable (seqBound : Nat)

mutual

/-- The bytes of a value of a type without its marker, with objects nested at most `depth` deep. -/
inductive IsBody : InnerMarker → Nat → List UInt8 → Prop where
  | scalar {innerMarker : InnerMarker} {depth : Nat} {bytes : List UInt8}
      (hsize : innerMarker.size = some bytes.length) : IsBody innerMarker depth bytes
  | string {depth : Nat} {len bytes : List UInt8} (hlen : IsVarint bytes.length len) :
      IsBody .String depth (len ++ bytes)
  | object {depth number : Nat} {count bytes : List UInt8} (hcount : IsVarint number count)
      (hle : number ≤ MAX_NUM_FIELDS) (hfields : IsFields depth number bytes) :
      IsBody .Object (depth + 1) (count ++ bytes)

/-- The bytes of values of one type, one after another. -/
inductive IsBodies : InnerMarker → Nat → Nat → List UInt8 → Prop where
  | nil {innerMarker : InnerMarker} {depth : Nat} : IsBodies innerMarker depth 0 []
  | cons {innerMarker : InnerMarker} {depth number : Nat} {bytes rest : List UInt8}
      (hbody : IsBody innerMarker depth bytes) (hrest : IsBodies innerMarker depth number rest) :
      IsBodies innerMarker depth (number + 1) (bytes ++ rest)

/-- The bytes of fields: for each one the length of its name, its name and its value. -/
inductive IsFields : Nat → Nat → List UInt8 → Prop where
  | nil {depth : Nat} : IsFields depth 0 []
  | cons {depth number : Nat} {name value rest : List UInt8} (hlen : name.length < 256)
      (hname : isUtf8 name = true) (hvalue : IsValue depth value) (hrest : IsFields depth number rest) :
      IsFields depth (number + 1) (writeFieldName name ++ value ++ rest)

/-- The bytes of a value with its marker. -/
inductive IsValue : Nat → List UInt8 → Prop where
  | one {innerMarker : InnerMarker} {depth : Nat} {bytes : List UInt8}
      (hbody : IsBody innerMarker depth bytes) :
      IsValue depth ((Marker.new innerMarker).asU8 :: bytes)
  | seq {innerMarker : InnerMarker} {depth number : Nat} {count bytes : List UInt8}
      (hcount : IsVarint number count) (hlt : number < seqBound)
      (hbodies : IsBodies innerMarker depth number bytes) :
      IsValue depth (Marker.asU8 ⟨innerMarker, true⟩ :: (count ++ bytes))

end

end

end Cuprate.Epee
