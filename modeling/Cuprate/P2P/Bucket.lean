import Cuprate.Collections.IndexMap

/-!
# Buckets

Items in one array of at most `N` for each discriminant (`p2p/bucket/src/lib.rs`). The random
numbers that the source draws are arguments.
-/

namespace Cuprate.P2P

open Collections

/-- Items with a key that they are grouped by. -/
class Bucketable (I : Type) (Discriminant : outParam Type) where
  discriminant : I → Discriminant

/-- The panics of `get_random`. -/
inductive BucketPanic where
  | divisionByZero
  /-- The `unwrap` of a sub-bucket that does not exist. -/
  | noBucket
deriving DecidableEq

/-- Items in arrays of at most `N`, by their keys. -/
structure Bucket (N : Nat) (I D : Type) [Ord D] [Std.TransOrd D] where
  storage : Std.TreeMap D (List I)
  within : ∀ (d : D) (vec : List I), storage[d]? = some vec → vec.length ≤ N

namespace Bucket

variable {N : Nat} [NeZero N] {I D : Type} [Ord D] [Std.TransOrd D] [DecidableEq I] [Bucketable I D]

open Bucketable

def new : Bucket N I D := ⟨∅, fun d vec hvec => by simp at hvec⟩

def insert (b : Bucket N I D) (d : D) (vec : List I) (hvec : vec.length ≤ N) : Bucket N I D where
  storage := b.storage.insert d vec
  within d' vec' hlookup := by
    rw [Std.TreeMap.getElem?_insert] at hlookup
    split at hlookup
    · exact Option.some.inj hlookup ▸ hvec
    · exact b.within d' vec' hlookup

/-- Returns the item if its array is full. -/
def push (b : Bucket N I D) (item : I) : Option I × Bucket N I D :=
  match b.storage[discriminant item]? with
  | some vec =>
    if item ∈ vec then (none, b)
    else if hlt : vec.length < N then (none, b.insert (discriminant item) (vec ++ [item])
      (by simpa using hlt))
    else (some item, b)
  | none => (none, b.insert (discriminant item) [item] NeZero.one_le)

/-- An array that becomes empty stays. -/
def remove (b : Bucket N I D) (item : I) : Option I × Bucket N I D :=
  match hvec : b.storage[discriminant item]? with
  | some vec =>
    if hmem : item ∈ vec then
      (some item, b.insert (discriminant item) (swapRemove vec (vec.idxOf item)) <| by
        have hperm := (swapRemove_perm vec (List.idxOf_lt_length_of_mem hmem)).length_eq
        rw [List.length_cons] at hperm
        have hle := b.within _ _ hvec
        omega)
    else (none, b)
  | none => (none, b)

def checkedDiv (a b : Nat) :
    Except BucketPanic Nat := if b = 0 then .error .divisionByZero else .ok (a / b)

/-- The item that two random numbers choose. -/
def getRandom (b : Bucket N I D) (bucketDraw itemDraw : UInt64) : Except BucketPanic (Option I) := do
  match b.storage.toList[← checkedDiv bucketDraw.toNat b.storage.size]? with
  | none => .error .noBucket
  | some (_, vec) => .ok vec[← checkedDiv itemDraw.toNat vec.length]?

end Bucket

end Cuprate.P2P
