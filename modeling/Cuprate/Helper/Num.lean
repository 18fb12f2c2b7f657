import Mathlib.Data.List.Sort
import Mathlib.Tactic
import Cuprate.Types.Transaction

/-!
# Medians and fees

`get_mid` and `median` (`helper/src/num.rs`), the rolling median
(`helper/src/num/rolling_median.rs`) and `tx_fee` (`helper/src/tx.rs`). A panic is `none`.
-/

namespace Cuprate.Helper

section Median

variable {α : Type} [Add α] [Sub α] [Mul α] [Div α] [OfNat α 2]

/-- The average of two numbers, with no intermediate overflow. -/
def getMid (a b : α) : α := a / 2 + b / 2 + ((a - 2 * (a / 2)) + (b - 2 * (b / 2))) / 2

/-- The median of a sorted slice. An empty one is indexed out of range. -/
def median (array : List α) : Option α :=
  let mid := array.length / 2
  if array.length = 1 then array[0]?
  else if array.length % 2 = 0 then
    (array[mid - 1]?).bind fun a => (array[mid]?).map fun b => getMid a b
  else array[mid]?

end Median

/-- A window of items, in the order they were inserted and sorted. -/
structure RollingMedian (α : Type) where
  window : List α
  sortedWindow : List α
  targetWindow : Nat
deriving DecidableEq, Repr

namespace RollingMedian

variable {α : Type} [DecidableEq α] [LE α] [DecidableLE α]

def new (targetWindow : Nat) : RollingMedian α := ⟨[], [], targetWindow⟩

/-- The median of a list that fits the window. -/
def fromVec (vec : List α) (targetWindow : Nat) : Option (RollingMedian α) :=
  if vec.length ≤ targetWindow then some ⟨vec, vec.insertionSort (· ≤ ·), targetWindow⟩ else none

/-- Removes an item that is expected to be in the sorted window. -/
def removeSorted (r : RollingMedian α) (item : α) : Option (RollingMedian α) :=
  if item ∈ r.sortedWindow then some { r with sortedWindow := r.sortedWindow.erase item } else none

/-- Removes the oldest item. -/
def popFront (r : RollingMedian α) : Option (RollingMedian α) :=
  match r.window with
  | [] => some r
  | item :: window => { r with window := window }.removeSorted item

/-- Removes the newest item. -/
def popBack (r : RollingMedian α) : Option (RollingMedian α) :=
  match r.window.getLast? with
  | none => some r
  | some item => { r with window := r.window.dropLast }.removeSorted item

/-- Puts an item at its place of the sorted window; where equal items stand makes no difference. -/
def insertSorted (r : RollingMedian α) (item : α) : RollingMedian α :=
  { r with sortedWindow := r.sortedWindow.orderedInsert (· ≤ ·) item }

/-- Pushes an item to the back of the window; the oldest one falls out of a full window. -/
def push (r : RollingMedian α) (item : α) : Option (RollingMedian α) :=
  (if r.targetWindow ≤ r.window.length then r.popFront else some r).map fun r =>
    { r with window := r.window ++ [item] }.insertSorted item

/-- Puts an item before the oldest one; the youngest one falls out if there are then too many. -/
def pushFront (r : RollingMedian α) (item : α) : Option (RollingMedian α) :=
  let r := { r with window := item :: r.window }.insertSorted item
  if r.targetWindow < r.window.length then r.popBack else some r

/-- Puts older items back. -/
def appendFront (r : RollingMedian α) (items : List α) : Option (RollingMedian α) :=
  items.reverse.foldlM pushFront r

def median [Add α] [Sub α] [Mul α] [Div α] [OfNat α 2] (r : RollingMedian α) : Option α :=
  Helper.median r.sortedWindow

/-- The operations on a rolling median. -/
inductive Op (α : Type) where
  | push (item : α)
  | popFront
  | popBack
  | appendFront (items : List α)

def Op.run (r : RollingMedian α) : Op α → Option (RollingMedian α)
  | push item => r.push item
  | popFront => r.popFront
  | popBack => r.popBack
  | appendFront items => r.appendFront items

end RollingMedian

def checkedAdd (a b : UInt64) : Option UInt64 := if a.toNat + b.toNat < 2 ^ 64 then some (a + b) else none

def checkedSub (a b : UInt64) : Option UInt64 := if a < b then none else some (a - b)

/-- The loops over the inputs and the outputs of a version 1 transaction. At a miner input the
function returns. -/
def feeFrom (outputs : List Output) : UInt64 → List Input → Option UInt64
  | fee, [] => outputs.foldlM (fun fee output => checkedSub fee (output.amount.getD 0)) fee
  | _, .gen _ :: _ => some 0
  | fee, .toKey amount _ _ :: inputs => do
    let fee ← checkedAdd fee (amount.getD 0)
    feeFrom outputs fee inputs

/-- The fee of a transaction. It panics for a transaction that is not valid. -/
def txFee : Transaction → Option UInt64
  | .v1 txPrefix _ => feeFrom txPrefix.outputs 0 txPrefix.inputs
  | .v2 _ proofs => proofs.map fun proofs => proofs.base.fee

end Cuprate.Helper
