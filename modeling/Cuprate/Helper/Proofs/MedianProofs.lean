import Cuprate.Helper.Num

/-!
# What the median is

`median` of a sorted list of `u64` numbers is the median of these numbers: the average of the two in
the middle is calculated without leaving the range.
-/

namespace Cuprate.Helper

open List Option UInt64

/-- The median: the average of the two numbers in the middle, rounded down. For an odd amount of
numbers these are the same one. -/
def medianOf (l : List Nat) : Nat :=
  let sorted := l.insertionSort (· ≤ ·)
  (sorted.getD ((l.length - 1) / 2) 0 + sorted.getD (l.length / 2) 0) / 2

theorem getMid_toNat (a b : UInt64) : (getMid a b).toNat = (a.toNat + b.toNat) / 2 := by
  have ha := a.toNat_lt
  have hb := b.toNat_lt
  have hhalf : ∀ x : UInt64, (x - 2 * (x / 2)).toNat = x.toNat % 2 := by
    intro x
    have hx := x.toNat_lt
    have htwice : (2 * (x / 2)).toNat = 2 * (x.toNat / 2) := by
      rw [UInt64.toNat_mul, UInt64.toNat_div]
      exact Nat.mod_eq_of_lt (by simp only [UInt64.reduceToNat]; omega)
    rw [UInt64.toNat_sub_of_le _ _ (UInt64.le_iff_toNat_le.mpr (by omega)), htwice]
    omega
  unfold getMid
  rw [UInt64.toNat_add, UInt64.toNat_add, UInt64.toNat_div, UInt64.toNat_div, UInt64.toNat_div,
    UInt64.toNat_add, hhalf, hhalf]
  simp only [UInt64.reduceToNat]
  omega

theorem map_toNat_insertionSort (l : List UInt64) :
    (l.insertionSort (· ≤ ·)).map toNat = (l.map toNat).insertionSort (· ≤ ·) :=
  map_insertionSort _ _ _ _ fun _ _ _ _ => le_iff_toNat_le

/-- The median of a sorted slice is made of the two items in the middle, which are the same one if
their number is odd. -/
theorem median_eq_some {α : Type} [Add α] [Sub α] [Mul α] [Div α] [OfNat α 2]
    {sorted : List α} (hne : sorted ≠ []) :
    ∃ a b, sorted[(sorted.length - 1) / 2]? = some a ∧ sorted[sorted.length / 2]? = some b ∧
      median sorted = some (if sorted.length % 2 = 0 then getMid a b else a) := by
  have hpos := length_pos_iff.mpr hne
  have hlow : (sorted.length - 1) / 2 < sorted.length := by omega
  have hhigh : sorted.length / 2 < sorted.length := by omega
  refine ⟨_, _, getElem?_eq_getElem hlow, getElem?_eq_getElem hhigh, ?_⟩
  unfold median
  by_cases heven : sorted.length % 2 = 0
  · have hmid : sorted.length / 2 - 1 = (sorted.length - 1) / 2 := by omega
    simp only [if_neg (show sorted.length ≠ 1 by omega), if_pos heven, hmid, getElem?_eq_getElem hlow,
      getElem?_eq_getElem hhigh, bind_some, map_some]
  · have hmid : sorted.length / 2 = (sorted.length - 1) / 2 := by omega
    simp only [if_neg heven, hmid, getElem?_eq_getElem hlow]
    by_cases hone : sorted.length = 1
    · simp only [hone, Nat.sub_self, Nat.zero_div, getElem?_eq_getElem hpos, ite_self]
    · rw [if_neg hone]

/-- The code computes the median. -/
theorem median_insertionSort {l : List UInt64} (hne : l ≠ []) :
    ∃ m, median (l.insertionSort (· ≤ ·)) = some m ∧ m.toNat = medianOf (l.map toNat) := by
  have hsorted : l.insertionSort (· ≤ ·) ≠ [] := by
    rw [← length_pos_iff, length_insertionSort]
    exact length_pos_iff.mpr hne
  obtain ⟨a, b, ha, hb, hmedian⟩ := median_eq_some hsorted
  refine ⟨_, hmedian, ?_⟩
  unfold medianOf
  rw [← map_toNat_insertionSort, length_map, ← length_insertionSort (· ≤ ·) l]
  simp only [getD_eq_getElem?_getD, getElem?_map, ha, hb, map_some, getD_some]
  by_cases heven : (l.insertionSort (· ≤ ·)).length % 2 = 0
  · rw [if_pos heven, getMid_toNat]
  · -- an odd number of items: both are the one in the middle
    rw [show (l.insertionSort (· ≤ ·)).length / 2 =
      ((l.insertionSort (· ≤ ·)).length - 1) / 2 by omega, ha] at hb
    cases hb
    rw [if_neg heven]
    omega

theorem medianOf_mem_Icc {l : List Nat} (hne : l ≠ []) {lo hi : Nat} (h : ∀ t ∈ l, lo ≤ t ∧ t ≤ hi) :
    lo ≤ medianOf l ∧ medianOf l ≤ hi := by
  have hpos := length_pos_iff.mpr hne
  have hget : ∀ i, i < l.length → lo ≤ (l.insertionSort (· ≤ ·)).getD i 0 ∧
      (l.insertionSort (· ≤ ·)).getD i 0 ≤ hi := by
    intro i hi
    rw [getD_eq_getElem?_getD, getElem?_eq_getElem (by rwa [length_insertionSort])]
    exact h _ ((mem_insertionSort _).mp (getElem_mem _))
  have hlow := hget ((l.length - 1) / 2) (by omega)
  have hhigh := hget (l.length / 2) (by omega)
  unfold medianOf
  dsimp only
  omega

end Cuprate.Helper
