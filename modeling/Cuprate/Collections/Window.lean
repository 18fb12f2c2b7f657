import Mathlib.Data.List.DropRight
import Mathlib.Tactic

/-!
# Sliding windows

A window keeps the last `w` elements of a growing list: new elements enter at the back, and the
oldest one leaves at the front as soon as there are too many. `List.rtake w l` is what the window
then holds.
-/

namespace Cuprate.Collections

open List

variable {α : Type*}

/-- Appends an element and drops the oldest one if the window is then too long. -/
def pushWindow (w : Nat) (l : List α) (a : α) : List α :=
  if w < (l ++ [a]).length then (l ++ [a]).tail else l ++ [a]

theorem length_rtake (w : Nat) (l : List α) : (l.rtake w).length = min w l.length := by
  rw [List.rtake, length_drop]
  omega

theorem rtake_of_length_le {w : Nat} {l : List α} (h : l.length ≤ w) : l.rtake w = l := by
  rw [List.rtake, Nat.sub_eq_zero_of_le h, drop_zero]

theorem pushWindow_rtake (w : Nat) (l : List α) (a : α) :
    pushWindow w (l.rtake w) a = (l ++ [a]).rtake w := by
  have hlen := length_rtake w l
  unfold pushWindow
  rw [length_append, length_singleton]
  split
  · -- the window was full, so `l` has at least `w` elements
    have hl : w ≤ l.length := by omega
    rw [← drop_one, List.rtake, List.rtake, length_append, length_singleton,
      ← drop_append_of_le_length (by omega), drop_drop]
    congr 1
    omega
  · have hl : l.length < w := by omega
    rw [rtake_of_length_le (by omega), rtake_of_length_le (by simp; omega)]

theorem foldl_pushWindow (w : Nat) (l l' : List α) :
    l'.foldl (pushWindow w) (l.rtake w) = (l ++ l').rtake w := by
  induction l' generalizing l with
  | nil => simp
  | cons a l' ih => rw [foldl_cons, pushWindow_rtake, ih, append_assoc, singleton_append]

theorem foldl_pushWindow_nil (w : Nat) (l : List α) : l.foldl (pushWindow w) [] = l.rtake w := by
  have h := foldl_pushWindow w [] l
  rwa [rtake_nil, nil_append] at h

theorem take_drop_append (l : List α) {i j k : Nat} (hij : i ≤ j) (hjk : j ≤ k) :
    (l.take j).drop i ++ (l.take k).drop j = (l.take k).drop i := by
  have htake : l.take j = (l.take k).take j := by rw [take_take, min_eq_left hjk]
  have hdrop : (l.take k).drop j = ((l.take k).drop i).drop (j - i) := by
    rw [drop_drop]
    congr 1
    omega
  rw [htake, drop_take, hdrop, take_append_drop]

theorem rtake_take_drop (l : List α) {i j w : Nat} (hj : j ≤ l.length) :
    ((l.take j).drop i).rtake w = (l.take j).drop (max i (j - w)) := by
  rw [List.rtake, drop_drop, length_drop, length_take]
  congr 1
  omega

theorem refill_rtake (l : List α) (w n : Nat) :
    (l.take (min (l.length - (l.rtake w).length) (l.length - n))).drop (l.length - (w + n)) ++
        (l.rtake w).take ((l.rtake w).length - n) = (l.take (l.length - n)).rtake w := by
  have hlen := length_rtake w l
  have hright : (l.take (l.length - n)).rtake w = (l.take (l.length - n)).drop (l.length - (w + n)) := by
    rw [List.rtake, length_take]
    congr 1
    omega
  rw [hright]
  by_cases hn : n ≤ (l.rtake w).length
  · have hkept : (l.rtake w).take ((l.rtake w).length - n) =
        (l.take (l.length - n)).drop (l.length - (l.rtake w).length) := by
      rw [hlen, List.rtake, drop_take]
      congr 1
      · omega
      · congr 1
        omega
    rw [hkept, min_eq_left (by omega)]
    exact take_drop_append l (by omega) (by omega)
  · rw [min_eq_right (by omega), Nat.sub_eq_zero_of_le (by omega : (l.rtake w).length ≤ n),
      take_zero, append_nil]

end Cuprate.Collections
