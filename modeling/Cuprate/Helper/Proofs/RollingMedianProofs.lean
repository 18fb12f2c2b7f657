import Cuprate.Collections.Window
import Cuprate.Helper.Proofs.MedianProofs

/-!
# The rolling median

A rolling median is determined by its window: the sorted copy is the window, sorted. Each operation
keeps the two in step.
-/

namespace Cuprate.Helper.RollingMedian

open Collections List Option Op

variable {α : Type} [LinearOrder α]

def ofList (targetWindow : Nat) (window : List α) : RollingMedian α where
  window := window
  sortedWindow := window.insertionSort (· ≤ ·)
  targetWindow := targetWindow

variable {l : List α} {w : Nat}

@[simp] theorem ofList_window (targetWindow : Nat) (window : List α) :
    (ofList targetWindow window).window = window := rfl

theorem insertionSort_congr {l' : List α} (h : l.Perm l') :
    l.insertionSort (· ≤ ·) = l'.insertionSort (· ≤ ·) := by
  have hperm : (l.insertionSort (· ≤ ·)).Perm (l'.insertionSort (· ≤ ·)) :=
    (perm_insertionSort _ l).trans (h.trans (perm_insertionSort _ l').symm)
  exact hperm.eq_of_pairwise' (pairwise_insertionSort _ l) (pairwise_insertionSort _ l')

theorem fromVec_eq (h : l.length ≤ w) : fromVec l w = some (ofList w l) := if_pos h

theorem removeSorted_eq {l' : List α} {a : α} (h : l'.Perm (a :: l)) :
    removeSorted ⟨l, l'.insertionSort (· ≤ ·), w⟩ a = some (ofList w l) := by
  have hsort : l'.insertionSort (· ≤ ·) = (l.insertionSort (· ≤ ·)).orderedInsert (· ≤ ·) a := by
    rw [insertionSort_congr h, insertionSort_cons]
  unfold removeSorted
  rw [hsort, if_pos (by simp), erase_orderedInsert]
  rfl

theorem popFront_ofList (w : Nat) (a : α) (l : List α) :
    (ofList w (a :: l)).popFront = some (ofList w l) :=
  removeSorted_eq (List.Perm.refl _)

theorem popBack_ofList (w : Nat) (l : List α) : (ofList w l).popBack = some (ofList w l.dropLast) := by
  rcases eq_nil_or_concat' l with rfl | ⟨l, a, rfl⟩
  · rfl
  · unfold popBack
    simp only [ofList, getLast?_concat, dropLast_concat]
    exact removeSorted_eq (perm_append_singleton a l)

theorem push_ofList (hpos : 1 ≤ w) (hlen : l.length ≤ w) (a : α) :
    (ofList w l).push a = some (ofList w (pushWindow w l a)) := by
  have hinsert (l : List α) :
      ({ ofList w l with window := l ++ [a] }.insertSorted a) = ofList w (l ++ [a]) := by
    simp only [insertSorted, ofList]
    rw [insertionSort_congr (perm_append_singleton a l), insertionSort_cons]
  unfold push pushWindow
  rw [length_append, length_singleton]
  by_cases hfull : (ofList w l).targetWindow ≤ (ofList w l).window.length
  · have hfull' : w ≤ l.length := hfull
    rw [if_pos hfull, if_pos (by omega)]
    cases l with
    | nil =>
      rw [length_nil] at hfull'
      omega
    | cons b l =>
      rw [popFront_ofList, map_some, cons_append, tail_cons]
      exact congrArg some (hinsert l)
  · have hfull' : ¬ w ≤ l.length := hfull
    rw [if_neg hfull, if_neg (by omega)]
    exact congrArg some (hinsert l)

theorem pushFront_ofList (hlen : l.length ≤ w) (a : α) :
    (ofList w l).pushFront a = some (ofList w ((a :: l).take w)) := by
  have hinsert : { ofList w l with window := a :: l }.insertSorted a = ofList w (a :: l) := by
    simp only [insertSorted, ofList, insertionSort_cons]
  unfold pushFront
  simp only [show (ofList w l).window = l from rfl, hinsert]
  by_cases hfull : w < (a :: l).length
  · have hdrop : (a :: l).dropLast = (a :: l).take w := by
      rw [dropLast_eq_take]
      congr 1
      rw [length_cons] at hfull ⊢
      omega
    rw [← hdrop, ← popBack_ofList]
    exact if_pos hfull
  · rw [take_of_length_le (not_lt.mp hfull)]
    exact if_neg hfull

theorem appendFront_ofList (hlen : l.length ≤ w) (items : List α) :
    (ofList w l).appendFront items = some (ofList w ((items ++ l).take w)) := by
  induction items with
  | nil => rw [nil_append, take_of_length_le hlen]; rfl
  | cons a items ih =>
    have hfront : (ofList w l).appendFront (a :: items) =
        ((ofList w l).appendFront items).bind fun r => r.pushFront a := by
      simp [appendFront, foldlM_append]
    have htake : (a :: (items ++ l).take w).take w = (a :: (items ++ l)).take w := by
      cases w with
      | zero => rfl
      | succ w => rw [take_succ_cons, take_succ_cons, take_take, min_eq_left (Nat.le_succ w)]
    rw [hfront, ih, bind_some, pushFront_ofList (length_take_le _ _), htake, cons_append]

end Cuprate.Helper.RollingMedian
