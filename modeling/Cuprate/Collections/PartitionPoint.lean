import Mathlib.Tactic

/-!
# Partition points

The binary search of `slice::partition_point` in the standard library of Rust. On a list whose first
elements satisfy the predicate and whose other elements do not, it finds the place where the latter
start.
-/

namespace Cuprate.Collections

variable {α : Type} {p : α → Bool} {xs : List α}

/-- The search in the `size` places from `base` on. -/
def partitionPointFrom (p : α → Bool) (xs : List α) (base size : Nat) : Nat :=
  if size ≤ 1 then if xs[base]?.any p then base + 1 else base
  else
    let half := size / 2
    partitionPointFrom p xs (if xs[base + half]?.any p then base + half else base) (size - half)
termination_by size

def partitionPoint (p : α → Bool) (xs : List α) : Nat := partitionPointFrom p xs 0 xs.length

theorem partitionPointFrom_eq {k base size : Nat} (hp : ∀ i, xs[i]?.any p = decide (i < k))
    (hbase : base ≤ k)
    (hk : k ≤ base + size) : partitionPointFrom p xs base size = k := by
  induction size using Nat.strong_induction_on generalizing base with
  | _ size ih =>
    unfold partitionPointFrom
    by_cases hsize : size ≤ 1
    · simp only [if_pos hsize, hp, decide_eq_true_eq]
      split <;> omega
    · -- the half that is kept still has the point
      simp only [if_neg hsize, hp, decide_eq_true_eq]
      split
      · exact ih _ (by omega) (by omega) (by omega)
      · exact ih _ (by omega) hbase (by omega)

theorem partitionPoint_append {front back : List α} (hfront : ∀ x ∈ front, p x = true)
    (hback : ∀ x ∈ back, p x = false) : partitionPoint p (front ++ back) = front.length := by
  refine partitionPointFrom_eq (fun i => ?_) (Nat.zero_le _) (by simp)
  by_cases hi : i < front.length
  · rw [List.getElem?_append_left hi, List.getElem?_eq_getElem hi, Option.any_some,
      hfront _ (List.getElem_mem hi), decide_eq_true hi]
  · rw [List.getElem?_append_right (Nat.not_lt.mp hi), decide_eq_false hi]
    cases hx : back[i - front.length]? with
    | none => rfl
    | some x => exact hback x (List.mem_of_getElem? hx)

end Cuprate.Collections
