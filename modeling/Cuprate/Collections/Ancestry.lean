import Mathlib.Tactic

/-!
# Chains of a tree

Nodes of a tree that know the path from the root to them. A branch is a list of nodes each of which
has the part of the list up to it as its path; two branches agree up to the last node they share.
-/

namespace Cuprate.Collections

open List

variable {H : Type*}

/-- The path from the root to each node, the node included. A node that is not known has no path. -/
structure Ancestry (H : Type*) where
  chain : H → List H
  chain_eq : ∀ x i y, (chain x)[i]? = some y → chain y = (chain x).take (i + 1)

/-- Each node of the list has the list up to it as its path. -/
def Ancestry.IsBranch (A : Ancestry H) (l : List H) : Prop :=
  ∀ i y, l[i]? = some y → A.chain y = l.take (i + 1)

namespace Ancestry

variable {A : Ancestry H} {l l' : List H}

theorem isBranch_chain (A : Ancestry H) (x : H) : A.IsBranch (A.chain x) := A.chain_eq x

theorem isBranch_nil (A : Ancestry H) : A.IsBranch [] := by
  intro i y h
  cases h

theorem isBranch_of_chain_eq {x : H} (h : A.chain x = l) : A.IsBranch l := h ▸ A.isBranch_chain x

theorem IsBranch.take (h : A.IsBranch l) (n : Nat) : A.IsBranch (l.take n) := by
  intro i y hy
  rw [getElem?_take] at hy
  split at hy
  · next hlt => rw [h i y hy, take_take, Nat.min_eq_left hlt]
  · cases hy

theorem IsBranch.index_unique (h : A.IsBranch l) (h' : A.IsBranch l')
    {i j : Nat} {x : H} (hx : l[i]? = some x)
    (hx' : l'[j]? = some x) : i = j := by
  obtain ⟨hi, -⟩ := List.getElem?_eq_some_iff.mp hx
  obtain ⟨hj, -⟩ := List.getElem?_eq_some_iff.mp hx'
  have heq := congrArg List.length ((h i x hx).symm.trans (h' j x hx'))
  rw [length_take, length_take] at heq
  omega

end Ancestry

variable [DecidableEq H]

/-- The tree with the nodes of a list only, each above the one before it. -/
def Ancestry.ofNodup (l : List H) (hnodup : l.Nodup) : Ancestry H where
  chain x := if x ∈ l then l.take (l.idxOf x + 1) else []
  chain_eq := by
    intro x i y hy
    split at hy
    · next hx =>
      rw [getElem?_take] at hy
      split at hy
      · obtain ⟨hi, rfl⟩ := List.getElem?_eq_some_iff.mp hy
        rw [if_pos (getElem_mem hi), if_pos hx, hnodup.idxOf_getElem, take_take,
          Nat.min_eq_left (by omega)]
      · cases hy
    · cases hy

theorem Ancestry.isBranch_ofNodup {l : List H} (hnodup : l.Nodup) :
    (Ancestry.ofNodup l hnodup).IsBranch l := by
  intro i y hy
  obtain ⟨hi, rfl⟩ := List.getElem?_eq_some_iff.mp hy
  unfold ofNodup
  simp only [if_pos (getElem_mem hi), hnodup.idxOf_getElem]

/-- How many elements the lists have in common at their beginning. -/
def commonLength : List H → List H → Nat
  | a :: l, b :: l' => if a = b then commonLength l l' + 1 else 0
  | _, _ => 0

theorem getElem?_eq_of_lt_commonLength {l l' : List H} {i : Nat} (h : i < commonLength l l') :
    l[i]? = l'[i]? := by
  induction l generalizing l' i with
  | nil => cases h
  | cons a l ih =>
    cases l' with
    | nil => cases h
    | cons b l' =>
      unfold commonLength at h
      split at h
      · next heq =>
        cases i with
        | zero => exact congrArg some heq
        | succ i => exact ih (Nat.lt_of_succ_lt_succ h)
      · cases h

theorem lt_commonLength_of_take_eq {l l' : List H} {i : Nat} (hi : i < l.length)
    (h : l.take (i + 1) = l'.take (i + 1)) : i < commonLength l l' := by
  induction l generalizing l' i with
  | nil => cases hi
  | cons a l ih =>
    cases l' with
    | nil => cases h
    | cons b l' =>
      rw [take_succ_cons, take_succ_cons] at h
      obtain ⟨hab, h⟩ := List.cons.inj h
      unfold commonLength
      rw [if_pos hab]
      cases i with
      | zero => exact Nat.succ_pos _
      | succ i => exact Nat.succ_lt_succ (ih (Nat.lt_of_succ_lt_succ hi) h)

theorem Ancestry.IsBranch.getElem?_eq_iff {A : Ancestry H} {l l' : List H} (h : A.IsBranch l)
    (h' : A.IsBranch l')
    {i : Nat} (hi : i < l.length) :
    l'[i]? = l[i]? ↔ i < commonLength l l' := by
  constructor
  · intro heq
    have hx := getElem?_eq_getElem hi
    exact lt_commonLength_of_take_eq hi ((h _ _ hx).symm.trans (h' _ _ (heq.trans hx)))
  · exact fun hlt => (getElem?_eq_of_lt_commonLength hlt).symm

end Cuprate.Collections
