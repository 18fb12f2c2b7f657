import Mathlib.Tactic

/-!
# Following a chain

A follower keeps a summary of a growing list: it takes new elements one at a time, and when elements
are removed from the end it rebuilds what it has lost from a copy of the remaining list. A faithful
follower always holds what reading the list from scratch gives.
-/

namespace Cuprate.Collections

open Option

variable {α β : Type*}

structure Follower (α β : Type*) where
  read : List α → Option β
  /-- The next element, with its index. -/
  push : β → Nat → α → Option β
  /-- Removes the last elements, given a list that still has the others. -/
  pop : β → Nat → List α → Option β

namespace Follower

/-- The summaries a follower can hold of a list. -/
inductive Run (f : Follower α β) : List α → β → Prop where
  | read {chain c} : chain ≠ [] → f.read chain = some c → Run f chain c
  | push {chain c c' a} : Run f chain c → f.push c chain.length a = some c' → Run f (chain ++ [a]) c'
  | pop {chain c c' n source} : Run f chain c → n < chain.length →
      source.take (chain.length - n) = chain.take (chain.length - n) → f.pop c n source = some c' →
      Run f (chain.take (chain.length - n)) c'

/-- Every operation gives what reading the new list gives. -/
structure Faithful (f : Follower α β) : Prop where
  total : ∀ chain, chain ≠ [] → ∃ c, f.read chain = some c
  push : ∀ {chain c} a, chain ≠ [] → f.read chain = some c →
    f.push c chain.length a = f.read (chain ++ [a])
  pop : ∀ {chain c n source}, f.read chain = some c → n < chain.length →
    source.take (chain.length - n) = chain.take (chain.length - n) →
    f.pop c n source = f.read (chain.take (chain.length - n))

namespace Faithful

variable {f : Follower α β} {chain : List α} {c c' : β}

theorem of_value {value : List α → β} (hread : ∀ chain, f.read chain = some (value chain))
    (hpush : ∀ {chain} a, chain ≠ [] → f.push (value chain) chain.length a = some (value (chain ++ [a])))
    (hpop : ∀ {chain n source}, n < chain.length →
      source.take (chain.length - n) = chain.take (chain.length - n) →
      f.pop (value chain) n source = some (value (chain.take (chain.length - n)))) : f.Faithful where
  total chain _ := ⟨_, hread chain⟩
  push := by
    intro chain c a hne h
    obtain rfl := some.inj ((hread chain).symm.trans h)
    rw [hpush a hne, hread]
  pop := by
    intro chain c n source h hn hsource
    obtain rfl := some.inj ((hread chain).symm.trans h)
    rw [hpop hn hsource, hread]

theorem run (h : f.Faithful) (hrun : f.Run chain c) : chain ≠ [] ∧ f.read chain = some c := by
  induction hrun with
  | read hne hread => exact ⟨hne, hread⟩
  | push _ hpush ih =>
    refine ⟨by simp, ?_⟩
    rw [← h.push _ ih.1 ih.2, hpush]
  | @pop chain c c' n source _ hn hsource hpop ih =>
    refine ⟨?_, ?_⟩
    · rw [← List.length_pos_iff, List.length_take]
      omega
    · rw [← h.pop ih.2 hn hsource, hpop]

theorem unique (h : f.Faithful) (hrun : f.Run chain c) (hrun' : f.Run chain c') : c' = c := by
  have hread := (h.run hrun).2
  rw [(h.run hrun').2] at hread
  exact some.inj hread

theorem exists_push (h : f.Faithful) (hrun : f.Run chain c) (a : α) :
    ∃ c', f.push c chain.length a = some c' := by
  obtain ⟨hne, hread⟩ := h.run hrun
  rw [h.push a hne hread]
  exact h.total _ (by simp)

theorem exists_pop (h : f.Faithful) (hrun : f.Run chain c) {n : Nat} (hn : n < chain.length)
    {source : List α}
    (hsource : source.take (chain.length - n) = chain.take (chain.length - n)) :
    ∃ c', f.pop c n source = some c' := by
  rw [h.pop (h.run hrun).2 hn hsource]
  refine h.total _ ?_
  rw [← List.length_pos_iff, List.length_take]
  omega

end Faithful

end Follower

end Cuprate.Collections
