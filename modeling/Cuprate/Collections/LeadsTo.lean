import Mathlib.Tactic

/-!
# Executions and what they lead to

An execution is an infinite sequence of states in which each state is reached from the one before by
a step or is equal to it. `LeadsTo` says that whenever one property holds, another holds then or
later.
-/

namespace Cuprate.Collections

open List

/-- An infinite run with pauses: `events n` takes state `n` to state `n + 1`, or nothing happens. -/
def Execution {σ ε : Type*} (Step : σ → ε → σ → Prop) (states : Nat → σ) (events : Nat → Option ε) :
    Prop :=
  ∀ n, match events n with
    | some e => Step (states n) e (states (n + 1))
    | none => states (n + 1) = states n

/-- Whenever `P` holds, `Q` holds then or later. -/
def LeadsTo {σ : Type*} (states : Nat → σ) (P Q : σ → Prop) : Prop :=
  ∀ n, P (states n) → ∃ m, n ≤ m ∧ Q (states m)

variable {σ ε : Type*} {Step : σ → ε → σ → Prop} {states : Nat → σ} {events : Nat → Option ε}

namespace Execution

theorem invariant (hrun : Execution Step states events) {Inv : σ → Prop} (hstart : Inv (states 0))
    (hkeep : ∀ n e, events n = some e → Step (states n) e (states (n + 1)) → Inv (states n) →
      Inv (states (n + 1)))
    (n : Nat) : Inv (states n) := by
  induction n with
  | zero => exact hstart
  | succ n ih =>
    have hstep := hrun n
    cases hevent : events n with
    | none =>
      rw [hevent] at hstep
      exact hstep ▸ ih
    | some e =>
      rw [hevent] at hstep
      exact hkeep n e hevent hstep ih

theorem stable (hrun : Execution Step states events) {P : σ → Prop} (hkeep : ∀ s e s', Step s e s' →
    P s → P s')
    {n m : Nat} (hle : n ≤ m) (h : P (states n)) : P (states m) := by
  induction m, hle using Nat.le_induction with
  | base => exact h
  | succ m _ ih =>
    have hstep := hrun m
    cases hevent : events m with
    | none =>
      rw [hevent] at hstep
      exact hstep ▸ ih
    | some e =>
      rw [hevent] at hstep
      exact hkeep _ _ _ hstep ih

end Execution

section Follow

variable (step : σ → ε → Option σ) (s : σ) (es : List ε)

/-- The states that a list of events goes through; at its end nothing happens any more. -/
def follow (n : Nat) : σ := (es.take n).foldl (fun s e => (step s e).getD s) s

variable {step s es}

theorem follow_of_length_le {n : Nat} (h : es.length ≤ n) :
    follow step s es n = follow step s es es.length := by
  rw [follow, follow, take_of_length_le h, take_length]

theorem follow_succ {n : Nat} {e : ε} (h : es[n]? = some e) :
    follow step s es (n + 1) = (step (follow step s es n) e).getD (follow step s es n) := by
  rw [follow, follow, take_add_one, h, foldl_append]
  rfl

theorem execution_follow
    (h : ∀ n, n < es.length → ∀ e, es[n]? = some e → (step (follow step s es n) e).isSome = true) :
    Execution (fun s e s' => step s e = some s') (follow step s es) (fun n => es[n]?) := by
  intro n
  dsimp only
  cases hevent : es[n]? with
  | none =>
    have hle := getElem?_eq_none_iff.mp hevent
    exact (follow_of_length_le (by omega)).trans (follow_of_length_le hle).symm
  | some e =>
    obtain ⟨hlt, _⟩ := List.getElem?_eq_some_iff.mp hevent
    obtain ⟨s', hs'⟩ := Option.isSome_iff_exists.mp (h n hlt e hevent)
    rw [follow_succ hevent, hs']
    exact hs'

end Follow

namespace LeadsTo

variable {P Q R : σ → Prop}

theorem of_imp (h : ∀ s, P s → Q s) : LeadsTo states P Q := fun n hp => ⟨n, le_rfl, h _ hp⟩

theorem trans (hpq : LeadsTo states P Q) (hqr : LeadsTo states Q R) : LeadsTo states P R := by
  intro n hp
  obtain ⟨m, hnm, hq⟩ := hpq n hp
  obtain ⟨k, hmk, hr⟩ := hqr m hq
  exact ⟨k, hnm.trans hmk, hr⟩

theorem or (hpr : LeadsTo states P R) (hqr : LeadsTo states Q R) : LeadsTo states (fun s => P s ∨ Q s) R :=
  fun n h => h.elim (hpr n) (hqr n)

theorem exists_or_rank_le (hrun : Execution Step states events) {rank : σ → Nat}
    (hkeep : ∀ s e s', Step s e s' → P s → Q s' ∨ (P s' ∧ rank s' ≤ rank s)) {n m : Nat} (hle : n ≤ m)
    (hp : P (states n)) :
      (∃ k, n ≤ k ∧ Q (states k)) ∨ (P (states m) ∧ rank (states m) ≤ rank (states n)) := by
  induction m, hle using Nat.le_induction with
  | base => exact .inr ⟨hp, le_rfl⟩
  | succ m hnm ih =>
    rcases ih with hq | ⟨hpm, hrank⟩
    · exact .inl hq
    · have hstep := hrun m
      cases hevent : events m with
      | none =>
        rw [hevent] at hstep
        exact .inr (hstep.symm ▸ ⟨hpm, hrank⟩)
      | some e =>
        rw [hevent] at hstep
        rcases hkeep _ _ _ hstep hpm with hq | ⟨hpm', hrank'⟩
        · exact .inl ⟨m + 1, by omega, hq⟩
        · exact .inr ⟨hpm', hrank'.trans hrank⟩

theorem of_rank (hrun : Execution Step states events) (rank : σ → Nat) (Helpful : ε → Prop)
    (hstep : ∀ s e s', Step s e s' → P s → Q s' ∨
      (P s' ∧ (rank s' < rank s ∨ rank s' = rank s ∧ ¬ Helpful e)))
    (hfair : ∀ n, P (states n) → ∃ m, n ≤ m ∧ ((∃ e, events m = some e ∧ Helpful e) ∨ ¬ P (states m))) :
    LeadsTo states P Q := by
  have hkeep : ∀ s e s', Step s e s' → P s → Q s' ∨ (P s' ∧ rank s' ≤ rank s) := fun s e s' hs hp =>
    (hstep s e s' hs hp).imp_right fun ⟨hp', hrank⟩ => ⟨hp', hrank.elim Nat.le_of_lt fun h => h.1.le⟩
  suffices h : ∀ k n, P (states n) → rank (states n) ≤ k → ∃ m, n ≤ m ∧ Q (states m) from
    fun n hp => h _ n hp le_rfl
  intro k
  induction k using Nat.strong_induction_on with
  | _ k ih =>
    intro n hp hrank
    obtain ⟨m, hnm, hm⟩ := hfair n hp
    rcases exists_or_rank_le hrun hkeep hnm hp with hq | ⟨hpm, hle⟩
    · exact hq
    rcases hm with ⟨e, hevent, hhelpful⟩ | hnot
    · have hs := hrun m
      rw [hevent] at hs
      rcases hstep _ _ _ hs hpm with hq | ⟨hpm', hlt | ⟨-, hnot⟩⟩
      · exact ⟨m + 1, by omega, hq⟩
      · obtain ⟨i, hi, hq⟩ := ih _ (lt_of_lt_of_le hlt (hle.trans hrank)) (m + 1) hpm' le_rfl
        exact ⟨i, by omega, hq⟩
      · exact absurd hhelpful hnot
    · exact absurd hpm hnot

end LeadsTo

end Cuprate.Collections
