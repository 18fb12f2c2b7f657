import Mathlib.Tactic

/-!
# Runs of a transition system

A run is the list of the transitions that a system makes. What every step keeps holds in every state
of a run; where a step keeps it exactly under a condition, it holds in every state exactly if every
step meets the condition.
-/

namespace Cuprate.Collections

open List

section

variable {α : Type*} {P : List α → α → Prop} {history : List α}

/-- Each event `e` of a history satisfies `P before e`, where `before` is what happened before
it. -/
def Along (P : List α → α → Prop) (history : List α) : Prop :=
  ∀ before e after, history = before ++ e :: after → P before e

theorem Along.nil : Along P [] := by
  intro before e after h
  simp at h

theorem Along.concat {e : α} (h : Along P history) (he : P history e) : Along P (history ++ [e]) := by
  intro before e' after heq
  rcases eq_nil_or_concat after with rfl | ⟨after, last, rfl⟩
  · obtain ⟨rfl, hlast⟩ := append_inj' heq rfl
    obtain rfl := singleton_inj.mp hlast
    exact he
  · have heq' : history ++ [e] = (before ++ e' :: after) ++ [last] := by
      rw [heq]
      simp
    obtain ⟨rfl, -⟩ := append_inj' heq' rfl
    exact h before e' after rfl

end

variable {σ ε : Type*}

/-- A step with the states before and after it. -/
structure Transition (σ ε : Type*) where
  before : σ
  event : ε
  after : σ

/-- The runs from a state. -/
inductive Run (Step : σ → ε → σ → Prop) : σ → List (Transition σ ε) → Prop where
  | nil (s : σ) : Run Step s []
  | cons {s : σ} {e : ε} {s' : σ} {run : List (Transition σ ε)} :
      Step s e s' → Run Step s' run → Run Step s (⟨s, e, s'⟩ :: run)

/-- The states of a run. -/
def states (s : σ) (run : List (Transition σ ε)) : List σ := s :: run.map (·.after)

variable {Step : σ → ε → σ → Prop} {s : σ} {run : List (Transition σ ε)}

theorem Run.step_of_mem (hrun : Run Step s run) {t : Transition σ ε} (ht : t ∈ run) :
    Step t.before t.event t.after := by
  induction hrun with
  | nil => simp at ht
  | cons hstep _ ih =>
    rcases mem_cons.mp ht with rfl | ht
    · exact hstep
    · exact ih ht

theorem Run.before_mem (hrun : Run Step s run) {t : Transition σ ε} (ht : t ∈ run) :
    t.before ∈ states s run := by
  induction hrun with
  | nil => simp at ht
  | cons _ _ ih =>
    rcases mem_cons.mp ht with rfl | ht
    · exact mem_cons_self
    · exact .tail _ (ih ht)

variable (Inv : σ → Prop) (Meets : σ → ε → Prop)

theorem Run.invariant (hkeep : ∀ {s e s'}, Step s e s' → Meets s e → Inv s → Inv s')
    (hrun : Run Step s run)
    (hs : Inv s) (hmeets : ∀ t ∈ run, Meets t.before t.event) :
    ∀ s' ∈ states s run, Inv s' := by
  induction hrun with
  | nil s =>
    intro s' hs'
    obtain rfl := mem_singleton.mp hs'
    exact hs
  | cons hstep _ ih =>
    intro s' hs'
    rcases mem_cons.mp hs' with rfl | hs'
    · exact hs
    · refine ih ?_ (fun t ht => hmeets t (.tail _ ht)) s' hs'
      exact hkeep hstep (hmeets _ mem_cons_self) hs

theorem Run.invariant_iff (hkeep : ∀ {s e s'}, Step s e s' → Inv s → (Inv s' ↔ Meets s e))
    (hrun : Run Step s run)
    (hs : Inv s) : (∀ s' ∈ states s run, Inv s') ↔ ∀ t ∈ run, Meets t.before t.event := by
  refine ⟨fun h => ?_, hrun.invariant Inv Meets (fun hstep hmeets hinv =>
    (hkeep hstep hinv).mpr hmeets) hs⟩
  induction hrun with
  | nil => simp
  | cons hstep _ ih =>
    have hnext := h _ (.tail _ mem_cons_self)
    intro t ht
    rcases mem_cons.mp ht with rfl | ht
    · exact (hkeep hstep hs).mp hnext
    · exact ih hnext (fun s' hs' => h s' (.tail _ hs')) t ht

end Cuprate.Collections
