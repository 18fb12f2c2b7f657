import Mathlib.Tactic

/-!
# Results of fallible computations

What a successful `Except` computation has done: each step of a sequence, each element of a
traversal. A computation that may also panic fails with a `Fault`. Effects change a state until
their first error; what they have changed until then stays changed.
-/

namespace Cuprate.Collections

open Option List Except

/-- Why a computation has no result: it returned an error, or it panicked. -/
inductive Fault (ε : Type) where
  | error (e : ε)
  | panic
deriving DecidableEq, Repr

def Fault.map {ε ε' : Type} (f : ε → ε') : Fault ε → Fault ε'
  | error e => error (f e)
  | panic => panic

/-- The result of an operation that panics where `Option` has no value. -/
def orPanic {ε α : Type} : Option α → Except (Fault ε) α
  | some a => .ok a
  | none => .error .panic

theorem orPanic_eq_ok {ε α : Type} {x : Option α} {a : α} :
    (orPanic x : Except (Fault ε) α) = .ok a ↔ x = some a := by
  cases x with
  | none => simp [orPanic]
  | some b => simp [orPanic]

theorem toOption_eq_some {ε α : Type*} {x : Except ε α} {a : α} : x.toOption = some a ↔ x = .ok a := by
  cases x with
  | error e => simp [Except.toOption]
  | ok b => simp [Except.toOption]

universe u v

variable {ε : Type u} {α β : Type v} {f : α → Except ε β}

theorem bind_eq_ok {x : Except ε α} {b : β} : (x >>= f) = .ok b ↔ ∃ a, x = .ok a ∧ f a = .ok b := by
  cases x with
  | error e =>
    show Except.error e = _ ↔ _
    simp
  | ok a =>
    show f a = _ ↔ _
    simp

theorem map_eq_error {x : Except ε α} {f : α → β} {e : ε} : x.map f = .error e ↔ x = .error e := by
  cases x with
  | error e' => simp [Except.map]
  | ok a => simp [Except.map]

theorem map_eq_ok {x : Except ε α} {f : α → β} {b : β} : x.map f = .ok b ↔ ∃ a, x = .ok a ∧ f a = b := by
  cases x with
  | error e => simp [Except.map]
  | ok a => simp [Except.map]

variable {l : List α}

theorem forM_eq_ok {f : α → Except ε PUnit} : l.forM f = .ok ⟨⟩ ↔ ∀ a ∈ l, f a = .ok ⟨⟩ := by
  induction l with
  | nil => exact iff_of_true rfl (by simp)
  | cons a l ih =>
    show (f a >>= fun _ => l.forM f) = _ ↔ _
    rw [bind_eq_ok, forall_mem_cons, ← ih]
    exact ⟨fun ⟨_, ha, hl⟩ => ⟨ha, hl⟩, fun ⟨ha, hl⟩ => ⟨_, ha, hl⟩⟩

variable {r : List β}

theorem mapM_eq_some {f : α → Option β} :
    l.mapM f = some r ↔ List.Forall₂ (fun a b => f a = some b) l r := by
  induction l generalizing r with
  | nil =>
    rw [mapM_nil, List.forall₂_nil_left_iff]
    exact ⟨fun h => (some.inj h).symm, fun h => by rw [h]; rfl⟩
  | cons a l ih =>
    rw [mapM_cons, bind_eq_bind, bind_eq_some_iff, List.forall₂_cons_left_iff]
    constructor
    · rintro ⟨b, ha, h⟩
      obtain ⟨bs, hl, hr⟩ := bind_eq_some_iff.mp h
      exact ⟨b, bs, ha, ih.mp hl, (some.inj hr).symm⟩
    · rintro ⟨b, bs, ha, hl, rfl⟩
      exact ⟨b, ha, bind_eq_some_iff.mpr ⟨bs, ih.mpr hl, rfl⟩⟩

theorem toOption_mapM (l : List α) (f : α → Except ε β) :
    (l.mapM f).toOption = l.mapM fun a => (f a).toOption := by
  induction l with
  | nil => rfl
  | cons a l ih =>
    rw [mapM_cons, mapM_cons, ← ih]
    cases f a with
    | error e => rfl
    | ok b =>
      cases hl : l.mapM f with
      | error e =>
        simp only [bind, Except.bind]
        rfl
      | ok bs =>
        simp only [bind, Except.bind]
        rfl

theorem mapM_eq_ok : l.mapM f = .ok r ↔ List.Forall₂ (fun a b => f a = .ok b) l r := by
  rw [← toOption_eq_some, toOption_mapM, mapM_eq_some]
  simp only [toOption_eq_some]

theorem exists_of_mem_forall₂ {R : α → β → Prop} (h : List.Forall₂ R l r) {b : β} (hb : b ∈ r) :
    ∃ a ∈ l, R a b := by
  induction h with
  | nil => cases hb
  | @cons a c l r hac h ih =>
    rcases mem_cons.mp hb with rfl | hb
    · exact ⟨a, .head _, hac⟩
    · obtain ⟨a', ha', hab⟩ := ih hb
      exact ⟨a', .tail _ ha', hab⟩

theorem exists_of_mapM_error {e : ε} (h : l.mapM f = .error e) : ∃ a ∈ l, f a = .error e := by
  induction l with
  | nil => cases h
  | cons a l ih =>
    cases ha : f a with
    | error e' =>
      rw [mapM_cons, ha] at h
      exact ⟨a, .head _, error.inj h ▸ ha⟩
    | ok b =>
      rw [mapM_cons, ha] at h
      cases hl : l.mapM f with
      | error e' =>
        simp only [hl, bind, Except.bind] at h
        cases h
        obtain ⟨a', ha', he⟩ := ih hl
        exact ⟨a', .tail _ ha', he⟩
      | ok bs =>
        simp only [hl, bind, Except.bind] at h
        cases h

theorem mapM_eq_ok_of_perm {l' : List α} {r' : List β} (hperm : l.Perm l')
    (h : l'.mapM f = .ok r') : ∃ r, l.mapM f = .ok r ∧ r.Perm r' := by
  obtain ⟨r, hr, hperm⟩ := perm_comp_forall₂ hperm (mapM_eq_ok.mp h)
  exact ⟨r, mapM_eq_ok.mpr hr, hperm⟩

theorem mapM_eq_some_map {f : α → Option β} {g : α → β} (h : ∀ a ∈ l, f a = some (g a)) :
    l.mapM f = some (l.map g) := by
  induction l with
  | nil => rfl
  | cons a l ih =>
    rw [mapM_cons, h a (.head _), ih fun b hmem => h b (.tail _ hmem)]
    rfl

theorem exists_of_mem_mapM {f : α → Option β} (h : l.mapM f = some r) {b : β} (hb : b ∈ r) :
    ∃ a ∈ l, f a = some b :=
  exists_of_mem_forall₂ (mapM_eq_some.mp h) hb

theorem mapError_eq_ok {ε' : Type u} {x : Except ε α} {f : ε → ε'} {a : α} :
    x.mapError f = .ok a ↔ x = .ok a := by
  cases x with
  | error e => simp [Except.mapError]
  | ok b => simp [Except.mapError]

theorem mapM_ok_mono {g : α → Except ε β} (h : ∀ a ∈ l, ∀ b, f a = .ok b → g a = .ok b)
    (hf : l.mapM f = .ok r) : l.mapM g = .ok r := by
  rw [mapM_eq_ok] at hf ⊢
  induction hf with
  | nil => exact .nil
  | cons ha _ ih => exact .cons (h _ (.head _) _ ha) (ih fun a hmem => h a (.tail _ hmem))

variable {ε σ : Type}

abbrev Effect (ε σ : Type) := σ → Except ε Unit × σ

namespace Effect

/-- An effect that changes the state only if it succeeds. -/
def update (f : σ → Except ε σ) : Effect ε σ := fun s =>
  match f s with
  | .ok s' => (.ok (), s')
  | .error e => (.error e, s)

def seq : List (Effect ε σ) → Effect ε σ
  | [], s => (.ok (), s)
  | f :: fs, s =>
    match f s with
    | (.ok _, s') => seq fs s'
    | (.error e, s') => (.error e, s')

variable {f : σ → Except ε σ} {g : Effect ε σ} {fs : List (Effect ε σ)} {s s' : σ} {e : ε}

theorem update_eq_error : update f s = (.error e, s') ↔ f s = .error e ∧ s' = s := by
  unfold update
  cases f s with
  | ok a => simp
  | error b => simp [eq_comm]

theorem update_eq_ok : update f s = (.ok (), s') ↔ f s = .ok s' := by
  unfold update
  cases f s with
  | ok a => simp
  | error b => simp

theorem seq_nil_ne_error : seq [] s ≠ (.error e, s') := by simp [seq]

theorem seq_cons_eq_error : seq (g :: fs) s = (.error e, s') ↔
      g s = (.error e, s') ∨ ∃ s₁, g s = (.ok (), s₁) ∧ seq fs s₁ = (.error e, s') := by
  rcases hg : g s with ⟨result, s₁⟩
  cases result with
  | ok a => simp [seq, hg]
  | error b => simp [seq, hg]

end Effect

end Cuprate.Collections
