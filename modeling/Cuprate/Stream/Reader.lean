import Mathlib.Tactic

/-!
# Readers

A reader takes a value from the front of a list and returns the rest. What it returns depends only
on what it consumes: `Reads` is that relation between the consumed part and the value, with a lemma
for each way to build a reader.
-/

namespace Cuprate.Stream

open List Except

/-- A reader that fails or returns a value and the rest of the list. -/
structure Reader (β ε α : Type) where
  run : List β → Except ε (α × List β)
  consumes : ∀ {s rest : List β} {a : α}, run s = .ok (a, rest) → ∃ x, s = x ++ rest ∧
    ∀ t, run (x ++ t) = .ok (a, t)

namespace Reader

variable {β ε α γ σ : Type}

/-- The reader consumes `x`, and the value is `a`. -/
def Reads (p : Reader β ε α) (x : List β) (a : α) : Prop := ∀ t, p.run (x ++ t) = .ok (a, t)

variable {body : σ → Reader β ε σ} {cost : α → List β → Nat} {f : α →
    Reader β ε γ} {a : α} {e : ε} {s : List β}
  {c : γ} {b : σ}

theorem run_eq_ok {p : Reader β ε α} {rest : List β} :
    p.run s = .ok (a, rest) ↔ ∃ x, s = x ++ rest ∧ p.Reads x a := by
  constructor
  · exact p.consumes
  · rintro ⟨x, rfl, h⟩
    exact h rest

theorem Reads.unique {p : Reader β ε α} {x x' t t' : List β} {a' : α} (h : p.Reads x a)
    (h' : p.Reads x' a')
    (heq : x ++ t = x' ++ t') : x = x' ∧ a = a' ∧ t = t' := by
  have hrun := (h t).symm.trans (heq ▸ h' t')
  cases hrun
  exact ⟨append_cancel_right heq, rfl, rfl⟩

/-! ## Building readers -/

protected def pure (a : α) : Reader β ε α where
  run s := .ok (a, s)
  consumes h := by
    cases h
    exact ⟨[], rfl, fun _ => rfl⟩

protected def bind (p : Reader β ε α) (f : α → Reader β ε γ) : Reader β ε γ where
  run s := (p.run s).bind fun r => (f r.1).run r.2
  consumes {s rest c} h := by
    cases hp : p.run s with
    | error e =>
      rw [hp] at h
      cases h
    | ok r =>
      rw [hp] at h
      obtain ⟨x, rfl, hx⟩ := p.consumes hp
      obtain ⟨y, hy, hread⟩ := (f r.1).consumes h
      refine ⟨x ++ y, ?_, fun t => ?_⟩
      · rw [append_assoc, ← hy]
      · rw [append_assoc, hx]
        exact hread t

instance : Monad (Reader β ε) where
  pure := Reader.pure
  bind := Reader.bind

theorem run_bind (p : Reader β ε α) (f : α → Reader β ε γ) (s : List β) :
    (p >>= f).run s = (p.run s).bind fun r => (f r.1).run r.2 := rfl

/-- Fails without reading. -/
def fail (e : ε) : Reader β ε α where
  run _ := .error e
  consumes h := nomatch h

def lift : Except ε α → Reader β ε α
  | .ok a => pure a
  | .error e => fail e

/-- Reads one element. -/
def next (e : ε) : Reader β ε β where
  run
    | [] => .error e
    | b :: s => .ok (b, s)
  consumes {s rest a} h := by
    cases s with
    | nil => cases h
    | cons b s =>
      cases h
      exact ⟨[a], rfl, fun _ => rfl⟩

/-- The next `n` elements. -/
def take (n : Nat) (e : ε) : Reader β ε (List β) where
  run s := if s.length < n then .error e else .ok (s.take n, s.drop n)
  consumes {s rest a} h := by
    split at h
    · cases h
    · next hlen =>
      cases h
      refine ⟨s.take n, (take_append_drop n s).symm, fun t => ?_⟩
      have htake : (s.take n).length = n := length_take_of_le (not_lt.mp hlen)
      rw [if_neg (by simp [htake])]
      simp [htake]

/-- Runs a body `n` times. -/
def iterate (body : σ → Reader β ε σ) : Nat → σ → Reader β ε σ
  | 0, b => pure b
  | n + 1, b => do
    let b ← body b
    iterate body n b

/-- Reads `n` values. -/
def replicate (p : Reader β ε α) : Nat → Reader β ε (List α)
  | 0 => pure []
  | n + 1 => do
    let a ← p
    let l ← replicate p n
    pure (a :: l)

/-! ## What they read -/

variable {p : Reader β ε α} {x : List β}

@[simp] theorem reads_pure {b : α} : (pure a : Reader β ε α).Reads x b ↔ x = [] ∧ a = b := by
  constructor
  · intro h
    have hnil := h []
    rw [append_nil] at hnil
    obtain ⟨hab, hx⟩ := Prod.mk.inj (ok.inj hnil)
    exact ⟨hx, hab⟩
  · rintro ⟨rfl, rfl⟩ t
    rfl

theorem reads_bind : (p >>= f).Reads x c ↔ ∃ x₁ x₂ a, x = x₁ ++ x₂ ∧ p.Reads x₁ a ∧ (f a).Reads x₂ c := by
  constructor
  · intro h
    have hnil := h []
    rw [append_nil] at hnil
    rw [run_bind] at hnil
    cases hp : p.run x with
    | error e =>
      rw [hp] at hnil
      cases hnil
    | ok r =>
      rw [hp] at hnil
      obtain ⟨x₁, rfl, h₁⟩ := run_eq_ok.mp hp
      obtain ⟨x₂, hx₂, h₂⟩ := run_eq_ok.mp hnil
      exact ⟨x₁, x₂, r.1, by rw [hx₂, append_nil], h₁, h₂⟩
  · rintro ⟨x₁, x₂, a, rfl, h₁, h₂⟩ t
    rw [run_bind, append_assoc, h₁]
    exact h₂ t

theorem Reads.bind {x₁ x₂ : List β} (h : p.Reads x₁ a) (h' : (f a).Reads x₂ c) :
    (p >>= f).Reads (x₁ ++ x₂) c :=
  reads_bind.mpr ⟨x₁, x₂, a, rfl, h, h'⟩

theorem Reads.nil_bind (h : p.Reads [] a) (h' : (f a).Reads x c) : (p >>= f).Reads x c := h.bind h'

theorem Reads.bind_nil (h : p.Reads x a) (h' : (f a).Reads [] c) : (p >>= f).Reads x c := by
  rw [← append_nil x]
  exact h.bind h'

theorem Reads.bind_pure {g : α → γ} (h : p.Reads x a) : (p >>= fun a => pure (g a)).Reads x (g a) :=
  h.bind_nil (reads_pure.mpr ⟨rfl, rfl⟩)

@[simp] theorem not_reads_fail : ¬ (fail e : Reader β ε α).Reads x a := fun h => nomatch h []

@[simp] theorem reads_lift {r : Except ε α} : (lift r : Reader β ε α).Reads x a ↔ x = [] ∧ r = .ok a := by
  cases r with
  | ok b => simp [lift]
  | error e => simp [lift]

@[simp] theorem reads_next {b : β} : (next e).Reads x b ↔ x = [b] := by
  constructor
  · intro h
    have hnil := h []
    rw [append_nil] at hnil
    cases x with
    | nil => cases hnil
    | cons c x =>
      obtain ⟨hb, hx⟩ := Prod.mk.inj (ok.inj hnil)
      rw [← hb, ← hx]
  · rintro rfl t
    rfl

@[simp] theorem reads_take {n : Nat} {l : List β} : (take n e).Reads x l ↔ x.length = n ∧ x = l := by
  constructor
  · intro h
    have hnil := h []
    rw [append_nil] at hnil
    change (if x.length < n then _ else _) = _ at hnil
    split at hnil
    · cases hnil
    · obtain ⟨hl, hdrop⟩ := Prod.mk.inj (ok.inj hnil)
      have hle := drop_eq_nil_iff.mp hdrop
      exact ⟨by omega, by rw [← hl, take_of_length_le hle]⟩
  · rintro ⟨rfl, rfl⟩ t
    change (if (x ++ t).length < x.length then _ else _) = _
    rw [if_neg (by simp)]
    simp

/-- The reader fails when it gets to the end of `x`. -/
def Fails (p : Reader β ε α) (x : List β) (e : ε) : Prop := ∀ t, p.run (x ++ t) = .error e

theorem Fails.bind (h : p.Fails x e) (f : α → Reader β ε γ) : (p >>= f).Fails x e := by
  intro t
  rw [run_bind, h t]
  rfl

theorem Reads.bind_fails {x₁ x₂ : List β} (h : p.Reads x₁ a) (h' : (f a).Fails x₂ e) :
    (p >>= f).Fails (x₁ ++ x₂) e := by
  intro t
  rw [run_bind, append_assoc, h]
  exact h' t

/-- The values a loop goes through when its rounds consume the given parts. -/
def Steps (body : σ → Reader β ε σ) : σ → List (List β) → σ → Prop
  | b, [], b' => b = b'
  | b, x :: xs, b' => ∃ b₁, (body b).Reads x b₁ ∧ Steps body b₁ xs b'

theorem reads_iterate {n : Nat} {b' : σ} :
    (iterate body n b).Reads x b' ↔ ∃ xs, xs.length = n ∧ x = xs.flatten ∧ Steps body b xs b' := by
  induction n generalizing x b with
  | zero =>
    rw [iterate, reads_pure]
    constructor
    · rintro ⟨rfl, rfl⟩
      exact ⟨[], rfl, rfl, rfl⟩
    · rintro ⟨xs, hlen, rfl, hsteps⟩
      obtain rfl := length_eq_zero_iff.mp hlen
      exact ⟨rfl, hsteps⟩
  | succ n ih =>
    rw [iterate, reads_bind]
    constructor
    · rintro ⟨x₁, x₂, b₁, rfl, hbody, hrest⟩
      obtain ⟨xs, rfl, rfl, hsteps⟩ := ih.mp hrest
      exact ⟨x₁ :: xs, rfl, rfl, b₁, hbody, hsteps⟩
    · rintro ⟨xs, hlen, rfl, hsteps⟩
      obtain ⟨x₁, xs, rfl⟩ := exists_cons_of_length_eq_add_one hlen
      obtain ⟨b₁, hbody, hsteps⟩ := hsteps
      exact ⟨x₁, xs.flatten, b₁, rfl, hbody, ih.mpr ⟨xs, Nat.succ.inj hlen, rfl, hsteps⟩⟩

/-- The list `ys` is `xs` with elements of `P` inserted anywhere. -/
inductive Inserted (P : α → Prop) : List α → List α → Prop where
  | nil : Inserted P [] []
  | keep {xs ys : List α} (x : α) (h : Inserted P xs ys) : Inserted P (x :: xs) (x :: ys)
  | insert {xs ys : List α} {y : α} (hy : P y) (h : Inserted P xs ys) : Inserted P xs (y :: ys)

theorem Steps.inserted {P : List β → Prop} {b' : σ} {xs ys : List (List β)} (hP : ∀ y b, P y →
    (body b).Reads y b)
    (hsteps : Steps body b xs b') (h : Inserted P xs ys) :
    Steps body b ys b' := by
  induction h generalizing b with
  | nil => exact hsteps
  | keep x _ ih =>
    obtain ⟨b₁, hbody, hsteps⟩ := hsteps
    exact ⟨b₁, hbody, ih hsteps⟩
  | insert hy _ ih => exact ⟨b, hP _ b hy, ih hsteps⟩

theorem Inserted.of_iterate {P Q : List β → Prop} {b₁ b₂ : σ} {xs ys : List (List β)} {z t t' : List β}
    (h : Inserted P xs ys) (hP : ∀ {y z t t' b b'}, P y → (body b).Reads z b' → y ++ t = z ++ t' → Q y)
    (hQ : ∀ y b, Q y → (body b).Reads y b) (hsteps : Steps body b xs b₁)
    (hiterate : (iterate body ys.length b).Reads z b₂) (heq : ys.flatten ++ t = z ++ t') :
    Inserted Q xs ys := by
  induction h generalizing b z with
  | nil => exact .nil
  | keep x _ ih =>
    obtain ⟨b', hbody, hsteps⟩ := hsteps
    obtain ⟨z₁, z₂, a, rfl, hz, hiterate⟩ := reads_bind.mp hiterate
    rw [flatten_cons, append_assoc, append_assoc] at heq
    obtain ⟨rfl, rfl, heq⟩ := hbody.unique hz heq
    exact .keep x (ih hsteps hiterate heq)
  | @insert xs ys y hy _ ih =>
    obtain ⟨z₁, z₂, a, rfl, hz, hiterate⟩ := reads_bind.mp hiterate
    rw [flatten_cons, append_assoc, append_assoc] at heq
    have hq : Q y := hP hy hz heq
    obtain ⟨rfl, rfl, heq⟩ := (hQ y b hq).unique hz heq
    exact .insert hq (ih hsteps hiterate heq)

theorem reads_replicate {write : γ → List β} {value : γ →
    α} {l : List γ} (h : ∀ c ∈ l, p.Reads (write c) (value c)) :
    (replicate p l.length).Reads (l.flatMap write) (l.map value) := by
  induction l with
  | nil =>
    rw [length_nil, replicate, reads_pure]
    exact ⟨rfl, rfl⟩
  | cons c l ih =>
    obtain ⟨hc, hl⟩ := forall_mem_cons.mp h
    rw [flatMap_cons, length_cons, replicate]
    exact hc.bind (ih hl).bind_pure

/-! ## Loops with an announced length -/

def Progresses (p : Reader β ε α) : Prop := ∀ x a, p.Reads x a → x ≠ []

/-- How often a loop enters its body, up to the first failure. The body enters loops itself `cost`
times. -/
def iterations (body : σ → Reader β ε σ) (cost : σ → List β → Nat) : Nat → σ → List β → Nat
  | 0, _, _ => 0
  | n + 1, b, s => 1 + cost b s +
    match (body b).run s with
    | .ok (b', rest) => iterations body cost n b' rest
    | .error _ => 0

/-- The loops inside of a reader are entered at most once for each element: on success for each
consumed one. -/
def CostsAtMost (p : Reader β ε α) (cost : List β → Nat) (slack : Nat) : Prop :=
  ∀ s, (∀ a rest, p.run s = .ok (a, rest) → cost s + rest.length ≤ s.length) ∧
    (∀ e, p.run s = .error e → cost s ≤ s.length + slack)

def after (p : Reader β ε α) (cost : α → List β → Nat) (s : List β) : Nat :=
  match p.run s with
  | .ok (a, rest) => cost a rest
  | .error _ => 0

theorem after_of_ok {rest : List β} (h : p.run s = .ok (a, rest)) : p.after cost s = cost a rest := by
  unfold after
  rw [h]

theorem after_of_error (h : p.run s = .error e) : p.after cost s = 0 := by
  unfold after
  rw [h]

theorem CostsAtMost.bind (hp : p.Progresses) (hf : ∀ a, CostsAtMost (f a) (cost a) 1) :
    CostsAtMost (p >>= f) (fun s => 1 + p.after cost s) 1 := by
  intro s
  rw [run_bind]
  cases hrun : p.run s with
  | error e =>
    refine ⟨fun c rest h => (by cases h), fun e' _ => ?_⟩
    simp [after_of_error hrun]
  | ok r =>
    have hafter : p.after cost s = cost r.1 r.2 := after_of_ok hrun
    obtain ⟨x, rfl, hx⟩ := run_eq_ok.mp hrun
    have hpos : 0 < x.length := length_pos_iff.mpr (hp x _ hx)
    obtain ⟨hok, herr⟩ := hf r.1 r.2
    refine ⟨fun c rest h => ?_, fun e h => ?_⟩
    · have hle := hok c rest h
      simp only [length_append, hafter]
      omega
    · have hle := herr e h
      simp only [length_append, hafter]
      omega

theorem CostsAtMost.mono {cost cost' : List β → Nat} {slack : Nat} (h : CostsAtMost p cost slack)
    (hle : ∀ s, cost' s ≤ cost s) : CostsAtMost p cost' slack := by
  intro s
  obtain ⟨hok, herr⟩ := h s
  refine ⟨fun a rest hrun => ?_, fun e hrun => ?_⟩
  · exact (Nat.add_le_add_right (hle s) _).trans (hok a rest hrun)
  · exact (hle s).trans (herr e hrun)

theorem CostsAtMost.bind_free {cost : List β → Nat} {slack : Nat} (h : CostsAtMost p cost slack)
    (f : α → Reader β ε γ) : CostsAtMost (p >>= f) cost slack := by
  intro s
  obtain ⟨hok, herr⟩ := h s
  rw [run_bind]
  cases hrun : p.run s with
  | error e => exact ⟨fun c rest h => (by cases h), fun e' _ => herr e hrun⟩
  | ok r =>
    have hle := hok r.1 r.2 hrun
    refine ⟨fun c rest h => ?_, fun e _ => by omega⟩
    obtain ⟨x, hx, -⟩ := run_eq_ok.mp h
    have hlen : r.2.length = x.length + rest.length := by rw [hx, length_append]
    omega

theorem Progresses.costsAtMost (hp : p.Progresses) : CostsAtMost p (fun _ => 1) 1 := by
  intro s
  refine ⟨fun a rest hrun => ?_, fun e _ => Nat.le_add_left 1 _⟩
  obtain ⟨x, rfl, hx⟩ := run_eq_ok.mp hrun
  have hpos : 0 < x.length := length_pos_iff.mpr (hp x a hx)
  rw [length_append]
  exact Nat.add_le_add_right hpos _

theorem iterations_le {cost : σ → List β →
    Nat} (h : ∀ b, CostsAtMost (body b) (fun s => 1 + cost b s) 1) (n : Nat)
    (b : σ) : CostsAtMost (iterate body n b) (iterations body cost n b) 1 := by
  induction n generalizing b with
  | zero =>
    intro s
    refine ⟨fun a rest hrun => ?_, fun e hrun => ?_⟩
    · cases hrun
      simp [iterations]
    · cases hrun
  | succ n ih =>
    intro s
    obtain ⟨hok, herr⟩ := h b s
    rw [iterate, run_bind, iterations]
    cases hbody : (body b).run s with
    | error e =>
      refine ⟨fun a rest hrun => (by cases hrun), fun e' _ => ?_⟩
      simpa using herr e hbody
    | ok r =>
      have hround : 1 + cost b s + r.2.length ≤ s.length := hok r.1 r.2 hbody
      obtain ⟨hok', herr'⟩ := ih r.1 r.2
      refine ⟨fun a rest hrun => ?_, fun e hrun => ?_⟩
      · have hle := hok' a rest hrun
        simp only
        omega
      · have hle := herr' e hrun
        simp only
        omega

end Reader

end Cuprate.Stream
