import Cuprate.Stream.Decoder

/-!
# Incremental decoders: chunk independence

The bounds of the loops do not matter once they exceed the size of the configuration. The loop
around a resumable decoder is resumable, and a resumable decoder does not depend on how its input is
cut into chunks (`feed_eq_drain`).
-/

namespace Cuprate.Stream.Decoder

open List

variable {σ τ β α γ ε : Type} {d : Decoder σ β α ε}

/-! ## The equations of the loops -/

theorem drainN_eq_of_lt (n m : Nat) (s : σ) (x : List β) (hn : d.size s x < n) (hm : d.size s x < m) :
    d.drainN n s x = d.drainN m s x := by
  induction n generalizing m s x with
  | zero => cases hn
  | succ n ih =>
    cases m with
    | zero => cases hm
    | succ m =>
      simp only [drainN]
      split
      · rfl
      · rfl
      · next a s' r hp =>
        have hlt := d.progress hp
        rw [ih m s' r (by omega) (by omega)]

variable {w : σ → List β → Nat} {x r : List β} {s' s : σ} {k : Nat}

theorem drain_of_item {a : α} (h : d.poll s x = (.ok (some a), s', r)) :
    d.drain s x = ((a :: (d.drain s' r).1.1, (d.drain s' r).1.2), (d.drain s' r).2) := by
  have hlt := d.progress h
  have heq : d.drainN (d.size s x) s' r = d.drain s' r := drainN_eq_of_lt _ _ _ _ hlt (by omega)
  simp only [drain, drainN, h] at heq ⊢
  rw [heq]

theorem drain_of_pending (h : d.poll s x = (.ok none, s', r)) : d.drain s x = (([], none), s', r) := by
  simp only [drain, drainN, h]

theorem drain_of_error {e : ε} (h : d.poll s x = (.error e, s', r)) :
    d.drain s x = (([], some e), s', r) := by
  simp only [drain, drainN, h]

theorem drain_eq_of_poll_eq {x' : List β} (h : d.poll s x = d.poll s' x') :
    d.drain s x = d.drain s' x' := by
  rcases hp : d.poll s' x' with ⟨res, t, r⟩
  rw [hp] at h
  rcases res with e | (_ | a)
  · rw [drain_of_error h, drain_of_error hp]
  · rw [drain_of_pending h, drain_of_pending hp]
  · rw [drain_of_item h, drain_of_item hp]

theorem drain_length_mul_le (hw : d.Priced w k) (s : σ) (x : List β) :
    (d.drain s x).1.1.length * k ≤ w s x := by
  induction hn : d.size s x using Nat.strong_induction_on generalizing s x with
  | _ n ih =>
    rcases hp : d.poll s x with ⟨res, s', r⟩
    rcases res with e | (_ | a)
    · simp [drain_of_error hp]
    · simp [drain_of_pending hp]
    · have hrest := ih _ (hn ▸ d.progress hp) s' r rfl
      have hcost := hw hp
      rw [drain_of_item hp, length_cons, Nat.add_mul, Nat.one_mul]
      omega

section Through

variable {h : σ → τ → α → Except ε (Option γ) × σ × τ}

/-- The handler of an outer loop must not touch what the size of the inner decoder depends on. -/
def SizeStable (d : Decoder σ β α ε) (h : σ → τ → α → Except ε (Option γ) × σ × τ) : Prop :=
  ∀ s t a x, d.size (h s t a).2.1 x = d.size s x

theorem throughN_eq_of_lt (hs : d.SizeStable h) (n m : Nat) (st : σ × τ) (x : List β)
    (hn : d.size st.1 x < n)
    (hm : d.size st.1 x < m) :
    throughN d h n st x = throughN d h m st x := by
  induction n generalizing m st x with
  | zero => cases hn
  | succ n ih =>
    cases m with
    | zero => cases hm
    | succ m =>
      obtain ⟨s, t⟩ := st
      simp only [throughN]
      split
      · rfl
      · rfl
      · next a s' r hp =>
        have hlt := d.progress hp
        split
        · rfl
        · rfl
        · next st' hh =>
          have hst : d.size st'.1 r = d.size s' r := by simpa [hh] using hs s' t a r
          exact ih m st' r (by simp only at hn; omega) (by simp only at hm; omega)

theorem throughPoll_eq (hs : d.SizeStable h) (s : σ) (t : τ) (x : List β) : throughPoll d h (s, t) x =
      match d.poll s x with
      | (.error e, s', r) => (.error e, (s', t), r)
      | (.ok none, s', r) => (.ok none, (s', t), r)
      | (.ok (some a), s', r) =>
        match h s' t a with
        | (.error e, st') => (.error e, st', r)
        | (.ok (some c), st') => (.ok (some c), st', r)
        | (.ok none, st') => throughPoll d h st' r := by
  rw [throughPoll, throughN]
  rcases hp : d.poll s x with ⟨res, s', r⟩
  rcases res with e | (_ | a)
  · rfl
  · rfl
  · have hlt := d.progress hp
    rcases hh : h s' t a with ⟨res', st'⟩
    rcases res' with e | (_ | c)
    · simp only [hh]
    · have hst : d.size st'.1 r = d.size s' r := by simpa [hh] using hs s' t a r
      simp only [hh]
      exact throughN_eq_of_lt hs _ _ st' r (by omega) (by omega)
    · simp only [hh]

theorem throughN_priced (hw : d.Priced w k) (hs : ∀ s t a x, w (h s t a).2.1 x = w s x) (n : Nat)
    {st st' : σ × τ}
    {c : γ} (hp : throughN d h n st x = (.ok (some c), st', r)) :
    w st'.1 r + k ≤ w st.1 x := by
  induction n generalizing st x with
  | zero => simp [throughN] at hp
  | succ n ih =>
    obtain ⟨s, t⟩ := st
    simp only [throughN] at hp
    split at hp
    · simp at hp
    · simp at hp
    · next a s1 r1 hp1 =>
      have hcost := hw hp1
      split at hp
      · simp at hp
      · next c' st1 hh =>
        have hst : w st1.1 r1 = w s1 r1 := by simpa [hh] using hs s1 t a r1
        obtain ⟨-, rfl, rfl⟩ := hp
        simp only
        omega
      · next st1 hh =>
        have hst : w st1.1 r1 = w s1 r1 := by simpa [hh] using hs s1 t a r1
        have := ih hp
        simp only at this ⊢
        omega

/-- The loop around `d` that hands every item to `h`, as a decoder. -/
def through (d : Decoder σ β α ε) (h : σ → τ → α → Except ε (Option γ) × σ × τ) (hs : d.SizeStable h) :
    Decoder (σ × τ) β γ ε where
  poll := throughPoll d h
  size := fun st x => d.size st.1 x
  progress := fun hp => throughN_priced (k := 1) (fun _ _ _ _ _ h => d.progress h) hs _ hp

theorem through_priced (hs : d.SizeStable h) (hw : d.Priced w k)
    (hsw : ∀ s t a x, w (h s t a).2.1 x = w s x) :
    (d.through h hs).Priced (fun st x => w st.1 x) k :=
  fun _ _ _ _ _ hp => throughN_priced hw hsw _ hp

/-- The three laws at once, for the induction over the rounds of the loop. -/
private theorem through_append (hs : d.SizeStable h) (hr : d.Resumable) (y : List β) (s : σ) (t : τ)
    (x : List β) : (∀ c st' r, throughPoll d h (s, t) x = (.ok (some c), st', r) →
      throughPoll d h (s, t) (x ++ y) = (.ok (some c), st', r ++ y)) ∧
    (∀ e st' r, throughPoll d h (s, t) x = (.error e, st', r) →
      throughPoll d h (s, t) (x ++ y) = (.error e, st', r ++ y)) ∧
    (∀ st' r, throughPoll d h (s, t) x = (.ok none, st', r) →
      throughPoll d h (s, t) (x ++ y) = throughPoll d h st' (r ++ y)) := by
  induction hn : d.size s x using Nat.strong_induction_on generalizing s t x with
  | _ n ih =>
    rw [throughPoll_eq hs]
    rcases hp : d.poll s x with ⟨res, s', r⟩
    rcases res with e | (_ | a)
    · simp [throughPoll_eq hs s t (x ++ y), hr.error y hp]
    · refine ⟨by simp, by simp, ?_⟩
      intro st' r' heq
      obtain ⟨rfl, rfl⟩ := heq
      rw [throughPoll_eq hs s t, throughPoll_eq hs s' t, hr.pending y hp]
    · rw [throughPoll_eq hs s t (x ++ y), hr.item y hp]
      rcases hh : h s' t a with ⟨res', s1, t1⟩
      simp only [hh]
      rcases res' with e | (_ | c)
      · simp
      · -- the handler swallowed the item: the next round starts from a smaller configuration
        have hst : d.size s1 r = d.size s' r := by simpa [hh] using hs s' t a r
        exact ih _ (by rw [hst, ← hn]; exact d.progress hp) s1 t1 r rfl
      · simp

theorem through_resumable (hs : d.SizeStable h) (hr : d.Resumable) : (d.through h hs).Resumable where
  item := fun {s x a s' r} y hp =>
    (through_append hs hr y s.1 s.2 x).1 a s' r hp
  error := fun {s x e s' r} y hp =>
    (through_append hs hr y s.1 s.2 x).2.1 e s' r hp
  pending := fun {s x s' r} y hp =>
    (through_append hs hr y s.1 s.2 x).2.2 s' r hp

end Through

theorem drain_append (hr : d.Resumable) (y : List β) {as : List α} {err : Option ε} :
    d.drain s x = ((as, err), s', r) → d.drain s (x ++ y) =
      match err with
      | some e => ((as, some e), s', r ++ y)
      | none => ((as ++ (d.drain s' (r ++ y)).1.1, (d.drain s' (r ++ y)).1.2),
          (d.drain s' (r ++ y)).2) := by
  intro h
  induction hn : d.size s x using Nat.strong_induction_on generalizing s x as with
  | _ n ih =>
    rcases hp : d.poll s x with ⟨res, s1, r1⟩
    rcases res with e1 | (_ | a)
    · rw [drain_of_error hp] at h
      obtain ⟨⟨rfl, rfl⟩, rfl, rfl⟩ := h
      exact drain_of_error (hr.error y hp)
    · rw [drain_of_pending hp] at h
      obtain ⟨⟨rfl, rfl⟩, rfl, rfl⟩ := h
      simp [drain_eq_of_poll_eq (hr.pending y hp)]
    · rw [drain_of_item hp] at h
      rcases hd : d.drain s1 r1 with ⟨⟨bs, e2⟩, s2, r2⟩
      rw [hd] at h
      obtain ⟨⟨rfl, rfl⟩, rfl, rfl⟩ := h
      rw [drain_of_item (hr.item y hp), ih _ (hn ▸ d.progress hp) hd rfl]
      cases e2 <;> rfl

/-- **Chunk independence.** From a configuration that has nothing to deliver yet, feeding chunks
gives what draining their concatenation gives. -/
theorem feed_eq_drain (hr : d.Resumable) (cs : List (List β)) {buf : List β} {s0 : σ} {buf0 : List β}
    (h0 : d.drain s buf = (([], none), s0, buf0)) :
      d.feed s buf cs = (d.drain s (buf ++ cs.flatten)).1 := by
  induction cs generalizing s buf s0 buf0 with
  | nil => simp [feed, h0]
  | cons c cs ih =>
    rw [feed, flatten_cons, ← append_assoc]
    rcases hd : d.drain s (buf ++ c) with ⟨⟨as, _ | e⟩, s', r⟩
    · have hquiet : d.drain s' r = (([], none), s', r) := by
        -- the drained configuration is itself drained
        have := drain_append hr [] hd
        simp only [append_nil, hd, Prod.mk.injEq, self_eq_append_right] at this
        obtain ⟨⟨h1, h2⟩, h3⟩ := this
        rcases hd' : d.drain s' r with ⟨⟨bs, e⟩, t⟩
        rw [hd'] at h1 h2 h3
        simp only at h1 h2 h3
        rw [h1, ← h2, ← h3]
      simp only [drain_append hr _ hd, ih hquiet]
    · simp only [drain_append hr _ hd]

end Cuprate.Stream.Decoder
