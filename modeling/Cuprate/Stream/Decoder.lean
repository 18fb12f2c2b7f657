import Mathlib.Tactic

/-!
# Incremental decoders

A streaming decoder owns a state `σ` and reads a buffer of symbols `β`. One call (`poll`) produces
an item, asks for more input, or fails; it returns the new state and the unread part of the buffer.
The size of a configuration bounds how many items it can still produce, so that the loops below are
total.
-/

namespace Cuprate.Stream

variable {σ τ β α γ ε : Type}

/-- A streaming decoder together with the reason why it cannot produce items forever. -/
structure Decoder (σ β α ε : Type) where
  /-- One call: the result, the new state and the unread part of the buffer. -/
  poll : σ → List β → Except ε (Option α) × σ × List β
  /-- An upper bound on the number of items left in a configuration. -/
  size : σ → List β → Nat
  /-- Every item makes the configuration smaller. -/
  progress : ∀ {s x a s' r}, poll s x = (.ok (some a), s', r) → size s' r < size s x

namespace Decoder

/-- `drain` with an explicit bound on the number of items. -/
def drainN (d : Decoder σ β α ε) : Nat → σ → List β → (List α × Option ε) × σ × List β
  | 0, s, x => (([], none), s, x)
  | n + 1, s, x =>
    match d.poll s x with
    | (.error e, s', r) => (([], some e), s', r)
    | (.ok none, s', r) => (([], none), s', r)
    | (.ok (some a), s', r) =>
      let rest := d.drainN n s' r
      ((a :: rest.1.1, rest.1.2), rest.2)

/-- Calls the decoder until it asks for more input or fails: the items, the error if there was one,
the last state and the unread buffer. -/
def drain (d : Decoder σ β α ε) (s : σ) (x : List β) : (List α × Option ε) × σ × List β :=
  d.drainN (d.size s x + 1) s x

/-- Delivers the chunks one after the other: each is appended to the unread buffer, which is
drained. Nothing is delivered after an error. -/
def feed (d : Decoder σ β α ε) : σ → List β → List (List β) → List α × Option ε
  | _, _, [] => ([], none)
  | s, buf, c :: cs =>
    match d.drain s (buf ++ c) with
    | ((as, some e), _, _) => (as, some e)
    | ((as, none), s', r) =>
      let rest := d.feed s' r cs
      (as ++ rest.1, rest.2)

/-- The state and the unread buffer that `feed` ends with. -/
def feedState (d : Decoder σ β α ε) : σ → List β → List (List β) → σ × List β
  | s, buf, [] => (s, buf)
  | s, buf, c :: cs =>
    match d.drain s (buf ++ c) with
    | ((_, some _), s', r) => (s', r)
    | ((_, none), s', r) => d.feedState s' r cs

/-- Cutting the input of a resumable decoder short never changes what it goes on to produce: items
and errors stay the same when more input follows, and after a request for more it continues as if
all had been there from the start. -/
structure Resumable (d : Decoder σ β α ε) : Prop where
  item : ∀ {s x a s' r} (y : List β), d.poll s x = (.ok (some a), s', r) →
    d.poll s (x ++ y) = (.ok (some a), s', r ++ y)
  error : ∀ {s x e s' r} (y : List β), d.poll s x = (.error e, s', r) →
    d.poll s (x ++ y) = (.error e, s', r ++ y)
  pending : ∀ {s x s' r} (y : List β), d.poll s x = (.ok none, s', r) →
    d.poll s (x ++ y) = d.poll s' (r ++ y)

/-- Every item costs at least `k` of the weight `w` of the configuration. -/
def Priced (d : Decoder σ β α ε) (w : σ → List β → Nat) (k : Nat) : Prop :=
  ∀ ⦃s x a s' r⦄, d.poll s x = (.ok (some a), s', r) → w s' r + k ≤ w s x

/-- `through` with an explicit bound on the number of inner items. -/
def throughN (d : Decoder σ β α ε) (h : σ → τ → α → Except ε (Option γ) × σ × τ) :
    Nat → σ × τ → List β → Except ε (Option γ) × (σ × τ) × List β
  | 0, st, x => (.ok none, st, x)
  | n + 1, (s, t), x =>
    match d.poll s x with
    | (.error e, s', r) => (.error e, (s', t), r)
    | (.ok none, s', r) => (.ok none, (s', t), r)
    | (.ok (some a), s', r) =>
      match h s' t a with
      | (.error e, st') => (.error e, st', r)
      | (.ok (some c), st') => (.ok (some c), st', r)
      | (.ok none, st') => throughN d h n st' r

/-- The result of one call of the loop around `d` that hands every item to `h`, until `h` produces
an item of its own or something fails. -/
def throughPoll (d : Decoder σ β α ε) (h : σ → τ → α → Except ε (Option γ) × σ × τ) (st : σ × τ)
    (x : List β) : Except ε (Option γ) × (σ × τ) × List β :=
  throughN d h (d.size st.1 x + 1) st x

end Decoder

end Cuprate.Stream
