import Cuprate.AsyncBuffer.Buffer

/-!
# No lost capacity and no lost wake-up

While the stream is there, the capacity is only lent to the items, and a waiting appender is woken
when there is enough of it. Nothing gives capacity back or wakes the appender once the stream is
gone.
-/

namespace Cuprate.AsyncBuffer.Buffer

open Relation List

variable {T : Type} {maxItemWeight : Nat} {s s' : Buffer T} {i : T} {n : Nat}

/-- The capacity that the appender has taken for an item it has not pushed. -/
def sinkWeight : Sink T → Nat
  | .unboundedSend _ n => n
  | _ => 0

/-- The capacity of an item that the stream has popped and not given back yet. -/
def streamWeight : Stream T → Nat
  | .fetchAdd _ n => n
  | _ => 0

def streamItems : Stream T → List T
  | .fetchAdd i _ | .wake i => [i]
  | _ => []

/-- The weight of the items that are queued, just being sent or just being taken. -/
def weight (s : Buffer T) : Nat := (s.queue.map (·.2)).sum + sinkWeight s.sink + streamWeight s.stream

/-- What holds where the appender is. -/
def SinkOk (s : Buffer T) : Sink T → Prop
  | .panicked => False
  | .fetchSub _ n => n ≤ s.capacity
  | .recheck _ _ => s.woken = true ∨ s.waker = true
  | .pending _ n => s.woken = true ∨ s.waker = true ∧ (s.capacity < n ∨ ∃ i, s.stream = .wake i)
  | _ => True

/-- The invariant of a buffer. -/
structure Inv (maxItemWeight : Nat) (s : Buffer T) : Prop where
  capacity : s.stream ≠ .dropped → s.capacity + s.weight = maxItemWeight
  order : s.stream ≠ .dropped → s.received ++ streamItems s.stream ++ s.queue.map (·.1) = s.sent
  sink : s.SinkOk s.sink

namespace Inv

/-- A step of the appender that takes no capacity. -/
theorem withSink (h : Inv maxItemWeight s) {sink : Sink T} {waker woken : Bool}
    {results : List (Except BufferError Unit)} (hweight : sinkWeight sink = sinkWeight s.sink)
    (hok : SinkOk { s with waker := waker, woken := woken } sink) :
    Inv maxItemWeight { s with sink := sink, waker := waker, woken := woken, results := results } := by
  refine ⟨fun hstream => ?_, h.order, ?_⟩
  · rw [← h.capacity hstream, weight, weight, hweight]
  · cases sink <;> exact hok

theorem step (h : Inv maxItemWeight s) (hstep : Step s s') : Inv maxItemWeight s' := by
  have hok := h.sink
  cases hstep with
  | send hsink => exact h.withSink (by rw [hsink]; rfl) trivial
  | trySend hsink => exact h.withSink (by rw [hsink]; rfl) trivial
  | check hsink =>
    split
    · exact h.withSink (by rw [hsink]; rfl) trivial
    · exact h.withSink (by rw [hsink]; rfl) trivial
  | register hsink => exact h.withSink (by rw [hsink]; rfl) (.inr rfl)
  | recheck hsink =>
    rw [hsink] at hok
    split
    · exact h.withSink (by rw [hsink]; rfl) trivial
    · next hlt => exact h.withSink (by rw [hsink]; rfl) (hok.imp_right fun hwaker => ⟨hwaker, .inl (not_le.mp hlt)⟩)
  | poll hsink => exact h.withSink (by rw [hsink]; rfl) trivial
  | load hsink =>
    split
    · exact h.withSink (by rw [hsink]; rfl) trivial
    · next hle => exact h.withSink (by rw [hsink]; rfl) (not_lt.mp hle)
  | @fetchSub i n hsink =>
    rw [hsink] at hok
    have hle : n ≤ s.capacity := hok
    rw [if_pos hle]
    refine ⟨fun hstream => ?_, h.order, trivial⟩
    have hcapacity := h.capacity hstream
    simp only [weight, hsink, sinkWeight] at hcapacity ⊢
    omega
  | unboundedSend hsink hstream =>
    have hcapacity := h.capacity hstream
    refine ⟨fun _ => ?_, fun _ => ?_, trivial⟩
    · simp only [weight, hsink, sinkWeight, finish, map_append, sum_append, map_singleton,
        sum_singleton] at hcapacity ⊢
      omega
    · simp only [finish, map_append, map_singleton, ← append_assoc, h.order hstream]
  | disconnected hsink hstream => exact ⟨fun hne => absurd hstream hne, fun hne => absurd hstream hne, trivial⟩
  | next hstream hqueue =>
    have hne : s.stream ≠ .dropped := by rw [hstream]; nofun
    have hcapacity := h.capacity hne
    have horder := h.order hne
    simp only [weight, hstream, hqueue, streamWeight, map_cons, sum_cons] at hcapacity
    simp only [hstream, hqueue, streamItems, map_cons, append_nil] at horder
    refine ⟨fun _ => ?_, fun _ => ?_, ?_⟩
    · simp only [weight, streamWeight]
      omega
    · simp only [streamItems, append_assoc, singleton_append, horder]
    · cases hsink : s.sink <;> simp_all [SinkOk]
  | fetchAdd hstream =>
    have hne : s.stream ≠ .dropped := by rw [hstream]; nofun
    have hcapacity := h.capacity hne
    simp only [weight, hstream, streamWeight] at hcapacity
    refine ⟨fun _ => ?_, fun _ => ?_, ?_⟩
    · simp only [weight, streamWeight]
      omega
    · have horder := h.order hne
      rwa [hstream] at horder
    · cases hsink : s.sink with
      | fetchSub j k => exact Nat.le_add_right_of_le (by simpa [hsink, SinkOk] using hok)
      | pending j k =>
        rw [hsink] at hok
        exact hok.imp_right fun hwaker => ⟨hwaker.1, .inr ⟨_, rfl⟩⟩
      | _ => simp_all [SinkOk]
  | wake hstream =>
    have hne : s.stream ≠ .dropped := by rw [hstream]; nofun
    refine ⟨fun _ => ?_, fun _ => ?_, ?_⟩
    · have hcapacity := h.capacity hne
      rwa [weight, hstream] at hcapacity
    · have horder := h.order hne
      simpa [hstream, streamItems] using horder
    · cases hsink : s.sink with
      | recheck j k =>
        rw [hsink] at hok
        exact .inl (by simpa [SinkOk] using hok)
      | pending j k =>
        rw [hsink] at hok
        exact .inl (by simpa using hok.imp_right And.left)
      | _ => simp_all [SinkOk]
  | drop hstream =>
    refine ⟨fun hne => absurd rfl hne, fun hne => absurd rfl hne, ?_⟩
    cases hsink : s.sink <;> simp_all [SinkOk]

end Inv

theorem Reachable.inv (h : Reachable maxItemWeight s) : Inv maxItemWeight s := by
  induction h with
  | refl =>
    refine ⟨fun _ => ?_, fun _ => rfl, trivial⟩
    simp [newBuffer, weight, sinkWeight, streamWeight]
  | tail _ hstep ih => exact ih.step hstep

theorem Reachable.woken_of_pending (h : Reachable maxItemWeight s) (hsink : s.sink = .pending i n)
    (hle : n ≤ s.capacity) : s.woken = true ∨ ∃ i, s.stream = .wake i := by
  have hok := h.inv.sink
  rw [hsink] at hok
  exact hok.imp_right fun hwaker => hwaker.2.resolve_left (not_lt.mpr hle)

/-- While the stream is there: the missing capacity is that of the items under way, items come out
in order, no assertion fails, and an appender that returned `Pending` has been or is about to be
woken, or there is not enough capacity for it. -/
theorem Reachable.conserves_and_wakes (h : Reachable maxItemWeight s) : s.sink ≠ .panicked ∧
    (s.stream ≠ .dropped → s.capacity + s.weight = maxItemWeight ∧
      s.received ++ streamItems s.stream ++ s.queue.map (·.1) = s.sent) ∧
    ∀ i n, s.sink = .pending i n → n ≤ s.capacity → s.woken = true ∨ ∃ i, s.stream = .wake i := by
  obtain ⟨hcapacity, horder, hok⟩ := h.inv
  refine ⟨fun hsink => ?_, fun hstream => ⟨hcapacity hstream, horder hstream⟩,
    fun i n hsink hle => h.woken_of_pending hsink hle⟩
  rw [hsink] at hok
  exact hok

/-- The second item waits for the capacity of the first one, and is woken when that is taken out. -/
theorem conserves_and_wakes_pending :
    ∃ s : Buffer Nat, Reachable 5 s ∧ s.sink = .pending 8 3 ∧ s.received = [7] ∧
    s.capacity + s.weight = 5 ∧ s.received ++ streamItems s.stream ++ s.queue.map (·.1) = s.sent ∧
    s.woken = true := by
  let state (capacity : Nat) (queue : List (Nat × Nat)) (waker : Bool) (sink : Sink Nat)
    (stream : Stream Nat)
      (sent : List Nat) (results : List (Except BufferError Unit)) : Buffer Nat :=
    ⟨5, capacity, queue, waker, false, sink, stream, sent, [], results⟩
  have hfirst : ReflTransGen Step (newBuffer Nat 5) (state 1 [(7, 4)] false .idle .idle [7] [.ok ()]) :=
    .head (b := state 5 [] false (.load 7 4) .idle [] []) (.trySend rfl 7 4) <|
    .head (b := state 5 [] false (.fetchSub 7 4) .idle [] []) (.load (i := 7) (n := 4) rfl) <|
    .head (b := state 1 [] false (.unboundedSend 7 4) .idle [] []) (.fetchSub (i := 7) (n := 4) rfl) <|
    .single (.unboundedSend rfl nofun)
  have hsecond : ReflTransGen Step (state 1 [(7, 4)] false .idle .idle [7] [.ok ()])
      (state 1 [(7, 4)] true (.pending 8 3) .idle [7] [.ok ()]) :=
    .head (b := state 1 [(7, 4)] false (.check 8 3) .idle [7] [.ok ()]) (.send rfl 8 3) <|
    .head (b := state 1 [(7, 4)] false (.register 8 3) .idle [7] [.ok ()])
      (.check (i := 8) (n := 3) rfl) <|
    .head (b := state 1 [(7, 4)] true (.recheck 8 3) .idle [7] [.ok ()]) (.register rfl) <|
    .single (.recheck (i := 8) (n := 3) rfl)
  have hstream : ReflTransGen Step (state 1 [(7, 4)] true (.pending 8 3) .idle [7] [.ok ()])
      ⟨5, 5, [], false, true, .pending 8 3, .idle, [7], [7], [.ok ()]⟩ :=
    .head (b := state 1 [] true (.pending 8 3) (.fetchAdd 7 4) [7] [.ok ()]) (.next rfl rfl) <|
    .head (b := state 5 [] true (.pending 8 3) (.wake 7) [7] [.ok ()]) (.fetchAdd (i := 7) (n := 4) rfl) <|
    .single (.wake (i := 7) rfl)
  have hreach : Reachable 5 _ := (hfirst.trans hsecond).trans hstream
  obtain ⟨-, hconserves, hwakes⟩ := hreach.conserves_and_wakes
  obtain ⟨hcapacity, horder⟩ := hconserves nofun
  exact ⟨_, hreach, rfl, rfl, hcapacity, horder, (hwakes 8 3 rfl (by decide)).resolve_right nofun⟩

def Waits (i : T) (n : Nat) (sink : Sink T) : Prop :=
  sink = .check i n ∨ sink = .register i n ∨ sink = .recheck i n ∨ sink = .pending i n

theorem waits_of_dropped (hsteps : ReflTransGen Step s s') (hstream : s.stream = .dropped)
    (hlt : s.capacity < n)
    (hwaits : Waits i n s.sink) :
    s'.stream = .dropped ∧ s'.capacity < n ∧ Waits i n s'.sink ∧ s'.results = s.results := by
  induction hsteps with
  | refl => exact ⟨hstream, hlt, hwaits, rfl⟩
  | tail _ hstep ih =>
    obtain ⟨hstream, hlt, hwaits, hresults⟩ := ih
    unfold Waits at hwaits ⊢
    cases hstep with
    | check hsink | recheck hsink => rw [if_neg] <;> simp_all
    | _ => simp_all

theorem disconnects_of_load (hsink : s.sink = .load i n) (hstream : s.stream = .dropped)
    (hle : n ≤ s.capacity) :
    ∃ s', ReflTransGen Step s s' ∧ s'.results = s.results ++ [.error .disconnected] := by
  have hload := Step.load hsink
  rw [if_neg (not_lt.mpr hle)] at hload
  have hsub := Step.fetchSub (s := { s with sink := .fetchSub i n }) rfl
  rw [if_pos hle] at hsub
  exact ⟨_, .tail (.tail (.single hload) hsub) (.disconnected rfl hstream), rfl⟩

/-- A send that waits when the stream is gone returns an error exactly if there is enough capacity
for its item. Otherwise it never returns. -/
theorem Reachable.dropped_send_returns_iff (h : Reachable maxItemWeight s) (hstream : s.stream = .dropped)
    (hwaits : Waits i n s.sink) :
    ((∃ s', ReflTransGen Step s s' ∧ s'.results = s.results ++ [.error .disconnected]) ↔ n ≤ s.capacity) ∧
    (s.capacity < n → ∀ s', ReflTransGen Step s s' → Waits i n s'.sink ∧ s'.results = s.results) := by
  have hstays (hlt : s.capacity < n) s' (hsteps : ReflTransGen Step s s') :=
      waits_of_dropped hsteps hstream hlt hwaits
  refine ⟨⟨fun ⟨s', hsteps, hresults⟩ => ?_, fun hle => ?_⟩, fun hlt s' hsteps =>
    (hstays hlt s' hsteps).2.2⟩
  · by_contra hlt
    have hsame := (hstays (not_le.mp hlt) s' hsteps).2.2.2
    simp [hresults] at hsame
  · have hload {s : Buffer T} (hsink : s.sink = .check i n ∨ s.sink = .recheck i n)
        (hstream : s.stream = .dropped)
        (hle : n ≤ s.capacity) :
        ∃ s', ReflTransGen Step s s' ∧ s'.results = s.results ++ [.error .disconnected] := by
      have hstep : Step s { s with sink := .load i n } := by
        rcases hsink with hsink | hsink
        · simpa only [if_pos hle] using Step.check hsink
        · simpa only [if_pos hle] using Step.recheck hsink
      obtain ⟨s', hsteps, hresults⟩ :=
        disconnects_of_load (s := { s with sink := .load i n }) rfl hstream hle
      exact ⟨s', .head hstep hsteps, hresults⟩
    rcases hwaits with hsink | hsink | hsink | hsink
    · exact hload (.inl hsink) hstream hle
    · obtain ⟨s', hsteps, hresults⟩ :=
        hload (s := { s with waker := true, sink := .recheck i n }) (.inr rfl) hstream hle
      exact ⟨s', .head (.register hsink) hsteps, hresults⟩
    · exact hload (.inr hsink) hstream hle
    · -- a waiting appender with enough capacity has been woken, since the stream woke it before it was dropped
      have hwoken : s.woken = true := by
        refine (h.woken_of_pending hsink hle).resolve_right ?_
        rw [hstream]
        nofun
      obtain ⟨s', hsteps, hresults⟩ := hload (s := { s with woken := false, sink := .check i n })
        (.inl rfl) hstream hle
      exact ⟨s', .head (.poll hsink hwoken) hsteps, hresults⟩

theorem dropped_send_returns_newBuffer : ∃ s s' : Buffer Nat, Reachable 5 s ∧ s.stream = .dropped ∧
    s.sink = .check 7 3 ∧ ReflTransGen Step s s' ∧ s'.results = [.error .disconnected] := by
  have hrun := ((ReflTransGen.refl (r := Step) (a := newBuffer Nat 5)).tail (.drop rfl)).tail
      (.send rfl 7 3)
  obtain ⟨s', hsteps, hresults⟩ :=
    (Reachable.dropped_send_returns_iff hrun rfl (.inl rfl)).1.mpr (by decide)
  exact ⟨_, s', hrun, rfl, rfl, hsteps, hresults⟩

/-- The buffer is full when the stream is dropped: the appender that waits is never answered. -/
theorem full_buffer_dropped_never_returns : ∃ s : Buffer Nat, Reachable 1 s ∧ s.stream = .dropped ∧
    s.sink = .pending 8 1 ∧ s.capacity = 0 ∧
    ∀ s', ReflTransGen Step s s' → Waits 8 1 s'.sink ∧ s'.results = s.results := by
  have hfirst := ReflTransGen.single (Step.send (s := newBuffer Nat 1) rfl 7 1)
  have hsent := (((hfirst.tail (.check rfl)).tail (.load rfl)).tail (.fetchSub rfl)).tail
      (.unboundedSend rfl nofun)
  have hpending := (((hsent.tail (.send rfl 8 1)).tail (.check rfl)).tail (.register rfl)).tail
      (.recheck rfl)
  have hdropped := hpending.tail (.drop rfl)
  exact ⟨_, hdropped, rfl, rfl, rfl, fun s' hsteps =>
    (waits_of_dropped hsteps rfl (by decide) (.inr (.inr (.inr rfl)))).2.2⟩

end Cuprate.AsyncBuffer.Buffer
