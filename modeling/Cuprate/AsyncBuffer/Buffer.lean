import Mathlib.Tactic

/-!
# The async buffer

A bounded buffer with one appender and one stream (`p2p/async-buffer/src/lib.rs`), as the atomic
steps of its two sides. `woken` is whether the task of the appender was woken since the last poll.
`sent`, `received` and `results` are histories: the items that were put in and taken out, and what
the sends returned.
-/

namespace Cuprate.AsyncBuffer

/-- The errors of an appender. -/
inductive BufferError where
  | notEnoughCapacity
  | disconnected
deriving DecidableEq, Repr

/-- What the appender does next, with the item it sends and its size, which is at most the maximum
weight. -/
inductive Sink (T : Type) where
  | idle
  /-- The first load of `BufferSinkReady::poll`. -/
  | check (item : T) (sizeNeeded : Nat)
  | register (item : T) (sizeNeeded : Nat)
  /-- The second load of `BufferSinkReady::poll`. -/
  | recheck (item : T) (sizeNeeded : Nat)
  /-- The poll has returned `Pending`. -/
  | pending (item : T) (sizeNeeded : Nat)
  /-- The load of `try_send`. -/
  | load (item : T) (sizeNeeded : Nat)
  | fetchSub (item : T) (sizeNeeded : Nat)
  | unboundedSend (item : T) (sizeNeeded : Nat)
  | panicked

/-- What the stream does next. -/
inductive Stream (T : Type) where
  | idle
  | fetchAdd (item : T) (size : Nat)
  | wake (item : T)
  | dropped

/-- The shared state of the appender and the stream. -/
structure Buffer (T : Type) where
  maxItemWeight : Nat
  capacity : Nat
  queue : List (T × Nat)
  waker : Bool
  woken : Bool
  sink : Sink T
  stream : Stream T
  sent : List T
  received : List T
  results : List (Except BufferError Unit)

variable {T : Type}

/-- A buffer without items. -/
def newBuffer (T : Type) (maxItemWeight : Nat) : Buffer T :=
  ⟨maxItemWeight, maxItemWeight, [], false, false, .idle, .idle, [], [], []⟩

namespace Buffer

/-- The appender returns from `try_send`. -/
def finish (s : Buffer T) (result : Except BufferError Unit) : Buffer T :=
  { s with sink := .idle, results := s.results ++ [result] }

/-- One atomic step of the appender or of the stream. -/
inductive Step (s : Buffer T) : Buffer T → Prop where
  | send (h : s.sink = .idle) (item : T) (size : Nat) :
      Step s { s with sink := .check item (min s.maxItemWeight size) }
  | trySend (h : s.sink = .idle) (item : T) (size : Nat) :
      Step s { s with sink := .load item (min s.maxItemWeight size) }
  | check {i : T} {n : Nat} (h : s.sink = .check i n) :
      Step s { s with sink := if n ≤ s.capacity then .load i n else .register i n }
  | register {i : T} {n : Nat} (h : s.sink = .register i n) : Step s { s with waker := true, sink := .recheck i n }
  | recheck {i : T} {n : Nat} (h : s.sink = .recheck i n) :
      Step s { s with sink := if n ≤ s.capacity then .load i n else .pending i n }
  | poll {i : T} {n : Nat} (h : s.sink = .pending i n) (hwoken : s.woken = true) :
      Step s { s with woken := false, sink := .check i n }
  | load {i : T} {n : Nat} (h : s.sink = .load i n) :
      Step s (if s.capacity < n then s.finish (.error .notEnoughCapacity) else { s with sink := .fetchSub i n })
  | fetchSub {i : T} {n : Nat} (h : s.sink = .fetchSub i n) :
      Step s { s with
        capacity := s.capacity - n
        sink := if n ≤ s.capacity then .unboundedSend i n else .panicked }
  | unboundedSend {i : T} {n : Nat} (h : s.sink = .unboundedSend i n) (hstream : s.stream ≠ .dropped) :
      Step s (finish { s with queue := s.queue ++ [(i, n)], sent := s.sent ++ [i] } (.ok ()))
  | disconnected {i : T} {n : Nat} (h : s.sink = .unboundedSend i n) (hstream : s.stream = .dropped) :
      Step s (s.finish (.error .disconnected))
  | next {i : T} {n : Nat} {queue : List (T × Nat)} (h : s.stream = .idle) (hqueue : s.queue = (i, n) :: queue) :
      Step s { s with queue := queue, stream := .fetchAdd i n }
  | fetchAdd {i : T} {n : Nat} (h : s.stream = .fetchAdd i n) :
      Step s { s with capacity := s.capacity + n, stream := .wake i }
  | wake {i : T} (h : s.stream = .wake i) :
      Step s { s with
        waker := false
        woken := s.woken || s.waker
        stream := .idle
        received := s.received ++ [i] }
  | drop (h : s.stream = .idle) : Step s { s with queue := [], stream := .dropped }

/-- The states of a buffer that was created with the capacity `maxItemWeight`. -/
def Reachable (maxItemWeight : Nat) (s : Buffer T) : Prop :=
  Relation.ReflTransGen Step (newBuffer T maxItemWeight) s

end Buffer

end Cuprate.AsyncBuffer
