import Cuprate.Collections.LeadsTo
import Cuprate.P2P.Proofs.ConnectionProofs

/-!
# Every request is answered

A request that is sent while the task still takes requests from its channel is answered exactly
once. One that is sent on a reserved slot after the task has emptied the channel for the last time
is not.
-/

namespace Cuprate.P2P

open Cuprate.Wire List Activity
open Cuprate.Collections

def Activity.shuttingDown : Activity → Bool
  | .eager _ | .select | .handling | .sendingRequest | .sendingMessage _ => false
  | _ => true

/-- How many statements of `shutdown` come before the channel is emptied. -/
def Activity.stage : Activity → Nat
  | .shutdown _ => 3
  | .settingError _ => 2
  | .flushing _ => 1
  | _ => 0

/-- Whether the task waits for something that ends by itself or has a statement of `shutdown` to
run. -/
def Activity.busy : Activity → Bool
  | .select | .finished | .panicked _ => false
  | _ => true

def Activity.receives : Activity → Bool
  | .leaving | .finished | .panicked _ => false
  | _ => true

namespace System

def Event.goesOn : Event → Bool
  | .finish _ | .shutdown => true
  | _ => false

/-- A request is not sent after the task has looked at its channel for the last time. -/
def SendsInTime (s : System) (e : Event) : Prop :=
  ∀ c e', e = .caller c e' → e'.isCall = true → (s.callers c).sender = .readyToSend →
    s.activity.receives = true

structure NoneLost (s : System) : Prop where
  dropped : s.dropped = []
  queue : s.activity.receives = false → s.queue = []

variable {s s' : System} {e : Event}

theorem receives_of_receiverDropped (h : s.receiverDropped = true) : s.activity.receives = false := by
  rw [receiverDropped] at h
  cases hactivity : s.activity <;> simp_all [receives]

theorem NoneLost.callerStep (h : s.NoneLost) {c : Caller} {e : CallerEvent} (hstep : CallerStep s s' c e)
    (hintime : s.SendsInTime (.caller c e)) : s'.NoneLost := by
  obtain ⟨hactivity, _, _, d, caller, _, heffect⟩ := hstep
  cases heffect with
  | nothing _ _ hqueue _ hdropped => exact ⟨hdropped.trans h.dropped, hactivity ▸ hqueue ▸ h.queue⟩
  | queued hcall hsender _ _ _ _ _ _ _ _ hdropped =>
    refine ⟨hdropped.trans h.dropped, fun hnot => ?_⟩
    rw [hactivity, hintime c e rfl hcall hsender] at hnot
    cases hnot
  | discarded hcall hsender hreceiver =>
    have hnot := receives_of_receiverDropped hreceiver
    rw [hintime c e rfl hcall hsender] at hnot
    cases hnot
  | refused _ _ _ _ _ _ hqueue _ hdropped => exact ⟨hdropped.trans h.dropped, hactivity ▸ hqueue ▸ h.queue⟩

theorem NoneLost.taskStep (h : s.NoneLost) (hstep : TaskStep s e s') : s'.NoneLost := by
  cases hstep with
  | respond hactivity _ _ _ => exact ⟨h.dropped, h.queue⟩
  | drain hactivity hqueue =>
    refine ⟨h.dropped, fun hnot => ?_⟩
    rw [hactivity] at hnot
    cases hnot
  | drained hactivity hqueue => exact ⟨h.dropped, fun _ => hqueue⟩
  | leave hactivity =>
    have hqueue : s.queue = [] := h.queue (by rw [hactivity]; rfl)
    refine ⟨?_, fun _ => rfl⟩
    rw [h.dropped, hqueue]
    rfl
  | _ => exact ⟨h.dropped, by simp [receives]⟩

/-- The steps of a run in which requests are sent in time. -/
structure GoodStep (s : System) (e : Event) (s' : System) : Prop where
  step : Step s e s'
  inv : s.Inv
  noneLost : s.NoneLost
  intime : s.SendsInTime e

theorem GoodStep.noneLost_next (h : GoodStep s e s') : s'.NoneLost := by
  rcases h.inv.step_cases h.step with ⟨c, e', rfl, hcaller⟩ | htask
  · exact h.noneLost.callerStep hcaller h.intime
  · exact h.noneLost.taskStep htask

/-! ## Where a request is -/

section Phases

variable (tx : Nat)

def Answered (s : System) : Prop := tx ∈ s.answered.map (·.1)

def Queued (s : System) : Prop := tx ∈ s.queue.map (·.responseChannel)

def position (s : System) : Nat := (s.queue.map (·.responseChannel)).idxOf tx

def Sending (s : System) : Prop := ∃ req, s.activity = .sendingMessage req ∧ req.responseChannel = tx

def Waiting (s : System) : Prop := ∃ requestId, s.state = .waitingForResponse requestId tx

variable {tx}

theorem Inv.phases (h : s.Inv) (hlost : s.NoneLost) (htx : tx < s.calls.length) :
    s.Queued tx ∨ s.Sending tx ∨ s.Waiting tx ∨ s.Answered tx := by
  have hmem : tx ∈ s.owned.map (·.1) ++ s.answered.map (·.1) ++ s.dropped :=
    h.ledger.channels.mem_iff.mpr (mem_range.mpr htx)
  rw [hlost.dropped, append_nil, mem_append, owned, map_append, map_append, mem_append, mem_append,
    map_map] at hmem
  rcases hmem with ((hqueue | hstate) | hactivity) | hanswered
  · exact .inl hqueue
  · refine .inr (.inr (.inl ?_))
    cases hs : s.state with
    | waitingForRequest => simp [hs, State.owned] at hstate
    | waitingForResponse requestId tx' =>
      simp [hs, State.owned] at hstate
      exact ⟨requestId, hstate ▸ hs⟩
  · refine .inr (.inl ?_)
    cases hs : s.activity with
    | sendingMessage req =>
      simp [hs, Activity.owned] at hactivity
      exact ⟨req, hs, hactivity.symm⟩
    | _ => simp [hs, Activity.owned] at hactivity
  · exact .inr (.inr (.inr hanswered))

section
variable {c : Caller} {e : CallerEvent} (hstep : CallerStep s s' c e)
include hstep

theorem CallerStep.appends :
    s.queue <+: s'.queue ∧ s.answered <+: s'.answered := by
  obtain ⟨_, _, _, d, caller, _, heffect⟩ := hstep
  cases heffect with
  | nothing _ _ hqueue hanswered _ => simp [hqueue, hanswered]
  | queued _ _ _ _ _ _ _ _ hqueue hanswered _ => simp [hqueue, hanswered]
  | discarded _ _ _ _ _ _ _ _ hqueue hanswered _ => simp [hqueue, hanswered]
  | refused _ _ _ _ _ _ hqueue hanswered _ => simp [hqueue, hanswered]

theorem CallerStep.queued (h : s.Queued tx) :
    s'.Queued tx ∧ s'.position tx = s.position tx := by
  obtain ⟨new, hqueue⟩ := hstep.appends.1
  rw [Queued, position, position, ← hqueue, map_append]
  exact ⟨mem_append_left _ h, idxOf_append_of_mem h⟩

end

theorem Queued.take {req : ConnectionTaskRequest} {rest : List ConnectionTaskRequest} (h : s.Queued tx)
    (hqueue : s.queue = req :: rest) :
    req.responseChannel = tx ∨
      (tx ∈ rest.map (·.responseChannel) ∧ (rest.map (·.responseChannel)).idxOf tx < s.position tx) := by
  rw [Queued, hqueue, map_cons, mem_cons] at h
  by_cases hreq : req.responseChannel = tx
  · exact .inl hreq
  · rcases h with heq | hrest
    · exact absurd heq.symm hreq
    · refine .inr ⟨hrest, ?_⟩
      rw [position, hqueue, map_cons, idxOf_cons_ne _ hreq]
      exact Nat.lt_succ_self _

theorem answered_append {res : Except PeerError PeerResponse}
    (h : s'.answered = s.answered ++ [(tx, res)]) : s'.Answered tx := by
  rw [Answered, h]
  simp

end Phases

section Progress

variable {tx : Nat}

theorem TaskStep.sending (hstep : TaskStep s e s') (h : s.Sending tx) : s'.Answered tx := by
  obtain ⟨req, hreq, rfl⟩ := h
  cases hstep with
  | messageSent hactivity =>
    cases hreq.symm.trans hactivity
    exact answered_append rfl
  | messageNotSent err hactivity =>
    cases hreq.symm.trans hactivity
    exact answered_append rfl
  | fail err hactivity _ =>
    rw [hreq] at hactivity
    cases hactivity
  | _ => simp_all

theorem Inv.taskStep_waiting (h : s.Inv) (hstep : TaskStep s e s') (hdown : s.activity.shuttingDown = true)
    (hwait : s.Waiting tx) :
    s'.Answered tx ∨ ((s'.activity.shuttingDown = true ∧ s'.Waiting tx) ∧
      s'.activity.stage < s.activity.stage) := by
  obtain ⟨requestId, hstate⟩ := hwait
  have hflushed : s.activity.flushed = false := by
    rw [Bool.eq_false_iff]
    intro hflushed
    rw [h.consistent.flushed hflushed] at hstate
    cases hstate
  cases hstep with
  | close hactivity => exact .inr ⟨⟨rfl, requestId, hstate⟩, by rw [hactivity]; exact Nat.lt_succ_self _⟩
  | setError hactivity =>
      exact .inr ⟨⟨rfl, requestId, hstate⟩, by rw [hactivity]; exact Nat.lt_succ_self _⟩
  | flush hactivity hstate' =>
    cases hstate.symm.trans hstate'
    exact .inl (answered_append rfl)
  | fail err hactivity _ => cases hact : s.activity <;> simp_all [mayFail, shuttingDown]
  | _ => simp_all [shuttingDown, flushed]

/-- A task that shuts down comes closer to the answer to a request in the channel. -/
theorem NoneLost.taskStep_queued (h : s.NoneLost) (hstep : TaskStep s e s')
    (hdown : s.activity.shuttingDown = true)
    (hqueued : s.Queued tx) :
    s'.Answered tx ∨ ((s'.activity.shuttingDown = true ∧ s'.Queued tx) ∧
        s'.activity.stage + s'.position tx < s.activity.stage + s.position tx) := by
  have hnonempty : s.queue ≠ [] := by
    intro hempty
    rw [Queued, hempty] at hqueued
    cases hqueued
  have hreceives : s.activity.receives = true := by
    by_contra hnot
    exact hnonempty (h.queue (Bool.eq_false_iff.mpr hnot))
  cases hstep with
  | close hactivity =>
    exact .inr ⟨⟨rfl, hqueued⟩, Nat.add_lt_add_right (by rw [hactivity]; exact Nat.lt_succ_self _) _⟩
  | setError hactivity =>
    exact .inr ⟨⟨rfl, hqueued⟩, Nat.add_lt_add_right (by rw [hactivity]; exact Nat.lt_succ_self _) _⟩
  | flushNothing hactivity hstate =>
    exact .inr ⟨⟨rfl, hqueued⟩, Nat.add_lt_add_right (by rw [hactivity]; exact Nat.lt_succ_self _) _⟩
  | flush hactivity hstate =>
    exact .inr ⟨⟨rfl, hqueued⟩, Nat.add_lt_add_right (by rw [hactivity]; exact Nat.lt_succ_self _) _⟩
  | drain hactivity hqueue =>
    rcases hqueued.take hqueue with rfl | ⟨hqueued', hposition⟩
    · exact .inl (answered_append rfl)
    · exact .inr ⟨⟨hdown, hqueued'⟩, Nat.add_lt_add_left hposition _⟩
  | drained hactivity hqueue => exact absurd hqueue hnonempty
  | fail err hactivity _ => cases hact : s.activity <;> simp_all [mayFail, shuttingDown]
  | _ => simp_all [shuttingDown, receives]

theorem TaskStep.sendingRequest (hstep : TaskStep s e s') (hactivity : s.activity = .sendingRequest)
    (hwait : s.Waiting tx) : (s'.requestTimeout = true ∧ s'.activity.inLoop = true ∧ s'.Waiting tx) ∨
      (s'.activity.shuttingDown = true ∧ s'.Waiting tx) := by
  cases hstep with
  | requestSent _ => exact .inl ⟨rfl, rfl, hwait⟩
  | fail err _ _ => exact .inr ⟨rfl, hwait⟩
  | _ => simp_all

theorem TaskStep.timeout (hstep : TaskStep s e s') (htimeout : s.requestTimeout = true)
    (hloop : s.activity.inLoop = true) (hwait : s.Waiting tx) :
    s'.Answered tx ∨ (s'.activity.shuttingDown = true ∧ s'.Waiting tx) ∨
      ((s'.requestTimeout = true ∧ s'.activity.inLoop = true ∧ s'.Waiting tx) ∧ e ≠ .select .timeout) := by
  obtain ⟨requestId, hstate⟩ := hwait
  cases hstep with
  | handle hactivity he =>
    refine .inr (.inr ⟨⟨htimeout, rfl, requestId, hstate⟩, ?_⟩)
    rcases he with rfl | ⟨mes, rfl⟩ <;> simp
  | handled hactivity => exact .inr (.inr ⟨⟨htimeout, rfl, requestId, hstate⟩, by simp⟩)
  | fail err hactivity _ => exact .inr (.inl ⟨rfl, requestId, hstate⟩)
  | takeMessage hactivity hqueue hneeds => exact .inr (.inr ⟨⟨htimeout, rfl, requestId, hstate⟩, by simp⟩)
  | respond hactivity hstate' _ _ =>
    cases hstate.symm.trans hstate'
    exact .inl (answered_append rfl)
  | messageSent hactivity => exact .inr (.inr ⟨⟨htimeout, rfl, requestId, hstate⟩, by simp⟩)
  | messageNotSent err hactivity => exact .inr (.inl ⟨rfl, requestId, hstate⟩)
  | _ => simp_all [inLoop]

/-- While the task does not shut down, a request in the channel is taken or moves up. -/
theorem TaskStep.queued (hstep : TaskStep s e s') (hdown : s.activity.shuttingDown = false)
    (hqueued : s.Queued tx) :
    (s'.Sending tx ∨ s'.Waiting tx ∨ (s'.activity.shuttingDown = true ∧ s'.Queued tx)) ∨
      ((s'.activity.shuttingDown = false ∧ s'.Queued tx) ∧
        (s'.position tx < s.position tx ∨
          (s'.position tx = s.position tx ∧ e ≠ .select .clientRequest))) := by
  cases hstep with
  | eager res hactivity => exact .inr ⟨⟨rfl, hqueued⟩, .inr ⟨rfl, by simp⟩⟩
  | start res hactivity => exact .inr ⟨⟨rfl, hqueued⟩, .inr ⟨rfl, by simp⟩⟩
  | handle hactivity he =>
    refine .inr ⟨⟨rfl, hqueued⟩, .inr ⟨rfl, ?_⟩⟩
    rcases he with rfl | ⟨mes, rfl⟩ <;> simp
  | handled hactivity => exact .inr ⟨⟨rfl, hqueued⟩, .inr ⟨rfl, by simp⟩⟩
  | fail err hactivity _ => exact .inl (.inr (.inr ⟨rfl, hqueued⟩))
  | takeRequest hactivity hqueue _ _ _ =>
    rcases hqueued.take hqueue with rfl | ⟨hqueued', hposition⟩
    · exact .inl (.inr (.inl ⟨_, rfl⟩))
    · exact .inr ⟨⟨rfl, hqueued'⟩, .inl hposition⟩
  | takeMessage hactivity hqueue _ =>
    rcases hqueued.take hqueue with rfl | ⟨hqueued', hposition⟩
    · exact .inl (.inl ⟨_, rfl, rfl⟩)
    · exact .inr ⟨⟨rfl, hqueued'⟩, .inl hposition⟩
  | requestSent hactivity => exact .inr ⟨⟨rfl, hqueued⟩, .inr ⟨rfl, by simp⟩⟩
  | respond hactivity _ _ _ => exact .inr ⟨⟨hdown, hqueued⟩, .inr ⟨rfl, by simp⟩⟩
  | messageSent hactivity => exact .inr ⟨⟨rfl, hqueued⟩, .inr ⟨rfl, by simp⟩⟩
  | messageNotSent err hactivity => exact .inl (.inr (.inr ⟨rfl, hqueued⟩))
  | _ => simp_all [shuttingDown]

end Progress

/-! ## Executions -/

/-- The task runs again, a request that waits in the channel gets its turn in the `select!`, and a
timeout that is set fires. -/
structure Fair (states : Nat → System) (events : Nat → Option Event) : Prop where
  task : ∀ n, (states n).activity.busy = true →
    ∃ m, n ≤ m ∧ ((∃ e, events m = some e ∧ e.goesOn = true) ∨ (states m).activity.busy = false)
  clientRequest : ∀ n, (states n).queue ≠ [] → (states n).activity.shuttingDown = false →
    ∃ m, n ≤ m ∧ (events m = some (.select .clientRequest) ∨ (states m).queue = [] ∨
      (states m).activity.shuttingDown = true)
  timeout : ∀ n, (states n).requestTimeout = true → (states n).activity.shuttingDown = false →
    ∃ m, n ≤ m ∧ (events m = some (.select .timeout) ∨ (states m).requestTimeout = false ∨
      (states m).activity.shuttingDown = true)

section Executions

variable {states : Nat → System} {events : Nat → Option Event} (hrun : Execution GoodStep states events)
  (hinv : ∀ n, (states n).Inv) (hlost : ∀ n, (states n).NoneLost) (hfair : Fair states events) (tx : Nat)

include hrun hinv hlost hfair

theorem leadsTo_of_task {P Q : System → Prop} (rank : System → Nat)
    (hbusy : ∀ s, s.Inv → s.NoneLost → P s → s.activity.busy = true)
    (hcaller : ∀ s s' c e, CallerStep s s' c e → P s → P s' ∧ rank s' = rank s)
    (htask : ∀ s e s', s.Inv → s.NoneLost → TaskStep s e s' → P s → Q s' ∨ (P s' ∧ rank s' < rank s)) :
    LeadsTo states P Q := by
  refine .of_rank hrun rank (fun e => e.goesOn = true) ?_ ?_
  · intro s e s' hstep h
    rcases hstep.inv.step_cases hstep.step with ⟨c, e', rfl, hstep'⟩ | hstep'
    · obtain ⟨h', hrank⟩ := hcaller s s' c e' hstep' h
      exact .inr ⟨h', .inr ⟨hrank, nofun⟩⟩
    · exact (htask s e s' hstep.inv hstep.noneLost hstep' h).imp_right fun ⟨h', hrank⟩ => ⟨h', .inl hrank⟩
  · intro n h
    obtain ⟨m, hle, hm⟩ := hfair.task n (hbusy _ (hinv n) (hlost n) h)
    refine ⟨m, hle, hm.imp_right fun hnot h' => ?_⟩
    rw [hbusy _ (hinv m) (hlost m) h'] at hnot
    cases hnot

theorem sending_leadsTo_answered : LeadsTo states (Sending tx) (Answered tx) := by
  refine leadsTo_of_task hrun hinv hlost hfair (fun _ => 0) ?_ ?_ ?_
  · rintro s _ _ ⟨req, hreq, _⟩
    rw [hreq]
    rfl
  · rintro s s' c e hstep ⟨req, hreq, htx⟩
    exact ⟨⟨req, hstep.activity.trans hreq, htx⟩, rfl⟩
  · intro s e s' _ _ hstep h
    exact .inl (hstep.sending h)

theorem waiting_leadsTo_answered_of_shuttingDown :
    LeadsTo states (fun s => s.activity.shuttingDown = true ∧ s.Waiting tx) (Answered tx) := by
  refine leadsTo_of_task hrun hinv hlost hfair (fun s => s.activity.stage) ?_ ?_ ?_
  · rintro s hs _ ⟨hdown, requestId, hstate⟩
    cases hactivity : s.activity with
    | select => rw [hactivity] at hdown; cases hdown
    | finished =>
      rw [hs.consistent.flushed (by rw [hactivity]; rfl)] at hstate
      cases hstate
    | panicked panic => exact absurd hactivity (hs.consistent.running panic)
    | _ => rfl
  · rintro s s' c e hstep ⟨hdown, requestId, hstate⟩
    exact ⟨⟨hstep.activity ▸ hdown, requestId, hstep.state.trans hstate⟩, by rw [hstep.activity]⟩
  · rintro s e s' hs _ hstep ⟨hdown, hwait⟩
    exact hs.taskStep_waiting hstep hdown hwait

theorem queued_leadsTo_answered_of_shuttingDown :
    LeadsTo states (fun s => s.activity.shuttingDown = true ∧ s.Queued tx) (Answered tx) := by
  refine leadsTo_of_task hrun hinv hlost hfair (fun s => s.activity.stage + s.position tx) ?_ ?_ ?_
  · rintro s hs hsent ⟨hdown, hqueued⟩
    have hempty : s.activity.receives = false → False := by
      intro hnot
      rw [Queued, hsent.queue hnot] at hqueued
      cases hqueued
    cases hactivity : s.activity with
    | select => rw [hactivity] at hdown; cases hdown
    | finished => exact (hempty (by rw [hactivity]; rfl)).elim
    | panicked panic => exact absurd hactivity (hs.consistent.running panic)
    | _ => rfl
  · rintro s s' c e hstep ⟨hdown, hqueued⟩
    obtain ⟨hqueued', hposition⟩ := hstep.queued hqueued
    exact ⟨⟨hstep.activity ▸ hdown, hqueued'⟩, by rw [hstep.activity, hposition]⟩
  · rintro s e s' _ hsent hstep ⟨hdown, hqueued⟩
    exact hsent.taskStep_queued hstep hdown hqueued

theorem sendingRequest_leadsTo : LeadsTo states (fun s => s.activity = .sendingRequest ∧ s.Waiting tx)
      (fun s => (s.requestTimeout = true ∧ s.activity.inLoop = true ∧ s.Waiting tx) ∨
        (s.activity.shuttingDown = true ∧ s.Waiting tx)) := by
  refine leadsTo_of_task hrun hinv hlost hfair (fun _ => 0) ?_ ?_ ?_
  · rintro s _ _ ⟨hactivity, _⟩
    rw [hactivity]
    rfl
  · rintro s s' c e hstep ⟨hactivity, requestId, hstate⟩
    exact ⟨⟨hstep.activity.trans hactivity, requestId, hstep.state.trans hstate⟩, rfl⟩
  · rintro s e s' _ _ hstep ⟨hactivity, hwait⟩
    exact .inl (hstep.sendingRequest hactivity hwait)

omit hinv hlost in
/-- A request whose timeout is set is answered, or the task shuts down. -/
theorem timeout_leadsTo :
    LeadsTo states (fun s => s.requestTimeout = true ∧ s.activity.inLoop = true ∧ s.Waiting tx)
      (fun s => s.Answered tx ∨ (s.activity.shuttingDown = true ∧ s.Waiting tx)) := by
  refine .of_rank hrun (fun _ => 0) (fun e => e = .select .timeout) ?_ ?_
  · rintro s e s' hstep ⟨htimeout, hloop, hwait⟩
    rcases hstep.inv.step_cases hstep.step with ⟨c, e', rfl, hcaller⟩ | htask
    · obtain ⟨requestId, hstate⟩ := hwait
      refine .inr ⟨⟨hcaller.requestTimeout.trans htimeout, ?_, requestId, hcaller.state.trans hstate⟩,
        .inr ⟨rfl, nofun⟩⟩
      rw [hcaller.activity]
      exact hloop
    · rcases htask.timeout htimeout hloop hwait with hanswered | hdown | ⟨hkeep, hne⟩
      · exact .inl (.inl hanswered)
      · exact .inl (.inr hdown)
      · exact .inr ⟨hkeep, .inr ⟨rfl, hne⟩⟩
  · rintro n ⟨htimeout, hloop, _⟩
    have hdown : ∀ m, (states m).activity.inLoop = true → (states m).activity.shuttingDown = false := by
      intro m hm
      cases hactivity : (states m).activity <;> simp_all [inLoop, shuttingDown]
    obtain ⟨m, hle, hm⟩ := hfair.timeout n htimeout (hdown n hloop)
    refine ⟨m, hle, ?_⟩
    rcases hm with hevent | hunset | hshutting
    · exact .inl ⟨_, hevent, rfl⟩
    · refine .inr fun h => ?_
      rw [h.1] at hunset
      cases hunset
    · refine .inr fun h => ?_
      rw [hdown m h.2.1] at hshutting
      cases hshutting

theorem waiting_leadsTo_answered : LeadsTo states (Waiting tx) (Answered tx) := by
  have hdown := waiting_leadsTo_answered_of_shuttingDown hrun hinv hlost hfair tx
  have htimeout := (timeout_leadsTo hrun hfair tx).trans
    ((LeadsTo.of_imp fun _ h => h).or hdown)
  have hsending := (sendingRequest_leadsTo hrun hinv hlost hfair tx).trans (htimeout.or hdown)
  intro n h
  obtain ⟨requestId, hstate⟩ := h
  have hconsistent := (hinv n).consistent
  have htimer := hconsistent.timeout requestId tx hstate
  cases hactivity : (states n).activity with
  | eager messages =>
    rw [hconsistent.eager messages hactivity] at hstate
    cases hstate
  | sendingRequest => exact hsending n ⟨hactivity, requestId, hstate⟩
  | select =>
    rw [hactivity] at htimer
    exact htimeout n ⟨htimer rfl, by rw [hactivity]; rfl, requestId, hstate⟩
  | handling =>
    rw [hactivity] at htimer
    exact htimeout n ⟨htimer rfl, by rw [hactivity]; rfl, requestId, hstate⟩
  | sendingMessage req =>
    rw [hactivity] at htimer
    exact htimeout n ⟨htimer rfl, by rw [hactivity]; rfl, requestId, hstate⟩
  | _ => exact hdown n ⟨by rw [hactivity]; rfl, requestId, hstate⟩

omit hinv hlost in
theorem queued_leadsTo : LeadsTo states (fun s => s.activity.shuttingDown = false ∧ s.Queued tx)
      (fun s => s.Sending tx ∨ s.Waiting tx ∨ (s.activity.shuttingDown = true ∧ s.Queued tx)) := by
  refine .of_rank hrun (position tx) (fun e => e = .select .clientRequest) ?_ ?_
  · rintro s e s' hstep ⟨hdown, hqueued⟩
    rcases hstep.inv.step_cases hstep.step with ⟨c, e', rfl, hcaller⟩ | htask
    · obtain ⟨hqueued', hposition⟩ := hcaller.queued hqueued
      exact .inr ⟨⟨hcaller.activity ▸ hdown, hqueued'⟩, .inr ⟨hposition, nofun⟩⟩
    · exact htask.queued hdown hqueued
  · rintro n ⟨hdown, hqueued⟩
    have hnonempty : ∀ m, (states m).Queued tx → (states m).queue ≠ [] := by
      intro m hm hempty
      rw [Queued, hempty] at hm
      cases hm
    obtain ⟨m, hle, hm⟩ := hfair.clientRequest n (hnonempty n hqueued) hdown
    refine ⟨m, hle, ?_⟩
    rcases hm with hevent | hempty | hshutting
    · exact .inl ⟨_, hevent, rfl⟩
    · exact .inr fun h => hnonempty m h.2 hempty
    · refine .inr fun h => ?_
      rw [h.1] at hshutting
      cases hshutting

theorem queued_leadsTo_answered : LeadsTo states (Queued tx) (Answered tx) := by
  have hdown := queued_leadsTo_answered_of_shuttingDown hrun hinv hlost hfair tx
  have hloop := (queued_leadsTo hrun hfair tx).trans
    ((sending_leadsTo_answered hrun hinv hlost hfair tx).or
      ((waiting_leadsTo_answered hrun hinv hlost hfair tx).or hdown))
  intro n h
  cases hactivity : (states n).activity.shuttingDown with
  | true => exact hdown n ⟨hactivity, h⟩
  | false => exact hloop n ⟨hactivity, h⟩

theorem eventually_answered {n : Nat} (htx : tx < (states n).calls.length) :
    ∃ m, n ≤ m ∧ (states m).Answered tx := by
  rcases (hinv n).phases (hlost n) htx with h | h | h | h
  · exact queued_leadsTo_answered hrun hinv hlost hfair tx n h
  · exact sending_leadsTo_answered hrun hinv hlost hfair tx n h
  · exact waiting_leadsTo_answered hrun hinv hlost hfair tx n h
  · exact ⟨n, le_rfl, h⟩

end Executions

theorem Inv.step_answered_append (h : s.Inv) (hstep : Step s e s') : s.answered <+: s'.answered := by
  rcases h.step_cases hstep with ⟨c, e', rfl, hcaller⟩ | htask
  · exact hcaller.appends.2
  · cases htask with
    | respond _ _ _ _ => exact prefix_append ..
    | messageSent _ => exact prefix_append ..
    | messageNotSent _ _ => exact prefix_append ..
    | flush _ _ => exact prefix_append ..
    | drain _ _ => exact prefix_append ..
    | _ => exact prefix_rfl

theorem Inv.count_answered_le_one (h : s.Inv) (tx : Nat) : (s.answered.map (·.1)).count tx ≤ 1 := by
  have hnodup := h.ledger.channels.nodup_iff.mpr nodup_range
  have hanswered : (s.answered.map (·.1)).Nodup := hnodup.of_append_left.of_append_right
  exact nodup_iff_count_le_one.mp hanswered tx

/-- In every fair execution in which no request is sent after the task has last looked at its
channel, every request is answered exactly once and its response channel is never dropped
unanswered. -/
theorem answered_exactly_once {messages : List ProtocolMessage} {states : Nat →
    System} {events : Nat → Option Event}
    (hstart : states 0 = new messages) (hrun : Execution Step states events) (hfair : Fair states events)
    (hintime : ∀ n e, events n = some e → (states n).SendsInTime e) {n tx : Nat}
    (htx : tx < (states n).calls.length) :
    (∀ m, tx ∉ (states m).dropped ∧ ((states m).answered.map (·.1)).count tx ≤ 1) ∧
      ∃ m, ∀ k, m ≤ k → ((states k).answered.map (·.1)).count tx = 1 := by
  have hinv : ∀ n, (states n).Inv :=
    hrun.invariant (hstart ▸ inv_new messages) fun n e _ hstep h => h.step hstep
  have hlost : ∀ n, (states n).NoneLost := by
    refine hrun.invariant (hstart ▸ ⟨rfl, fun _ => rfl⟩) fun n e hevent hstep h => ?_
    exact GoodStep.noneLost_next ⟨hstep, hinv n, h, hintime n e hevent⟩
  have hgood : Execution GoodStep states events := by
    intro n
    have hstep := hrun n
    cases hevent : events n with
    | none =>
      rw [hevent] at hstep
      exact hstep
    | some e =>
      rw [hevent] at hstep
      exact ⟨hstep, hinv n, hlost n, hintime n e hevent⟩
  refine ⟨fun m => ⟨?_, (hinv m).count_answered_le_one tx⟩, ?_⟩
  · rw [(hlost m).dropped]
    exact not_mem_nil
  · obtain ⟨m, _, hanswered⟩ := eventually_answered hgood hinv hlost hfair tx htx
    refine ⟨m, fun k hk => le_antisymm ((hinv k).count_answered_le_one tx) ?_⟩
    have hstays : (states k).Answered tx := by
      refine hgood.stable (fun s e s' hstep h => ?_) hk hanswered
      obtain ⟨new, hnew⟩ := hstep.inv.step_answered_append hstep.step
      rw [Answered, ← hnew, map_append]
      exact mem_append_left _ h
    exact one_le_count_iff.mpr hstays

def pingEvents : List Event :=
  [.finish (.ok ()), .caller .client .checkError, .caller .client .acquire, .caller .client .reserve,
    .caller .client (.call (.admin .ping)), .select .clientRequest, .finish (.ok ()),
    .select (.peerMessage (.response (.ping { status := [], peerId := 1 })))]

theorem answered_exactly_once_ping : ∃ states events, states 0 = new [] ∧ Execution Step states events ∧
    ∃ m, ∀ k, m ≤ k → ((states k).answered.map (·.1)).count 0 = 1 := by
  have hrun : Execution Step (follow step (new []) pingEvents) (fun n => pingEvents[n]?) := by
    refine execution_follow fun n hn e he => ?_
    have hn : n < 8 := hn
    interval_cases n <;> cases he <;> rfl
  have hend : ∀ n, follow step (new []) pingEvents (max n 8) = follow step (new []) pingEvents 8 :=
    fun n => follow_of_length_le (le_max_right n 8)
  have hfair : Fair (follow step (new []) pingEvents) (fun n => pingEvents[n]?) := by
    refine ⟨fun n _ => ⟨max n 8, le_max_left n 8, .inr ?_⟩, fun n _ _ => ⟨max n 8, le_max_left n 8, ?_⟩,
      fun n _ _ => ⟨max n 8, le_max_left n 8, ?_⟩⟩
    · rw [hend]
      rfl
    · rw [hend]
      exact .inr (.inl rfl)
    · rw [hend]
      exact .inr (.inl rfl)
  have hintime : ∀ n e, pingEvents[n]? = some e → (follow step (new []) pingEvents n).SendsInTime e := by
    intro n e he c e' _ _ _
    have hn : n < 8 := (List.getElem?_eq_some_iff.mp he).1
    interval_cases n <;> rfl
  have htx : 0 < (follow step (new []) pingEvents 8).calls.length := by decide
  exact ⟨_, _, rfl, hrun, (answered_exactly_once rfl hrun hfair hintime htx).2⟩

/-- The client has a slot when the task shuts down, and sends its ping when the task is gone. -/
theorem late_request_is_dropped : ∃ run, Run Step (new []) run ∧
    ∃ s ∈ Collections.states (new []) run, s.calls.length = 1 ∧ s.answered.map (·.1) = [] ∧
      s.dropped = [0] := by
  have hrun : Run Step (new [])
      [⟨_, .finish (.ok ()), _⟩, ⟨_, .caller .client .checkError, _⟩, ⟨_, .caller .client .acquire, _⟩,
        ⟨_, .caller .client .reserve, _⟩, ⟨_, .select (.fail .connectionClosed), _⟩, ⟨_, .shutdown, _⟩,
        ⟨_, .shutdown, _⟩, ⟨_, .shutdown, _⟩, ⟨_, .shutdown, _⟩, ⟨_, .shutdown, _⟩,
        ⟨_, .caller .client (.call (.admin .ping)), _⟩] :=
    .cons rfl (.cons rfl (.cons rfl
      (.cons rfl (.cons rfl (.cons rfl (.cons rfl (.cons rfl (.cons rfl (.cons rfl
      (.cons rfl (.nil _)))))))))))
  refine ⟨_, hrun, _, mem_cons_of_mem _ (mem_of_getLast? rfl), rfl, rfl, rfl⟩

end System

end Cuprate.P2P
