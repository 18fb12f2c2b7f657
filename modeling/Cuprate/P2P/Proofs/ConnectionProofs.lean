import Cuprate.Collections.Transitions
import Cuprate.P2P.Proofs.ConnectionStepsProofs

/-!
# One request at a time

The permit of the semaphore is in one place at a time, and each response channel is pending,
answered or dropped, and only one of these. So the task never finds a second request that needs a
response.
-/

namespace Cuprate.P2P

open Cuprate.Wire List
open Activity (inLoop flushed)
open Cuprate.Collections

namespace System

/-! ## The ledger -/

theorem owned_enqueue (s : System) (req : ConnectionTaskRequest) :
    ({ s with queue := s.queue ++ [req] }.owned).Perm (req.owned :: s.owned) := by
  simp only [owned, map_append, map_cons, map_nil, append_assoc]
  exact perm_middle

variable {request : PeerRequest}

namespace Ledger

variable {s s' : System}

theorem task (h : s.Ledger) (hcallers : s'.callers = s.callers)
    (hpermits : s'.semaphore + s'.owned.countP (·.2) ≤ s.semaphore + s.owned.countP (·.2))
    (hchannels : (s'.owned.map (·.1) ++ s'.answered.map (·.1) ++ s'.dropped).Perm
      (s.owned.map (·.1) ++ s.answered.map (·.1) ++ s.dropped))
    (hcalls : s'.calls = s.calls) : s'.Ledger where
  permits cs := by
    have hold := h.permits cs
    rw [hcallers]
    omega
  channels := by
    rw [hcalls]
    exact hchannels.trans h.channels

theorem move (h : s.Ledger) (hcallers : s'.callers = s.callers) (hsemaphore : s'.semaphore = s.semaphore)
    (howned : s'.owned.Perm s.owned) (hanswered : s'.answered = s.answered)
      (hdropped : s'.dropped = s.dropped)
    (hcalls : s'.calls = s.calls) : s'.Ledger := by
  refine h.task hcallers ?_ ?_ hcalls
  · rw [hsemaphore, howned.countP_eq]
  · rw [hanswered, hdropped]
    exact ((howned.map _).append_right _).append_right _

theorem settle (h : s.Ledger) (tx : Nat) (permit : Bool) (res : Except PeerError PeerResponse)
    (hcallers : s'.callers = s.callers) (hsemaphore : s'.semaphore = s.semaphore + permit.toNat)
    (howned : s.owned.Perm ((tx, permit) :: s'.owned))
      (hanswered : s'.answered = s.answered ++ [(tx, res)])
    (hdropped : s'.dropped = s.dropped) (hcalls : s'.calls = s.calls) : s'.Ledger := by
  refine h.task hcallers ?_ ?_ hcalls
  · rw [howned.countP_eq, hsemaphore]
    cases permit with
    | false => simp
    | true => simp; omega
  · rw [hanswered, hdropped]
    have hmap := ((howned.map (·.1)).append_right (s.answered.map (·.1))).append_right s.dropped
    refine List.Perm.trans ?_ hmap.symm
    refine List.Perm.append_right _ ?_
    rw [map_append, map_singleton, map_cons, cons_append, ← append_assoc]
    exact perm_append_singleton _ _

variable (h : s.Ledger) (c : Caller) (caller : CallerState)
  (hcallers : s'.callers = Function.update s.callers c caller)

include h hcallers

theorem of_caller (hpermits : s'.semaphore + caller.permit.toNat + s'.owned.countP (·.2)
      ≤ s.semaphore + (s.callers c).permit.toNat + s.owned.countP (·.2))
    (hchannels : (s'.owned.map (·.1) ++ s'.answered.map (·.1) ++ s'.dropped).Perm
      (List.range s'.calls.length)) : s'.Ledger where
  permits cs := by
    -- It is enough to count the permits of a set of callers with `c` in it.
    have hle : ∑ d ∈ cs, (s'.callers d).permit.toNat ≤ ∑ d ∈ insert c cs, (s'.callers d).permit.toNat :=
      Finset.sum_le_sum_of_subset (Finset.subset_insert c cs)
    have hold := h.permits (insert c cs)
    have hmem : c ∈ insert c cs := Finset.mem_insert_self c cs
    rw [← Finset.add_sum_erase _ _ hmem] at hold hle
    have hrest : ∑ d ∈ (insert c cs).erase c, (s'.callers d).permit.toNat
        = ∑ d ∈ (insert c cs).erase c, (s.callers d).permit.toNat := by
      refine Finset.sum_congr rfl fun d hd => ?_
      rw [hcallers, Function.update_of_ne (Finset.ne_of_mem_erase hd)]
    have hc : (s'.callers c).permit = caller.permit := by rw [hcallers, Function.update_self]
    rw [hrest, hc] at hle
    omega
  channels := hchannels

variable {permit : Bool}

theorem issue (hsemaphore : s'.semaphore = s.semaphore)
    (hpermit : caller.permit.toNat + permit.toNat ≤ (s.callers c).permit.toNat)
    (howned : s'.owned.Perm ((s.calls.length, permit) :: s.owned)) (hanswered : s'.answered = s.answered)
    (hdropped : s'.dropped = s.dropped) (hcalls : s'.calls = s.calls ++ [request]) : s'.Ledger := by
  refine h.of_caller c caller hcallers ?_ ?_
  · rw [howned.countP_eq, hsemaphore, countP_cons]
    have hcount : (if permit = true then 1 else 0) = permit.toNat := by cases permit <;> rfl
    rw [hcount]
    omega
  · rw [hanswered, hdropped, hcalls, length_append, length_singleton, range_succ]
    refine List.Perm.trans (((howned.map _).append_right _).append_right _) ?_
    rw [map_cons, cons_append, cons_append]
    exact (h.channels.cons _).trans (perm_append_singleton _ _).symm

theorem poll (hpermits : s'.semaphore + caller.permit.toNat ≤ s.semaphore + (s.callers c).permit.toNat)
    (howned : s'.owned = s.owned) (hanswered : s'.answered = s.answered)
      (hdropped : s'.dropped = s.dropped)
    (hcalls : s'.calls = s.calls) : s'.Ledger := by
  refine h.of_caller c caller hcallers ?_ ?_
  · rw [howned]
    omega
  · rw [howned, hanswered, hdropped, hcalls]
    exact h.channels

variable (hsemaphore : s'.semaphore = s.semaphore + permit.toNat)
  (hpermit : caller.permit.toNat + permit.toNat ≤ (s.callers c).permit.toNat) (howned : s'.owned = s.owned)
  (hcalls : s'.calls = s.calls ++ [request])

include hsemaphore hpermit howned hcalls

theorem reject {res : Except PeerError PeerResponse}
    (hanswered : s'.answered = s.answered ++ [(s.calls.length, res)]) (hdropped : s'.dropped = s.dropped) :
    s'.Ledger := by
  refine h.of_caller c caller hcallers ?_ ?_
  · rw [howned, hsemaphore]
    omega
  · rw [howned, hanswered, hdropped, hcalls, length_append, length_singleton, range_succ]
    refine List.Perm.trans ?_ (h.channels.append_right _)
    rw [map_append, ← append_assoc, append_assoc _ _ s.dropped, append_assoc _ s.dropped]
    exact List.Perm.append_left _ perm_append_comm

theorem discard (hanswered : s'.answered = s.answered)
    (hdropped : s'.dropped = s.dropped ++ [s.calls.length]) : s'.Ledger := by
  refine h.of_caller c caller hcallers ?_ ?_
  · rw [howned, hsemaphore]
    omega
  · rw [howned, hanswered, hdropped, hcalls, length_append, length_singleton, range_succ, ← append_assoc]
    exact h.channels.append_right _

end Ledger

theorem inv_new (messages : List ProtocolMessage) : (new messages).Inv where
  ledger :=
    { permits := by
        intro cs
        have hzero : ∑ c ∈ cs, ((new messages).callers c).permit.toNat = 0 :=
            Finset.sum_eq_zero fun _ _ => rfl
        rw [hzero]
        exact le_rfl
      channels := List.Perm.refl _ }
  consistent :=
    { queued := by intro req hreq; cases hreq
      sending := by intro req h; cases h
      waiting := by intro requestId tx h; cases h
      timeout := by intro requestId tx h; cases h
      eager := fun _ _ => rfl
      flushed := fun _ => rfl
      running := by intro panic h; cases h }

section Callers

variable {s s' : System}

theorem Consistent.poll (h : s.Consistent) (hqueue : s'.queue = s.queue) (hstate : s'.state = s.state)
    (htimeout : s'.requestTimeout = s.requestTimeout) (hactivity : s'.activity = s.activity)
    (hcalls : s'.calls = s.calls) : s'.Consistent := by
  obtain ⟨hqueued, hsending, hwaiting, htimer, heager, hflushed, hrunning⟩ := h
  constructor
  · intro req hreq
    rw [hqueue] at hreq
    simpa only [Issued, hcalls] using hqueued req hreq
  · intro req hreq
    rw [hactivity] at hreq
    simpa only [Issued, hcalls] using hsending req hreq
  · rw [hstate, hcalls]
    exact hwaiting
  · rw [hstate, hactivity, htimeout]
    exact htimer
  · rw [hactivity, hstate]
    exact heager
  · rw [hactivity, hstate]
    exact hflushed
  · rw [hactivity]
    exact hrunning

theorem getElem?_append_of_some {α : Type*} {xs ys : List α} {i : Nat} {x : α} (h : xs[i]? = some x) :
    (xs ++ ys)[i]? = some x := by
  obtain ⟨hi, _⟩ := List.getElem?_eq_some_iff.mp h
  rwa [List.getElem?_append_left hi]

/-- A step of a caller that makes a call: its request is queued, or the caller has answered it with
an error. -/
theorem Consistent.called (h : s.Consistent) (hcalls : s'.calls = s.calls ++ [request])
    (hstate : s'.state = s.state)
    (htimeout : s'.requestTimeout = s.requestTimeout) (hactivity : s'.activity = s.activity)
    (hqueue : ∀ req ∈ s'.queue, req ∈ s.queue ∨
      (req.request = request ∧ req.responseChannel = s.calls.length ∧
        (request.needsResponse = true → req.permit = true))) : s'.Consistent := by
  obtain ⟨hqueued, hsending, hwaiting, htimer, heager, hflushed, hrunning⟩ := h
  constructor
  · intro req hreq
    rcases hqueue req hreq with hold | ⟨hrequest, hchannel, hpermit⟩
    · obtain ⟨hissued, hpermit⟩ := hqueued req hold
      refine ⟨?_, hpermit⟩
      rw [Issued, hcalls]
      exact getElem?_append_of_some hissued
    · refine ⟨?_, hrequest ▸ hpermit⟩
      rw [Issued, hcalls, hchannel, hrequest]
      exact getElem?_concat_length
  · intro req hreq
    rw [hactivity] at hreq
    obtain ⟨hissued, hneeds⟩ := hsending req hreq
    refine ⟨?_, hneeds⟩
    rw [Issued, hcalls]
    exact getElem?_append_of_some hissued
  · intro requestId tx hwait
    rw [hstate] at hwait
    obtain ⟨request', hrequest', hid⟩ := hwaiting requestId tx hwait
    refine ⟨request', ?_, hid⟩
    rw [hcalls]
    exact getElem?_append_of_some hrequest'
  · rw [hstate, hactivity, htimeout]
    exact htimer
  · rw [hactivity, hstate]
    exact heager
  · rw [hactivity, hstate]
    exact hflushed
  · rw [hactivity]
    exact hrunning

theorem Inv.callerStep (h : s.Inv) {c : Caller} {e : CallerEvent} (hstep : CallerStep s s' c e) :
    s'.Inv := by
  obtain ⟨hactivity, hstate, htimeout, d, caller, hcallers, heffect⟩ := hstep
  cases heffect with
  | nothing hpermits hcalls hqueue hanswered hdropped =>
    refine ⟨h.ledger.poll d caller hcallers hpermits ?_ hanswered hdropped hcalls,
      h.consistent.poll hqueue hstate htimeout hactivity hcalls⟩
    rw [owned, owned, hqueue, hstate, hactivity]
  | queued _ _ request permit hpermit hneeds hsemaphore hcalls hqueue hanswered hdropped =>
    refine ⟨h.ledger.issue d caller hcallers hsemaphore hpermit ?_ hanswered hdropped hcalls,
      h.consistent.called hcalls hstate htimeout hactivity ?_⟩
    · have howned := s.owned_enqueue { request, responseChannel := s.calls.length, permit }
      rw [owned, hqueue, hstate, hactivity]
      exact howned
    · intro req hreq
      rw [hqueue] at hreq
      rcases mem_append.mp hreq with hold | hnew
      · exact .inl hold
      · rw [mem_singleton.mp hnew]
        exact .inr ⟨rfl, rfl, hneeds⟩
  | discarded _ _ _ request permit hpermit hsemaphore hcalls hqueue hanswered hdropped =>
    refine ⟨h.ledger.discard d caller hcallers hsemaphore hpermit ?_ hcalls hanswered hdropped,
      h.consistent.called hcalls hstate htimeout hactivity ?_⟩
    · rw [owned, owned, hqueue, hstate, hactivity]
    · intro req hreq
      exact .inl (hqueue ▸ hreq)
  | refused request permit err hpermit hsemaphore hcalls hqueue hanswered hdropped =>
    refine ⟨h.ledger.reject d caller hcallers hsemaphore hpermit ?_ hcalls hanswered hdropped,
      h.consistent.called hcalls hstate htimeout hactivity ?_⟩
    · rw [owned, owned, hqueue, hstate, hactivity]
    · intro req hreq
      exact .inl (hqueue ▸ hreq)

end Callers

/-! ## The invariant over steps of the task -/

section TaskInvariant

variable {s s' : System}

section
variable (h : s.Inv)
include h

theorem Inv.goOn (hsame : s' = { s with
      activity := s'.activity, requestTimeout := s'.requestTimeout, rxClosed :=
        s'.rxClosed, error := s'.error })
    (hfrom : s.activity.owned = []) (hto : s'.activity.owned = [])
    (htimeout : ∀ requestId tx, s.state = .waitingForResponse requestId tx → s'.activity.inLoop = true →
      s'.requestTimeout = true)
    (heager : ∀ messages, s'.activity = .eager messages → s.state = .waitingForRequest)
    (hflushed : s'.activity.flushed = true → s.state = .waitingForRequest)
    (hrunning : ∀ panic, s'.activity ≠ .panicked panic) : s'.Inv := by
  rw [hsame]
  refine ⟨h.ledger.move rfl rfl ?_ rfl rfl rfl, h.consistent.queued, ?_, h.consistent.waiting,
    htimeout, heager, hflushed, hrunning⟩
  · rw [owned, owned, hfrom]
    rw [hto]
  · intro req hreq
    rw [hreq] at hto
    cases hto

theorem Inv.goOn_shutdown (hfrom : s.activity.owned = [])
    (hsame : s' = { s with activity := s'.activity, rxClosed := s'.rxClosed, error := s'.error })
    {err : PeerError} (hto : s'.activity = .shutdown err ∨ s'.activity = .settingError err ∨
      s'.activity = .flushing err) : s'.Inv := by
  refine h.goOn (hsame.trans ?_) hfrom ?_ ?_ ?_ ?_ ?_
  · rw [hsame]
  all_goals rcases hto with hto | hto | hto <;> rw [hto] <;> simp [Activity.owned, inLoop, flushed]

theorem Inv.goOn_loop (hfrom : s.activity.owned = []) {activity : Activity}
    (hto : activity = .select ∨ activity = .handling) (timeout : Bool)
    (htimeout : ∀ requestId tx, s.state = .waitingForResponse requestId tx → timeout = true) :
    ({ s with requestTimeout := timeout, activity := activity } : System).Inv := by
  refine h.goOn rfl hfrom ?_ (fun requestId tx hwait _ => htimeout requestId tx hwait) ?_ ?_ ?_
  all_goals rcases hto with rfl | rfl <;> simp [Activity.owned, flushed]

/-- A pending request is answered. -/
theorem Inv.settle (tx : Nat) (permit : Bool) (res : Except PeerError PeerResponse) (hsame : s' = { s with
      queue := s'.queue, slots := s'.slots, state := s'.state, activity := s'.activity
      requestTimeout := s'.requestTimeout, semaphore := s.semaphore + permit.toNat
      answered := s.answered ++ [(tx, res)] })
    (howned : s.owned.Perm ((tx, permit) :: s'.owned)) (hqueue : ∀ req ∈ s'.queue, req ∈ s.queue)
    (hto : s'.activity.owned = []) (hstate : s'.state = .waitingForRequest ∨
      (s'.state = s.state ∧ s'.activity.flushed = false ∧
        ∀ requestId tx, s.state = .waitingForResponse requestId tx →
        s'.activity.inLoop = true → s'.requestTimeout = true))
    (heager : ∀ messages, s'.activity ≠ .eager messages)
      (hrunning : ∀ panic, s'.activity ≠ .panicked panic) : s'.Inv := by
  refine ⟨h.ledger.settle tx permit res ?_ ?_ howned ?_ ?_ ?_, ?_, ?_, ?_, ?_, ?_, ?_, hrunning⟩
  · rw [hsame]
  · rw [hsame]
  · rw [hsame]
  · rw [hsame]
  · rw [hsame]
  · intro req hreq
    have hold := h.consistent.queued req (hqueue req hreq)
    rw [hsame]
    exact hold
  · intro req hreq
    rw [hreq] at hto
    cases hto
  · intro requestId tx' hwait
    rcases hstate with hstate | ⟨hstate, _, _⟩
    · rw [hstate] at hwait
      cases hwait
    · have hold := h.consistent.waiting requestId tx' (hstate ▸ hwait)
      rw [hsame]
      exact hold
  · intro requestId tx' hwait hloop
    rcases hstate with hstate | ⟨hstate, _, htimeout⟩
    · rw [hstate] at hwait
      cases hwait
    · exact htimeout requestId tx' (hstate ▸ hwait) hloop
  · intro messages hmessages
    exact absurd hmessages (heager messages)
  · intro hflushed
    rcases hstate with hstate | ⟨_, hnot, _⟩
    · exact hstate
    · rw [hnot] at hflushed
      cases hflushed

/-- The task takes a request from the channel. -/
theorem Inv.take (hactivity : s.activity = .select) {req : ConnectionTaskRequest}
    {rest : List ConnectionTaskRequest} (hqueue : s.queue = req :: rest)
    (hsame : s' = { s with queue := rest, slots := s'.slots, state := s'.state, activity := s'.activity })
    (hto : (s'.state = .waitingForResponse req.request.id req.responseChannel ∧
      s.state = .waitingForRequest ∧ req.permit = true ∧ s'.activity = .sendingRequest) ∨
      (s'.state = s.state ∧ req.request.needsResponse = false ∧
        s'.activity = .sendingMessage req)) : s'.Inv := by
  obtain ⟨hissued, _⟩ := h.consistent.queued req (hqueue ▸ mem_cons_self)
  have hrest : ∀ req' ∈ rest, s.Issued req' ∧ (req'.request.needsResponse = true → req'.permit = true) :=
    fun req' hreq' => h.consistent.queued req' (hqueue ▸ .tail _ hreq')
  have howned : s.owned = req.owned :: (rest.map ConnectionTaskRequest.owned ++ s.state.owned) := by
    rw [owned, hqueue, hactivity]
    simp [Activity.owned]
  have howned' : s'.owned = rest.map ConnectionTaskRequest.owned ++ s'.state.owned ++
      s'.activity.owned := by
    rw [hsame]
    rfl
  have hperm : s'.owned.Perm s.owned := by
    rw [howned, howned']
    rcases hto with ⟨hstate', hstate, hpermit, hactivity'⟩ | ⟨hstate', _, hactivity'⟩
    · rw [hstate', hstate, hactivity', ConnectionTaskRequest.owned, hpermit]
      simp only [State.owned, Activity.owned, append_nil]
      exact perm_append_singleton _ _
    · rw [hstate', hactivity']
      exact perm_append_singleton _ _
  have hledger : s'.Ledger := h.ledger.move (by rw [hsame]) (by rw [hsame]) hperm (by rw [hsame])
      (by rw [hsame])
    (by rw [hsame])
  refine ⟨hledger, ?_⟩
  rw [hsame]
  rcases hto with ⟨hstate', hstate, hpermit, hactivity'⟩ | ⟨hstate', hneeds, hactivity'⟩
  · rw [hstate', hactivity']
    refine ⟨hrest, by simp, ?_, by simp [inLoop], by simp, by simp [flushed], by simp⟩
    intro requestId tx hwait
    cases hwait
    exact ⟨req.request, hissued, rfl⟩
  · rw [hstate', hactivity']
    refine ⟨hrest, ?_, h.consistent.waiting, ?_, by simp, by simp [flushed], by simp⟩
    · intro req' hreq'
      cases hreq'
      exact ⟨hissued, hneeds⟩
    · intro requestId tx hwait _
      exact h.consistent.timeout requestId tx hwait (by rw [hactivity]; rfl)

theorem Inv.leave (hactivity : s.activity = .leaving) : ({ s with
      activity := .finished, queue := [], semaphore := s.semaphore + s.queue.countP (·.permit)
      dropped := s.dropped ++ s.queue.map (·.responseChannel) } : System).Inv := by
  have hstate : s.state = .waitingForRequest := h.consistent.flushed (by rw [hactivity]; rfl)
  have howned : s.owned = s.queue.map ConnectionTaskRequest.owned := by
    rw [owned, hstate, hactivity]
    simp [State.owned, Activity.owned]
  refine ⟨h.ledger.task rfl ?_ ?_ rfl, ?_⟩
  · rw [howned, owned, hstate, countP_map]
    exact le_rfl
  · rw [howned, owned, hstate, map_map]
    change (s.answered.map (·.1) ++ (s.dropped ++ s.queue.map (·.responseChannel))).Perm
      (s.queue.map (·.responseChannel) ++ s.answered.map (·.1) ++ s.dropped)
    rw [← append_assoc, append_assoc (s.queue.map _)]
    exact perm_append_comm
  · exact ⟨by simp, by simp, h.consistent.waiting, by simp [inLoop], by simp, fun _ => hstate, by simp⟩

end

variable {e : Event}

theorem Inv.taskStep (h : s.Inv) (hstep : TaskStep s e s') : s'.Inv := by
  cases hstep with
  | eager res hactivity =>
    have hstate := h.consistent.eager _ hactivity
    exact h.goOn rfl (by rw [hactivity]; rfl) rfl (by simp [inLoop]) (fun _ _ => hstate)
      (by simp [flushed]) (by simp)
  | start res hactivity =>
    refine h.goOn_loop (by rw [hactivity]; rfl) (.inl rfl) _ fun requestId tx hwait => ?_
    rw [h.consistent.eager _ hactivity] at hwait
    cases hwait
  | handle hactivity _ =>
    refine h.goOn_loop (by rw [hactivity]; rfl) (.inr rfl) _ fun requestId tx hwait => ?_
    exact h.consistent.timeout requestId tx hwait (by rw [hactivity]; rfl)
  | handled hactivity =>
    refine h.goOn_loop (by rw [hactivity]; rfl) (.inl rfl) _ fun requestId tx hwait => ?_
    exact h.consistent.timeout requestId tx hwait (by rw [hactivity]; rfl)
  | fail err hactivity _ =>
    refine h.goOn_shutdown ?_ rfl (.inl rfl)
    cases hact : s.activity <;> rw [hact] at hactivity <;> simp_all [Activity.mayFail, Activity.owned]
  | takeRequest hactivity hqueue _ hpermit hstate =>
    exact h.take hactivity hqueue rfl (.inl ⟨rfl, hstate, hpermit, rfl⟩)
  | takeMessage hactivity hqueue hneeds => exact h.take hactivity hqueue rfl (.inr ⟨rfl, hneeds, rfl⟩)
  | requestSent hactivity => exact h.goOn_loop (by rw [hactivity]; rfl) (.inl rfl) _ fun _ _ _ => rfl
  | @respond requestId tx mes resp hactivity hstate _ _ =>
    refine h.settle tx true (.ok resp) rfl ?_ (fun _ hreq => hreq) ?_ (.inl rfl) ?_ ?_
    · rw [owned, owned, hstate, hactivity]
      simp only [State.owned, Activity.owned, append_nil]
      exact perm_append_singleton _ _
    · rw [hactivity]
      rfl
    · simp [hactivity]
    · simp [hactivity]
  | @messageSent req hactivity =>
    have htimeout : ∀ requestId tx, s.state = .waitingForResponse requestId tx → s.requestTimeout = true :=
      fun requestId tx hwait => h.consistent.timeout requestId tx hwait (by rw [hactivity]; rfl)
    refine h.settle req.responseChannel req.permit (.ok (.protocol .na)) rfl ?_ (fun _ hreq => hreq) rfl
      (.inr ⟨rfl, rfl, fun requestId tx hwait _ => htimeout requestId tx hwait⟩) (by simp) (by simp)
    rw [owned, owned, hactivity]
    simp only [Activity.owned, append_nil]
    exact perm_append_singleton _ _
  | @messageNotSent req err hactivity =>
    refine h.settle req.responseChannel req.permit (.error err) rfl ?_ (fun _ hreq => hreq) rfl
      (.inr ⟨rfl, rfl, by simp [inLoop]⟩) (by simp) (by simp)
    rw [owned, owned, hactivity]
    simp only [Activity.owned, append_nil]
    exact perm_append_singleton _ _
  | close hactivity => exact h.goOn_shutdown (by rw [hactivity]; rfl) rfl (.inr (.inl rfl))
  | setError hactivity => exact h.goOn_shutdown (by rw [hactivity]; rfl) rfl (.inr (.inr rfl))
  | flushNothing hactivity hstate =>
    exact h.goOn rfl (by rw [hactivity]; rfl) rfl (by simp [inLoop]) (by simp) (fun _ => hstate) (by simp)
  | @flush err requestId tx hactivity hstate =>
    refine h.settle tx true (.error err) rfl ?_ (fun _ hreq => hreq) rfl (.inl rfl) (by simp) (by simp)
    rw [owned, owned, hstate, hactivity]
    simp only [State.owned, Activity.owned, append_nil]
    exact perm_append_singleton _ _
  | @drain err req rest hactivity hqueue =>
    have hstate : s.state = .waitingForRequest := h.consistent.flushed (by rw [hactivity]; rfl)
    refine h.settle req.responseChannel req.permit (.error err) rfl ?_ ?_ ?_ (.inl hstate) ?_ ?_
    · rw [owned, hqueue]
      exact List.Perm.refl _
    · intro req' hreq'
      exact hqueue ▸ .tail _ hreq'
    · rw [hactivity]
      rfl
    · simp [hactivity]
    · simp [hactivity]
  | drained hactivity _ =>
    have hstate : s.state = .waitingForRequest := h.consistent.flushed (by rw [hactivity]; rfl)
    exact h.goOn rfl (by rw [hactivity]; rfl) rfl (by simp [inLoop]) (by simp) (fun _ => hstate) (by simp)
  | leave hactivity => exact h.leave hactivity

theorem Inv.step (h : s.Inv) (hstep : Step s e s') : s'.Inv := by
  rcases h.step_cases hstep with ⟨c, e', _, hcaller⟩ | htask
  · exact h.callerStep hcaller
  · exact h.taskStep htask

/-- The message is handed to the caller that waits on the response channel. -/
structure HandsOver (s : System) (mes : Message) (tx : Nat) (resp : PeerResponse) : Prop where
  outstanding : ∃ request, s.calls[tx]? = some request ∧ s.state = .waitingForResponse request.id tx ∧
    levinCommandResponse request.id mes.command = true
  response : PeerResponse.tryFrom mes = some resp

/-- A caller only ever gets a response from a message of the peer that is handed to it, unless its
request needs none. -/
theorem Inv.step_answered (h : s.Inv) (hstep : Step s e s') {tx : Nat} {resp : PeerResponse}
    (hanswer : (tx, .ok resp) ∈ s'.answered) : (tx, .ok resp) ∈ s.answered ∨ resp = .protocol .na ∨
      ∃ mes, e = .select (.peerMessage mes) ∧ s.HandsOver mes tx resp := by
  rcases h.step_cases hstep with ⟨c, e', rfl, hcaller⟩ | htask
  · obtain ⟨_, _, _, d, caller, _, heffect⟩ := hcaller
    cases heffect with
    | nothing _ _ _ hanswered _ => exact .inl (hanswered ▸ hanswer)
    | queued _ _ _ _ _ _ _ _ _ hanswered _ => exact .inl (hanswered ▸ hanswer)
    | discarded _ _ _ _ _ _ _ _ _ hanswered _ => exact .inl (hanswered ▸ hanswer)
    | refused _ _ _ _ _ _ _ hanswered _ =>
      rw [hanswered] at hanswer
      simp at hanswer
      exact .inl hanswer
  · cases htask with
    | @respond requestId _ mes _ _ hstate hcommand hresp =>
      rcases mem_append.mp hanswer with hold | hnew
      · exact .inl hold
      · cases mem_singleton.mp hnew
        obtain ⟨request, hissued, rfl⟩ := h.consistent.waiting requestId tx hstate
        exact .inr (.inr ⟨mes, rfl, ⟨request, hissued, hstate, hcommand⟩, hresp⟩)
    | messageSent hactivity =>
      rcases mem_append.mp hanswer with hold | hnew
      · exact .inl hold
      · cases mem_singleton.mp hnew
        exact .inr (.inl rfl)
    | messageNotSent err hactivity =>
      simp at hanswer
      exact .inl hanswer
    | flush hactivity hstate =>
      simp at hanswer
      exact .inl hanswer
    | drain hactivity hqueue =>
      simp at hanswer
      exact .inl hanswer
    | _ => exact .inl hanswer

end TaskInvariant

/-- The requests that need a response and were passed to the task, which has not settled them. -/
def outstanding (s : System) : Nat :=
  s.queue.countP (·.request.needsResponse) + s.state.owned.length

theorem Inv.outstanding_le_one {s : System} (h : s.Inv) : s.outstanding ≤ 1 := by
  have hpermits := h.ledger.permits ∅
  have hqueue : s.queue.countP (·.request.needsResponse) ≤ s.queue.countP (·.permit) :=
    countP_mono_left fun req hreq hneeds => (h.consistent.queued req hreq).2 hneeds
  have hstate : s.state.owned.length = s.state.owned.countP (·.2) := by cases s.state <;> rfl
  rw [owned, countP_append, countP_append, countP_map] at hpermits
  change _ + _ + (s.queue.countP (·.permit) + _ + _) ≤ 1 at hpermits
  rw [outstanding, hstate]
  omega

theorem Inv.of_run {messages : List ProtocolMessage} {run : List (Transition System Event)}
    (hrun : Run Step (new messages) run) {s : System} (hs : s ∈ states (new messages) run) : s.Inv :=
  hrun.invariant Inv (fun _ _ => True) (fun hstep _ h => h.step hstep) (inv_new messages)
    (fun _ _ => trivial) s hs

/-- In every run, at most one request that needs a response is outstanding, the task never panics,
and a caller gets a message of the peer only if its command is that of the response to the caller's
own outstanding request. `na` is the answer to a request that needs no response. -/
theorem one_request_at_a_time {messages : List ProtocolMessage} {run : List (Transition System Event)}
    (hrun : Run Step (new messages) run) :
    (∀ s ∈ states (new messages) run, s.outstanding ≤ 1 ∧ ∀ panic, s.activity ≠ .panicked panic) ∧
    ∀ t ∈ run, ∀ tx resp, (tx, .ok resp) ∈ t.after.answered →
      (tx, .ok resp) ∈ t.before.answered ∨ resp = .protocol .na ∨
        ∃ mes, t.event = .select (.peerMessage mes) ∧ t.before.HandsOver mes tx resp := by
  refine ⟨fun s hs => ?_, fun t ht tx resp hanswer => ?_⟩
  · have hinv := Inv.of_run hrun hs
    exact ⟨hinv.outstanding_le_one, hinv.consistent.running⟩
  · have hinv := Inv.of_run hrun (hrun.before_mem ht)
    exact hinv.step_answered (hrun.step_of_mem ht) hanswer

/-- The run in which the client sends a ping and the peer answers it. -/
theorem one_request_at_a_time_ping : ∃ run, Run Step (new []) run ∧
    (run.map fun t => t.after.outstanding) = [0, 0, 0, 0, 1, 1, 1, 0] ∧
    ∀ s ∈ states (new []) run, s.outstanding ≤ 1 ∧ ∀ panic, s.activity ≠ .panicked panic := by
  have hrun : Run Step (new [])
      [⟨_, .finish (.ok ()), _⟩, ⟨_, .caller .client .checkError, _⟩, ⟨_, .caller .client .acquire, _⟩,
        ⟨_, .caller .client .reserve, _⟩, ⟨_, .caller .client (.call (.admin .ping)), _⟩,
        ⟨_, .select .clientRequest, _⟩, ⟨_, .finish (.ok ()), _⟩,
        ⟨_, .select (.peerMessage (.response (.ping { status := [], peerId := 1 }))), _⟩] :=
    .cons rfl (.cons rfl (.cons rfl (.cons rfl (.cons rfl (.cons rfl (.cons rfl (.cons rfl (.nil _))))))))
  exact ⟨_, hrun, rfl, (one_request_at_a_time hrun).1⟩

end System

end Cuprate.P2P
