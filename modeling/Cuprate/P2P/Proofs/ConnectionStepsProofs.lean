import Cuprate.P2P.Connection
import Mathlib.Algebra.BigOperators.Group.Finset.Basic

/-!
# What the steps of a connection do

The steps of callers and of the task, each with everything that it changes. As long as the permit is
in one place and the requests are where their permits are, the task does not panic.
-/

namespace Cuprate.P2P

open Cuprate.Wire

/-- The response channel and the permit of the request that the state waits for the response of. -/
def State.owned : State → List (Nat × Bool)
  | .waitingForRequest => []
  | .waitingForResponse _ tx => [(tx, true)]

/-- The response channel and the permit of the request that is being sent and needs no response. -/
def Activity.owned : Activity → List (Nat × Bool)
  | .sendingMessage req => [(req.responseChannel, req.permit)]
  | _ => []

/-- Whether the task is in its loop: the state is not touched by sending its request or by the
shutdown. -/
def Activity.inLoop : Activity → Bool
  | .select | .handling | .sendingMessage _ => true
  | _ => false

/-- Whether the shutdown is past the answer to the outstanding request. -/
def Activity.flushed : Activity → Bool
  | .draining _ | .leaving | .finished => true
  | _ => false

/-- The activities in which a failure makes the task shut down and no request is lost with it. -/
def Activity.mayFail : Activity → Bool
  | .eager _ | .select | .handling | .sendingRequest => true
  | _ => false

def ConnectionTaskRequest.owned (req : ConnectionTaskRequest) : Nat × Bool :=
  (req.responseChannel, req.permit)

namespace System

/-- The response channels that are neither answered nor dropped, each with whether the permit is
kept with it. -/
def owned (s : System) : List (Nat × Bool) :=
  s.queue.map ConnectionTaskRequest.owned ++ s.state.owned ++ s.activity.owned

/-- The places of the permit, and what became of the response channels of all calls. -/
structure Ledger (s : System) : Prop where
  permits : ∀ cs : Finset Caller, s.semaphore + ∑ c ∈ cs, (s.callers c).permit.toNat +
    s.owned.countP (·.2) ≤ 1
  channels : (s.owned.map (·.1) ++ s.answered.map (·.1) ++ s.dropped).Perm (List.range s.calls.length)

/-! ## What a caller does -/

section CallerSteps

variable {s s' : System}

def CallerEvent.isCall : CallerEvent → Bool
  | .call _ | .callBroadcast _ => true
  | _ => false

/-- What the event `e` of caller `c` does with a request and with the permits, where the caller `d`
has become `caller`. -/
inductive CallEffect (s s' : System) (c : Caller) (e : CallerEvent) (d : Caller)
    (caller : CallerState) : Prop where
  | nothing (hpermits : s'.semaphore + caller.permit.toNat ≤ s.semaphore + (s.callers d).permit.toNat)
      (hcalls : s'.calls = s.calls) (hqueue : s'.queue = s.queue) (hanswered : s'.answered = s.answered)
      (hdropped : s'.dropped = s.dropped)
  | queued (hcall : e.isCall = true) (hsender : (s.callers c).sender = .readyToSend)
      (request : PeerRequest)
      (permit : Bool) (hpermit : caller.permit.toNat + permit.toNat ≤ (s.callers d).permit.toNat)
      (hneeds : request.needsResponse = true → permit = true) (hsemaphore : s'.semaphore = s.semaphore)
      (hcalls : s'.calls = s.calls ++ [request])
      (hqueue : s'.queue = s.queue ++ [{ request, responseChannel := s.calls.length, permit }])
      (hanswered : s'.answered = s.answered) (hdropped : s'.dropped = s.dropped)
  | discarded (hcall : e.isCall = true) (hsender : (s.callers c).sender = .readyToSend)
      (hreceiver : s.receiverDropped = true) (request : PeerRequest) (permit : Bool)
      (hpermit : caller.permit.toNat + permit.toNat ≤ (s.callers d).permit.toNat)
      (hsemaphore : s'.semaphore = s.semaphore + permit.toNat) (hcalls : s'.calls = s.calls ++ [request])
      (hqueue : s'.queue = s.queue) (hanswered : s'.answered = s.answered)
      (hdropped : s'.dropped = s.dropped ++ [s.calls.length])
  | refused (request : PeerRequest) (permit : Bool) (err : PeerError)
      (hpermit : caller.permit.toNat + permit.toNat ≤ (s.callers d).permit.toNat)
      (hsemaphore : s'.semaphore = s.semaphore + permit.toNat) (hcalls : s'.calls = s.calls ++ [request])
      (hqueue : s'.queue = s.queue)
        (hanswered : s'.answered = s.answered ++ [(s.calls.length, .error err)])
      (hdropped : s'.dropped = s.dropped)

/-- What a step of a client changes. -/
structure CallerStep (s s' : System) (c : Caller) (e : CallerEvent) : Prop where
  activity : s'.activity = s.activity
  state : s'.state = s.state
  requestTimeout : s'.requestTimeout = s.requestTimeout
  effect : ∃ d caller, s'.callers = Function.update s.callers d caller ∧ CallEffect s s' c e d caller

variable {c : Caller} {e : CallerEvent}

theorem CallerStep.poll (d : Caller) (caller : CallerState)
    (hcallers : s'.callers = Function.update s.callers d caller)
    (hpermits : s'.semaphore + caller.permit.toNat ≤ s.semaphore + (s.callers d).permit.toNat)
      (hsame : s' = { s with
      callers := s'.callers, semaphore := s'.semaphore, slots := s'.slots, error := s'.error }) :
    CallerStep s s' c e := by
  refine ⟨?_, ?_, ?_, d, caller, hcallers, .nothing hpermits ?_ ?_ ?_ ?_⟩ <;> rw [hsame]

variable {request : PeerRequest}

theorem CallerStep.send (hcall : e.isCall = true) (hsender : (s.callers c).sender = .readyToSend)
    {caller : CallerState} {permit : Bool}
      (hpermit : caller.permit.toNat + permit.toNat ≤ (s.callers c).permit.toNat)
    (hneeds : request.needsResponse = true → permit = true)
      (hs' : (s.setCaller c caller).send request permit = s') : CallerStep s s' c e := by
  rw [System.send] at hs'
  split at hs'
  · rename_i hreceiver
    subst hs'
    exact ⟨rfl, rfl, rfl, c, caller, rfl,
      .discarded hcall hsender hreceiver request permit hpermit rfl rfl rfl rfl rfl⟩
  · subst hs'
    exact ⟨rfl, rfl, rfl, c, caller, rfl,
      .queued hcall hsender request permit hpermit hneeds rfl rfl rfl rfl rfl⟩

theorem CallerStep.refuse {caller : CallerState} {permit : Bool}
    (hpermit : caller.permit.toNat + permit.toNat ≤ (s.callers c).permit.toNat) :
    CallerStep s ((s.setCaller c caller).refuse request permit) c e :=
  ⟨rfl, rfl, rfl, c, caller, rfl, .refused request permit _ hpermit rfl rfl rfl rfl rfl⟩

theorem checkError_cases : CallerStep s (s.checkError c) c e := by
  rw [checkError]
  split
  · exact .poll c _ rfl le_rfl rfl
  · split
    · exact .poll c _ rfl le_rfl rfl
    · exact .poll c _ rfl le_rfl rfl

theorem dropCaller_cases : CallerStep s (s.dropCaller c) c e :=
  .poll c { live := false, checked := false, permit := false, sender := .idle } rfl le_rfl rfl

theorem acquire_cases (hstep : s.acquire c = some s') : CallerStep s s' c e := by
  rw [acquire] at hstep
  split at hstep
  · rename_i hguard
    obtain ⟨_, _, hpos⟩ := hguard
    cases hstep
    refine .poll c _ rfl ?_ rfl
    change s.semaphore - 1 + 1 ≤ _
    omega
  · cases hstep

theorem reserve_cases (hstep : s.reserve c = some s') : CallerStep s s' c e := by
  rw [reserve] at hstep
  split at hstep
  · split at hstep
    · split at hstep
      · cases hstep
        exact dropCaller_cases
      · cases hstep
        exact .poll c _ rfl le_rfl rfl
    · split at hstep
      · cases hstep
        exact .poll c _ rfl le_rfl rfl
      · cases hstep
  · cases hstep

theorem takePermit_cases (hstep : s.takePermit c = some s') : CallerStep s s' c e := by
  rw [takePermit] at hstep
  split at hstep
  · cases hstep
    exact .poll c _ rfl le_rfl rfl
  · cases hstep

theorem call_cases (hcall : e.isCall = true) (hstep : s.call c request = some s') :
    CallerStep s s' c e := by
  rw [call] at hstep
  split at hstep
  · rename_i hguard
    have hpermit : (s.callers c).permit = true := hguard.1
    split at hstep
    · cases hstep
    · rename_i hsender
      exact .send hcall hsender (by rw [hpermit]; exact le_rfl) (fun _ => rfl) (Option.some.inj hstep)
    · cases hstep
      exact .refuse (by rw [hpermit]; exact le_rfl)
  · cases hstep

theorem callBroadcast_cases (hcall : e.isCall = true) {message : BroadcastMessage}
    (hstep : s.callBroadcast c message = some s') : CallerStep s s' c e := by
  rw [callBroadcast] at hstep
  split at hstep
  · split at hstep
    · cases hstep
    · rename_i hsender
      refine .send hcall hsender le_rfl (fun hneeds => ?_) (Option.some.inj hstep)
      rw [needsResponse_ofBroadcast] at hneeds
      cases hneeds
    · cases hstep
      exact .refuse le_rfl
  · cases hstep

theorem downgrade_cases {n : Nat} (hstep : s.downgrade c n = some s') : CallerStep s s' c e := by
  rw [downgrade] at hstep
  split at hstep
  · cases hstep
    exact .poll (.weak n) _ rfl (Nat.add_le_add_left (Nat.zero_le _) _) rfl
  · cases hstep

theorem callerStep_cases (hstep : s.callerStep c e = some s') : CallerStep s s' c e := by
  unfold callerStep at hstep
  split at hstep
  · cases e with
    | checkError =>
      cases hstep
      exact checkError_cases
    | acquire => exact acquire_cases hstep
    | reserve => exact reserve_cases hstep
    | takePermit => exact takePermit_cases hstep
    | call request => exact call_cases rfl hstep
    | callBroadcast message => exact callBroadcast_cases rfl hstep
    | downgrade n => exact downgrade_cases hstep
    | drop =>
      cases hstep
      exact dropCaller_cases
  · cases hstep

end CallerSteps

def Issued (s : System) (req : ConnectionTaskRequest) : Prop :=
  s.calls[req.responseChannel]? = some req.request

/-- Requests, permits and timeouts belong together. -/
structure Consistent (s : System) : Prop where
  queued : ∀ req ∈ s.queue, s.Issued req ∧ (req.request.needsResponse = true → req.permit = true)
  sending : ∀ req, s.activity = .sendingMessage req → s.Issued req ∧ req.request.needsResponse = false
  waiting : ∀ requestId tx, s.state = .waitingForResponse requestId tx →
    ∃ request, s.calls[tx]? = some request ∧ request.id = requestId
  timeout : ∀ requestId tx, s.state = .waitingForResponse requestId tx → s.activity.inLoop = true →
    s.requestTimeout = true
  eager : ∀ messages, s.activity = .eager messages → s.state = .waitingForRequest
  flushed : s.activity.flushed = true → s.state = .waitingForRequest
  running : ∀ panic, s.activity ≠ .panicked panic

/-- The invariant of a connection. -/
structure Inv (s : System) : Prop where
  ledger : s.Ledger
  consistent : s.Consistent

/-- The steps of a task that does not panic. -/
inductive TaskStep (s : System) : Event → System → Prop where
  | eager {message : ProtocolMessage} {messages : List ProtocolMessage} (res : Except PeerError Unit)
      (hactivity : s.activity = .eager (message :: messages)) :
      TaskStep s (.finish res) { s with activity := .eager messages }
  | start (res : Except PeerError Unit) (hactivity : s.activity = .eager []) :
      TaskStep s (.finish res) { s with activity := .select }
  | handle {e : SelectEvent} (hactivity : s.activity = .select)
      (he : e = .broadcast ∨ ∃ mes, e = .peerMessage mes) :
      TaskStep s (.select e) { s with activity := .handling }
  | handled (hactivity : s.activity = .handling) :
      TaskStep s (.finish (.ok ())) { s with activity := .select }
  | fail {e : Event} (err : PeerError) (hactivity : s.activity.mayFail = true)
      (he : e ≠ .select .clientRequest) : TaskStep s e { s with activity := .shutdown err }
  | takeRequest {req : ConnectionTaskRequest} {rest : List ConnectionTaskRequest}
      (hactivity : s.activity = .select)
      (hqueue : s.queue = req :: rest) (hneeds : req.request.needsResponse = true)
        (hpermit : req.permit = true)
      (hstate : s.state = .waitingForRequest) :
      TaskStep s (.select .clientRequest) { s with
        queue := rest, slots := s.slots + 1
        state := .waitingForResponse req.request.id req.responseChannel, activity := .sendingRequest }
  | takeMessage {req : ConnectionTaskRequest} {rest : List ConnectionTaskRequest}
      (hactivity : s.activity = .select)
      (hqueue : s.queue = req :: rest) (hneeds : req.request.needsResponse = false) :
      TaskStep s (.select .clientRequest) { s with
        queue := rest, slots := s.slots + 1, activity := .sendingMessage req }
  | requestSent (hactivity : s.activity = .sendingRequest) :
      TaskStep s (.finish (.ok ())) { s with requestTimeout := true, activity := .select }
  | respond {requestId : MessageID} {tx : Nat} {mes : Message} {resp : PeerResponse}
      (hactivity : s.activity = .select)
      (hstate : s.state = .waitingForResponse requestId tx)
      (hcommand : levinCommandResponse requestId mes.command = true)
        (hresp : PeerResponse.tryFrom mes = some resp) :
      TaskStep s (.select (.peerMessage mes)) { s with
        state := .waitingForRequest, semaphore := s.semaphore + 1, requestTimeout := false
        answered := s.answered ++ [(tx, .ok resp)] }
  | messageSent {req : ConnectionTaskRequest} (hactivity : s.activity = .sendingMessage req) :
      TaskStep s (.finish (.ok ())) { s with
        semaphore := s.semaphore + req.permit.toNat, activity := .select
        answered := s.answered ++ [(req.responseChannel, .ok (.protocol .na))] }
  | messageNotSent {req : ConnectionTaskRequest} (err : PeerError)
      (hactivity : s.activity = .sendingMessage req) : TaskStep s (.finish (.error err)) { s with
        semaphore := s.semaphore + req.permit.toNat, activity := .shutdown err
        answered := s.answered ++ [(req.responseChannel, .error err)] }
  | close {err : PeerError} (hactivity : s.activity = .shutdown err) :
      TaskStep s .shutdown { s with rxClosed := true, activity := .settingError err }
  | setError {err : PeerError} (hactivity : s.activity = .settingError err) :
      TaskStep s .shutdown { s with error := s.error.or (some err), activity := .flushing err }
  | flushNothing {err : PeerError} (hactivity : s.activity = .flushing err)
      (hstate : s.state = .waitingForRequest) :
      TaskStep s .shutdown { s with activity := .draining err }
  | flush {err : PeerError} {requestId : MessageID} {tx : Nat} (hactivity : s.activity = .flushing err)
      (hstate : s.state = .waitingForResponse requestId tx) :
      TaskStep s .shutdown { s with
        state := .waitingForRequest, semaphore := s.semaphore + 1, activity := .draining err
        answered := s.answered ++ [(tx, .error err)] }
  | drain {err : PeerError} {req : ConnectionTaskRequest} {rest : List ConnectionTaskRequest}
      (hactivity : s.activity = .draining err) (hqueue : s.queue = req :: rest) :
      TaskStep s .shutdown { s with
        queue := rest, slots := s.slots + 1, semaphore := s.semaphore + req.permit.toNat
        answered := s.answered ++ [(req.responseChannel, .error err)] }
  | drained {err : PeerError} (hactivity : s.activity = .draining err) (hqueue : s.queue = []) :
      TaskStep s .shutdown { s with activity := .leaving }
  | leave (hactivity : s.activity = .leaving) :
      TaskStep s .shutdown { s with
        activity := .finished, queue := [], semaphore := s.semaphore + s.queue.countP (·.permit)
        dropped := s.dropped ++ s.queue.map (·.responseChannel) }

section Task

variable {s s' : System}

theorem Inv.waitingForRequest_of_permit (h : s.Inv)
    {req : ConnectionTaskRequest} {rest : List ConnectionTaskRequest}
    (hqueue : s.queue = req :: rest) (hpermit : req.permit = true) : s.state = .waitingForRequest := by
  have hpermits := h.ledger.permits ∅
  cases hstate : s.state with
  | waitingForRequest => rfl
  | waitingForResponse requestId tx =>
    rw [owned, hqueue, hstate] at hpermits
    simp only [List.map_cons, ConnectionTaskRequest.owned, hpermit, State.owned, List.cons_append,
      List.countP_cons, List.countP_append] at hpermits
    simp at hpermits
    omega

theorem handlePeerMessage_cases (hactivity : s.activity = .select) (mes : Message) :
    TaskStep s (.select (.peerMessage mes)) (s.handlePeerMessage mes) := by
  rw [handlePeerMessage]
  split
  · exact .handle hactivity (.inr ⟨mes, rfl⟩)
  · exact .fail _ (by rw [hactivity]; rfl) (by simp)

theorem handlePotentialResponse_cases (hactivity : s.activity = .select) {requestId : MessageID} {tx : Nat}
    (hstate : s.state = .waitingForResponse requestId tx) (mes : Message) :
    TaskStep s (.select (.peerMessage mes)) (s.handlePotentialResponse mes) := by
  rw [handlePotentialResponse]
  split
  · rename_i hrequest
    obtain ⟨req, hreq⟩ := exists_tryFrom_of_isRequest hrequest
    simp only [hreq]
    exact .handle hactivity (.inr ⟨mes, rfl⟩)
  · rename_i hrequest
    simp only [hstate]
    split
    · rename_i hcommand
      obtain ⟨resp, hresp⟩ :=
        exists_tryFrom_of_levinCommandResponse hcommand (Bool.eq_false_iff.mpr hrequest)
      simp only [hresp]
      exact .respond hactivity hstate hcommand hresp
    · exact handlePeerMessage_cases hactivity mes

theorem Inv.handleClientRequest_cases (h : s.Inv) (hactivity : s.activity = .select)
    {req : ConnectionTaskRequest}
    {rest : List ConnectionTaskRequest} (hqueue : s.queue = req :: rest) :
    TaskStep s (.select .clientRequest)
      (({ s with queue := rest, slots := s.slots + 1 } : System).handleClientRequest req) := by
  obtain ⟨_, hpermit⟩ := h.consistent.queued req (hqueue ▸ List.mem_cons_self)
  rw [handleClientRequest]
  split
  · rename_i hneeds
    have hstate := h.waitingForRequest_of_permit hqueue (hpermit hneeds)
    simp only [hstate, hpermit hneeds, if_true]
    exact .takeRequest hactivity hqueue hneeds (hpermit hneeds) hstate
  · rename_i hneeds
    exact .takeMessage hactivity hqueue (Bool.eq_false_iff.mpr hneeds)

theorem Inv.selectStep_cases (h : s.Inv) (hactivity : s.activity = .select) {e : SelectEvent}
    (hstep : s.selectStep e = some s') : TaskStep s (.select e) s' := by
  rw [selectStep] at hstep
  split at hstep
  · rename_i requestId tx hwait hunset
    rw [h.consistent.timeout requestId tx hwait (by rw [hactivity]; rfl)] at hunset
    cases hunset
  · cases e with
    | fail err =>
      cases hstep
      exact .fail err (by rw [hactivity]; rfl) (by simp)
    | timeout =>
      dsimp only at hstep
      split at hstep
      · cases hstep
      · cases hstep
        exact .fail _ (by rw [hactivity]; rfl) (by simp)
    | broadcast =>
      cases hstep
      exact .handle hactivity (.inl rfl)
    | clientRequest =>
      dsimp only at hstep
      split at hstep
      · cases hstep
      · rename_i req rest hqueue
        cases hstep
        exact h.handleClientRequest_cases hactivity hqueue
    | peerMessage mes =>
      dsimp only at hstep
      split at hstep
      · cases hstep
        exact handlePeerMessage_cases hactivity mes
      · rename_i requestId tx hwait
        cases hstep
        exact handlePotentialResponse_cases hactivity hwait mes

theorem finish_cases {res : Except PeerError Unit} (hstep : s.finish res = some s') :
    TaskStep s (.finish res) s' := by
  unfold finish at hstep
  split at hstep
  · rename_i hactivity
    cases hstep
    exact .start res hactivity
  · rename_i message messages hactivity
    have hfail : s.activity.mayFail = true := by rw [hactivity]; rfl
    split at hstep
    · cases hstep
      exact .fail _ hfail (by simp)
    · cases hstep
      exact .fail _ hfail (by simp)
    · cases hstep
      exact .eager _ hactivity
  · rename_i hactivity
    split at hstep
    · cases hstep
      exact .handled hactivity
    · cases hstep
      exact .fail _ (by rw [hactivity]; rfl) (by simp)
  · rename_i hactivity
    split at hstep
    · cases hstep
      exact .requestSent hactivity
    · cases hstep
      exact .fail _ (by rw [hactivity]; rfl) (by simp)
  · rename_i req hactivity
    split at hstep
    · cases hstep
      exact .messageSent hactivity
    · cases hstep
      exact .messageNotSent _ hactivity
  · cases hstep

theorem shutdownStep_cases (hstep : s.shutdownStep = some s') : TaskStep s .shutdown s' := by
  rw [shutdownStep] at hstep
  split at hstep
  · rename_i err hactivity
    cases hstep
    exact .close hactivity
  · rename_i err hactivity
    cases hstep
    exact .setError hactivity
  · rename_i err hactivity
    split at hstep
    · rename_i hstate
      cases hstep
      exact .flushNothing hactivity hstate
    · rename_i requestId tx hstate
      cases hstep
      exact .flush hactivity hstate
  · rename_i err hactivity
    split at hstep
    · rename_i req rest hqueue
      cases hstep
      exact .drain hactivity hqueue
    · rename_i hqueue
      cases hstep
      exact .drained hactivity hqueue
  · rename_i hactivity
    cases hstep
    exact .leave hactivity
  · cases hstep

theorem Inv.step_cases (h : s.Inv) {e : Event} (hstep : Step s e s') :
    (∃ c e', e = .caller c e' ∧ CallerStep s s' c e') ∨ TaskStep s e s' := by
  rw [Step, System.step.eq_def] at hstep
  cases e with
  | caller c e => exact .inl ⟨c, e, rfl, callerStep_cases hstep⟩
  | select e =>
    dsimp only at hstep
    split at hstep
    · rename_i hactivity
      exact .inr (h.selectStep_cases hactivity hstep)
    · cases hstep
  | finish res => exact .inr (finish_cases hstep)
  | shutdown => exact .inr (shutdownStep_cases hstep)

end Task

end System

end Cuprate.P2P
