import Cuprate.P2P.Protocol
import Mathlib.Logic.Function.Basic

/-!
# The connection to a peer

The task that runs a connection (`p2p/p2p-core/src/client/connection.rs`) and everything that sends
it requests: the client (`client.rs`), its weak and broadcast clients (`client/weak.rs`) and the
timeout monitor (`client/timeout_monitor.rs`). They share a semaphore with one permit, a bounded
channel and an error slot, and run interleaved. A response channel is numbered by the call that made
it; `answered` are those that something was sent down, `dropped` those that were dropped with
nothing sent.
-/

namespace Cuprate.P2P

open Cuprate.Wire PeerRequest

/-- Why a request fails. -/
inductive PeerError where
  | timedOut | connectionClosed | clientChannelClosed | peerSentInvalidMessage | serviceError | bucketError
deriving DecidableEq, Repr

/-- The capacity of the channel to a connection task (`p2p/p2p-core/src/constants.rs`). -/
def clientQueueSize : Nat := 5

/-- What sends requests to the connection task. A weak client is also used as a broadcast client. -/
inductive Caller where
  | client
  | weak (n : Nat)
  | monitor
deriving DecidableEq, Repr

def Caller.isWeak : Caller → Bool
  | .weak _ => true
  | _ => false

def Caller.isMonitor : Caller → Bool
  | .monitor => true
  | _ => false

/-- The state of tokio's `PollSender`: a slot in the channel is reserved before a value is sent. -/
inductive PollSender where
  | idle
  | readyToSend
  | closed
deriving DecidableEq, Repr

/-- What a client holds. -/
structure CallerState where
  live : Bool
  /-- The running `poll_ready` found the error slot empty. -/
  checked : Bool
  permit : Bool
  sender : PollSender

def CallerState.mayPoll (caller : CallerState) (c : Caller) : Bool :=
  caller.checked || c.isMonitor

def Caller.maySend (c : Caller) : PeerRequest → Bool
  | .admin (.timedSync _) => true
  | _ => !c.isMonitor

/-- A request on its way to the connection task. -/
structure ConnectionTaskRequest where
  request : PeerRequest
  responseChannel : Nat
  permit : Bool

/-! ## The connection task -/

/-- Whether the task waits for a response. -/
inductive State where
  | waitingForRequest
  /-- The state owns the permit of the request. -/
  | waitingForResponse (requestId : MessageID) (tx : Nat)

/-- The assertions and expectations of the task. -/
inductive ConnectionPanic where
  | moreThanOneRequest
  | noPermit
  | requestTimeoutNotSet
  | notInCorrectState
  | requestIsNotARequest
deriving DecidableEq, Repr

/-- Where the task is. -/
inductive Activity where
  /-- Handling the messages that were received during the handshake. -/
  | eager (messages : List ProtocolMessage)
  /-- In the `select!` of the current state. -/
  | select
  /-- Sending a message of the broadcast stream, or handling a request of the peer. -/
  | handling
  /-- Sending the request that the state waits for the response of. -/
  | sendingRequest
  /-- Sending a request that needs no response. -/
  | sendingMessage (req : ConnectionTaskRequest)
  /-- In `shutdown`, before each of its statements. -/
  | shutdown (err : PeerError)
  | settingError (err : PeerError)
  | flushing (err : PeerError)
  | draining (err : PeerError)
  /-- The last `try_recv` found the channel empty; the receiver is not dropped yet. -/
  | leaving
  | finished
  | panicked (panic : ConnectionPanic)

/-- A peer's connection with everything that uses it. -/
structure System where
  callers : Caller → CallerState
  semaphore : Nat
  /-- The slots of the channel that are neither reserved nor filled. -/
  slots : Nat
  queue : List ConnectionTaskRequest
  rxClosed : Bool
  error : Option PeerError
  state : State
  requestTimeout : Bool
  activity : Activity
  /-- The requests of all calls up to now; the position of a call is its response channel. -/
  calls : List PeerRequest
  answered : List (Nat × Except PeerError PeerResponse)
  dropped : List Nat

namespace System

/-- The system when the handshake has made the client (`p2p/p2p-core/src/client/handshaker.rs`). -/
def new (eagerProtocolMessages : List ProtocolMessage) : System where
  callers c := { live := !c.isWeak, checked := false, permit := false, sender := .idle }
  semaphore := 1
  slots := clientQueueSize
  queue := []
  rxClosed := false
  error := none
  state := .waitingForRequest
  requestTimeout := false
  activity := .eager eagerProtocolMessages
  calls := []
  answered := []
  dropped := []

def setCaller (s : System) (c : Caller) (caller : CallerState) : System :=
  { s with callers := Function.update s.callers c caller }

def setErr (s : System) (err : PeerError) : System :=
  { s with error := s.error.or (some err) }

def release (s : System) (permit : Bool) : System :=
  { s with semaphore := s.semaphore + permit.toNat }

def answer (s : System) (tx : Nat) (res : Except PeerError PeerResponse) : System :=
  { s with answered := s.answered ++ [(tx, res)] }

/-- Whether the receiver of the channel has been dropped. -/
def receiverDropped (s : System) : Bool :=
  match s.activity with
  | .finished | .panicked _ => true
  | _ => false

/-! ### Calls -/

/-- Fill a reserved slot. A value that is sent after the receiver was dropped is discarded. -/
def send (s : System) (request : PeerRequest) (permit : Bool) : System :=
  let tx := s.calls.length
  let s := { s with calls := s.calls ++ [request] }
  if s.receiverDropped then
    { s with dropped := s.dropped ++ [tx] }.release permit
  else
    { s with queue := s.queue ++ [{ request, responseChannel := tx, permit }] }

/-- The channel was found closed when a slot was to be reserved: the caller answers itself. -/
def refuse (s : System) (request : PeerRequest) (permit : Bool) : System :=
  let tx := s.calls.length
  (({ s with calls := s.calls ++ [request] }.setErr .clientChannelClosed).answer tx
    (.error .clientChannelClosed)).release permit

def dropCaller (s : System) (c : Caller) : System :=
  let caller := s.callers c
  let slot := match caller.sender with
    | .readyToSend => 1
    | _ => 0
  { s.setCaller c { live := false, checked := false, permit := false, sender := .idle } with
    slots := s.slots + slot }.release caller.permit

/-- What a caller can do. `poll_ready` is `checkError`, `acquire` and `reserve`, and `takePermit`,
`checkError` and `reserve` for a broadcast client. -/
inductive CallerEvent where
  | checkError
  | acquire
  | reserve
  | takePermit
  | call (request : PeerRequest)
  | callBroadcast (message : BroadcastMessage)
  | downgrade (n : Nat)
  | drop

def checkError (s : System) (c : Caller) : System :=
  let caller := s.callers c
  match s.error with
  | some _ => s.setCaller c { caller with checked := false }
  | none =>
    if c = .client ∧ (s.receiverDropped ∨ (s.callers .monitor).live = false) then
      (s.setCaller c { caller with checked := false }).setErr .clientChannelClosed
    else
      s.setCaller c { caller with checked := true }

def acquire (s : System) (c : Caller) : Option System :=
  let caller := s.callers c
  if caller.mayPoll c ∧ caller.permit = false ∧ 0 < s.semaphore then
    some { s.setCaller c { caller with permit := true } with semaphore := s.semaphore - 1 }
  else none

def reserve (s : System) (c : Caller) : Option System :=
  let caller := s.callers c
  if caller.mayPoll c ∧ (caller.permit ∨ c.isWeak) ∧ caller.sender = .idle then
    if s.rxClosed then
      -- The monitor returns with the error of `send`, a client remembers that the channel is closed.
      if c.isMonitor then some (s.dropCaller c)
      else some ((s.setCaller c { caller with checked := false, sender := .closed }).setErr
        .clientChannelClosed)
    else if 0 < s.slots then
      some { s.setCaller c { caller with checked := false, sender := .readyToSend } with slots :=
        s.slots - 1 }
    else none
  else none

def takePermit (s : System) (c : Caller) : Option System :=
  let caller := s.callers c
  if c.isWeak then some ((s.setCaller c { caller with permit := false }).release caller.permit) else none

/-- Sends a request with the reserved slot. -/
def call (s : System) (c : Caller) (request : PeerRequest) : Option System :=
  let caller := s.callers c
  if caller.permit ∧ c.maySend request then
    match caller.sender with
    | .idle => none
    | .readyToSend =>
      some ((s.setCaller c { caller with checked := false, permit := false, sender := .idle }).send
        request true)
    | .closed => some ((s.setCaller c { caller with checked := false, permit := false }).refuse
        request true)
  else none

def callBroadcast (s : System) (c : Caller) (message : BroadcastMessage) : Option System :=
  let caller := s.callers c
  let request := ofBroadcast message
  if c.isWeak then
    match caller.sender with
    | .idle => none
    | .readyToSend => some
        ((s.setCaller c { caller with checked := false, sender := .idle }).send request false)
    | .closed => some ((s.setCaller c { caller with checked := false }).refuse request false)
  else none

/-- A weak client has its own `PollSender`: the clone of a closed one is closed, as it has no sender
left, and that of any other is idle. -/
def downgrade (s : System) (c : Caller) (n : Nat) : Option System :=
  if c = .client ∧ (s.callers (.weak n)).live = false then
    let sender := match (s.callers .client).sender with
      | .closed => .closed
      | _ => .idle
    some (s.setCaller (.weak n) { live := true, checked := false, permit := false, sender })
  else none

def callerStep (s : System) (c : Caller) (e : CallerEvent) : Option System :=
  if (s.callers c).live then
    match e with
    | .checkError => some (s.checkError c)
    | .acquire => s.acquire c
    | .reserve => s.reserve c
    | .takePermit => s.takePermit c
    | .call request => s.call c request
    | .callBroadcast message => s.callBroadcast c message
    | .downgrade n => s.downgrade c n
    | .drop => some (s.dropCaller c)
  else none

/-! ### The task -/

def stateChannel (s : System) : List Nat :=
  match s.state with
  | .waitingForRequest => []
  | .waitingForResponse _ tx => [tx]

/-- The task panics: everything it owns is dropped, and the channel `lost` that it was about to
store. -/
def panicWith (s : System) (panic : ConnectionPanic) (lost : List Nat) : System :=
  { s with
    activity := .panicked panic
    rxClosed := true
    queue := []
    state := .waitingForRequest
    dropped := s.dropped ++ lost ++ s.stateChannel ++ s.queue.map (·.responseChannel) }

/-- The start of `handle_client_request`, up to sending the message. -/
def handleClientRequest (s : System) (req : ConnectionTaskRequest) : System :=
  if req.request.needsResponse then
    match s.state with
    | .waitingForResponse _ _ => s.panicWith .moreThanOneRequest [req.responseChannel]
    | .waitingForRequest =>
      if req.permit then
        { s with
          state := .waitingForResponse req.request.id req.responseChannel
          activity := .sendingRequest }
      else s.panicWith .noPermit [req.responseChannel]
  else { s with activity := .sendingMessage req }

/-- The start of `handle_peer_request` for a message that has to be a request. -/
def handlePeerMessage (s : System) (mes : Message) : System :=
  match tryFrom mes with
  | some _ => { s with activity := .handling }
  | none => { s with activity := .shutdown .peerSentInvalidMessage }

/-- Handles a message of the peer: a request, or the response that is awaited. -/
def handlePotentialResponse (s : System) (mes : Message) : System :=
  if isRequest mes then
    match tryFrom mes with
    | some _ => { s with activity := .handling }
    | none => s.panicWith .requestIsNotARequest []
  else
    match s.state with
    | .waitingForRequest => s.panicWith .notInCorrectState []
    | .waitingForResponse requestId tx =>
      if levinCommandResponse requestId mes.command then
        match PeerResponse.tryFrom mes with
        | some resp =>
          { ({ s with state := .waitingForRequest }.release true).answer tx (.ok resp) with
            requestTimeout := false }
        | none =>
          { { s with state := .waitingForRequest }.release true with
            activity := .shutdown .peerSentInvalidMessage
            dropped := s.dropped ++ [tx] }
      else s.handlePeerMessage mes

/-- What the task's `select!` takes. -/
inductive SelectEvent where
  /-- The connection is told to shut down, one of the streams ended or the peer's gave an error. -/
  | fail (err : PeerError)
  | timeout
  | broadcast
  | clientRequest
  | peerMessage (mes : Message)

/-- A branch of the `select!` of the current state. The wait for a response needs the request
timeout. -/
def selectStep (s : System) (e : SelectEvent) : Option System :=
  match s.state, s.requestTimeout with
  | .waitingForResponse _ _, false => some (s.panicWith .requestTimeoutNotSet [])
  | state, _ =>
    match e with
    | .fail err => some { s with activity := .shutdown err }
    | .timeout =>
      match state with
      | .waitingForRequest => none
      | .waitingForResponse _ _ => some { s with activity := .shutdown .clientChannelClosed }
    | .broadcast => some { s with activity := .handling }
    | .clientRequest =>
      match s.queue with
      | [] => none
      | req :: rest => some ({ s with queue := rest, slots := s.slots + 1 }.handleClientRequest req)
    | .peerMessage mes =>
      match state with
      | .waitingForRequest => some (s.handlePeerMessage mes)
      | .waitingForResponse _ _ => some (s.handlePotentialResponse mes)

/-- What the task waits for, sending a message or handling a request, ends; both have a timeout. -/
def finish (s : System) (res : Except PeerError Unit) : Option System :=
  match s.activity with
  | .eager [] => some { s with activity := .select }
  | .eager (message :: messages) =>
    match tryFrom (.protocol message), res with
    | none, _ => some { s with activity := .shutdown .peerSentInvalidMessage }
    | some _, .error err => some { s with activity := .shutdown err }
    | some _, .ok () => some { s with activity := .eager messages }
  | .handling =>
    match res with
    | .ok () => some { s with activity := .select }
    | .error err => some { s with activity := .shutdown err }
  | .sendingRequest =>
    match res with
    | .ok () => some { s with requestTimeout := true, activity := .select }
    | .error err => some { s with activity := .shutdown err }
  | .sendingMessage req =>
    match res with
    | .ok () =>
      some { (s.answer req.responseChannel (.ok (.protocol .na))).release req.permit with
        activity := .select }
    | .error err =>
      some { (s.answer req.responseChannel (.error err)).release req.permit with activity := .shutdown err }
  | _ => none

/-- The next statement of `shutdown`. -/
def shutdownStep (s : System) : Option System :=
  match s.activity with
  | .shutdown err => some { s with rxClosed := true, activity := .settingError err }
  | .settingError err => some { s.setErr err with activity := .flushing err }
  | .flushing err =>
    match s.state with
    | .waitingForRequest => some { s with activity := .draining err }
    | .waitingForResponse _ tx =>
      some { ({ s with state := .waitingForRequest }.release true).answer tx (.error err) with
        activity := .draining err }
  | .draining err =>
    match s.queue with
    | req :: rest =>
      some (({ s with queue := rest, slots := s.slots + 1 }.answer req.responseChannel
        (.error err)).release req.permit)
    | [] => some { s with activity := .leaving }
  | .leaving =>
    some { s with
      activity := .finished
      queue := []
      semaphore := s.semaphore + s.queue.countP (·.permit)
      dropped := s.dropped ++ s.queue.map (·.responseChannel) }
  | _ => none

/-- A step of a client or of the task. -/
inductive Event where
  | caller (c : Caller) (e : CallerEvent)
  | select (e : SelectEvent)
  | finish (res : Except PeerError Unit)
  | shutdown

/-- The state after an event, if it is possible. -/
def step (s : System) : Event → Option System
  | .caller c e => s.callerStep c e
  | .select e =>
    match s.activity with
    | .select => s.selectStep e
    | _ => none
  | .finish res => s.finish res
  | .shutdown => s.shutdownStep

def Step (s : System) (e : Event) (s' : System) : Prop :=
  s.step e = some s'

end System

end Cuprate.P2P
