import Cuprate.Collections.DelayQueue

/-!
# The dandelion++ pool manager

The manager of transactions in the stem phase (`p2p/dandelion-tower/src/pool/manager.rs`). What its
services answer, the key of a new timer, and which timer fires are part of an event. An error of a
service ends the manager.
-/

namespace Cuprate.Dandelion

open Collections

/-- The state of a transaction in the backing pool, and of the router. -/
inductive State where
  | fluff
  | stem
deriving DecidableEq, Repr

/-- The routing state of a transaction. -/
inductive TxState (PeerId : Type*) where
  | fluff
  | stem (origin : PeerId)
  | «local»
deriving DecidableEq, Repr

/-- A request to the router. -/
structure DandelionRouteReq (Tx PeerId : Type*) where
  tx : Tx
  state : TxState PeerId

/-- A transaction after the preprocessing stage (`pool/incoming_tx.rs`). -/
structure IncomingTx (Tx TxId PeerId : Type*) where
  tx : Tx
  txId : TxId
  routingState : TxState PeerId

/-- The pool manager with its timers and what it has sent. -/
structure DandelionPoolManager (Tx TxId PeerId Key : Type*) where
  routingSet : List (TxId × DandelionRouteReq Tx PeerId)
  stemOrigins : Table TxId (Finset PeerId)
  embargoTimers : Table Key TxId
  embargoTimerKeys : Table TxId Key

/-- The answers of the services while an event is handled. -/
structure Services (Tx Key : Type*) where
  routerReady : Bool
  /-- The answer of the backing pool to `Get`. -/
  get : Option (Option (Tx × State))
  /-- Whether the backing pool answers `Promote`. -/
  promote : Bool
  key : Key

namespace DandelionPoolManager

variable {Tx TxId PeerId Key : Type*} [DecidableEq TxId] [DecidableEq PeerId] [DecidableEq Key]

def new : DandelionPoolManager Tx TxId PeerId Key where
  routingSet := []
  stemOrigins := ∅
  embargoTimers := ∅
  embargoTimerKeys := ∅

def addEmbargoTimerForTx (services : Services Tx Key) (txId : TxId)
    (manager : DandelionPoolManager Tx TxId PeerId Key) : DandelionPoolManager Tx TxId PeerId Key :=
  { manager with
    embargoTimers := manager.embargoTimers.insert services.key txId
    embargoTimerKeys := manager.embargoTimerKeys.insert txId services.key }

/-- Sends a transaction to the router. -/
def route (services : Services Tx Key) (tx : Tx) (txId : TxId) (state : TxState PeerId)
    (manager : DandelionPoolManager Tx TxId PeerId Key) :
      Option (DandelionPoolManager Tx TxId PeerId Key) :=
  if services.routerReady then
    some { manager with routingSet := manager.routingSet ++ [(txId, { tx, state })] }
  else none

/-- Stems the transaction and remembers who sent it. -/
def stemTx (services : Services Tx Key) (tx : Tx) (txId : TxId) (origin : Option PeerId)
    (manager : DandelionPoolManager Tx TxId PeerId Key) :
      Option (DandelionPoolManager Tx TxId PeerId Key) :=
  match origin with
  | some peer =>
    let peers := (manager.stemOrigins.lookup txId).getD ∅
    { manager with stemOrigins := manager.stemOrigins.insert txId (insert peer peers) }.route
      services tx txId
      (.stem peer)
  | none => manager.route services tx txId .local

/-- Sends a transaction to all peers. -/
def fluffTx (services : Services Tx Key) (tx : Tx) (txId : TxId)
    (manager : DandelionPoolManager Tx TxId PeerId Key) :
    Option (DandelionPoolManager Tx TxId PeerId Key) :=
  manager.route services tx txId .fluff

/-- Promotes a transaction to the clear pool. -/
def promoteTx (services : Services Tx Key) (txId : TxId)
    (manager : DandelionPoolManager Tx TxId PeerId Key) :
    Option (DandelionPoolManager Tx TxId PeerId Key) :=
  let embargoTimers := match manager.embargoTimerKeys.lookup txId with
    | some key => manager.embargoTimers.erase key
    | none => manager.embargoTimers
  if services.promote then
    some { manager with
      stemOrigins := manager.stemOrigins.erase txId
      embargoTimerKeys := manager.embargoTimerKeys.erase txId
      embargoTimers := embargoTimers }
  else none

/-- Promotes a transaction to the public pool and fluffs it. -/
def promoteAndFluffTx (services : Services Tx Key) (txId : TxId)
    (manager : DandelionPoolManager Tx TxId PeerId Key) :
    Option (DandelionPoolManager Tx TxId PeerId Key) :=
  match services.get with
  | none => none
  | some none => some manager
  | some (some (_, .fluff)) => some manager
  | some (some (tx, .stem)) =>
    match manager.promoteTx services txId with
    | some manager => manager.fluffTx services tx txId
    | none => none

/-- Handles a transaction that is new or has come again. -/
def handleIncomingTx (services : Services Tx Key) (incoming : IncomingTx Tx TxId PeerId)
    (manager : DandelionPoolManager Tx TxId PeerId Key) :
      Option (DandelionPoolManager Tx TxId PeerId Key) :=
  match incoming.routingState with
  | .stem origin =>
    if origin ∈ (manager.stemOrigins.lookup incoming.txId).getD ∅ then
      manager.promoteAndFluffTx services incoming.txId
    else
      (manager.stemTx services incoming.tx incoming.txId (some origin)).map
        (addEmbargoTimerForTx services incoming.txId)
  | .fluff => manager.fluffTx services incoming.tx incoming.txId
  | .local =>
    (manager.stemTx services incoming.tx incoming.txId none).map
      (addEmbargoTimerForTx services incoming.txId)

/-- Handles an embargo timer that has fired. -/
def handleTimer (services : Services Tx Key) (key : Key)
    (manager : DandelionPoolManager Tx TxId PeerId Key) :
    Option (DandelionPoolManager Tx TxId PeerId Key) :=
  match manager.embargoTimers.lookup key with
  | none => none
  | some txId =>
    { manager with embargoTimers := manager.embargoTimers.erase key }.promoteAndFluffTx services txId

/-- The router is done with request `i`. A request that failed is tried again. -/
def handleRouted (services : Services Tx Key) (i : Nat) (res : Option State)
    (manager : DandelionPoolManager Tx TxId PeerId Key) :
      Option (DandelionPoolManager Tx TxId PeerId Key) :=
  match manager.routingSet[i]? with
  | none => none
  | some (txId, req) =>
    let manager := { manager with routingSet := manager.routingSet.eraseIdx i }
    match res with
    | some .fluff => manager.promoteTx services txId
    | some .stem => some manager
    | none =>
      match services.get with
      | none => none
      | some none => some manager
      | some (some (tx, _)) =>
        match req.state with
        | .fluff => manager.fluffTx services tx txId
        | .stem origin => manager.stemTx services tx txId (some origin)
        | .local => manager.stemTx services tx txId none

/-- What the manager handles. -/
inductive Event (Tx TxId PeerId Key : Type*) where
  | timer (key : Key)
  | routed (i : Nat) (res : Option State)
  | incoming (tx : IncomingTx Tx TxId PeerId)

/-- One turn of the loop of `run`. -/
def handle (services : Services Tx Key) (manager : DandelionPoolManager Tx TxId PeerId Key) :
    Event Tx TxId PeerId Key → Option (DandelionPoolManager Tx TxId PeerId Key)
  | .timer key => manager.handleTimer services key
  | .routed i res => manager.handleRouted services i res
  | .incoming tx => manager.handleIncomingTx services tx

/-- The delay queue gives a new timer a key that no pending timer has. -/
def Step (manager : DandelionPoolManager Tx TxId PeerId Key)
    (event : Event Tx TxId PeerId Key × Services Tx Key)
    (manager' : DandelionPoolManager Tx TxId PeerId Key) : Prop :=
  (∀ tx, event.1 = .incoming tx → manager.embargoTimers.lookup event.2.key = none) ∧
    manager.handle event.2 event.1 = some manager'

def Event.txId (manager : DandelionPoolManager Tx TxId PeerId Key) : Event Tx TxId PeerId Key → Option TxId
  | .timer key => manager.embargoTimers.lookup key
  | .routed i _ => manager.routingSet[i]?.map (·.1)
  | .incoming tx => some tx.txId

end DandelionPoolManager

end Cuprate.Dandelion
