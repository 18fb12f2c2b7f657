import Cuprate.Collections.DelayQueue
import Cuprate.TxPool.Manager

/-!
# Timeouts of the transaction pool manager

The pool manager with the timeouts of public transactions (`cuprated/src/txpool/manager.rs`). The
key that the delay queue gives a new timeout is an argument. `none` is a panic, of an `unwrap` or
because a request to the database failed.
-/

namespace Cuprate.TxPool

open Collections

variable {K : Type*}

/-- Information on a transaction in the pool, with the key of its timeout. -/
structure TimedTxInfo (K : Type*) extends TxInfo where
  timeoutKey : Option K

/-- The pool manager with its timeouts. When they fire is kept by `Clocked`. -/
structure TimedManager (K : Type*) where
  currentTxs : Table Hash (TimedTxInfo K)
  txTimeouts : Table K Hash
  tables : Tables

namespace TimedManager

variable [DecidableEq K]

/-- Removes the timeout with the key, if there is a key and the timeout is still pending. -/
def removeTimeout (txTimeouts : Table K Hash) : Option K → Table K Hash
  | some key => txTimeouts.erase key
  | none => txTimeouts

/-- Removes a transaction from the manager, and from the database if asked to. -/
def removeTxFromPool (env : PoolEnv) (now : UInt64) (removeFromDb : Bool) (manager : TimedManager K)
    (tx : Hash) : Option (TimedManager K) :=
  match manager.currentTxs.lookup tx with
  | none => none
  | some txInfo =>
    let manager' := { manager with
      currentTxs := manager.currentTxs.erase tx
      txTimeouts := removeTimeout manager.txTimeouts txInfo.timeoutKey }
    if removeFromDb then
      match handleTxpoolRequest env now manager.tables (.removeTransaction tx) with
      | (.ok _, tables) => some { manager' with tables := tables }
      | _ => none
    else some manager'

/-- Reads the blob of a transaction, to send it to the network. -/
def rerelayTx (manager : TimedManager K) (tx : Hash) : Option (List UInt8) :=
  manager.tables.transactionBlobs.lookup tx

/-- Stores a transaction with a new timeout. -/
def setTimeout (manager : TimedManager K) (tx : Hash) (txInfo : TxInfo) (key : K) : TimedManager K :=
  { manager with
    currentTxs := manager.currentTxs.insert tx { txInfo with timeoutKey := some key }
    txTimeouts := manager.txTimeouts.insert key tx }

/-- Sends a transaction again and sets the next timeout, or removes it if it is too old. -/
def handleTxTimeout (env : NodeEnv) (now : UInt64) (key : K) (manager : TimedManager K) (tx : Hash) :
    Option (TimedManager K) :=
  match manager.currentTxs.lookup tx with
  | none => some manager
  | some txInfo =>
    if env.maximumAgeSecs < (now - txInfo.receivedAt + 10).toNat then
      manager.removeTxFromPool env.toPoolEnv now true tx
    else
      match manager.rerelayTx tx with
      | none => none
      | some _ => some (manager.setTimeout tx txInfo.toTxInfo key)

/-- Adds a transaction to the manager. -/
def trackTx (now : UInt64) (key : K) (manager : TimedManager K) (tx : Hash) (weight : Nat) (fee : UInt64)
    (isPrivate : Bool) : TimedManager K :=
  if isPrivate then
    { manager with
      currentTxs := manager.currentTxs.insert tx
        { weight, fee, receivedAt := now, isPrivate := true, timeoutKey := none } }
  else
    manager.setTimeout tx { weight, fee, receivedAt := now, isPrivate := false } key

/-- Adds a transaction to the pool. -/
def handleIncomingTx (env : PoolEnv) (now : UInt64) (key : K) (manager : TimedManager K)
    (tx : TransactionVerificationData) (stem : Bool) : Option (TimedManager K) :=
  match handleTxpoolRequest env now manager.tables (.addTransaction tx stem) with
  | (.ok (.addTransaction none), tables) =>
    some (trackTx now key { manager with tables := tables } tx.txHash tx.txWeight tx.fee stem)
  | (.ok (.addTransaction (some _)), tables) => some { manager with tables := tables }
  | _ => none

/-- Makes a transaction public and sets its first timeout. -/
def promoteTx (env : PoolEnv) (now : UInt64) (key : K) (manager : TimedManager K) (tx : Hash) :
    Option (TimedManager K) :=
  match manager.currentTxs.lookup tx with
  | none => some manager
  | some txInfo =>
    if txInfo.isPrivate then
      match handleTxpoolRequest env now manager.tables (.promote tx) with
      | (.ok _, tables) =>
        some { manager.setTimeout tx { txInfo.toTxInfo with isPrivate := false, receivedAt :=
          now } key with
          tables := tables }
      | _ => none
    else some manager

/-- Removes the transactions that a block has spent. -/
def newBlock (env : PoolEnv) (now : UInt64) (manager : TimedManager K)
    (spentKeyImages : List CompressedPoint) : Option (TimedManager K) :=
  match handleTxpoolRequest env now manager.tables (.newBlock spentKeyImages) with
  | (.ok (.newBlock removedTxs), tables) =>
    removedTxs.foldlM (removeTxFromPool env now false) { manager with tables := tables }
  | _ => none

/-- The transaction of a backlog entry is put in the manager. -/
def loadTx (manager : TimedManager K) (tx : Hash) (info : TransactionInfo) (key : K) : TimedManager K :=
  let txInfo : TxInfo :=
    { weight := info.weight, fee := info.fee, receivedAt := info.receivedAt, isPrivate :=
      info.flags.stateStem }
  if info.flags.stateStem then
    { manager with currentTxs := manager.currentTxs.insert tx { txInfo with timeoutKey := none } }
  else manager.setTimeout tx txInfo key

/-- The manager is filled with the backlog; each new timeout gets a key that no pending one has. -/
inductive Loads : List (Hash × TransactionInfo) → TimedManager K → TimedManager K → Prop where
  | nil (manager : TimedManager K) : Loads [] manager manager
  | cons {manager manager' : TimedManager K} {tx : Hash} {info : TransactionInfo}
      {backlog : List (Hash × TransactionInfo)} (key : K) (hfresh : manager.txTimeouts.lookup key = none)
      (hrest : Loads backlog (manager.loadTx tx info key) manager') :
        Loads ((tx, info) :: backlog) manager manager'

/-- The list is what the table of transaction infos is read as. -/
structure IsBacklog (tables : Tables) (backlog : List (Hash × TransactionInfo)) : Prop where
  nodup : (backlog.map (·.1)).Nodup
  mem_iff : ∀ tx info, (tx, info) ∈ backlog ↔ tables.transactionInfos.lookup tx = some info

/-- What the manager handles. -/
inductive Event (K : Type*) where
  | timeout (fired key : K)
  | incoming (tx : TransactionVerificationData) (stem : Bool) (key : K)
  | promote (tx : Hash) (key : K)
  | newBlock (spentKeyImages : List CompressedPoint)

/-- What handling an event leads to; `none` is a panic. -/
def handle (env : NodeEnv) (now : UInt64) (manager : TimedManager K) : Event K → Option (TimedManager K)
  | .timeout fired key =>
    match manager.txTimeouts.lookup fired with
    | none => some manager
    | some tx =>
      { manager with txTimeouts := manager.txTimeouts.erase fired }.handleTxTimeout env now key tx
  | .incoming tx stem key => manager.handleIncomingTx env.toPoolEnv now key tx stem
  | .promote tx key => manager.promoteTx env.toPoolEnv now key tx
  | .newBlock spentKeyImages => manager.newBlock env.toPoolEnv now spentKeyImages

/-- An event that can come: a timeout that fires is pending, a new one has a new key, and an
incoming transaction was verified. -/
def Enabled (env : PoolEnv) (Tx : Transaction → Prop) (manager : TimedManager K) : Event K → Prop
  | .timeout fired key =>
    (∃ tx, manager.txTimeouts.lookup fired = some tx) ∧ (manager.txTimeouts.erase fired).lookup key = none
  | .incoming tx _ key =>
    manager.txTimeouts.lookup key = none ∧ DataFields env tx ∧ Tx tx.tx ∧
      (∀ height, .gen height ∉ tx.tx.txPrefix.inputs) ∧
      (RawCachedVerificationState.ofState tx.cachedVerificationState).isSome
  | .promote _ key => manager.txTimeouts.lookup key = none
  | .newBlock _ => True

/-- The states of a manager that was started on a database. The promotions at the start are events
like the later ones. -/
inductive Reachable (env : NodeEnv) (Tx : Transaction → Prop) : TimedManager K → Prop where
  | start {added : Added} {tables : Tables} {backlog : List (Hash × TransactionInfo)}
      {manager : TimedManager K}
      (htables : TxPool.Reachable env.toPoolEnv Tx added tables) (hbacklog : IsBacklog tables backlog)
      (hloads : Loads backlog ⟨∅, ∅, tables⟩ manager) : Reachable env Tx manager
  | event {manager manager' : TimedManager K} (now : UInt64) (event : Event K)
      (hreach : Reachable env Tx manager)
      (henabled : manager.Enabled env.toPoolEnv Tx event)
        (hhandle : manager.handle env now event = some manager') : Reachable env Tx manager'

/-- The base time between re-relays to the p2p network. -/
def TX_RERELAY_TIME : Nat := 300

/-- The seconds until a transaction is sent to the network again. The product only overflows at
nearly `2 ^ 64` seconds. -/
def calculateNextTimeout (now receivedAt : UInt64) (maxTimeInPool : Nat) : Nat :=
  let timeInPool := (now - receivedAt).toNat
  let timeTillMaxTimeout := maxTimeInPool - timeInPool
  let timeouts := timeInPool / TX_RERELAY_TIME
  min ((timeouts + 1) * TX_RERELAY_TIME) timeTillMaxTimeout

/-- The manager with its clock, in seconds, and the times at which its timeouts fire. -/
structure Clocked (K : Type*) where
  manager : TimedManager K
  time : Nat
  deadlines : K → Nat

/-- The key that the delay queue gives the timeout that is set while the event is handled, if one
is. -/
def Event.newKey : Event K → Option K
  | .timeout _ key | .incoming _ _ key | .promote _ key => some key
  | .newBlock _ => none

/-- A timeout that was set under `key` fires after the seconds that `calculate_next_timeout`
gives. -/
def setDeadline (env : NodeEnv) (time : Nat) (manager : TimedManager K) (deadlines : K → Nat)
    (key : K) : K → Nat :=
  match (manager.txTimeouts.lookup key).bind manager.currentTxs.lookup with
  | some txInfo =>
    Function.update deadlines key
      (time + calculateNextTimeout (.ofNat time) txInfo.receivedAt env.maximumAgeSecs)
  | none => deadlines

def Clocked.handle (env : NodeEnv) (time : Nat) (event : Event K) (c : Clocked K) : Option (Clocked K) :=
  (c.manager.handle env (.ofNat time) event).map fun manager =>
    { manager, time, deadlines :=
      event.newKey.elim c.deadlines (setDeadline env time manager c.deadlines) }

/-- An event that is handled at the time of `c'`. The clock does not go back, and timeouts fire
exactly on time: a pending one fires at its deadline, and no event comes after that. -/
structure ClockedStep (env : NodeEnv) (Tx : Transaction → Prop) (event : Event K)
    (c c' : Clocked K) : Prop where
  enabled : c.manager.Enabled env.toPoolEnv Tx event
  handled : c.handle env c'.time event = some c'
  clock : c.time ≤ c'.time
  inTime : ∀ key tx, c.manager.txTimeouts.lookup key = some tx → c'.time ≤ c.deadlines key
  onTime : ∀ fired key, event = .timeout fired key → c'.time = c.deadlines fired

/-- The manager without timeouts. -/
def untimed (manager : TimedManager K) : TxpoolManager where
  currentTxs := manager.currentTxs.mapValues fun _ txInfo => txInfo.toTxInfo
  tables := manager.tables

end TimedManager

end Cuprate.TxPool
