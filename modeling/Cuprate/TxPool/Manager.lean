import Cuprate.TxPool.Pool
import Cuprate.Consensus.BlockVerification

/-!
# The transaction pool manager

Incoming transactions are verified against the chain (`handle_incoming_txs` in
`cuprated/src/txpool/incoming_tx.rs`) and sent to the pool manager (`txpool/manager.rs`). The
blockchain manager changes the chain and sends it the key images of each new block
(`blockchain/manager/handler.rs`). A node is all of this together. An action is one step of one of
its tasks, so that a run is an interleaving of the tasks.
-/

namespace Cuprate.TxPool

open Collections

/-- The key images that the blocks of the main chain spend. -/
abbrev ChainKeyImages := List (List CompressedPoint)

/-- The rules that transactions are verified with, apart from the one on key images, give the state
of a valid transaction. Valid transactions have no miner inputs and a state that can be stored. -/
structure NodeEnv extends PoolEnv where
  rules : ChainKeyImages → TransactionVerificationData → Option CachedVerificationState
  relayRules : ChainKeyImages → TransactionVerificationData → Bool
  maximumAgeSecs : Nat
  rules_keyInputs : ∀ chain tx state, rules chain tx = some state →
    ∀ height, .gen height ∉ tx.tx.txPrefix.inputs
  rules_stored : ∀ chain tx state, rules chain tx = some state →
    (RawCachedVerificationState.ofState state).isSome

/-- What the manager keeps of a transaction. -/
structure TxInfo where
  weight : Nat
  fee : UInt64
  receivedAt : UInt64
  isPrivate : Bool
deriving DecidableEq, Repr

/-- The pool manager, with the database. -/
structure TxpoolManager where
  currentTxs : Table Hash TxInfo
  tables : Tables

namespace TxpoolManager

/-- Removes a transaction from the manager. It panics if the transaction is not there. -/
def removeTxFromPool (currentTxs : Table Hash TxInfo) (tx : Hash) : Option (Table Hash TxInfo) :=
  (currentTxs.lookup tx).map fun _ => currentTxs.erase tx

/-- Adds an incoming transaction to the pool, unless it is a double spend. -/
def handleIncomingTx (env : PoolEnv) (now : UInt64) (tx : TransactionVerificationData) (stem : Bool)
    (manager : TxpoolManager) : Option TxpoolManager :=
  match handleTxpoolRequest env now manager.tables (.addTransaction tx stem) with
  | (.ok (.addTransaction none), tables) =>
    some
      { currentTxs := manager.currentTxs.insert tx.txHash ⟨tx.txWeight, tx.fee, now, stem⟩
        tables := tables }
  | (.ok (.addTransaction (some _)), tables) => some { manager with tables := tables }
  | _ => none

/-- Removes the transactions that have been included or double spent in a block. -/
def newBlock (env : PoolEnv) (now : UInt64) (spentKeyImages : List CompressedPoint)
    (manager : TxpoolManager) : Option TxpoolManager :=
  match handleTxpoolRequest env now manager.tables (.newBlock spentKeyImages) with
  | (.ok (.newBlock removedTxs), tables) =>
    (removedTxs.foldlM removeTxFromPool manager.currentTxs).map fun currentTxs => ⟨currentTxs, tables⟩
  | _ => none

/-- Drops a transaction that has been in the pool too long. Otherwise it is sent to the network
again. -/
def handleTxTimeout (env : NodeEnv) (now : UInt64) (tx : Hash) (manager : TxpoolManager) :
    Option TxpoolManager :=
  match manager.currentTxs.lookup tx with
  | none => some manager
  | some txInfo =>
    if env.maximumAgeSecs < (now - txInfo.receivedAt + 10).toNat then
      match handleTxpoolRequest env.toPoolEnv now manager.tables (.removeTransaction tx) with
      | (.ok _, tables) =>
        (removeTxFromPool manager.currentTxs tx).map fun currentTxs => ⟨currentTxs, tables⟩
      | _ => none
    else some manager

/-- Moves a private transaction to the public pool. -/
def promoteTx (env : PoolEnv) (now : UInt64) (tx : Hash) (manager : TxpoolManager) : Option TxpoolManager :=
  match manager.currentTxs.lookup tx with
  | none => some manager
  | some txInfo =>
    if txInfo.isPrivate then
      match handleTxpoolRequest env now manager.tables (.promote tx) with
      | (.ok _, tables) =>
        some
          { currentTxs := manager.currentTxs.insert tx { txInfo with isPrivate := false, receivedAt := now }
            tables := tables }
      | _ => none
    else some manager

end TxpoolManager

/-- The transactions of a message that are neither in the pool nor handled by another task, and the
blob hashes the task handles. A duplicate is an error. -/
def prepareIncomingTxs (env : PoolEnv) (txsBeingHandled : List Hash) (tables : Tables)
    (txs : List Transaction) : Option (List Transaction × List Hash) :=
  let blobHash := fun tx => env.transactionBlobHash (env.oxide.serializeTx tx)
  if (txs.map blobHash).Nodup then
    let handled := txs.filter fun tx => !txsBeingHandled.contains (blobHash tx)
    some (handled.filter fun tx =>
      (tables.knownBlobHashes.lookup (blobHash tx)).isNone, handled.map blobHash)
  else none

/-- Verifies transactions on top of a chain: their key images are unique in the chain, and the other
rules hold. -/
def verifyTxs (env : NodeEnv) (chain : ChainKeyImages) (txs : List TransactionVerificationData) :
    Option (List TransactionVerificationData) :=
  let spentKis := txs.flatMap fun tx => tx.tx.keyImages
  if spentKis.Nodup ∧ ∀ k ∈ spentKis, k ∉ chain.flatten then
    txs.mapM fun tx => (env.rules chain tx).map fun state => { tx with cachedVerificationState := state }
  else none

/-- The transactions that are passed to the pool manager. One that breaks the relay rules is
skipped, or ends the request. -/
def relayedTxs (env : NodeEnv) (chain : ChainKeyImages) (dropRelayRuleErrors : Bool)
    (txs : List TransactionVerificationData) : List TransactionVerificationData :=
  if dropRelayRuleErrors then txs.filter (env.relayRules chain) else txs.takeWhile (env.relayRules chain)

/-- The verified transactions that a task still has to send, and the blob hashes it handles. -/
structure IncomingTask where
  txs : List TransactionVerificationData
  blobHashes : List Hash
  stem : Bool

/-- Verifies the transactions of a message. -/
def handleIncomingTxs (env : NodeEnv) (chain : ChainKeyImages) (txsBeingHandled : List Hash)
    (tables : Tables)
    (txs : List Transaction) (stem dropRelayRuleErrors : Bool) : Option IncomingTask := do
  let (unknown, blobHashes) ← prepareIncomingTxs env.toPoolEnv txsBeingHandled tables txs
  let prepped ← (unknown.mapM (Consensus.newTxVerificationData env.oxide)).toOption
  let verified ← verifyTxs env chain prepped
  some ⟨relayedTxs env chain dropRelayRuleErrors verified, blobHashes, stem⟩

/-! ## The node -/

/-- What the blockchain manager does to the chain. A re-org holds the write lock while it pops and
adds blocks. -/
inductive ChainOp where
  | addBlock (spentKeyImages : List CompressedPoint)
  | popBlocks (numbBlocks : Nat)
  | lock
  | unlock
deriving DecidableEq, Repr

/-- The key images of the chain after an operation. -/
def ChainOp.apply (chain : ChainKeyImages) : ChainOp → ChainKeyImages
  | addBlock spentKeyImages => chain ++ [spentKeyImages]
  | popBlocks numbBlocks => chain.take (chain.length - numbBlocks)
  | lock => chain
  | unlock => chain

/-- Whether the write lock is taken after an operation. -/
def ChainOp.applyLock (locked : Bool) : ChainOp → Bool
  | lock => true
  | unlock => false
  | _ => locked

/-- The size of the queue of transactions. -/
def INCOMING_TX_QUEUE_SIZE : Nat := 100

/-- The chain, the pool manager and the queues between them. -/
structure Node where
  /-- What the blockchain manager still has to do. -/
  todo : List ChainOp
  chain : ChainKeyImages
  /-- The re-org lock is taken for writing. Each task holds it for reading. -/
  locked : Bool
  tasks : List IncomingTask
  txQueue : List (TransactionVerificationData × Bool)
  /-- The blockchain manager waits until the block has been handled. -/
  blockQueue : List (List CompressedPoint)
  manager : TxpoolManager

/-- A node with an empty pool. -/
def Node.start (chain : ChainKeyImages) (todo : List ChainOp) : Node where
  todo := todo
  chain := chain
  locked := false
  tasks := []
  txQueue := []
  blockQueue := []
  manager := ⟨∅, .empty⟩

/-- What happens in a step. -/
inductive Action where
  | incomingTxs (txs : List Transaction) (stem dropRelayRuleErrors : Bool)
  | sendTx (task : Nat)
  | finishTask (task : Nat)
  | chainOp
  | handleTx (now : UInt64)
  | handleBlock (now : UInt64)
  | handleTimeout (now : UInt64) (tx : Hash)
  | promote (now : UInt64) (tx : Hash)

/-- The next operation of the blockchain manager. -/
def Node.chainOp (node : Node) : Option Node :=
  match node.todo with
  | [] => none
  | op :: todo =>
    let node' := { node with
      todo := todo
      chain := op.apply node.chain
      locked := op.applyLock node.locked }
    if node.blockQueue = [] then
      match op with
      | .addBlock spentKeyImages => some { node' with blockQueue := [spentKeyImages] }
      | .lock => if node.tasks.isEmpty then some node' else none
      | _ => some node'
    else none

/-- One step of one task. It is `none` if the task cannot take the step, or panics. -/
def Node.step (env : NodeEnv) (node : Node) : Action → Option Node
  | .incomingTxs txs stem dropRelayRuleErrors =>
    if node.locked then none
    else
      match handleIncomingTxs env node.chain (node.tasks.flatMap (·.blobHashes)) node.manager.tables txs stem
        dropRelayRuleErrors with
      | some task => some { node with tasks := node.tasks ++ [task] }
      | none => some node
  | .sendTx i =>
    match node.tasks[i]? with
    | some ⟨tx :: txs, blobHashes, stem⟩ =>
      if node.txQueue.length < INCOMING_TX_QUEUE_SIZE then
        some { node with
          tasks := node.tasks.set i ⟨txs, blobHashes, stem⟩
          txQueue := node.txQueue ++ [(tx, stem)] }
      else none
    | _ => none
  | .finishTask i =>
    match node.tasks[i]? with
    | some ⟨[], _, _⟩ => some { node with tasks := node.tasks.eraseIdx i }
    | _ => none
  | .chainOp => node.chainOp
  | .handleTx now =>
    match node.txQueue with
    | [] => none
    | (tx, stem) :: txQueue =>
      (node.manager.handleIncomingTx env.toPoolEnv now tx stem).map fun manager =>
        { node with txQueue := txQueue, manager := manager }
  | .handleBlock now =>
    match node.blockQueue with
    | [] => none
    | spentKeyImages :: blockQueue =>
      (node.manager.newBlock env.toPoolEnv now spentKeyImages).map fun manager =>
        { node with blockQueue := blockQueue, manager := manager }
  | .handleTimeout now tx =>
    (node.manager.handleTxTimeout env now tx).map fun manager => { node with manager := manager }
  | .promote now tx =>
    (node.manager.promoteTx env.toPoolEnv now tx).map fun manager => { node with manager := manager }

/-- The transactions that an action brings in are of the kind `Tx`. -/
def Action.Brings (Tx : Transaction → Prop) : Action → Prop
  | .incomingTxs txs _ _ => ∀ tx ∈ txs, Tx tx
  | _ => True

/-- The nodes that interleavings lead to. -/
inductive Node.Run (env : NodeEnv) (Tx : Transaction → Prop) (first : Node) : Node → Prop where
  | refl : Run env Tx first first
  | step {node node' : Node} (action : Action) (hrun : Run env Tx first node) (hbrings : action.Brings Tx)
      (hstep : node.step env action = some node') : Run env Tx first node'

/-- No transaction in the pool spends a key image that is spent on the chain. -/
def Node.Clean (env : PoolEnv) (node : Node) : Prop :=
  ∀ hash blob tx, node.manager.tables.transactionBlobs.lookup hash = some blob →
    env.readTx blob = some tx → ∀ k ∈ tx.keyImages, k ∉ node.chain.flatten

end Cuprate.TxPool
