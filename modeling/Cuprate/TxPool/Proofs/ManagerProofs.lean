import Cuprate.TxPool.Manager
import Cuprate.TxPool.Proofs.PoolProofs

/-!
# Transactions and blocks in the pool

A transaction that is verified before a block and put in the pool after the block has been handled
stays there. So the pool is clean in every interleaving exactly when no verified transaction shares
a key image with a later block. It is also clean when every transaction is put in the pool in time.
-/

namespace Cuprate.TxPool

open Collections Finmap List Option TxpoolManager Node ChainOp Consensus

variable {env : NodeEnv} {Tx : Transaction → Prop} {chain : ChainKeyImages} {tx : Transaction}
  {data : TransactionVerificationData}

/-- A transaction passes the verification on top of a chain, and is passed on with the data. -/
structure Passes (env : NodeEnv) (chain : ChainKeyImages) (tx : Transaction)
    (data : TransactionVerificationData) : Prop where
  prepped : newTxVerificationData env.oxide tx = .ok { data with cachedVerificationState := .notVerified }
  unique : tx.keyImages.Nodup
  unspent : ∀ k ∈ tx.keyImages, k ∉ chain.flatten
  rules : env.rules chain { data with cachedVerificationState := .notVerified } =
    some data.cachedVerificationState
  relayed : env.relayRules chain data = true

theorem newTxVerificationData_eq_ok {oxide : MoneroOxide} (h : newTxVerificationData oxide tx = .ok data) :
    data.tx = tx ∧ data.txBlob = oxide.serializeTx tx ∧ data.txHash = oxide.hashTx tx ∧
      TxVersion.fromRaw tx.version = some data.version ∧ data.cachedVerificationState = .notVerified := by
  obtain ⟨fee, -, h⟩ := bind_eq_ok.mp h
  obtain ⟨version, hversion, h⟩ := bind_eq_ok.mp h
  cases h
  refine ⟨rfl, rfl, rfl, ?_, rfl⟩
  unfold txVersionOf at hversion
  split at hversion
  · next hraw =>
    cases hversion
    exact hraw
  · cases hversion

section
variable (h : Passes env chain tx data)
include h

theorem Passes.tx_eq : data.tx = tx := (newTxVerificationData_eq_ok h.prepped).1

theorem Passes.fields (hread : env.readTx (env.oxide.serializeTx tx) = some tx) :
    DataFields env.toPoolEnv data := by
  obtain ⟨htx, hblob, hhash, hversion, -⟩ := newTxVerificationData_eq_ok h.prepped
  have htx : data.tx = tx := htx
  have hblob : data.txBlob = env.oxide.serializeTx tx := hblob
  refine ⟨by rw [htx]; exact hblob, ?_, by rw [htx]; exact hhash, by rw [htx]; exact hversion⟩
  rw [hblob, htx]
  exact hread

theorem Passes.poolable (hread : env.readTx (env.oxide.serializeTx tx) = some tx)
    (hkind : Tx tx) : Poolable env.toPoolEnv Tx data where
  fields := h.fields hread
  kind := by rw [h.tx_eq]; exact hkind
  keyInputs := env.rules_keyInputs chain { data with cachedVerificationState := .notVerified } _ h.rules
  stored := env.rules_stored _ _ _ h.rules

end

variable {node node' : Node} {tables : Tables} {hash : Hash}

/-- Each transaction that a task sends has passed the verification. -/
theorem handleIncomingTxs_passes {txsBeingHandled : List Hash} {txs : List Transaction}
    {stem dropRelayRuleErrors : Bool} {task : IncomingTask}
    (h : handleIncomingTxs env chain txsBeingHandled tables txs stem dropRelayRuleErrors = some task) :
    ∀ data ∈ task.txs, ∃ tx ∈ txs, Passes env chain tx data := by
  obtain ⟨⟨unknown, blobHashes⟩, hprepare, h⟩ := bind_eq_some_iff.mp h
  obtain ⟨prepped, hprepped, h⟩ := bind_eq_some_iff.mp h
  obtain ⟨verified, hverified, h⟩ := bind_eq_some_iff.mp h
  cases h
  have hsub : ∀ tx ∈ unknown, tx ∈ txs := by
    unfold prepareIncomingTxs at hprepare
    simp only at hprepare
    split at hprepare
    · cases hprepare
      exact fun tx hmem => mem_of_mem_filter (mem_of_mem_filter hmem)
    · cases hprepare
  unfold verifyTxs at hverified
  simp only at hverified
  split at hverified
  · next hkis =>
    intro data hmem
    obtain ⟨hdata, hrelay⟩ : data ∈ verified ∧ env.relayRules chain data = true := by
      unfold relayedTxs at hmem
      split at hmem
      · exact mem_filter.mp hmem
      · exact ⟨(takeWhile_subset _) hmem, mem_takeWhile_imp hmem⟩
    obtain ⟨data₀, hmem₀, hrules⟩ := exists_of_mem_mapM hverified hdata
    obtain ⟨state, hstate, rfl⟩ := map_eq_some_iff.mp hrules
    rw [toOption_mapM] at hprepped
    obtain ⟨tx, htx, hnew⟩ := exists_of_mem_mapM hprepped hmem₀
    have hnew := toOption_eq_some.mp hnew
    obtain ⟨htxeq, -, -, -, hnot⟩ := newTxVerificationData_eq_ok hnew
    have hsame : { data₀ with cachedVerificationState := .notVerified } = data₀ := by rw [← hnot]
    have hkeyImages : ∀ k ∈ tx.keyImages, k ∈ prepped.flatMap fun tx => tx.tx.keyImages := by
      intro k hk
      exact mem_flatMap.mpr ⟨data₀, hmem₀, by rwa [htxeq]⟩
    refine ⟨tx, hsub tx htx, ⟨by rw [hnew, ← hsame], ?_, fun k hk =>
      hkis.2 k (hkeyImages k hk), ?_, hrelay⟩⟩
    · rw [← htxeq]
      exact (nodup_flatMap.mp hkis.1).1 data₀ hmem₀
    · show env.rules chain { data₀ with cachedVerificationState := .notVerified } = some state
      rw [hsame, hstate]
  · cases hverified

theorem Passes.handleIncomingTxs_eq (h : Passes env chain tx data) (hunknown : tables.knownBlobHashes = ∅)
    (stem dropRelayRuleErrors : Bool) :
    ∃ blobHashes, handleIncomingTxs env chain [] tables [tx] stem dropRelayRuleErrors =
      some ⟨[data], blobHashes, stem⟩ := by
  refine ⟨[env.transactionBlobHash (env.oxide.serializeTx tx)], ?_⟩
  have hprepare : prepareIncomingTxs env.toPoolEnv [] tables [tx] =
      some ([tx], [env.transactionBlobHash (env.oxide.serializeTx tx)]) := by
    simp [prepareIncomingTxs, hunknown]
  have hprepped : ([tx].mapM (newTxVerificationData env.oxide)).toOption =
      some [{ data with cachedVerificationState := .notVerified }] := by
    rw [toOption_mapM, mapM_cons, h.prepped]
    rfl
  have hverified : verifyTxs env chain [{ data with cachedVerificationState := .notVerified }] =
      some [data] := by
    have hkis : ([{ data with cachedVerificationState := .notVerified }].flatMap fun tx =>
        tx.tx.keyImages) = tx.keyImages := by
      show data.tx.keyImages ++ [] = _
      rw [h.tx_eq, append_nil]
    unfold verifyTxs
    simp only [hkis]
    rw [if_pos ⟨h.unique, h.unspent⟩, mapM_cons, h.rules]
    rfl
  have hrelayed : relayedTxs env chain dropRelayRuleErrors [data] = [data] :=
      by simp [relayedTxs, h.relayed]
  unfold handleIncomingTxs
  simp only [hprepare, hprepped, hverified, bind_eq_bind, bind_some, hrelayed]

/-- The tables hold a pool whose transactions have a property. -/
def HoldsAll (env : PoolEnv) (Tx : Transaction → Prop) (P : TransactionVerificationData → Prop)
    (tables : Tables) : Prop :=
  ∃ pool : Pool env Tx, Holds pool tables ∧ ∀ hash data, pool.txs hash = some data → P data

theorem HoldsAll.mono {env : PoolEnv} {P Q : TransactionVerificationData →
    Prop} (h : HoldsAll env Tx P tables)
    (himp : ∀ data, P data → Q data) : HoldsAll env Tx Q tables := by
  obtain ⟨pool, hholds, hall⟩ := h
  exact ⟨pool, hholds, fun hash data hdata => himp data (hall hash data hdata)⟩

theorem Added.after_cases {added : Added} {req : TxpoolWriteRequest}
    {res : Except (Fault TxPoolWriteError) TxpoolWriteResponse}
      (h : added.after req res hash = some data) :
    added hash = some data ∨ ∃ stem, req = .addTransaction data stem := by
  cases req with
  | addTransaction data' stem =>
    cases res with
    | error e => exact .inl h
    | ok response =>
      cases response with
      | ok => exact .inl h
      | newBlock txsRemoved => exact .inl h
      | addTransaction doubleSpend =>
        cases doubleSpend with
        | some owner => exact .inl h
        | none =>
          rcases Pool.update_cases h with ⟨-, rfl⟩ | ⟨-, hold⟩
          · exact .inr ⟨stem, rfl⟩
          · exact .inl hold
  | removeTransaction txHash => exact .inl h
  | promote txHash => exact .inl h
  | newBlock kis => exact .inl h

theorem HoldsAll.request {env : PoolEnv} {P : TransactionVerificationData →
    Prop} (h : HoldsAll env Tx P tables)
    (hdiff : HashesDiffer env Tx) (now : UInt64) (req : TxpoolWriteRequest)
    (hadd : ∀ data stem, req = .addTransaction data stem → DataFields env data ∧ Tx data.tx ∧ P data) :
    HoldsAll env Tx P (handleTxpoolRequest env now tables req).2 := by
  obtain ⟨pool, hholds, hall⟩ := h
  obtain ⟨pool', hholds', hadded⟩ := hholds.request hdiff (fun _ _ h => h) now req
    fun data stem heq => ⟨(hadd data stem heq).1, (hadd data stem heq).2.1⟩
  refine ⟨pool', hholds', fun hash data hdata => ?_⟩
  rcases Added.after_cases (hadded hash data hdata) with hold | ⟨stem, hreq⟩
  · exact hall hash data hold
  · exact (hadd data stem hreq).2.2

namespace TxpoolManager

variable {manager manager' : TxpoolManager} {now : UInt64}

theorem handleIncomingTx_tables {env : PoolEnv} {stem : Bool}
    (h : manager.handleIncomingTx env now data stem = some manager') :
    manager'.tables = (handleTxpoolRequest env now manager.tables (.addTransaction data stem)).2 := by
  unfold handleIncomingTx at h
  split at h
  · next heq =>
    cases h
    rw [heq]
  · next heq =>
    cases h
    rw [heq]
  · cases h

theorem newBlock_tables {env : PoolEnv} {kis : List CompressedPoint}
    (h : manager.newBlock env now kis = some manager') :
    manager'.tables = (handleTxpoolRequest env now manager.tables (.newBlock kis)).2 := by
  unfold newBlock at h
  split at h
  · next heq =>
    obtain ⟨currentTxs, -, rfl⟩ := map_eq_some_iff.mp h
    rw [heq]
  · cases h

theorem handleTxTimeout_tables (h : manager.handleTxTimeout env now hash = some manager') :
    manager'.tables = manager.tables ∨
      manager'.tables = (handleTxpoolRequest env.toPoolEnv now manager.tables
        (.removeTransaction hash)).2 := by
  unfold handleTxTimeout at h
  split at h
  · exact .inl (by rw [some.inj h])
  · split at h
    · split at h
      · next heq =>
        obtain ⟨currentTxs, -, rfl⟩ := map_eq_some_iff.mp h
        exact .inr (by rw [heq])
      · cases h
    · exact .inl (by rw [some.inj h])

theorem promoteTx_tables {env : PoolEnv} (h : manager.promoteTx env now hash = some manager') :
    manager'.tables = manager.tables ∨
      manager'.tables = (handleTxpoolRequest env now manager.tables (.promote hash)).2 := by
  unfold promoteTx at h
  split at h
  · exact .inl (by rw [some.inj h])
  · split at h
    · split at h
      · next heq =>
        cases h
        exact .inr (by rw [heq])
      · cases h
    · exact .inl (by rw [some.inj h])

end TxpoolManager

/-! ## What the blockchain manager has done -/

/-- The chain after operations of the blockchain manager. -/
def chainAfter (chain : ChainKeyImages) (ops : List ChainOp) : ChainKeyImages := ops.foldl apply chain

def lockedAfter (locked : Bool) (ops : List ChainOp) : Bool := ops.foldl applyLock locked

def ChainOp.sent : ChainOp → List (List CompressedPoint)
  | addBlock spentKeyImages => [spentKeyImages]
  | _ => []

theorem Node.chainOp_eq_some (h : node.chainOp = some node') :
    ∃ op rest, node.todo = op :: rest ∧ node.blockQueue = [] ∧
      node' = { node with
        todo := rest
        chain := op.apply node.chain
        locked := op.applyLock node.locked
        blockQueue := op.sent } := by
  unfold chainOp at h
  split at h
  · cases h
  · next op rest htodo =>
    split at h
    · next hqueue =>
      refine ⟨op, rest, htodo, hqueue, ?_⟩
      cases op with
      | addBlock kis => exact (some.inj h).symm
      | popBlocks numbBlocks =>
        rw [← some.inj h]
        simp [sent, hqueue]
      | unlock =>
        rw [← some.inj h]
        simp [sent, hqueue]
      | lock =>
        simp only at h
        split at h
        · rw [← some.inj h]
          simp [sent, hqueue]
        · cases h
    · cases h

section Sufficient

variable {first : ChainKeyImages} {todo : List ChainOp}

/-- The data was verified when at most `i` operations had been done, and the lock was not taken. -/
structure VerifiedBy (env : NodeEnv) (Tx : Transaction → Prop) (first : ChainKeyImages)
    (todo : List ChainOp)
    (i : Nat) (data : TransactionVerificationData) : Prop where
  kind : Tx data.tx
  passed : ∃ i' ≤ i, lockedAfter false (todo.take i') = false ∧
    Passes env (chainAfter first (todo.take i')) data.tx data

variable {i : Nat}

theorem VerifiedBy.mono {i' : Nat} (h : VerifiedBy env Tx first todo i data) (hle : i ≤ i') :
    VerifiedBy env Tx first todo i' data := by
  obtain ⟨i₀, hle₀, hpassed⟩ := h.passed
  exact ⟨h.kind, i₀, hle₀.trans hle, hpassed⟩

/-- Everything that a node holds was verified, when the blockchain manager has done `i`
operations. -/
structure NodeVerified (env : NodeEnv) (Tx : Transaction → Prop) (first : ChainKeyImages)
    (todo : List ChainOp)
    (i : Nat) (node : Node) : Prop where
  remaining : node.todo = todo.drop i
  chain : node.chain = chainAfter first (todo.take i)
  locked : node.locked = lockedAfter false (todo.take i)
  tasks : ∀ task ∈ node.tasks, ∀ data ∈ task.txs, VerifiedBy env Tx first todo i data
  queue : ∀ entry ∈ node.txQueue, VerifiedBy env Tx first todo i entry.1
  pool : HoldsAll env.toPoolEnv Tx (VerifiedBy env Tx first todo i) node.manager.tables

theorem nodeVerified_start : NodeVerified env Tx first todo 0 (.start first todo) where
  remaining := rfl
  chain := rfl
  locked := rfl
  tasks _ h := absurd h not_mem_nil
  queue _ h := absurd h not_mem_nil
  pool := ⟨.empty, holds_empty, fun _ _ h => absurd h (some_ne_none _).symm⟩

theorem NodeVerified.withManager (h : NodeVerified env Tx first todo i node) {manager : TxpoolManager}
    (hpool : HoldsAll env.toPoolEnv Tx (VerifiedBy env Tx first todo i) manager.tables) :
    NodeVerified env Tx first todo i { node with manager := manager } :=
  { h with pool := hpool }

theorem NodeVerified.chainOp (h : NodeVerified env Tx first todo i node)
    (hstep : node.chainOp = some node') : NodeVerified env Tx first todo (i + 1) node' := by
  obtain ⟨op, rest, htodo, -, rfl⟩ := chainOp_eq_some hstep
  have hdrop : todo.drop i = op :: rest := h.remaining.symm.trans htodo
  have hlt : i < todo.length := by
    by_contra hle
    rw [drop_eq_nil_of_le (not_lt.mp hle)] at hdrop
    cases hdrop
  obtain ⟨hop, hrest⟩ := List.cons.inj ((drop_eq_getElem_cons hlt).symm.trans hdrop)
  have htake : todo.take (i + 1) = todo.take i ++ [op] := by rw [← take_append_getElem hlt, hop]
  refine ⟨hrest.symm, ?_, ?_, fun task htask data hdata => ?_, fun entry hentry => ?_, ?_⟩
  · rw [htake, chainAfter, foldl_append, h.chain]
    rfl
  · rw [htake, lockedAfter, foldl_append, h.locked]
    rfl
  · exact (h.tasks task htask data hdata).mono (Nat.le_succ i)
  · exact (h.queue entry hentry).mono (Nat.le_succ i)
  · exact h.pool.mono fun data hdata => hdata.mono (Nat.le_succ i)

/-- What a step does to what a node holds. -/
theorem NodeVerified.step (hdiff : HashesDiffer env.toPoolEnv Tx)
    (hread : ∀ tx, Tx tx → env.readTx (env.oxide.serializeTx tx) = some tx) {action : Action}
    (h : NodeVerified env Tx first todo i node) (hbrings : action.Brings Tx)
    (hstep : node.step env action = some node') : ∃ i', NodeVerified env Tx first todo i' node' := by
  cases action with
  | incomingTxs txs stem dropRelayRuleErrors =>
    simp only [Node.step] at hstep
    split at hstep
    · cases hstep
    · next hunlocked =>
      split at hstep
      · next task htask =>
        cases hstep
        refine ⟨i, { h with tasks := fun task' htask' data hdata => ?_ }⟩
        rcases mem_append.mp htask' with hold | hnew
        · exact h.tasks task' hold data hdata
        · obtain rfl := mem_singleton.mp hnew
          obtain ⟨tx, htx, hpasses⟩ := handleIncomingTxs_passes htask data hdata
          have heq := hpasses.tx_eq
          refine ⟨by rw [heq]; exact hbrings tx htx, i, le_refl i, ?_, ?_⟩
          · rw [← h.locked]
            exact eq_false_of_ne_true hunlocked
          · rw [heq, ← h.chain]
            exact hpasses
      · cases hstep
        exact ⟨i, h⟩
  | sendTx j =>
    simp only [Node.step] at hstep
    split at hstep
    · next data txs blobHashes stem htask =>
      split at hstep
      · cases hstep
        have hmem := mem_of_getElem? htask
        refine ⟨i, { h with tasks := fun task' htask' data' hdata' => ?_, queue :=
          fun entry hentry => ?_ }⟩
        · rcases mem_or_eq_of_mem_set htask' with hold | rfl
          · exact h.tasks task' hold data' hdata'
          · exact h.tasks _ hmem data' (.tail _ hdata')
        · rcases mem_append.mp hentry with hold | hnew
          · exact h.queue entry hold
          · obtain rfl := mem_singleton.mp hnew
            exact h.tasks _ hmem data (.head _)
      · cases hstep
    · cases hstep
  | finishTask j =>
    simp only [Node.step] at hstep
    split at hstep
    · cases hstep
      refine ⟨i, { h with tasks := fun task' htask' => h.tasks task' (mem_of_mem_eraseIdx htask') }⟩
    · cases hstep
  | chainOp => exact ⟨i + 1, h.chainOp hstep⟩
  | handleTx now =>
    simp only [Node.step] at hstep
    split at hstep
    · cases hstep
    · next data stem txQueue hqueue =>
      obtain ⟨manager, hmanager, rfl⟩ := map_eq_some_iff.mp hstep
      have hdata := h.queue (data, stem) (by rw [hqueue]; exact .head _)
      obtain ⟨i', -, -, hpasses⟩ := hdata.passed
      refine ⟨i, { h.withManager ?_ with queue := fun entry hentry => h.queue entry ?_ }⟩
      · rw [handleIncomingTx_tables hmanager]
        refine h.pool.request hdiff now _ fun data' stem' heq => ?_
        obtain ⟨rfl, -⟩ := TxpoolWriteRequest.addTransaction.inj heq
        exact ⟨hpasses.fields (hread _ hdata.kind), hdata.kind, hdata⟩
      · rw [hqueue]
        exact .tail _ hentry
  | handleBlock now =>
    simp only [Node.step] at hstep
    split at hstep
    · cases hstep
    · obtain ⟨manager, hmanager, rfl⟩ := map_eq_some_iff.mp hstep
      refine ⟨i, { h.withManager ?_ with }⟩
      rw [newBlock_tables hmanager]
      exact h.pool.request hdiff now _ fun _ _ heq => by cases heq
  | handleTimeout now hash =>
    obtain ⟨manager, hmanager, rfl⟩ := map_eq_some_iff.mp hstep
    refine ⟨i, h.withManager ?_⟩
    rcases handleTxTimeout_tables hmanager with heq | heq
    · rw [heq]
      exact h.pool
    · rw [heq]
      exact h.pool.request hdiff now _ fun _ _ heq => by cases heq
  | promote now hash =>
    obtain ⟨manager, hmanager, rfl⟩ := map_eq_some_iff.mp hstep
    refine ⟨i, h.withManager ?_⟩
    rcases promoteTx_tables hmanager with heq | heq
    · rw [heq]
      exact h.pool
    · rw [heq]
      exact h.pool.request hdiff now _ fun _ _ heq => by cases heq

theorem Node.Run.verified (hdiff : HashesDiffer env.toPoolEnv Tx)
    (hread : ∀ tx, Tx tx → env.readTx (env.oxide.serializeTx tx) = some tx)
    (hrun : Run env Tx (.start first todo) node) : ∃ i, NodeVerified env Tx first todo i node := by
  induction hrun with
  | refl => exact ⟨0, nodeVerified_start⟩
  | step action hrun hbrings hstep ih =>
    obtain ⟨i, h⟩ := ih
    exact h.step hdiff hread hbrings hstep

end Sufficient

section Necessary

theorem Node.Run.trans {node'' : Node} (h : Run env Tx node node') (h' : Run env Tx node' node'') :
    Run env Tx node node'' := by
  induction h' with
  | refl => exact h
  | step action hrun hbrings hstep ih => exact .step action ih hbrings hstep

end Necessary

theorem mem_of_hasGen_eq_false (h : tx.hasGen = false) (height : Nat) :
    .gen height ∉ tx.txPrefix.inputs := by
  intro hmem
  exact Bool.false_ne_true (h.symm.trans (any_eq_true.mpr ⟨_, hmem, rfl⟩))

/-- All transactions without miner inputs are valid. -/
def raceEnv : NodeEnv where
  toPoolEnv := tagEnv
  rules := fun _ data => if data.tx.hasGen then none else some .notVerified
  relayRules := fun _ _ => true
  maximumAgeSecs := 1000
  rules_keyInputs := by
    intro chain data state h
    split at h
    · cases h
    · next hgen => exact mem_of_hasGen_eq_false (eq_false_of_ne_true hgen)
  rules_stored := by
    intro chain data state h
    split at h
    · cases h
    · cases h
      rfl

theorem onceTx_passes : Passes raceEnv [] onceTx onceData where
  prepped := by decide
  unique := by decide
  unspent := fun _ _ => not_mem_nil
  rules := rfl
  relayed := rfl

theorem raceEnv_hashesDiffer : HashesDiffer raceEnv.toPoolEnv (· = onceTx) where
  hashTx _ _ h h' _ := h.trans h'.symm
  blobHash _ _ h h' _ := h.trans h'.symm

theorem raceEnv_readTx (tx : Transaction) (h : tx = onceTx) :
    raceEnv.readTx (raceEnv.oxide.serializeTx tx) = some tx := by
  rw [h]
  decide

/-- A transaction is put in the pool before a block that spends one of its key images has been
handled. -/
def Node.InTime (node : Node) : Action → Prop
  | .handleTx _ => ∀ entry ∈ node.txQueue.head?, ∀ k ∈ entry.1.tx.keyImages,
    k ∈ node.chain.flatten → k ∈ node.blockQueue.flatten
  | _ => True

/-- The interleavings in which every transaction is put in the pool in time. -/
inductive Node.RunInTime (env : NodeEnv) (Tx : Transaction → Prop) (first : Node) : Node → Prop where
  | refl : RunInTime env Tx first first
  | step {node node' : Node} (action : Action) (hrun : RunInTime env Tx first node)
      (hbrings : action.Brings Tx)
      (htime : node.InTime action) (hstep : node.step env action = some node') :
        RunInTime env Tx first node'

theorem Node.RunInTime.run {first : Node} (h : RunInTime env Tx first node) : Run env Tx first node := by
  induction h with
  | refl => exact .refl
  | step action hrun hbrings htime hstep ih => exact .step action ih hbrings hstep

/-- The key images of the transaction that are spent on the chain are those of a block that is still
to be handled. -/
def Awaited (node : Node) (data : TransactionVerificationData) : Prop :=
  ∀ k ∈ data.tx.keyImages, k ∈ node.chain.flatten → k ∈ node.blockQueue.flatten

theorem mem_apply {op : ChainOp} {k : CompressedPoint} (h : k ∈ (op.apply chain).flatten) :
    k ∈ chain.flatten ∨ k ∈ op.sent.flatten := by
  cases op with
  | addBlock kis =>
    rw [apply, flatten_append] at h
    exact mem_append.mp h
  | popBlocks numbBlocks =>
    obtain ⟨kis, hkis, hk⟩ := mem_flatten.mp h
    exact .inl (mem_flatten.mpr ⟨kis, mem_of_mem_take hkis, hk⟩)
  | lock => exact .inl h
  | unlock => exact .inl h

theorem Awaited.chainOp (h : Awaited node data) (hstep : node.chainOp = some node') :
    Awaited node' data := by
  obtain ⟨op, rest, -, hqueue, rfl⟩ := chainOp_eq_some hstep
  intro k hk hmem
  refine (mem_apply hmem).resolve_left fun hold => ?_
  have hawaited := h k hk hold
  rw [hqueue] at hawaited
  cases hawaited

/-- A step keeps the pool such that the blocks which spend key images of its transactions are still
to be handled. -/
theorem Node.step_awaited (hdiff : HashesDiffer env.toPoolEnv Tx) {action : Action}
    (hfields : ∀ entry ∈ node.txQueue, DataFields env.toPoolEnv entry.1 ∧ Tx entry.1.tx)
    (h : HoldsAll env.toPoolEnv Tx (Awaited node) node.manager.tables) (htime : node.InTime action)
    (hstep : node.step env action = some node') :
    HoldsAll env.toPoolEnv Tx (Awaited node') node'.manager.tables := by
  cases action with
  | incomingTxs txs stem dropRelayRuleErrors =>
    simp only [step] at hstep
    split at hstep
    · cases hstep
    · split at hstep
      · cases hstep
        exact h
      · cases hstep
        exact h
  | sendTx j =>
    simp only [step] at hstep
    split at hstep
    · split at hstep
      · cases hstep
        exact h
      · cases hstep
    · cases hstep
  | finishTask j =>
    simp only [step] at hstep
    split at hstep
    · cases hstep
      exact h
    · cases hstep
  | chainOp =>
    have hmanager : node'.manager = node.manager := by
      obtain ⟨op, rest, -, -, rfl⟩ := chainOp_eq_some hstep
      rfl
    rw [hmanager]
    exact h.mono fun data hdata => hdata.chainOp hstep
  | handleTx now =>
    simp only [step] at hstep
    split at hstep
    · cases hstep
    · next data stem txQueue hqueue =>
      obtain ⟨manager, hmanager, rfl⟩ := map_eq_some_iff.mp hstep
      rw [handleIncomingTx_tables hmanager]
      refine h.request hdiff now _ fun data' stem' heq => ?_
      obtain ⟨rfl, -⟩ := TxpoolWriteRequest.addTransaction.inj heq
      obtain ⟨hdata, hkind⟩ := hfields (data, stem) (by rw [hqueue]; exact .head _)
      exact ⟨hdata, hkind, htime (data, stem) (by rw [hqueue]; rfl)⟩
  | handleBlock now =>
    simp only [step] at hstep
    split at hstep
    · cases hstep
    · next kis blockQueue hqueue =>
      obtain ⟨manager, hmanager, rfl⟩ := map_eq_some_iff.mp hstep
      obtain ⟨pool, hholds, hall⟩ := h
      obtain ⟨state, hblock, hremoved⟩ := hholds.newBlock hdiff kis
      have htables : manager.tables = state.2 := by
        rw [newBlock_tables hmanager]
        simp only [handleTxpoolRequest, hblock]
      refine ⟨pool.afterBlock kis,
        by rw [htables]; exact hremoved.holds, fun hash data hdata k hk hmem => ?_⟩
      obtain ⟨hold, hspends⟩ := Pool.afterBlock_eq_some.mp hdata
      have hawaited := hall hash data hold k hk hmem
      rw [hqueue, flatten_cons, mem_append] at hawaited
      exact hawaited.resolve_left fun hkis => hspends ⟨k, hkis, hk⟩
  | handleTimeout now hash =>
    obtain ⟨manager, hmanager, rfl⟩ := map_eq_some_iff.mp hstep
    rcases handleTxTimeout_tables hmanager with heq | heq
    · rw [heq]
      exact h
    · rw [heq]
      exact h.request hdiff now _ fun _ _ heq => by cases heq
  | promote now hash =>
    obtain ⟨manager, hmanager, rfl⟩ := map_eq_some_iff.mp hstep
    rcases promoteTx_tables hmanager with heq | heq
    · rw [heq]
      exact h
    · rw [heq]
      exact h.request hdiff now _ fun _ _ heq => by cases heq

/-- Then the pool is clean whenever all blocks have been handled. -/
theorem Node.RunInTime.clean (hdiff : HashesDiffer env.toPoolEnv Tx)
    (hread : ∀ tx, Tx tx → env.readTx (env.oxide.serializeTx tx) = some tx) {todo : List ChainOp}
    (hrun : RunInTime env Tx (.start chain todo) node) (hhandled : node.blockQueue = []) :
    node.Clean env.toPoolEnv := by
  have hawaited : HoldsAll env.toPoolEnv Tx (Awaited node) node.manager.tables := by
    clear hhandled
    induction hrun with
    | refl => exact ⟨.empty, holds_empty, fun _ _ h => absurd h (some_ne_none _).symm⟩
    | step action hrun hbrings htime hstep ih =>
      refine step_awaited hdiff (fun entry hentry => ?_) ih htime hstep
      obtain ⟨i, hverified⟩ := hrun.run.verified hdiff hread
      obtain ⟨hkind, i', -, -, hpasses⟩ := hverified.queue entry hentry
      exact ⟨hpasses.fields (hread _ hkind), hkind⟩
  intro hash blob tx hblob htx k hk hspent
  obtain ⟨pool, hholds, hall⟩ := hawaited
  rw [hholds.blobs] at hblob
  obtain ⟨data, hdata, rfl⟩ := map_eq_some_iff.mp hblob
  rw [(pool.poolable hash data hdata).fields.readTx] at htx
  cases htx
  have hmem := hall hash data hdata k hk hspent
  rw [hhandled] at hmem
  cases hmem

/-- A transaction is put in the pool, and removed with the block that spends its key image. -/
theorem runInTime_clean_onceTx : ∃ node, RunInTime raceEnv (· = onceTx) (.start [] [.addBlock [5]]) node ∧
    node.chain = [[5]] ∧ node.Clean raceEnv.toPoolEnv := by
  obtain ⟨blobHashes, htask⟩ :=
    onceTx_passes.handleIncomingTxs_eq (rfl : Tables.empty.knownBlobHashes = ∅) false false
  have hverify : (Node.start [] [.addBlock [5]]).step raceEnv (.incomingTxs [onceTx] false false) =
      some { Node.start [] [.addBlock [5]] with tasks := [⟨[onceData], blobHashes, false⟩] } := by
    simp only [step, start, flatMap_nil, htask, nil_append]
    rfl
  have hqueue : RunInTime raceEnv (· = onceTx) (.start [] [.addBlock [5]]) _ :=
    .step (.sendTx 0) (.step (.incomingTxs [onceTx] false false) .refl (fun _ h =>
      mem_singleton.mp h) trivial
      hverify) trivial trivial rfl
  have hrun : RunInTime raceEnv (· = onceTx) (.start [] [.addBlock [5]]) _ :=
    .step (.handleBlock 0) (.step .chainOp (.step (.handleTx 0) hqueue trivial (fun _ _ _ _ h => h) rfl)
      trivial trivial rfl) trivial trivial rfl
  exact ⟨_, hrun, rfl, hrun.clean raceEnv_hashesDiffer raceEnv_readTx rfl⟩

end Cuprate.TxPool
