import Cuprate.TxPool.Proofs.ManagerProofs
import Cuprate.TxPool.Timeouts

/-!
# The pool manager in step with the database

The pool manager knows the transactions of the database and has a timeout for each public one. So no
event makes it panic.
-/

namespace Cuprate.TxPool

open Collections Finmap List Option Relation

variable {K : Type*} {env : NodeEnv} {Tx : Transaction → Prop} {now : UInt64} {key : K} {tx : Hash}

namespace TimedManager

variable {manager manager' : TimedManager K} {currentTxs : Table Hash (TimedTxInfo K)}

variable {pool : Pool env.toPoolEnv Tx} {tables : Tables}

/-- The manager knows the transactions of the pool, and which of them are private. -/
structure Mirrors (pool : Pool env.toPoolEnv Tx) (currentTxs : Table Hash (TimedTxInfo K))
    (tables : Tables) : Prop where
  holds : Holds pool tables
  keys : ∀ tx, (currentTxs.lookup tx).isSome ↔ (pool.txs tx).isSome
  flags : ∀ tx txInfo, currentTxs.lookup tx = some txInfo →
    ∃ info, tables.transactionInfos.lookup tx = some info ∧ info.flags.stateStem = txInfo.isPrivate

variable {txInfo : TimedTxInfo K} {data : TransactionVerificationData} {poolEnv : PoolEnv}
    {tables' : Tables}

section
variable (h : Mirrors pool currentTxs tables)
include h

/-- A transaction is put in the pool and in the manager, or what is known of it changes. -/
theorem Mirrors.insert {pool' : Pool env.toPoolEnv Tx}
    (hholds : Holds pool' tables') (hkeys : ∀ tx', (pool'.txs tx').isSome ↔ tx' = tx ∨
      (pool.txs tx').isSome)
    (hinfos : ∀ tx' ≠ tx, tables'.transactionInfos.lookup tx' = tables.transactionInfos.lookup tx')
    (hflag : ∃ info, tables'.transactionInfos.lookup tx = some info ∧
      info.flags.stateStem = txInfo.isPrivate) :
    Mirrors pool' (currentTxs.insert tx txInfo) tables' where
  holds := hholds
  keys tx' := by
    rw [lookup_insert_ite, hkeys]
    split
    · next heq => exact iff_of_true rfl (.inl heq)
    · next hne => rw [or_iff_right hne, h.keys]
  flags tx' txInfo' htx' := by
    rw [lookup_insert_ite] at htx'
    split at htx'
    · next heq =>
      cases htx'
      rw [heq]
      exact hflag
    · next hne =>
      rw [hinfos tx' hne]
      exact h.flags tx' txInfo' htx'

theorem Mirrors.update {txInfo' : TimedTxInfo K}
    (htx : currentTxs.lookup tx = some txInfo) (hholds : Holds pool tables')
    (hinfos : ∀ tx' ≠ tx, tables'.transactionInfos.lookup tx' = tables.transactionInfos.lookup tx')
    (hflag : ∃ info, tables'.transactionInfos.lookup tx = some info ∧
      info.flags.stateStem = txInfo'.isPrivate) :
    Mirrors pool (currentTxs.insert tx txInfo') tables' := by
  refine h.insert hholds (fun tx' => ⟨.inr, ?_⟩) hinfos hflag
  rintro (rfl | hmem)
  · rw [← h.keys, htx]
    rfl
  · exact hmem

theorem Mirrors.removed (hdiff : HashesDiffer env.toPoolEnv Tx) (hdata : pool.txs tx = some data) :
    Mirrors (pool.erase tx) (currentTxs.erase tx) (tables.without env.toPoolEnv tx data) where
  holds := h.holds.without hdiff hdata
  keys tx' := by
    rw [lookup_erase_ite, Pool.txs_erase]
    split
    · rfl
    · exact h.keys tx'
  flags tx' txInfo htx' := by
    rw [lookup_erase_ite] at htx'
    split at htx'
    · cases htx'
    · next hne =>
      obtain ⟨info, hinfo, hflag⟩ := h.flags tx' txInfo htx'
      refine ⟨info, ?_, hflag⟩
      change (tables.transactionInfos.erase tx).lookup tx' = some info
      rw [lookup_erase_ite, if_neg hne]
      exact hinfo

theorem Mirrors.added (hdata : Poolable env.toPoolEnv Tx data)
    (hnew : pool.New data) (hholds : Holds (pool.insert data hdata hnew) tables') {info : TransactionInfo}
    (hinfos : tables'.transactionInfos = tables.transactionInfos.insert data.txHash info)
    (hflag : info.flags.stateStem = txInfo.isPrivate) :
    Mirrors (pool.insert data hdata hnew) (currentTxs.insert data.txHash txInfo) tables' := by
  refine h.insert hholds (fun tx' => ?_) (fun tx' hne => ?_) ⟨info, ?_, hflag⟩
  · rw [Pool.insert_apply]
    split
    · next heq => exact iff_of_true rfl (.inl heq)
    · next hne => rw [or_iff_right hne]
  · rw [hinfos, lookup_insert_of_ne _ hne]
  · rw [hinfos, lookup_insert]

theorem Mirrors.afterBlock {kis : List CompressedPoint} {removed : List Hash}
    (hremoved : Removed pool kis (removed, tables'))
    (hinfos : ∀ tx, tx ∉ removed → tables'.transactionInfos.lookup tx = tables.transactionInfos.lookup tx)
    {currentTxs' : Table Hash (TimedTxInfo K)}
    (hlookup : ∀ tx, currentTxs'.lookup tx = if tx ∈ removed then none else currentTxs.lookup tx) :
    Mirrors (pool.afterBlock kis) currentTxs' tables' where
  holds := hremoved.holds
  keys tx' := by
    rw [hlookup]
    have hreported := hremoved.reported tx'
    split
    · next hmem =>
      obtain ⟨data, hdata, hspends⟩ := hreported.mp hmem
      refine iff_of_false Bool.false_ne_true ?_
      rw [isSome_iff_exists]
      rintro ⟨data', hdata'⟩
      obtain ⟨hdata', hnot⟩ := Pool.afterBlock_eq_some.mp hdata'
      exact hnot (some.inj (hdata.symm.trans hdata') ▸ hspends)
    · next hmem =>
      rw [h.keys, isSome_iff_exists, isSome_iff_exists]
      refine exists_congr fun data => ?_
      rw [Pool.afterBlock_eq_some]
      exact ⟨fun hdata => ⟨hdata, fun hspends => hmem (hreported.mpr ⟨data, hdata, hspends⟩)⟩, And.left⟩
  flags tx' txInfo htx' := by
    rw [hlookup] at htx'
    split at htx'
    · cases htx'
    · next hmem =>
      rw [hinfos tx' hmem]
      exact h.flags tx' txInfo htx'

end

variable [DecidableEq K]

/-! ## Timeouts -/

def keyOf (currentTxs : Table Hash (TimedTxInfo K)) (tx : Hash) : Option K :=
  (currentTxs.lookup tx).bind (·.timeoutKey)

/-- The pending timeouts are those of the public transactions. -/
structure Timed (currentTxs : Table Hash (TimedTxInfo K)) (txTimeouts : Table K Hash) : Prop where
  tracks : Tracks (keyOf currentTxs) txTimeouts
  isPublic : ∀ tx txInfo, currentTxs.lookup tx = some txInfo →
    (txInfo.isPrivate = false ↔ txInfo.timeoutKey.isSome)

/-- The pending timeouts are those of the public transactions other than `tx`. -/
structure TimedBut (tx : Hash) (currentTxs : Table Hash (TimedTxInfo K))
    (txTimeouts : Table K Hash) : Prop where
  tracks : Tracks (fun tx' => if tx' = tx then none else keyOf currentTxs tx') txTimeouts
  isPublic : ∀ tx' txInfo, tx' ≠ tx → currentTxs.lookup tx' = some txInfo →
    (txInfo.isPrivate = false ↔ txInfo.timeoutKey.isSome)

variable {txTimeouts : Table K Hash}

theorem Timed.but (h : Timed currentTxs txTimeouts) (hnone : keyOf currentTxs tx = none) :
    TimedBut tx currentTxs txTimeouts where
  tracks := by
    refine h.tracks.congr fun tx' => ?_
    split
    · next heq => rw [heq, hnone]
    · rfl
  isPublic tx' txInfo _ := h.isPublic tx' txInfo

theorem Timed.erase (h : Timed currentTxs txTimeouts) (hkey : keyOf currentTxs tx = some key) :
    TimedBut tx currentTxs (txTimeouts.erase key) where
  tracks := h.tracks.erase hkey fun _ => rfl
  isPublic tx' txInfo _ := h.isPublic tx' txInfo

section
variable (h : TimedBut tx currentTxs txTimeouts)
include h

theorem TimedBut.removed : Timed (currentTxs.erase tx) txTimeouts where
  tracks := by
    refine h.tracks.congr fun tx' => ?_
    rw [keyOf, lookup_erase_ite]
    split <;> rfl
  isPublic tx' txInfo htx' := by
    rw [lookup_erase_ite] at htx'
    split at htx'
    · cases htx'
    · next hne => exact h.isPublic tx' txInfo hne htx'

theorem TimedBut.setTimeout (hfresh : txTimeouts.lookup key = none)
    {txInfo : TxInfo} (hpublic : txInfo.isPrivate = false) :
    Timed (currentTxs.insert tx { txInfo with timeoutKey := some key }) (txTimeouts.insert key tx) where
  tracks := by
    refine h.tracks.insert hfresh (if_pos rfl) fun tx' => ?_
    rw [keyOf, lookup_insert_ite]
    split <;> rfl
  isPublic tx' txInfo' htx' := by
    rw [lookup_insert_ite] at htx'
    split at htx'
    · cases htx'
      exact iff_of_true hpublic rfl
    · next hne => exact h.isPublic tx' txInfo' hne htx'

theorem TimedBut.setPrivate {txInfo : TxInfo} (hprivate : txInfo.isPrivate = true) :
    Timed (currentTxs.insert tx { txInfo with timeoutKey := none }) txTimeouts where
  tracks := by
    refine h.tracks.congr fun tx' => ?_
    rw [keyOf, lookup_insert_ite]
    split <;> rfl
  isPublic tx' txInfo' htx' := by
    rw [lookup_insert_ite] at htx'
    split at htx'
    · cases htx'
      rw [hprivate]
      exact ⟨nofun, nofun⟩
    · next hne => exact h.isPublic tx' txInfo' hne htx'

end

theorem Timed.keyOf_eq_none (h : Timed currentTxs txTimeouts) (htx : currentTxs.lookup tx = some txInfo)
    (hprivate : txInfo.isPrivate = true) : keyOf currentTxs tx = none := by
  rw [keyOf, htx, bind_some, ← not_isSome_iff_eq_none, ← h.isPublic tx txInfo htx, hprivate]
  exact nofun

theorem Timed.removeTimeout (h : Timed currentTxs txTimeouts) (htx : currentTxs.lookup tx = some txInfo) :
    TimedBut tx currentTxs (TimedManager.removeTimeout txTimeouts txInfo.timeoutKey) := by
  have hkeyOf : keyOf currentTxs tx = txInfo.timeoutKey := by rw [keyOf, htx, bind_some]
  cases hkey : txInfo.timeoutKey with
  | none => exact h.but (hkeyOf.trans hkey)
  | some key => exact h.erase (hkeyOf.trans hkey)

theorem removeTimeout_erase (txTimeouts : Table K Hash) (key : K) :
    removeTimeout (txTimeouts.erase key) (some key) = txTimeouts.erase key := by
  refine ext_lookup fun key' => ?_
  rw [removeTimeout, lookup_erase_ite, lookup_erase_ite]
  split <;> rfl

theorem removeTxFromPool_eq (htx : manager.currentTxs.lookup tx = some txInfo) :
    manager.removeTxFromPool poolEnv now false tx = some { manager with
      currentTxs := manager.currentTxs.erase tx
      txTimeouts := removeTimeout manager.txTimeouts txInfo.timeoutKey } := by
  simp only [removeTxFromPool, htx, Bool.false_eq_true, if_false]

/-- Transactions that are known are removed one after another. -/
theorem foldlM_removeTxFromPool (poolEnv : PoolEnv) (now : UInt64)
    {removed : List Hash} (hnodup : removed.Nodup)
    (hknown : ∀ tx ∈ removed, (manager.currentTxs.lookup tx).isSome)
    (h : Timed manager.currentTxs manager.txTimeouts) :
    ∃ manager', removed.foldlM (removeTxFromPool poolEnv now false) manager = some manager' ∧
      Timed manager'.currentTxs manager'.txTimeouts ∧ manager'.tables = manager.tables ∧
      ∀ tx, manager'.currentTxs.lookup tx = if tx ∈
        removed then none else manager.currentTxs.lookup tx := by
  induction removed generalizing manager with
  | nil => exact ⟨manager, rfl, h, rfl, fun tx => by simp⟩
  | cons tx removed ih =>
    obtain ⟨hnot, hnodup⟩ := nodup_cons.mp hnodup
    obtain ⟨txInfo, htx⟩ := isSome_iff_exists.mp (hknown tx mem_cons_self)
    let next : TimedManager K := { manager with
      currentTxs := manager.currentTxs.erase tx
      txTimeouts := removeTimeout manager.txTimeouts txInfo.timeoutKey }
    have hnext : Timed next.currentTxs next.txTimeouts := (h.removeTimeout htx).removed
    have hknown' : ∀ tx' ∈ removed, (next.currentTxs.lookup tx').isSome := by
      intro tx' hmem
      rw [lookup_erase_ite, if_neg]
      · exact hknown tx' (.tail _ hmem)
      · rintro rfl
        exact hnot hmem
    obtain ⟨manager', hfold, htimed, htables, hlookup⟩ := ih hnodup hknown' hnext
    refine ⟨manager', ?_, htimed, htables, fun tx' => ?_⟩
    · rw [foldlM_cons, removeTxFromPool_eq htx]
      exact hfold
    · rw [hlookup]
      rw [lookup_erase_ite]
      by_cases heq : tx' = tx
      · simp [heq]
      · simp [heq]

/-! ## Events -/

/-- Manager, timeouts and database have the same transactions. -/
structure InStep (env : NodeEnv) (Tx : Transaction → Prop) (manager : TimedManager K) : Prop where
  timed : Timed manager.currentTxs manager.txTimeouts
  mirrors : ∃ pool : Pool env.toPoolEnv Tx, Mirrors pool manager.currentTxs manager.tables

theorem InStep.timeout (h : InStep env Tx manager) (hdiff : HashesDiffer env.toPoolEnv Tx) {fired : K}
    (henabled : manager.Enabled env.toPoolEnv Tx (.timeout fired key)) (now : UInt64) :
    ∃ manager', manager.handle env now (.timeout fired key) = some manager' ∧ InStep env Tx manager' := by
  obtain ⟨⟨tx, hfired⟩, hfresh⟩ := henabled
  obtain ⟨pool, hmirrors⟩ := h.mirrors
  have hkeyOf : keyOf manager.currentTxs tx = some fired := (h.timed.tracks tx fired).mpr hfired
  obtain ⟨txInfo, htx, hkey⟩ := bind_eq_some_iff.mp hkeyOf
  have hpublic : txInfo.isPrivate = false := (h.timed.isPublic tx txInfo htx).mpr (by rw [hkey]; rfl)
  have hbut := h.timed.erase hkeyOf
  obtain ⟨data, hdata⟩ := isSome_iff_exists.mp ((hmirrors.keys tx).mp (by rw [htx]; rfl))
  simp only [handle, hfired, handleTxTimeout, htx]
  split
  · -- too old: removed from the manager and the database
    have hremove := hmirrors.holds.removeTransaction_eq hdata
    simp only [removeTxFromPool, htx, if_true, handleTxpoolRequest, hremove, hkey, removeTimeout_erase]
    exact ⟨_, rfl, hbut.removed, pool.erase tx, hmirrors.removed hdiff hdata⟩
  · have hblob : manager.tables.transactionBlobs.lookup tx = some data.txBlob := by
      rw [hmirrors.holds.blobs, hdata]
      rfl
    simp only [rerelayTx, hblob]
    exact ⟨_, rfl, hbut.setTimeout hfresh hpublic, pool,
      hmirrors.update htx hmirrors.holds (fun _ _ => rfl)
      (hmirrors.flags tx txInfo htx)⟩

theorem txs_eq_none_of_new {pool : Pool env.toPoolEnv Tx} (hdiff : HashesDiffer env.toPoolEnv Tx)
    (hspends : ∀ tx, Tx tx → tx.keyImages ≠ []) (hdata : Poolable env.toPoolEnv Tx data)
      (hnew : pool.New data) : pool.txs data.txHash = none := by
  by_contra hsome
  obtain ⟨data', hdata'⟩ := Option.ne_none_iff_exists'.mp hsome
  have htx := pool.tx_eq_of_hash hdiff hdata hdata'
  obtain ⟨k, hk⟩ := exists_mem_of_ne_nil _ (hspends _ hdata.kind)
  exact hnew data.txHash data' hdata' k hk (htx ▸ hk)

theorem InStep.incoming (h : InStep env Tx manager) (hdiff : HashesDiffer env.toPoolEnv Tx)
    (hspends : ∀ tx, Tx tx → tx.keyImages ≠ []) {stem : Bool}
    (henabled : manager.Enabled env.toPoolEnv Tx (.incoming data stem key)) (now : UInt64) :
    ∃ manager', manager.handle env now (.incoming data stem key) = some manager' ∧
      InStep env Tx manager' := by
  obtain ⟨hfresh, hfields, hkind, hinputs, hstored⟩ := henabled
  obtain ⟨pool, hmirrors⟩ := h.mirrors
  have hpoolable : Poolable env.toPoolEnv Tx data := ⟨hfields, hkind, hinputs, hstored⟩
  cases hadd : addTransaction env.toPoolEnv now data stem manager.tables with
  | error e =>
    rcases hmirrors.holds.addTransaction_error hadd with ⟨_, hnot⟩ | ⟨owner, rfl, _⟩
    · exact absurd hpoolable hnot
    · simp only [handle, handleIncomingTx, handleTxpoolRequest, hadd]
      exact ⟨_, rfl, h.timed, pool, hmirrors⟩
  | ok tables' =>
    obtain ⟨hdata, hnew, hholds⟩ := hmirrors.holds.addTransaction_ok hdiff hfields hkind hadd
    obtain ⟨rawState, spentKeyImages, _, _, htables'⟩ := addTransaction_eq_ok hadd
    have hunknown : manager.currentTxs.lookup data.txHash = none := by
      rw [← not_isSome_iff_eq_none, hmirrors.keys, txs_eq_none_of_new hdiff hspends hdata hnew]
      exact Bool.false_ne_true
    have hbut : TimedBut data.txHash manager.currentTxs manager.txTimeouts :=
      h.timed.but (by rw [keyOf, hunknown]; rfl)
    have hinfos : tables'.transactionInfos = manager.tables.transactionInfos.insert data.txHash
        ⟨data.fee, data.txWeight, now, stem, false⟩ := by
      rw [htables']
      rfl
    simp only [handle, handleIncomingTx, handleTxpoolRequest, hadd]
    refine ⟨_, rfl, ?_⟩
    cases stem with
    | true => exact ⟨hbut.setPrivate rfl, _, hmirrors.added hdata hnew hholds hinfos rfl⟩
    | false => exact ⟨hbut.setTimeout hfresh rfl, _, hmirrors.added hdata hnew hholds hinfos rfl⟩

theorem InStep.promote (h : InStep env Tx manager)
    (henabled : manager.Enabled env.toPoolEnv Tx (.promote tx key))
    (now : UInt64) :
    ∃ manager', manager.handle env now (.promote tx key) = some manager' ∧ InStep env Tx manager' := by
  obtain ⟨pool, hmirrors⟩ := h.mirrors
  cases htx : manager.currentTxs.lookup tx with
  | none =>
    simp only [handle, promoteTx, htx]
    exact ⟨_, rfl, h⟩
  | some txInfo =>
    cases hprivate : txInfo.isPrivate with
    | false =>
      simp only [handle, promoteTx, htx, hprivate, Bool.false_eq_true, if_false]
      exact ⟨_, rfl, h⟩
    | true =>
      obtain ⟨info, hinfo, _⟩ := hmirrors.flags tx txInfo htx
      have hbut := h.timed.but (h.timed.keyOf_eq_none htx hprivate)
      have hpromote : TxPool.promote now tx manager.tables = .ok { manager.tables with
          transactionInfos := manager.tables.transactionInfos.insert tx
            { info with receivedAt := now, flags := { info.flags with stateStem := false } } } := by
        rw [TxPool.promote, hinfo]
      simp only [handle, promoteTx, htx, hprivate, if_true, handleTxpoolRequest, hpromote]
      refine ⟨_, rfl, hbut.setTimeout henabled rfl, pool, ?_⟩
      exact hmirrors.update htx (hmirrors.holds.promote hpromote) (fun _ hne => lookup_insert_of_ne _ hne)
        ⟨_, lookup_insert _, rfl⟩

theorem removeTransaction_infos (h : removeTransaction poolEnv tx tables = .ok tables') :
    tables'.transactionInfos = tables.transactionInfos.erase tx := by
  rw [removeTransaction] at h
  split at h
  · cases h
  · obtain ⟨_, _, h⟩ := bind_eq_ok.mp h
    obtain ⟨_, _, h⟩ := bind_eq_ok.mp h
    cases h
    rfl

theorem newBlockRound_infos {k : CompressedPoint} {state state' : List Hash × Tables}
    (h : newBlockRound poolEnv state k = .ok state') :
      (∀ tx ∈ state.1, tx ∈ state'.1) ∧ ∀ tx, tx ∉ state'.1 →
      state'.2.transactionInfos.lookup tx = state.2.transactionInfos.lookup tx := by
  rw [newBlockRound] at h
  split at h
  · cases h
    exact ⟨fun _ hmem => hmem, fun _ _ => rfl⟩
  · split at h
    · rename_i hremove
      cases h
      refine ⟨fun _ hmem => mem_append_left _ hmem, fun tx hnot => ?_⟩
      rw [removeTransaction_infos hremove, lookup_erase_ite, if_neg]
      rintro rfl
      exact hnot (mem_append_right _ mem_cons_self)
    · cases h
      exact ⟨fun _ hmem => mem_append_left _ hmem, fun _ _ => rfl⟩
    · cases h

theorem newBlock_infos {kis : List CompressedPoint} {state state' : List Hash × Tables}
    (h : kis.foldlM (newBlockRound poolEnv) state = .ok state') :
    (∀ tx ∈ state.1, tx ∈ state'.1) ∧ ∀ tx, tx ∉ state'.1 →
      state'.2.transactionInfos.lookup tx = state.2.transactionInfos.lookup tx := by
  induction kis generalizing state with
  | nil =>
    cases h
    exact ⟨fun _ h => h, fun _ _ => rfl⟩
  | cons k kis ih =>
    rw [foldlM_cons] at h
    obtain ⟨next, hround, hrest⟩ := bind_eq_ok.mp h
    obtain ⟨hsubset, hinfos⟩ := ih hrest
    have hnext := newBlockRound_infos hround
    refine ⟨fun tx hmem => hsubset tx (hnext.1 tx hmem), fun tx hnot => ?_⟩
    rw [hinfos tx hnot]
    exact hnext.2 tx fun hmem => hnot (hsubset tx hmem)

theorem InStep.newBlock (h : InStep env Tx manager) (hdiff : HashesDiffer env.toPoolEnv Tx)
    (kis : List CompressedPoint) (now : UInt64) :
    ∃ manager', manager.handle env now (.newBlock kis) = some manager' ∧ InStep env Tx manager' := by
  obtain ⟨pool, hmirrors⟩ := h.mirrors
  obtain ⟨⟨removed, tables'⟩, hblock, hremoved⟩ := hmirrors.holds.newBlock hdiff kis
  let stored : TimedManager K := { manager with tables := tables' }
  have hstored : Timed stored.currentTxs stored.txTimeouts := h.timed
  have hknown : ∀ tx ∈ removed, (stored.currentTxs.lookup tx).isSome := by
    intro tx hmem
    obtain ⟨data, hdata, _⟩ := (hremoved.reported tx).mp hmem
    rw [hmirrors.keys, hdata]
    rfl
  obtain ⟨manager', hfold, htimed, htables, hlookup⟩ :=
    foldlM_removeTxFromPool env.toPoolEnv now hremoved.nodup hknown hstored
  refine ⟨manager', ?_, htimed, pool.afterBlock kis, ?_⟩
  · simp only [handle, TimedManager.newBlock, handleTxpoolRequest, hblock]
    exact hfold
  · rw [htables]
    exact hmirrors.afterBlock hremoved (newBlock_infos hblock).2 hlookup

/-- The manager after part of the backlog has been loaded. -/
theorem Loads.timed {backlog : List (Hash × TransactionInfo)} (h : Loads backlog manager manager')
    (hnodup : (backlog.map (·.1)).Nodup)
      (hnew : ∀ tx ∈ backlog.map (·.1), manager.currentTxs.lookup tx = none)
    (htimed : Timed manager.currentTxs manager.txTimeouts) :
    Timed manager'.currentTxs manager'.txTimeouts ∧ manager'.tables = manager.tables ∧
      (∀ tx, tx ∉ backlog.map (·.1) → manager'.currentTxs.lookup tx = manager.currentTxs.lookup tx) ∧
      ∀ tx info, (tx, info) ∈ backlog →
        ∃ txInfo, manager'.currentTxs.lookup tx = some txInfo ∧
          info.flags.stateStem = txInfo.isPrivate := by
  induction h with
  | nil manager => exact ⟨htimed, rfl, fun _ _ => rfl, nofun⟩
  | @cons manager manager' tx info backlog key hfresh hrest ih =>
    rw [map_cons] at hnodup hnew
    obtain ⟨hnot, hnodup⟩ := nodup_cons.mp hnodup
    have hbut : TimedBut tx manager.currentTxs manager.txTimeouts :=
      htimed.but (by rw [keyOf, hnew tx mem_cons_self]; rfl)
    have hload : Timed (manager.loadTx tx info key).currentTxs (manager.loadTx tx info key).txTimeouts ∧
        (manager.loadTx tx info key).tables = manager.tables ∧
        ∃ txInfo, info.flags.stateStem = txInfo.isPrivate ∧
          (manager.loadTx tx info key).currentTxs = manager.currentTxs.insert tx txInfo := by
      rw [loadTx]
      split
      · next hstem => exact ⟨hbut.setPrivate hstem, rfl, _, rfl, rfl⟩
      · next hstem => exact ⟨hbut.setTimeout hfresh (Bool.eq_false_iff.mpr hstem), rfl, _, rfl, rfl⟩
    obtain ⟨htimed', htables, txInfo, hflag, hcurrent⟩ := hload
    obtain ⟨hfinal, htables', hold, hentries⟩ := ih hnodup (fun tx' hmem => by
      rw [hcurrent, lookup_insert_ite, if_neg]
      · exact hnew tx' (.tail _ hmem)
      · rintro rfl
        exact hnot hmem) htimed'
    have htx : manager'.currentTxs.lookup tx = some txInfo := by rw [hold tx hnot, hcurrent, lookup_insert]
    refine ⟨hfinal, htables'.trans htables, fun tx' hnot' => ?_, fun tx' info' hmem => ?_⟩
    · rw [map_cons, mem_cons, not_or] at hnot'
      rw [hold tx' hnot'.2, hcurrent, lookup_insert_ite, if_neg hnot'.1]
    · rcases mem_cons.mp hmem with heq | hmem
      · cases heq
        exact ⟨txInfo, htx, hflag⟩
      · exact hentries tx' info' hmem

theorem InStep.start {added : Added} {backlog : List (Hash × TransactionInfo)}
    (hdiff : HashesDiffer env.toPoolEnv Tx)
    (htables : TxPool.Reachable env.toPoolEnv Tx added tables) (hbacklog : IsBacklog tables backlog)
    (hloads : Loads backlog ⟨∅, ∅, tables⟩ manager) : InStep env Tx manager := by
  obtain ⟨pool, hholds, _⟩ := htables.holds hdiff
  have hempty : Timed (∅ : Table Hash (TimedTxInfo K)) (∅ : Table K Hash) := by
    refine ⟨Tracks.empty.congr fun tx => ?_, fun tx txInfo htx => ?_⟩
    · rw [keyOf, lookup_empty]
      rfl
    · rw [lookup_empty] at htx
      cases htx
  obtain ⟨htimed, htables', hold, hentries⟩ :=
    hloads.timed hbacklog.nodup (fun _ _ => lookup_empty _) hempty
  have hknown : ∀ tx, tx ∉ backlog.map (·.1) → manager.currentTxs.lookup tx = none :=
    fun tx hnot => (hold tx hnot).trans (lookup_empty _)
  refine ⟨htimed, pool, ?_⟩
  rw [htables']
  refine ⟨hholds, fun tx => ?_, fun tx txInfo htx => ?_⟩
  · have hinfos : (tables.transactionInfos.lookup tx).isSome ↔ (pool.txs tx).isSome := by
      have hmap := congrArg Option.isSome (hholds.infos tx)
      rw [Option.isSome_map, Option.isSome_map] at hmap
      rw [hmap]
    rw [← hinfos]
    by_cases hmem : tx ∈ backlog.map (·.1)
    · obtain ⟨⟨tx', info⟩, hentry, rfl⟩ := mem_map.mp hmem
      obtain ⟨txInfo, htx, _⟩ := hentries tx' info hentry
      rw [htx, (hbacklog.mem_iff tx' info).mp hentry]
      exact iff_of_true rfl rfl
    · rw [hknown tx hmem]
      refine iff_of_false Bool.false_ne_true ?_
      rw [isSome_iff_exists]
      rintro ⟨info, hinfo⟩
      exact hmem (mem_map.mpr ⟨(tx, info), (hbacklog.mem_iff tx info).mpr hinfo, rfl⟩)
  · by_cases hmem : tx ∈ backlog.map (·.1)
    · obtain ⟨⟨tx', info⟩, hentry, rfl⟩ := mem_map.mp hmem
      obtain ⟨txInfo', htx', hflag⟩ := hentries tx' info hentry
      refine ⟨info, (hbacklog.mem_iff tx' info).mp hentry, ?_⟩
      rw [hflag, some.inj (htx'.symm.trans htx)]
    · rw [hknown tx hmem] at htx
      cases htx

theorem InStep.event (h : InStep env Tx manager) (hdiff : HashesDiffer env.toPoolEnv Tx)
    (hspends : ∀ tx, Tx tx → tx.keyImages ≠ [])
      {event : Event K} (henabled : manager.Enabled env.toPoolEnv Tx event)
    (now : UInt64) : ∃ manager', manager.handle env now event = some manager' ∧
      InStep env Tx manager' := by
  cases event with
  | timeout fired key => exact h.timeout hdiff henabled now
  | incoming data stem key => exact h.incoming hdiff hspends henabled now
  | promote tx key => exact h.promote henabled now
  | newBlock kis => exact h.newBlock hdiff kis now

theorem Reachable.inStep (hdiff : HashesDiffer env.toPoolEnv Tx)
    (hspends : ∀ tx, Tx tx → tx.keyImages ≠ [])
    (h : Reachable env Tx manager) : InStep env Tx manager := by
  induction h with
  | start htables hbacklog hloads => exact InStep.start hdiff htables hbacklog hloads
  | event now event hreach henabled hhandle ih =>
    obtain ⟨manager', hhandle', hinStep⟩ := ih.event hdiff hspends henabled now
    exact some.inj (hhandle.symm.trans hhandle') ▸ hinStep

/-- In every reachable state the manager knows exactly the transactions of the database, private
exactly if their stem flag is set, and exactly the public ones have a pending timeout. No event
makes the manager panic. -/
theorem Reachable.in_step_with_database (hdiff : HashesDiffer env.toPoolEnv Tx)
    (hspends : ∀ tx, Tx tx → tx.keyImages ≠ []) (h : Reachable env Tx manager) :
    (∀ tx, (manager.currentTxs.lookup tx).isSome ↔ (manager.tables.transactionBlobs.lookup tx).isSome) ∧
    (∀ tx txInfo, manager.currentTxs.lookup tx = some txInfo →
      (∃ info, manager.tables.transactionInfos.lookup tx = some info ∧
        info.flags.stateStem = txInfo.isPrivate) ∧
      (txInfo.isPrivate = false → ∃ key, txInfo.timeoutKey = some key ∧
        manager.txTimeouts.lookup key = some tx) ∧
      (txInfo.isPrivate = true → ∀ key, manager.txTimeouts.lookup key ≠ some tx)) ∧
    ∀ now event, manager.Enabled env.toPoolEnv Tx event → (manager.handle env now event).isSome := by
  have hinStep := h.inStep hdiff hspends
  obtain ⟨pool, hmirrors⟩ := hinStep.mirrors
  refine ⟨fun tx => ?_, fun tx txInfo htx =>
    ⟨hmirrors.flags tx txInfo htx, fun hpublic => ?_, fun hprivate => ?_⟩,
    fun now event henabled => ?_⟩
  · rw [hmirrors.keys, hmirrors.holds.blobs, Option.isSome_map]
  · obtain ⟨key, hkey⟩ := isSome_iff_exists.mp ((hinStep.timed.isPublic tx txInfo htx).mp hpublic)
    refine ⟨key, hkey, hinStep.timed.tracks.lookup ?_⟩
    rw [keyOf, htx, bind_some, hkey]
  · intro key hkey
    have hkeyOf := (hinStep.timed.tracks tx key).mpr hkey
    rw [hinStep.timed.keyOf_eq_none htx hprivate] at hkeyOf
    cases hkeyOf
  · obtain ⟨manager', hhandle, _⟩ := hinStep.event hdiff hspends henabled now
    rw [hhandle]
    rfl

/-- A manager that is started on an empty database and gets a public transaction. -/
theorem in_step_with_database_onceData :
    ∃ manager : TimedManager Nat, Reachable raceEnv (· = onceTx) manager ∧
    (manager.currentTxs.lookup onceData.txHash).isSome ∧
    ((manager.currentTxs.lookup onceData.txHash).isSome ↔
      (manager.tables.transactionBlobs.lookup onceData.txHash).isSome) := by
  have hstart : Reachable raceEnv (· = onceTx) (⟨∅, ∅, .empty⟩ : TimedManager Nat) := by
    have hbacklog : IsBacklog .empty [] :=
      ⟨nodup_nil, fun tx info => iff_of_false not_mem_nil (some_ne_none _).symm⟩
    exact .start .empty hbacklog (.nil _)
  have hreach := hstart.event 0 (.incoming onceData false 0)
    ⟨rfl, ⟨by decide, by decide, by decide, by decide⟩, rfl, mem_of_hasGen_eq_false (by decide), rfl⟩ rfl
  refine ⟨_, hreach, rfl, ?_⟩
  refine (hreach.in_step_with_database raceEnv_hashesDiffer ?_).1 onceData.txHash
  rintro tx rfl
  decide

omit [DecidableEq K] in
theorem untimed_lookup (manager : TimedManager K) (tx : Hash) :
    manager.untimed.currentTxs.lookup tx = (manager.currentTxs.lookup tx).map TimedTxInfo.toTxInfo :=
  Finmap.lookup_mapValues _ _ tx

theorem untimed_setTimeout (manager : TimedManager K) (tx : Hash) (txInfo : TxInfo) (key : K) :
    (manager.setTimeout tx txInfo key).untimed =
      { manager.untimed with currentTxs := manager.untimed.currentTxs.insert tx txInfo } := by
  rw [untimed, setTimeout, Finmap.mapValues_insert]
  rfl

theorem untimed_handleIncomingTx (env : PoolEnv) (now : UInt64) (key : K) (manager : TimedManager K)
    (tx : TransactionVerificationData) (stem : Bool) :
      (manager.handleIncomingTx env now key tx stem).map untimed =
      manager.untimed.handleIncomingTx env now tx stem := by
  have htrack (tables : Tables) :
      (trackTx now key { manager with tables := tables } tx.txHash tx.txWeight tx.fee stem).untimed =
        ⟨manager.untimed.currentTxs.insert tx.txHash ⟨tx.txWeight, tx.fee, now, stem⟩, tables⟩ := by
    cases stem with
    | true => exact congrArg (TxpoolManager.mk · tables) (Finmap.mapValues_insert _ _ _ _)
    | false => exact untimed_setTimeout _ _ _ _
  rw [handleIncomingTx, TxpoolManager.handleIncomingTx, show manager.untimed.tables =
    manager.tables from rfl]
  rcases handleTxpoolRequest env now manager.tables (.addTransaction tx stem) with ⟨_ | response, tables⟩
  · rfl
  · cases response with
    | addTransaction old =>
      cases old with
      | none => exact congrArg some (htrack tables)
      | some old => rfl
    | newBlock removedTxs => rfl
    | ok => rfl

theorem untimed_promoteTx (env : PoolEnv) (now : UInt64) (key : K) (manager : TimedManager K) (tx : Hash) :
    (manager.promoteTx env now key tx).map untimed = manager.untimed.promoteTx env now tx := by
  rw [promoteTx, TxpoolManager.promoteTx, untimed_lookup, show manager.untimed.tables =
    manager.tables from rfl]
  cases manager.currentTxs.lookup tx with
  | none => rfl
  | some txInfo =>
    simp only [map_some]
    split
    · rcases handleTxpoolRequest env now manager.tables (.promote tx) with ⟨_ | _, tables⟩
      · rfl
      · exact congrArg some (untimed_setTimeout { manager with tables := tables } tx _ key)
    · rfl

theorem untimed_removeTxFromPool (env : PoolEnv) (now : UInt64) (manager : TimedManager K) (tx : Hash) :
    (manager.removeTxFromPool env now false tx).map untimed =
      (TxpoolManager.removeTxFromPool manager.untimed.currentTxs tx).map (⟨·, manager.tables⟩) := by
  rw [removeTxFromPool, TxpoolManager.removeTxFromPool, untimed_lookup]
  cases manager.currentTxs.lookup tx with
  | none => rfl
  | some txInfo =>
    refine congrArg some (congrArg (TxpoolManager.mk · manager.tables) ?_)
    exact Finmap.mapValues_erase _ _ _

theorem untimed_foldlM_removeTxFromPool (env : PoolEnv) (now : UInt64) (txs : List Hash)
    (manager : TimedManager K) : (txs.foldlM (removeTxFromPool env now false) manager).map untimed =
      (txs.foldlM TxpoolManager.removeTxFromPool manager.untimed.currentTxs).map
        (⟨·, manager.tables⟩) := by
  induction txs generalizing manager with
  | nil => rfl
  | cons tx txs ih =>
    have hremove := untimed_removeTxFromPool env now manager tx
    rw [foldlM_cons, foldlM_cons]
    cases hmanager : manager.removeTxFromPool env now false tx with
    | none =>
      rw [hmanager, map_none, eq_comm, Option.map_eq_none_iff] at hremove
      rw [hremove]
      rfl
    | some manager' =>
      rw [hmanager, map_some, eq_comm, map_eq_some_iff] at hremove
      obtain ⟨currentTxs, hremoved, huntimed⟩ := hremove
      have htables : manager'.tables = manager.tables := (congrArg TxpoolManager.tables huntimed).symm
      have htxs : manager'.untimed.currentTxs = currentTxs :=
          (congrArg TxpoolManager.currentTxs huntimed).symm
      rw [hremoved, bind_eq_bind, bind_eq_bind, bind_some, bind_some, ih, htxs, htables]

theorem untimed_newBlock (env : PoolEnv) (now : UInt64) (manager : TimedManager K)
    (spentKeyImages : List CompressedPoint) :
    (manager.newBlock env now spentKeyImages).map untimed =
      manager.untimed.newBlock env now spentKeyImages := by
  rw [newBlock, TxpoolManager.newBlock, show manager.untimed.tables = manager.tables from rfl]
  rcases handleTxpoolRequest env now manager.tables (.newBlock spentKeyImages) with ⟨_ | response, tables⟩
  · rfl
  · cases response with
    | newBlock removedTxs =>
        exact untimed_foldlM_removeTxFromPool env now removedTxs { manager with tables := tables }
    | addTransaction old => rfl
    | ok => rfl

theorem untimed_handleTxTimeout {env : NodeEnv} {now : UInt64} {key : K}
    {manager manager' : TimedManager K} {tx : Hash}
    (h : manager.handleTxTimeout env now key tx = some manager') :
    manager.untimed.handleTxTimeout env now tx = some manager'.untimed := by
  rw [handleTxTimeout] at h
  rw [TxpoolManager.handleTxTimeout, untimed_lookup, show manager.untimed.tables = manager.tables from rfl]
  split at h
  · next hlookup =>
    cases h
    rw [hlookup]
    rfl
  · next txInfo hlookup =>
    simp only [hlookup, map_some]
    split at h
    · next hold =>
      rw [if_pos hold]
      rw [removeTxFromPool, hlookup] at h
      rcases hrequest : handleTxpoolRequest env.toPoolEnv now manager.tables
        (.removeTransaction tx) with ⟨_ | _, tables⟩
      · simp [hrequest] at h
      · simp only [hrequest, if_true, some.injEq] at h
        subst h
        simp only [TxpoolManager.removeTxFromPool, untimed_lookup, hlookup, map_some]
        exact congrArg some (congrArg (TxpoolManager.mk · tables) (Finmap.mapValues_erase _ _ _).symm)
    · next hold =>
      rw [if_neg hold]
      split at h
      · cases h
      · cases h
        rw [untimed_setTimeout, Finmap.insert_of_lookup_eq_some]
        rw [untimed_lookup, hlookup, map_some]

/-- A step of the manager without timeouts. -/
inductive UntimedStep (env : NodeEnv) (manager manager' : TxpoolManager) : Prop where
  | timeout (now : UInt64) (tx : Hash) (h : manager.handleTxTimeout env now tx = some manager')
  | incoming (now : UInt64) (tx : TransactionVerificationData) (stem : Bool)
      (h : manager.handleIncomingTx env.toPoolEnv now tx stem = some manager')
  | promote (now : UInt64) (tx : Hash) (h : manager.promoteTx env.toPoolEnv now tx = some manager')
  | newBlock (now : UInt64) (kis : List CompressedPoint)
      (h : manager.newBlock env.toPoolEnv now kis = some manager')

def Step (env : NodeEnv) (manager manager' : TimedManager K) : Prop :=
  ∃ now event, manager.handle env now event = some manager'

/-- Whichever timeouts fire, and whatever keys new ones get, the manager runs as one without
timeouts. -/
theorem untimed_steps {env : NodeEnv} {manager manager' : TimedManager K}
    (h : ReflTransGen (Step env) manager manager') :
    ReflTransGen (UntimedStep env) manager.untimed manager'.untimed := by
  refine ReflTransGen.lift' untimed ?_ _ _ h
  rintro manager manager' ⟨now, event, hhandle⟩
  have hmap := congrArg (Option.map untimed) hhandle
  cases event with
  | timeout fired key =>
    rw [handle] at hhandle
    split at hhandle
    · cases hhandle
      exact .refl
    · next tx htx =>
      have huntimed := untimed_handleTxTimeout hhandle
      exact .single (.timeout now tx huntimed)
  | incoming tx stem key =>
    have huntimed := untimed_handleIncomingTx env.toPoolEnv now key manager tx stem
    exact .single (.incoming now tx stem (huntimed.symm.trans hmap))
  | promote tx key =>
    have huntimed := untimed_promoteTx env.toPoolEnv now key manager tx
    exact .single (.promote now tx (huntimed.symm.trans hmap))
  | newBlock kis =>
    have huntimed := untimed_newBlock env.toPoolEnv now manager kis
    exact .single (.newBlock now kis (huntimed.symm.trans hmap))

/-- A public transaction comes in, and its timeout fires. -/
theorem untimed_steps_onceData :
    ∃ manager : TimedManager Nat, manager.txTimeouts.lookup 1 = some onceData.txHash ∧
    ReflTransGen (UntimedStep raceEnv) ⟨∅, .empty⟩ manager.untimed := by
  have hsteps : ReflTransGen (Step raceEnv) (⟨∅, ∅, .empty⟩ : TimedManager Nat) _ :=
    .tail (.single ⟨0, .incoming onceData false 0, rfl⟩) ⟨5, .timeout 0 1, rfl⟩
  exact ⟨_, rfl, untimed_steps hsteps⟩

end TimedManager

end Cuprate.TxPool
