import Cuprate.Storage.Database
import Cuprate.Storage.Proofs.AltBlocksProofs
import Cuprate.Storage.Proofs.ConsistencyProofs

/-!
# Databases that requests lead to

The main chain tables of such a database are built from the verified blocks of its chain. Moving the
top block to an alternative chain does to the hashes of the chains what `ChainDb` says.
-/

namespace Cuprate.Storage

open Collections Finmap List Option Consensus

variable {fee fee' : UInt64}

theorem checkedAdd_of_addInputAmount {amount : Option UInt64} {offsets : List UInt64}
    {image : CompressedPoint}
    (h : addInputAmount fee (.toKey amount offsets image) = .ok fee') :
    Helper.checkedAdd fee (amount.getD 0) = some fee' := by
  simp only [addInputAmount] at h
  unfold Helper.checkedAdd
  split at h
  · cases h
  · next hlt =>
    rw [if_pos (not_le.mp hlt)]
    exact congrArg some (Except.ok.inj h)

theorem foldlM_checkedSub {outputs : List Cuprate.Output}
    (h : outputs.foldlM subOutputAmount fee = .ok fee') :
    outputs.foldlM (fun fee output => Helper.checkedSub fee (output.amount.getD 0)) fee = some fee' := by
  induction outputs generalizing fee with
  | nil => exact congrArg some (Except.ok.inj h)
  | cons out outputs ih =>
    rw [foldlM_cons] at h ⊢
    unfold subOutputAmount at h
    unfold Helper.checkedSub
    split at h
    · cases h
    · next hlt =>
      rw [if_neg hlt]
      exact ih h

theorem feeFrom_eq {inputs : List Input} {outputs : List Cuprate.Output}
    (hkeys : ∀ height, .gen height ∉ inputs)
    (h : (inputs.foldlM addInputAmount fee).bind (outputs.foldlM subOutputAmount) =
      .ok fee') : Helper.feeFrom outputs fee inputs = some fee' := by
  induction inputs generalizing fee with
  | nil => exact foldlM_checkedSub h
  | cons input inputs ih =>
    cases input with
    | gen height => exact absurd (.head _) (hkeys height)
    | toKey amount offsets image =>
      rw [foldlM_cons] at h
      cases hadd : addInputAmount fee (.toKey amount offsets image) with
      | error e =>
        rw [hadd] at h
        cases h
      | ok next =>
        rw [hadd] at h
        unfold Helper.feeFrom
        rw [checkedAdd_of_addInputAmount hadd]
        exact ih (fun height hmem => hkeys height (.tail _ hmem)) h

theorem txFee_eq {tx : Transaction} (h : txFee tx = .ok fee) (hgen : tx.hasGen = false) :
    Helper.txFee tx = some fee := by
  cases tx with
  | v1 txPrefix signatures =>
    refine feeFrom_eq (fun height hmem => ?_) h
    exact Bool.false_ne_true (hgen.symm.trans (any_eq_true.mpr ⟨_, hmem, rfl⟩))
  | v2 txPrefix proofs =>
    cases proofs with
    | none => cases h
    | some proofs => exact congrArg some (Except.ok.inj h)

namespace Database

variable {env : DatabaseEnv} {chain : List VerifiedBlockInformation} {t t' : Tables}
  {b : VerifiedBlockInformation} {db db' : Database}

/-! ## Chains of verified blocks -/

/-- The tables of a chain of verified blocks that were added one after another. -/
inductive Built (env : DatabaseEnv) : List VerifiedBlockInformation → Tables → Prop where
  | empty : Built env [] .empty
  | add {chain : List VerifiedBlockInformation} {t t' : Tables} {b : VerifiedBlockInformation}
      (hbuilt : Built env chain t) (hverified : VerifiedBlock env chain t b)
      (hadd : addBlock env.toStorageEnv b t = some t') : Built env (chain ++ [b]) t'

theorem Built.run (h : Built env chain t) : Run env.toStorageEnv chain t := by
  induction h with
  | empty => exact .empty
  | add hbuilt hverified hadd ih => exact .add ih hverified.toValidToAdd hadd

theorem Built.contents (h : Built env chain t) :
    ∃ c, ContentsOf env.toStorageEnv chain c ∧ Represents t c := by
  obtain ⟨c, hchain, hrep⟩ := h.run.contents
  exact ⟨c, hchain.contentsOf, hrep⟩

theorem Built.last (h : Built env (chain ++ [b]) t') :
    ∃ t, Built env chain t ∧ VerifiedBlock env chain t b ∧ addBlock env.toStorageEnv b t = some t' := by
  generalize hchain : chain ++ [b] = chain' at h
  cases h with
  | empty => exact absurd hchain (by simp)
  | add hbuilt hverified hadd =>
    obtain ⟨rfl, heq⟩ := append_inj' hchain rfl
    obtain rfl := singleton_inj.mp heq
    exact ⟨_, hbuilt, hverified, hadd⟩

theorem Built.unique (h : Built env chain t) (h' : Built env chain t') : t = t' := by
  induction h generalizing t' with
  | empty =>
    generalize hchain : ([] : List VerifiedBlockInformation) = chain at h'
    cases h' with
    | empty => rfl
    | add hbuilt hverified hadd => exact absurd hchain (by simp)
  | add hbuilt hverified hadd ih =>
    obtain ⟨t₁, hbuilt₁, -, hadd₁⟩ := h'.last
    obtain rfl := ih hbuilt₁
    exact some.inj (hadd.symm.trans hadd₁)

theorem Built.split {blocks : List VerifiedBlockInformation} (h : Built env (chain ++ blocks) t') :
    ∃ t, Built env chain t ∧ blocks.foldlM (fun t b => addBlock env.toStorageEnv b t) t = some t' := by
  induction blocks using reverseRecOn generalizing t' with
  | nil =>
    rw [append_nil] at h
    exact ⟨t', h, rfl⟩
  | append_singleton blocks b ih =>
    rw [← append_assoc] at h
    obtain ⟨t₁, hbuilt₁, -, hadd⟩ := h.last
    obtain ⟨t, hbuilt, hblocks⟩ := ih hbuilt₁
    refine ⟨t, hbuilt, ?_⟩
    rw [foldlM_append, hblocks]
    show (addBlock env.toStorageEnv b t₁).bind pure = some t'
    rw [hadd]
    rfl

section
variable (h : Built env chain t)
include h

theorem Built.chainHeight_eq : chainHeight t = chain.length := by
  obtain ⟨c, hcontents, hrep⟩ := h.contents
  rw [chainHeight, hrep.blockHeights.len, length_map, hcontents.blocks_length]

theorem Built.mainChain_eq : mainChain t = chain.map (·.blockHash) := by
  obtain ⟨c, hcontents, hrep⟩ := h.contents
  have hlen : chainHeight t = (c.blocks.map (·.info)).length := by
    rw [h.chainHeight_eq, length_map, hcontents.blocks_length]
  unfold mainChain
  rw [← map_filterMap, hlen, hrep.blockInfos.filterMap_lookup, List.map_map]
  exact hcontents.blockHashes

theorem Built.blockHashes_nodup : (chain.map (·.blockHash)).Nodup := by
  obtain ⟨c, hcontents, hrep⟩ := h.contents
  rw [← hcontents.blockHashes]
  exact hrep.blockHeights.nodup

theorem Built.txHashes_nodup : ((chainTxs env.toStorageEnv chain).map (·.hash)).Nodup := by
  obtain ⟨c, hcontents, hrep⟩ := h.contents
  rw [← hcontents.txs]
  exact hrep.txIds.nodup

theorem Built.lookup_txIds {hash : Hash}
    (hnew : hash ∉ (chainTxs env.toStorageEnv chain).map (·.hash)) : t.txIds.lookup hash = none := by
  obtain ⟨c, hcontents, hrep⟩ := h.contents
  rw [← hcontents.txs] at hnew
  exact hrep.txIds.lookup_eq_none.mpr hnew

theorem Built.lookup_keyImages {k : CompressedPoint}
    (hnew : k ∉ (chainTxs env.toStorageEnv chain).flatMap fun x => x.tx.keyImages) :
    t.keyImages.lookup k = none := by
  obtain ⟨c, hcontents, hrep⟩ := h.contents
  rw [← hcontents.txs] at hnew
  exact Option.eq_none_iff_forall_ne_some.mpr fun _ hk => hnew ((hrep.keyImages k).mp hk)

theorem Built.lookup_blockHeights {hash : Hash} (hnew : hash ∉ chain.map (·.blockHash)) :
    t.blockHeights.lookup hash = none := by
  obtain ⟨c, hcontents, hrep⟩ := h.contents
  rw [← hcontents.blockHashes] at hnew
  exact hrep.blockHeights.lookup_eq_none.mpr hnew

end

theorem Built.writeBlock (db : Database) (h : Built env chain db.tables)
    (hverified : VerifiedBlock env chain db.tables b) :
    ∃ t, Built env (chain ++ [b]) t ∧ db.writeBlock env b = some { db with tables := t } := by
  obtain ⟨c, -, hrep⟩ := h.contents
  obtain ⟨-, t, -, hadd, -⟩ := addBlock_spec hrep hverified.toValidToAdd
  exact ⟨t, .add h hverified hadd, map_eq_some_iff.mpr ⟨t, hadd, rfl⟩⟩

theorem Built.verified {i : Nat} (h : Built env chain t') (hb : chain[i]? = some b) :
    b.height = i ∧ ∃ t, VerifiedBlock env (chain.take i) t b := by
  obtain ⟨hlt, rfl⟩ := List.getElem?_eq_some_iff.mp hb
  have hsplit : chain = chain.take i ++ [chain[i]] ++ chain.drop (i + 1) := by
    rw [append_assoc, singleton_append, getElem_cons_drop, take_append_drop]
  rw [hsplit] at h
  obtain ⟨t₁, hbuilt₁, -⟩ := h.split
  obtain ⟨t, hbuilt, hverified, -⟩ := hbuilt₁.last
  refine ⟨?_, t, hverified⟩
  rw [hverified.height_eq, hbuilt.chainHeight_eq, length_take, min_eq_left hlt.le]

theorem Built.popBlock_eq (h : Built env (chain ++ [b]) t') :
    ∃ t coins rctOuts txId, Built env chain t ∧ VerifiedBlock env chain t b ∧
      Storage.popBlock env.toStorageEnv t' =
        some (⟨b.height, blockInfoOf b coins rctOuts txId, b.block, b.txs.map (·.tx)⟩, t) := by
  obtain ⟨t, hbuilt, hverified, hadd⟩ := h.last
  obtain ⟨c, -, hrep⟩ := hbuilt.contents
  obtain ⟨c', t₁, hc', hadd', hrep'⟩ := addBlock_spec hrep hverified.toValidToAdd
  obtain rfl := some.inj (hadd'.symm.trans hadd)
  obtain ⟨coins, rctOuts, txId, t₂, hrep₂, hpop⟩ :=
    popBlock_spec hrep' (hverified.toValidToAdd.validOn hrep) hc'
  obtain rfl := Represents.unique hrep₂ hrep
  exact ⟨t₂, coins, rctOuts, txId, hbuilt, hverified, hpop⟩

theorem popBlock_of_built_nil (h : Built env [] t) : Storage.popBlock env.toStorageEnv t = none := by
  obtain rfl := h.unique .empty
  exact popBlock_empty_content represents_empty

theorem foldl_addAltTransactionBlob (txs : List VerifiedTransactionInformation) (db : Database) :
    ∃ infos blobs, txs.foldl addAltTransactionBlob db =
      { db with altTransactionInfos := infos, altTransactionBlobs := blobs } := by
  induction txs generalizing db with
  | nil => exact ⟨_, _, rfl⟩
  | cons tx txs ih =>
    obtain ⟨infos, blobs, heq⟩ := ih (db.addAltTransactionBlob tx)
    exact ⟨infos, blobs, heq⟩

/-- The tables after an alternative block was added, but not its transactions. -/
def withAltBlock (altBlock : AltBlockInformation) (infos : Table ChainId AltChainInfo)
    (db : Database) : Database :=
  { db with
    altChainInfos := infos
    altBlockHeights := db.altBlockHeights.insert altBlock.blockHash (altBlock.chainId, altBlock.height)
    altBlocksInfo :=
      db.altBlocksInfo.insert (altBlock.chainId, altBlock.height) (compactAltBlockInfo altBlock)
    altBlockBlobs := db.altBlockBlobs.insert (altBlock.chainId, altBlock.height) altBlock.blockBlob }

def AltBlockInformation.summary (altBlock : AltBlockInformation) : Storage.AltBlockInformation where
  previous := altBlock.block.header.previous
  blockHash := altBlock.blockHash
  height := altBlock.height
  chainId := altBlock.chainId

variable {altBlock : AltBlockInformation}

section
variable (h : db.addAltBlock altBlock = some db')
include h

theorem addAltBlock_eq_some : ∃ infos, altBlock.txs.length = altBlock.block.transactions.length ∧
      db.chains.addAltBlock altBlock.summary = some (db.withAltBlock altBlock infos).chains ∧
      db' = altBlock.txs.foldl addAltTransactionBlob (db.withAltBlock altBlock infos) := by
  obtain ⟨db₁, hupdate, h⟩ := bind_eq_some_iff.mp h
  obtain ⟨updated, hchains, rfl⟩ := map_eq_some_iff.mp hupdate
  split at h
  · next hlen =>
    refine ⟨updated.altChainInfos, hlen, ?_, (some.inj h).symm⟩
    refine bind_eq_some_iff.mpr ⟨updated, hchains, ?_⟩
    rw [ChainDb.updateAltChainInfo_eq hchains]
    unfold withAltBlock chains
    simp only [mapValues_insert]
    rfl
  · cases h

theorem chains_addAltBlock : db.chains.addAltBlock altBlock.summary = some db'.chains := by
  obtain ⟨infos, -, hchains, rfl⟩ := addAltBlock_eq_some h
  obtain ⟨txInfos, blobs, heq⟩ := foldl_addAltTransactionBlob altBlock.txs (db.withAltBlock altBlock infos)
  rw [heq]
  exact hchains

theorem tables_addAltBlock : db'.tables = db.tables := by
  obtain ⟨infos, -, -, rfl⟩ := addAltBlock_eq_some h
  obtain ⟨txInfos, blobs, heq⟩ := foldl_addAltTransactionBlob altBlock.txs (db.withAltBlock altBlock infos)
  rw [heq]
  rfl

end

theorem addAltBlock_isSome (hheight : altBlock.height ≠ 0)
    (hlen : altBlock.txs.length = altBlock.block.transactions.length) (db : Database) :
    ∃ db', db.addAltBlock altBlock = some db' := by
  have hupdate : ∀ (prev : Hash) (cdb : ChainDb),
      ∃ cdb', cdb.updateAltChainInfo (altBlock.chainId, altBlock.height) prev = some cdb' := by
    intro prev cdb
    unfold ChainDb.updateAltChainInfo
    simp only [if_neg hheight]
    split
    · split
      · exact ⟨_, rfl⟩
      · exact ⟨_, rfl⟩
    · exact ⟨_, rfl⟩
  obtain ⟨updated, hupdated⟩ := hupdate altBlock.block.header.previous
    { db with altBlockHeights :=
        db.altBlockHeights.insert altBlock.blockHash (altBlock.chainId, altBlock.height) }.chains
  unfold addAltBlock updateAltChainInfo
  simp only [hupdated, map_some, bind_eq_bind, bind_some, if_pos hlen]
  exact ⟨_, rfl⟩

theorem verifiedTransaction_eq {tx : VerifiedTransactionInformation} (h : TxFields env tx)
    (hkeys : tx.tx.hasGen = false) : verifiedTransaction env tx.tx = some tx := by
  unfold verifiedTransaction
  rw [txFee_eq h.fee hkeys]
  simp only [map_some, ← h.txBlob, ← h.txWeight, ← h.txHash]

theorem mapM_verifiedTransaction {txs : List VerifiedTransactionInformation}
    (h : ∀ tx ∈ txs, TxFields env tx)
    (hkeys : ∀ tx ∈ txs, tx.tx.hasGen = false) :
      (txs.map (·.tx)).mapM (verifiedTransaction env) = some txs := by
  have hmap := mapM_eq_some_map (g := id) fun tx hmem =>
    verifiedTransaction_eq (h tx hmem) (hkeys tx hmem)
  rwa [List.map_id, ← Function.comp_def, ← mapM_map] at hmap

theorem popBlock_eq (h : Built env (chain ++ [b]) db.tables) (id : ChainId) :
    ∃ t, Built env chain t ∧ VerifiedBlock env chain t b ∧
      db.popBlock env (some id) = { db with tables := t }.addAltBlock (altBlockOf id b) := by
  obtain ⟨t, coins, rctOuts, txId, hbuilt, hverified, hpop⟩ := h.popBlock_eq
  refine ⟨t, hbuilt, hverified, ?_⟩
  have hdiff : b.cumulativeDifficulty / 2 ^ 64 * 2 ^ 64 + b.cumulativeDifficulty % 2 ^ 64 =
      b.cumulativeDifficulty := Nat.div_add_mod' _ _
  have haltBlock : poppedAltBlock env id
      ⟨b.height, blockInfoOf b coins rctOuts txId, b.block, b.txs.map (·.tx)⟩ b.txs = altBlockOf id b := by
    unfold poppedAltBlock altBlockOf blockInfoOf
    simp only [hdiff, hverified.blockBlob]
  unfold popBlock
  simp only [hpop, bind_eq_bind, bind_some, haltBlock,
    mapM_verifiedTransaction hverified.txFields hverified.keyInputs]

end Database

end Cuprate.Storage
