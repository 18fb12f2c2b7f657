import Cuprate.Storage.Consistency

/-!
# Adding blocks

`add_tx` and `add_block` do to the tables what `Contents.addTx` and `Contents.addBlock` do to the
content they hold.
-/

namespace Cuprate.Storage

open Collections Finmap List Option

variable {env : StorageEnv} {rct : List RctOutput} {b : VerifiedBlockInformation} {c c' : Contents}
    {t : Tables}
  {height txId i : Nat} {xs : List StoredTx} {x : StoredTx}

theorem addPreRctOutputs_spec (tx : Transaction) (txId height : Nat) (outs : List Cuprate.Output)
    {f : UInt64 → List Output} (h : IsStacks t.numOutputs t.outputs f) :
    let added := outs.map fun out => (out.amount.getD 0, preRctOutput tx txId height out)
    ∃ num items, IsStacks num items (pushAll f added) ∧ addPreRctOutputs tx txId height outs t =
        (stackIndices f added, { t with numOutputs := num, outputs := items }) := by
  induction outs generalizing t f with
  | nil => exact ⟨t.numOutputs, t.outputs, h, rfl⟩
  | cons out outs ih =>
    have hnum := h.getD_num (out.amount.getD 0)
    have hpush := h.push (out.amount.getD 0) (preRctOutput tx txId height out)
    have hstep : addOutput (out.amount.getD 0) (preRctOutput tx txId height out) t =
        ((f (out.amount.getD 0)).length, { t with
            numOutputs := t.numOutputs.insert (out.amount.getD 0) ((f (out.amount.getD 0)).length + 1)
            outputs := t.outputs.insert (out.amount.getD 0, (f (out.amount.getD 0)).length)
              (preRctOutput tx txId height out) }) := by
      unfold addOutput
      rw [hnum]
    obtain ⟨num, items, hstacks, hrest⟩ := ih
      (t := { t with
        numOutputs := t.numOutputs.insert (out.amount.getD 0) ((f (out.amount.getD 0)).length + 1)
        outputs := t.outputs.insert (out.amount.getD 0, (f (out.amount.getD 0)).length)
          (preRctOutput tx txId height out) }) hpush
    refine ⟨num, items, hstacks, ?_⟩
    unfold addPreRctOutputs
    rw [hstep]
    simp only [hrest]
    rfl

theorem addRctOutputs_spec (env : StorageEnv) (tx : Transaction) (proofs : Option RctProofs)
    (txId height : Nat)
    (outs : List Cuprate.Output) {l : List RctOutput} (h : t.rctOutputs.IsSeq l)
    (hrct : rctOutputsFrom env tx proofs txId height i outs = some rct) :
    ∃ s : Table Nat RctOutput, s.IsSeq (l ++ rct) ∧ addRctOutputs env tx proofs txId height i outs t =
        some (List.range' l.length outs.length, { t with rctOutputs := s }) := by
  induction outs generalizing i t l rct with
  | nil =>
    cases hrct
    exact ⟨t.rctOutputs, by rwa [append_nil], rfl⟩
  | cons out outs ih =>
    obtain ⟨commitment, hcommitment, hrct⟩ := bind_eq_some_iff.mp hrct
    obtain ⟨rest, hfrom, hrct⟩ := bind_eq_some_iff.mp hrct
    cases hrct
    obtain ⟨s, hs, hrest⟩ := ih
      (t := { t with
        rctOutputs := t.rctOutputs.insert l.length (rctOutput tx txId height out commitment) })
      (h.insert _) hfrom
    have hstep : addRctOutput (rctOutput tx txId height out commitment) t =
        (l.length, { t with
          rctOutputs := t.rctOutputs.insert l.length (rctOutput tx txId height out commitment) }) := by
      unfold addRctOutput
      rw [h.len]
    refine ⟨s, by rwa [append_assoc] at hs, ?_⟩
    unfold addRctOutputs
    simp only [hcommitment, hstep, hrest, bind_eq_bind, bind_some, length_append,
      length_cons, length_nil, zero_add, range'_succ]

theorem represents_empty : Represents .empty .empty where
  txIds := isIndex_empty
  txBlobs := isSeq_empty
  txHeights := isSeq_empty
  txOutputs := isSeq_empty
  txOutputs_length := rfl
  txUnlockTime := by
    intro i
    simp [Tables.empty, Contents.empty]
  keyImages := isSet_empty
  outputs := isStacks_empty
  rctOutputs := isSeq_empty
  blockInfos := isSeq_empty
  blockHeaderBlobs := isSeq_empty
  blockTxsHashes := isSeq_empty
  blockHeights := isIndex_empty

theorem Represents.unique {t' : Tables} (h : Represents t c) (h' : Represents t' c) : t = t' := by
  obtain ⟨hnum, hitems⟩ := h.outputs.unique h'.outputs
  exact Tables.ext (h.blockHeaderBlobs.unique h'.blockHeaderBlobs)
    (h.blockTxsHashes.unique h'.blockTxsHashes) (h.blockHeights.unique h'.blockHeights)
    (h.blockInfos.unique h'.blockInfos) (h.keyImages.unique h'.keyImages) hnum hitems
    (h.rctOutputs.unique h'.rctOutputs) (h.txBlobs.unique h'.txBlobs) (h.txIds.unique h'.txIds)
    (h.txHeights.unique h'.txHeights) (h.txOutputs.unique h'.txOutputs)
    (ext_lookup fun i => (h.txUnlockTime i).trans (h'.txUnlockTime i).symm)

theorem addTxOutputs_spec (hout : IsStacks t.numOutputs t.outputs c.outputs)
    (hseq : t.rctOutputs.IsSeq c.rctOutputs)
    (hrct : rctOutputsOf env x c.txs.length = some rct) :
    ∃ num items s, IsStacks num items (pushAll c.outputs (preRctOutputsOf x c.txs.length)) ∧
      IsSeq s (c.rctOutputs ++ rct) ∧
      addTxOutputs env x.tx c.txs.length x.height t =
        some (c.indices x, { t with numOutputs := num, outputs := items, rctOutputs := s }) := by
  obtain ⟨tx, blob, hash, height⟩ := x
  cases tx with
  | v1 txPrefix signatures =>
    cases hrct
    obtain ⟨num, items, hstacks, hadd⟩ := addPreRctOutputs_spec (.v1 txPrefix signatures) c.txs.length
      height txPrefix.outputs hout
    refine ⟨num, items, t.rctOutputs, hstacks, by rwa [append_nil], ?_⟩
    exact congrArg some hadd
  | v2 txPrefix proofs =>
    obtain ⟨s, hs, hadd⟩ := addRctOutputs_spec env (.v2 txPrefix proofs) proofs c.txs.length height
      txPrefix.outputs hseq hrct
    exact ⟨t.numOutputs, t.outputs, s, hout, hs, hadd⟩

theorem lookup_addTxData_unlockTime (h : Represents t c) (i : Nat) :
    (addTxData x.tx x.blob x.hash x.height t).txUnlockTime.lookup i =
      (c.txs ++ [x])[i]?.bind fun x => unlockTime x.tx := by
  have hid : t.txIds.len = c.txs.length := by rw [h.txIds.len, length_map]
  have hlookup := h.txUnlockTime i
  unfold addTxData
  simp only [hid]
  by_cases hi : i = c.txs.length
  · subst hi
    rw [getElem?_concat_length]
    rw [getElem?_eq_none (le_rfl)] at hlookup
    show _ = unlockTime x.tx
    cases hu : unlockTime x.tx with
    | none => exact hlookup
    | some time => exact lookup_insert _
  · rw [getElem?_concat_of_ne hi, ← hlookup]
    cases hu : unlockTime x.tx with
    | none => rfl
    | some time => exact lookup_insert_of_ne _ hi

theorem addTx_spec (h : Represents t c) (hheight : x.height < 2 ^ 32) (hnew : x.hash ∉ c.txs.map (·.hash))
    (hc : c.addTx env x = some c') :
    ∃ t', addTx env x.tx x.blob x.hash x.height t = some (c.txs.length, t') ∧ Represents t' c' := by
  obtain ⟨rct, hrct, rfl⟩ := map_eq_some_iff.mp hc
  have hid : t.txIds.len = c.txs.length := by rw [h.txIds.len, length_map]
  have hblobs := h.txBlobs.insert x.blob
  have hheights := h.txHeights.insert x.height
  have hids := h.txIds.insert hnew
  have hindices := h.txOutputs.insert (c.indices x)
  rw [length_map] at hblobs hheights hids
  rw [h.txOutputs_length] at hindices
  obtain ⟨num, items, s, hstacks, hs, hadd⟩ := addTxOutputs_spec
    (t := addTxData x.tx x.blob x.hash x.height t) h.outputs h.rctOutputs hrct
  refine ⟨{ addTxData x.tx x.blob x.hash x.height t with
    numOutputs := num
    outputs := items
    rctOutputs := s
    txOutputs := t.txOutputs.insert c.txs.length (c.indices x) }, ?_, ?_⟩
  · unfold addTx
    simp only [hid, hheight, if_true, hadd]
    rfl
  · exact
      { txIds := by
          simpa only [addTxData, hid, map_append, map_cons, map_nil] using hids
        txBlobs := by simpa only [addTxData, hid, map_append, map_cons, map_nil] using hblobs
        txHeights := by simpa only [addTxData, hid, map_append, map_cons, map_nil] using hheights
        txOutputs := hindices
        txOutputs_length := by simp [h.txOutputs_length]
        txUnlockTime := lookup_addTxData_unlockTime h
        keyImages := by
          rw [flatMap_append, flatMap_singleton]
          exact h.keyImages.insertAll x.tx.keyImages
        outputs := hstacks
        rctOutputs := hs
        blockInfos := h.blockInfos
        blockHeaderBlobs := h.blockHeaderBlobs
        blockTxsHashes := h.blockTxsHashes
        blockHeights := h.blockHeights }

theorem addTx_isSome (env : StorageEnv) (c : Contents) (h : HasCommitments x.tx) :
    ∃ c', c.addTx env x = some c' := by
  obtain ⟨tx, blob, hash, height⟩ := x
  have hfrom : ∀ (txPrefix : TransactionPrefix) (proofs : Option RctProofs),
      HasCommitments (.v2 txPrefix proofs) → ∀ outs i, i + outs.length ≤ txPrefix.outputs.length →
      ∃ rct, rctOutputsFrom env (.v2 txPrefix proofs) proofs c.txs.length height i outs = some rct := by
    intro txPrefix proofs hc outs
    induction outs with
    | nil => exact fun i _ => ⟨[], rfl⟩
    | cons out outs ih =>
      intro i hle
      rw [length_cons] at hle
      have hcommitment : ∃ commitment, commitmentOf env (.v2 txPrefix proofs) proofs i out =
          some commitment := by
        unfold commitmentOf
        rcases hc with hgen | ⟨p, rfl, hlen⟩
        · exact ⟨_, if_pos hgen⟩
        · split
          · exact ⟨_, rfl⟩
          · exact ⟨_, getElem?_eq_getElem (by omega)⟩
      obtain ⟨commitment, hcommitment⟩ := hcommitment
      obtain ⟨rest, hrest⟩ := ih (i + 1) (by omega)
      exact ⟨_, bind_eq_some_iff.mpr ⟨commitment, hcommitment, bind_eq_some_iff.mpr ⟨rest, hrest, rfl⟩⟩⟩
  cases tx with
  | v1 txPrefix signatures => exact ⟨_, rfl⟩
  | v2 txPrefix proofs =>
    obtain ⟨rct, hrct⟩ := hfrom txPrefix proofs h txPrefix.outputs 0 (by omega)
    exact ⟨_, map_eq_some_iff.mpr ⟨rct, hrct, rfl⟩⟩

/-! ## Blocks -/

theorem addTxs_spec (hheight : height < 2 ^ 32) (txs : List VerifiedTransactionInformation)
    (h : Represents t c)
    (hnodup : (txs.map (·.txHash)).Nodup) (hnew : ∀ tx ∈ txs, tx.txHash ∉ c.txs.map (·.hash))
    (hc : (txs.map fun tx => (⟨tx.tx, tx.txBlob, tx.txHash, height⟩ : StoredTx)).foldlM
      (Contents.addTx env) c = some c') : ∃ t', addTxs env height txs t = some t' ∧ Represents t' c' := by
  induction txs generalizing t c with
  | nil =>
    cases hc
    exact ⟨t, rfl, h⟩
  | cons tx txs ih =>
    rw [map_cons, nodup_cons] at hnodup
    obtain ⟨c₁, hc₁, hc⟩ := bind_eq_some_iff.mp hc
    obtain ⟨t₁, hadd, h₁⟩ := addTx_spec h hheight (hnew tx (.head _)) hc₁
    have hnew₁ : ∀ tx' ∈ txs, tx'.txHash ∉ c₁.txs.map (·.hash) := by
      obtain ⟨rct, -, rfl⟩ := map_eq_some_iff.mp hc₁
      intro tx' hmem hin
      rw [map_append, mem_append] at hin
      rcases hin with hin | hin
      · exact hnew tx' (.tail _ hmem) hin
      · obtain heq : tx'.txHash = tx.txHash := mem_singleton.mp hin
        exact hnodup.1 (heq ▸ mem_map_of_mem hmem)
    obtain ⟨t', hrest, h'⟩ := ih h₁ hnodup.2 hnew₁ hc
    refine ⟨t', ?_, h'⟩
    unfold addTxs
    rw [hadd]
    exact hrest

theorem foldlM_addTx_keeps {P : Contents → Prop} (hstep : ∀ c c' x, P c → c.addTx env x = some c' →
    P c') (h : P c)
    (hadd : xs.foldlM (Contents.addTx env) c = some c') : P c' := by
  induction xs generalizing c with
  | nil =>
    cases hadd
    exact h
  | cons x xs ih =>
    obtain ⟨c₁, hc₁, hadd⟩ := bind_eq_some_iff.mp hadd
    exact ih (hstep c c₁ x h hc₁) hadd

theorem foldlM_addTx_isSome (h : ∀ x ∈ xs, HasCommitments x.tx) :
    ∃ c', xs.foldlM (Contents.addTx env) c = some c' := by
  induction xs generalizing c with
  | nil => exact ⟨c, rfl⟩
  | cons x xs ih =>
    obtain ⟨c₁, hc₁⟩ := addTx_isSome env c (h x (.head _))
    obtain ⟨c', hc'⟩ := ih (c := c₁) fun x' hmem => h x' (.tail _ hmem)
    exact ⟨c', bind_eq_some_iff.mpr ⟨c₁, hc₁, hc'⟩⟩

theorem WellFormed.hasCommitments (h : WellFormed env b) : ∀ x ∈ storedTxs env b, HasCommitments x.tx := by
  intro x hmem
  rcases mem_cons.mp hmem with rfl | hmem
  · obtain ⟨height, hinputs⟩ := h.minerInput
    cases htx : b.block.minerTransaction with
    | v1 txPrefix signatures => trivial
    | v2 txPrefix proofs =>
      rw [htx] at hinputs
      left
      unfold Transaction.hasGen
      rw [hinputs]
      rfl
  · obtain ⟨tx, htx, rfl⟩ := mem_map.mp hmem
    exact h.commitments tx htx

theorem addBlockTxs_spec (h : Represents t c) (hvalid : ValidToAdd env t b)
    (hc : (storedTxs env b).foldlM (Contents.addTx env) c = some c') :
    ∃ t', addBlockTxs env b t = some (c.txs.length, t') ∧ Represents t' c' := by
  have hnew : ∀ x ∈ storedTxs env b, x.hash ∉ c.txs.map (·.hash) := fun x hmem =>
    h.txIds.lookup_eq_none.mp (hvalid.hashes_new x hmem)
  have hnodup := hvalid.hashes_nodup
  unfold storedTxs at hnodup hnew hc
  rw [map_cons, nodup_cons, List.map_map] at hnodup
  obtain ⟨c₁, hc₁, hc⟩ := bind_eq_some_iff.mp hc
  obtain ⟨t₁, hminer, h₁⟩ := addTx_spec h hvalid.height_lt (hnew _ (.head _)) hc₁
  have hnew₁ : ∀ tx ∈ b.txs, tx.txHash ∉ c₁.txs.map (·.hash) := by
    obtain ⟨rct, -, rfl⟩ := map_eq_some_iff.mp hc₁
    intro tx hmem hin
    rw [map_append, mem_append] at hin
    rcases hin with hin | hin
    · exact hnew _ (.tail _ (mem_map_of_mem hmem)) hin
    · exact hnodup.1 (mem_map.mpr ⟨tx, hmem, mem_singleton.mp hin⟩)
  obtain ⟨t', htxs, h'⟩ := addTxs_spec hvalid.height_lt b.txs h₁ hnodup.2 hnew₁ hc
  refine ⟨t', ?_, h'⟩
  unfold addBlockTxs
  simp only [hminer, bind_eq_bind, bind_some, htxs]

theorem rctOutputsFrom_eq {tx : Transaction} {proofs : Option RctProofs} {outs : List Cuprate.Output}
    (h : rctOutputsFrom env tx proofs txId height i outs = some rct) : (rct = (outs.zipIdx i).map fun p =>
      rctOutput tx txId height p.1 ((commitmentOf env tx proofs p.2 p.1).getD 0)) ∧
    ∀ p ∈ outs.zipIdx i, (commitmentOf env tx proofs p.2 p.1).isSome := by
  induction outs generalizing i rct with
  | nil => exact ⟨(some.inj h).symm, forall_mem_nil _⟩
  | cons out outs ih =>
    obtain ⟨commitment, hcommitment, h⟩ := bind_eq_some_iff.mp h
    obtain ⟨rest, hrest, h⟩ := bind_eq_some_iff.mp h
    cases h
    obtain ⟨heq, hsome⟩ := ih hrest
    rw [zipIdx_cons, map_cons, ← heq, forall_mem_cons, hcommitment]
    exact ⟨rfl, rfl, hsome⟩

theorem length_rctOutputsOf (h : rctOutputsOf env x txId = some rct) : rct.length = rctCount x.tx := by
  obtain ⟨tx, blob, hash, height⟩ := x
  cases tx with
  | v1 txPrefix signatures =>
    cases h
    rfl
  | v2 txPrefix proofs =>
    rw [(rctOutputsFrom_eq h).1, length_map, length_zipIdx]
    rfl

theorem of_mem_rctOutputsOf (h : rctOutputsOf env x txId = some rct) :
    ∀ o ∈ rct, ∃ out ∈ x.tx.txPrefix.outputs, ∃ commitment,
      o = rctOutput x.tx txId x.height out commitment := by
  obtain ⟨tx, blob, hash, height⟩ := x
  cases tx with
  | v1 txPrefix signatures =>
    cases h
    exact forall_mem_nil _
  | v2 txPrefix proofs =>
    intro o hmem
    rw [(rctOutputsFrom_eq h).1] at hmem
    obtain ⟨p, hp, rfl⟩ := mem_map.mp hmem
    exact ⟨p.1, fst_mem_of_mem_zipIdx hp, _, rfl⟩

/-- The pre-RCT outputs of transactions that are added one after another. -/
def preRctOutputsFrom (txId : Nat) (xs : List StoredTx) : List (UInt64 × Output) :=
  (xs.zipIdx txId).flatMap fun p => preRctOutputsOf p.1 p.2

/-- What the transactions of a block add to the content. -/
structure Added (c : Contents) (xs : List StoredTx) (c' : Contents) : Prop where
  txs : c'.txs = c.txs ++ xs
  txOutputs : ∃ indices, indices.length = xs.length ∧ c'.txOutputs = c.txOutputs ++ indices
  outputs : c'.outputs = pushAll c.outputs (preRctOutputsFrom c.txs.length xs)
  rctOutputs : ∃ rct, c'.rctOutputs = c.rctOutputs ++ rct ∧
    rct.length = (xs.map fun x => rctCount x.tx).sum ∧ ∀ o ∈ rct, ∃ x ∈ xs, o.height = x.height
  blocks : c'.blocks = c.blocks

theorem added_of_foldlM (h : xs.foldlM (Contents.addTx env) c = some c') : Added c xs c' := by
  induction xs generalizing c with
  | nil =>
    cases h
    exact ⟨by simp, ⟨[], rfl, by simp⟩, rfl, ⟨[], by simp, rfl, by simp⟩, rfl⟩
  | cons x xs ih =>
    obtain ⟨c₁, hc₁, h⟩ := bind_eq_some_iff.mp h
    obtain ⟨rct, hrct, rfl⟩ := map_eq_some_iff.mp hc₁
    obtain ⟨htxs, ⟨indices, hlen, hindices⟩, hout, ⟨rest, hrcts, hrest, hheights⟩, hblocks⟩ := ih h
    refine ⟨?_, ⟨c.indices x :: indices, ?_, ?_⟩, ?_, ⟨rct ++ rest, ?_, ?_, ?_⟩, hblocks⟩
    · rw [htxs, append_assoc, singleton_append]
    · rw [length_cons, length_cons, hlen]
    · rw [hindices, append_assoc, singleton_append]
    · rw [hout, length_append, length_singleton]
      unfold preRctOutputsFrom
      rw [zipIdx_cons, flatMap_cons]
      unfold pushAll
      rw [foldl_append]
    · rw [hrcts, append_assoc]
    · rw [length_append, length_rctOutputsOf hrct, hrest, map_cons, sum_cons]
    · intro o hmem
      rcases mem_append.mp hmem with hmem | hmem
      · obtain ⟨out, -, commitment, rfl⟩ := of_mem_rctOutputsOf hrct o hmem
        exact ⟨x, .head _, rfl⟩
      · obtain ⟨x', hx', hheight⟩ := hheights o hmem
        exact ⟨x', .tail _ hx', hheight⟩

/-- A valid block is added, and the tables then hold the content with the block on top. -/
theorem addBlock_spec (h : Represents t c) (hvalid : ValidToAdd env t b) :
    ∃ c' t', c.addBlock env b = some c' ∧ addBlock env b t = some t' ∧ Represents t' c' := by
  obtain ⟨c₁, hc₁⟩ := foldlM_addTx_isSome (c := c) hvalid.wellFormed.hasCommitments
  obtain ⟨t₁, hadd, h₁⟩ := addBlockTxs_spec h hvalid hc₁
  have hblocks := (added_of_foldlM hc₁).blocks
  have hheight : b.height = c.blocks.length :=
      by rw [hvalid.height_eq, chainHeight, h.blockHeights.len, length_map]
  have hcoins : cumulativeGeneratedCoins (b.height - 1) t₁ = some c.generatedCoins := by
    unfold cumulativeGeneratedCoins Contents.generatedCoins
    rw [h₁.blockInfos, hblocks, getElem?_map, hheight, getLast?_eq_getElem?]
    cases hlast : c.blocks[c.blocks.length - 1]? with
    | some block => rfl
    | none =>
      have hlen := getElem?_eq_none_iff.mp hlast
      exact if_pos (by omega)
  have hnew : b.blockHash ∉ c₁.blocks.map (·.info.blockHash) := by
    rw [hblocks]
    exact h.blockHeights.lookup_eq_none.mp hvalid.blockHash_new
  have hlen : ∀ {α : Type} (f : StoredBlock → α), (c₁.blocks.map f).length = b.height := by
    intro α f
    rw [length_map, hblocks, hheight]
  have hinfos := h₁.blockInfos.insert (blockInfoOf b c.generatedCoins c₁.rctOutputs.length c.txs.length)
  have hheaders := h₁.blockHeaderBlobs.insert (env.serializeHeader b.block.header)
  have hhashes := h₁.blockTxsHashes.insert b.block.transactions
  have hheights := h₁.blockHeights.insert hnew
  rw [hlen] at hinfos hheaders hhashes hheights
  rw [hblocks] at hinfos hheaders hhashes hheights
  refine ⟨_, { t₁ with
    blockInfos := t₁.blockInfos.insert b.height
      (blockInfoOf b c.generatedCoins c₁.rctOutputs.length c.txs.length)
    blockHeaderBlobs := t₁.blockHeaderBlobs.insert b.height (env.serializeHeader b.block.header)
    blockTxsHashes := t₁.blockTxsHashes.insert b.height b.block.transactions
    blockHeights := t₁.blockHeights.insert b.blockHash b.height },
    map_eq_some_iff.mpr ⟨c₁, hc₁, rfl⟩, ?_, ?_⟩
  · unfold addBlock
    rw [if_pos ⟨hvalid.height_lt, hvalid.height_eq⟩]
    simp only [hadd, bind_eq_bind, bind_some, hcoins, h₁.rctOutputs.len]
  · exact
      { h₁ with
        blockInfos := by rwa [map_append]
        blockHeaderBlobs := by rwa [map_append]
        blockTxsHashes := by rwa [map_append]
        blockHeights := by rwa [map_append] }

end Cuprate.Storage
