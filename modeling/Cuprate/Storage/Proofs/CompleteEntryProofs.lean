import Cuprate.Storage.CompleteEntry
import Cuprate.Storage.Proofs.ConsistencyProofs

/-!
# Whole blocks come back as they were added

The transactions of a block have indices in a row, the miner transaction first. So the blob of a
block can be put together again, and the index of a transaction leads to its hash.
-/

namespace Cuprate.Storage

open Collections Finmap List Option

variable {env : StorageEnv} {chain : List VerifiedBlockInformation} {b : VerifiedBlockInformation}
    {t : Tables}
  {c c' : Contents} {height i j : Nat} {x : StoredTx}

theorem getElem?_chainTxs (hb : chain[height]? = some b) (hx : (storedTxs env b)[j]? = some x) :
    (chainTxs env chain)[(chainTxs env (chain.take height)).length + j]? = some x := by
  obtain ⟨hheight, rfl⟩ := List.getElem?_eq_some_iff.mp hb
  obtain ⟨hj, -⟩ := List.getElem?_eq_some_iff.mp hx
  have hsplit : chainTxs env chain = chainTxs env (chain.take height) ++
      (storedTxs env chain[height] ++ chainTxs env (chain.drop (height + 1))) := by
    unfold chainTxs
    rw [← flatMap_cons, ← flatMap_append, ← drop_eq_getElem_cons, take_append_drop]
  rw [hsplit, getElem?_append_right (Nat.le_add_right _ _), Nat.add_sub_cancel_left,
    List.getElem?_append_left hj, hx]

theorem getElem?_storedTxs_succ {tx : VerifiedTransactionInformation} (htx : b.txs[j]? = some tx) :
    (storedTxs env b)[j + 1]? = some ⟨tx.tx, tx.txBlob, tx.txHash, b.height⟩ := by
  show (b.txs.map _)[j]? = _
  rw [getElem?_map, htx]
  rfl

theorem exists_of_getElem?_chainTxs (hx : (chainTxs env chain)[i]? = some x) :
    ∃ height b j, chain[height]? = some b ∧ (storedTxs env b)[j]? = some x ∧
      i = (chainTxs env (chain.take height)).length + j := by
  induction chain generalizing i with
  | nil => exact absurd hx (by simp [chainTxs])
  | cons b chain ih =>
    rw [show chainTxs env (b :: chain) = storedTxs env b ++ chainTxs env chain from rfl] at hx
    by_cases hlt : i < (storedTxs env b).length
    · rw [List.getElem?_append_left hlt] at hx
      exact ⟨0, b, i, rfl, hx, by simp [chainTxs]⟩
    · rw [getElem?_append_right (not_lt.mp hlt)] at hx
      obtain ⟨height, b', j, hb', hj, hi⟩ := ih hx
      refine ⟨height + 1, b', j, hb', hj, ?_⟩
      rw [take_succ_cons, show chainTxs env (b :: chain.take height) =
        storedTxs env b ++ chainTxs env (chain.take height) from rfl, length_append]
      omega

theorem ChainContents.block_at (h : ChainContents env chain c) (hb : chain[height]? = some b) :
    WellFormed env b ∧ b.height = height ∧ ∃ coins rctOuts, c.blocks[height]? =
      some ⟨blockInfoOf b coins rctOuts (chainTxs env (chain.take height)).length,
        env.serializeHeader b.block.header, b.block.transactions⟩ := by
  induction h generalizing height b with
  | empty => cases hb
  | @add chain c c' top hchain hvalid hadd ih =>
    have hcontents := hchain.contentsOf
    have hlength := hcontents.blocks_length
    obtain ⟨c₁, hc₁, rfl⟩ := map_eq_some_iff.mp hadd
    by_cases heq : height = chain.length
    · subst heq
      rw [getElem?_concat_length] at hb
      cases hb
      refine ⟨hvalid.wellFormed, hvalid.height_eq.trans hlength, c.generatedCoins,
        c₁.rctOutputs.length, ?_⟩
      rw [take_left, ← hcontents.txs, ← hlength, getElem?_concat_length]
      rfl
    · rw [getElem?_concat_of_ne heq] at hb
      obtain ⟨hlt, -⟩ := List.getElem?_eq_some_iff.mp hb
      rw [List.take_append_of_le_length hlt.le]
      rw [getElem?_concat_of_ne (by rwa [hlength])]
      exact ih hb

/-- Each output is one of the transaction that its index names. -/
structure HasCreators (c : Contents) : Prop where
  outputs : ∀ amount, ∀ o ∈ c.outputs amount, ∃ x, c.txs[o.txIdx]? = some x ∧
    ∃ out ∈ x.tx.txPrefix.outputs,
    out.amount.getD 0 = amount ∧ o = preRctOutput x.tx o.txIdx x.height out
  rctOutputs : ∀ o ∈ c.rctOutputs, ∃ x, c.txs[o.txIdx]? = some x ∧ ∃ out ∈ x.tx.txPrefix.outputs,
    ∃ commitment, o = rctOutput x.tx o.txIdx x.height out commitment

theorem of_mem_preRctOutputsOf {txId : Nat} {p : UInt64 × Output} (hp : p ∈ preRctOutputsOf x txId) :
    ∃ out ∈ x.tx.txPrefix.outputs, p = (out.amount.getD 0, preRctOutput x.tx txId x.height out) := by
  unfold preRctOutputsOf at hp
  split at hp
  · next txPrefix signatures htx =>
    obtain ⟨out, hout, rfl⟩ := mem_map.mp hp
    rw [htx]
    exact ⟨out, hout, rfl⟩
  · cases hp

theorem HasCreators.addTx (h : HasCreators c) (hadd : c.addTx env x = some c') : HasCreators c' := by
  obtain ⟨rct, hrct, rfl⟩ := map_eq_some_iff.mp hadd
  have hold {k : Nat} {y : StoredTx} (hy : c.txs[k]? = some y) : (c.txs ++ [x])[k]? = some y := by
    rw [List.getElem?_append_left (List.getElem?_eq_some_iff.mp hy).1, hy]
  refine ⟨fun amount o ho => ?_, fun o ho => ?_⟩
  · dsimp only at ho
    rw [pushAll_apply, mem_append] at ho
    rcases ho with ho | ho
    · obtain ⟨y, hy, hout⟩ := h.outputs amount o ho
      exact ⟨y, hold hy, hout⟩
    · obtain ⟨p, hp, rfl⟩ := mem_map.mp ho
      obtain ⟨hp, hamount⟩ := mem_filter.mp hp
      obtain ⟨out, hout, rfl⟩ := of_mem_preRctOutputsOf hp
      exact ⟨x, getElem?_concat_length .., out, hout, by simpa using hamount, rfl⟩
  · rcases mem_append.mp ho with ho | ho
    · obtain ⟨y, hy, hout⟩ := h.rctOutputs o ho
      exact ⟨y, hold hy, hout⟩
    · obtain ⟨out, hout, commitment, rfl⟩ := of_mem_rctOutputsOf hrct o ho
      exact ⟨x, getElem?_concat_length .., out, hout, commitment, rfl⟩

theorem ChainContents.hasCreators (h : ChainContents env chain c) : HasCreators c := by
  induction h with
  | empty => exact ⟨fun _ => forall_mem_nil _, forall_mem_nil _⟩
  | add hchain hvalid hadd ih =>
    obtain ⟨c₁, hc₁, rfl⟩ := map_eq_some_iff.mp hadd
    have hcreators := foldlM_addTx_keeps (fun _ _ _ => HasCreators.addTx) ih hc₁
    exact ⟨hcreators.outputs, hcreators.rctOutputs⟩

/-! ## Reading -/

theorem mapM_range' {α : Type} {f : Nat → Option α} {start : Nat} {l : List α}
    (h : ∀ k a, l[k]? = some a → f (start + k) = some a) :
      (List.range' start l.length).mapM f = some l := by
  induction l generalizing start with
  | nil => rfl
  | cons a l ih =>
    rw [length_cons, range'_succ, mapM_cons, show f start = some a from h 0 a rfl, ih fun k a' hk => ?_]
    · rfl
    · rw [add_right_comm]
      exact h (k + 1) a' hk

section

variable (hchain : ChainContents env chain c) (hrep : Represents t c) (hb : chain[height]? = some b)

include hchain hrep

theorem lookup_txBlobs (hx : (chainTxs env chain)[i]? = some x) : t.txBlobs.lookup i = some x.blob := by
  rw [hrep.txBlobs, getElem?_map, hchain.contentsOf.txs, hx]
  rfl

include hb

theorem lookup_block : ∃ coins rctOuts, t.blockInfos.lookup height =
      some (blockInfoOf b coins rctOuts (chainTxs env (chain.take height)).length) ∧
    t.blockHeaderBlobs.lookup height = some (env.serializeHeader b.block.header) ∧
    t.blockTxsHashes.lookup height = some b.block.transactions := by
  obtain ⟨-, -, coins, rctOuts, hblock⟩ := hchain.block_at hb
  refine ⟨coins, rctOuts, ?_, ?_, ?_⟩
  · rw [hrep.blockInfos, getElem?_map, hblock]
    rfl
  · rw [hrep.blockHeaderBlobs, getElem?_map, hblock]
    rfl
  · rw [hrep.blockTxsHashes, getElem?_map, hblock]
    rfl

theorem getBlockBlobWithTxIndexes_eq (writeVarInt : Nat → List UInt8) (hashBytes : Hash → List UInt8) :
    ∃ blob, getBlockBlobWithTxIndexes writeVarInt hashBytes height t =
        some (blob, (chainTxs env (chain.take height)).length, b.txs.length) ∧
      (SerializesBlocks writeVarInt hashBytes env → blob = env.oxide.serializeBlock b.block) := by
  obtain ⟨coins, rctOuts, hinfo, hheader, htxs⟩ := lookup_block hchain hrep hb
  have hminer := lookup_txBlobs hchain hrep (getElem?_chainTxs (j := 0) hb rfl)
  have hlen : b.block.transactions.length = b.txs.length :=
      by rw [(hchain.block_at hb).1.transactions, length_map]
  unfold getBlockBlobWithTxIndexes
  rw [hinfo, htxs, hheader]
  simp only [bind_eq_bind, bind_some, blockInfoOf]
  rw [add_zero] at hminer
  rw [hminer]
  simp only [bind_some, hlen]
  exact ⟨_, rfl, fun hserialize => by rw [hserialize, hlen]⟩

theorem lookup_txBlobs_of_txs {k : Nat} {tx : VerifiedTransactionInformation} (htx : b.txs[k]? = some tx) :
    t.txBlobs.lookup ((chainTxs env (chain.take height)).length + 1 + k) = some tx.txBlob := by
  rw [add_assoc, add_comm 1 k]
  exact lookup_txBlobs hchain hrep (getElem?_chainTxs hb (getElem?_storedTxs_succ htx))

theorem getBlockCompleteEntryFromHeight_eq {writeVarInt : Nat → List UInt8} {hashBytes : Hash → List UInt8}
    (hserialize : SerializesBlocks writeVarInt hashBytes env) :
    getBlockCompleteEntryFromHeight writeVarInt hashBytes height t =
      some ⟨false, env.oxide.serializeBlock b.block, 0, .normal (b.txs.map (·.txBlob))⟩ := by
  obtain ⟨blob, hblob, hserialized⟩ := getBlockBlobWithTxIndexes_eq hchain hrep hb writeVarInt hashBytes
  have hblobs : (range' ((chainTxs env (chain.take height)).length + 1) b.txs.length).mapM
      (fun idx => t.txBlobs.lookup idx) = some (b.txs.map (·.txBlob)) := by
    rw [show b.txs.length = (b.txs.map (·.txBlob)).length from (length_map _).symm]
    refine mapM_range' fun k blob hk => ?_
    rw [getElem?_map] at hk
    obtain ⟨tx, htx, rfl⟩ := map_eq_some_iff.mp hk
    exact lookup_txBlobs_of_txs hchain hrep hb htx
  unfold getBlockCompleteEntryFromHeight
  rw [hblob, hserialized hserialize]
  simp only [bind_eq_bind, bind_some, hblobs]

omit hb in
theorem outputTxid_eq (hx : (chainTxs env chain)[i]? = some x) :
    outputTxid env x.height i t = some x.hash := by
  obtain ⟨height, b, j, hb, hj, rfl⟩ := exists_of_getElem?_chainTxs hx
  obtain ⟨hwf, hheight, -⟩ := hchain.block_at hb
  obtain ⟨coins, rctOuts, hinfo, -, htxs⟩ := lookup_block hchain hrep hb
  unfold outputTxid
  rw [height_of_mem_storedTxs (mem_of_getElem? hj), hheight, hinfo, htxs]
  simp only [bind_eq_bind, bind_some, blockInfoOf]
  cases j with
  | zero =>
    obtain rfl := some.inj hj
    rw [if_pos (add_zero _).symm, ← add_zero (chainTxs env (chain.take height)).length,
      lookup_txBlobs hchain hrep hx, bind_some, hwf.readTx _ (mem_of_getElem? hj)]
    rfl
  | succ j =>
    rw [if_neg (by omega), if_neg (by omega), hwf.transactions, getElem?_map]
    obtain ⟨tx, htx, rfl⟩ := map_eq_some_iff.mp ((getElem?_map ..).symm.trans hj)
    rw [show (chainTxs env (chain.take height)).length +
      (j + 1) - (chainTxs env (chain.take height)).length - 1 = j
      by omega, htx]
    rfl

end

/-- Whatever blocks were added, each stored block comes back with the blobs it was added with, and
the index of each stored output leads to the id of the transaction that it is an output of. -/
theorem run_completeEntry_txid {writeVarInt : Nat → List UInt8} {hashBytes : Hash → List UInt8}
    (hserialize : SerializesBlocks writeVarInt hashBytes env) (hrun : Run env chain t)
    (hblobs : ∀ b ∈ chain, b.blockBlob = env.oxide.serializeBlock b.block) :
    (∀ height < chainHeight t, ∃ b, chain[height]? = some b ∧
      getBlockCompleteEntryFromHeight writeVarInt hashBytes height t =
        some ⟨false, b.blockBlob, 0, .normal (b.txs.map (·.txBlob))⟩) ∧
    (∀ amount index output, t.outputs.lookup (amount, index) = some output →
      ∃ x out, (chainTxs env chain)[output.txIdx]? = some x ∧ out ∈ x.tx.txPrefix.outputs ∧
        out.amount.getD 0 = amount ∧ output = preRctOutput x.tx output.txIdx x.height out ∧
        outputTxid env output.height output.txIdx t = some x.hash) ∧
    (∀ index output, t.rctOutputs.lookup index = some output →
      ∃ x out commitment, (chainTxs env chain)[output.txIdx]? = some x ∧ out ∈ x.tx.txPrefix.outputs ∧
        output = rctOutput x.tx output.txIdx x.height out commitment ∧
        outputTxid env output.height output.txIdx t = some x.hash) := by
  obtain ⟨c, hchain, hrep⟩ := hrun.contents
  have hcreators := hchain.hasCreators
  have htxs := hchain.contentsOf.txs
  refine ⟨fun height hheight => ?_, fun amount index output houtput => ?_, fun index output houtput => ?_⟩
  · rw [chainHeight, hrep.blockHeights.len, length_map, hchain.contentsOf.blocks_length] at hheight
    refine ⟨chain[height], getElem?_eq_getElem hheight, ?_⟩
    rw [hblobs _ (getElem_mem hheight)]
    exact getBlockCompleteEntryFromHeight_eq hchain hrep (getElem?_eq_getElem hheight) hserialize
  · rw [hrep.outputs.items] at houtput
    obtain ⟨x, hx, out, hout, hamount, heq⟩ := hcreators.outputs amount output (mem_of_getElem? houtput)
    rw [htxs] at hx
    refine ⟨x, out, hx, hout, hamount, heq, ?_⟩
    rw [show output.height = x.height by rw [heq]; rfl]
    exact outputTxid_eq hchain hrep hx
  · rw [hrep.rctOutputs] at houtput
    obtain ⟨x, hx, out, hout, commitment, heq⟩ := hcreators.rctOutputs output (mem_of_getElem? houtput)
    rw [htxs] at hx
    refine ⟨x, out, commitment, hx, hout, heq, ?_⟩
    rw [show output.height = x.height by rw [heq]; rfl]
    exact outputTxid_eq hchain hrep hx

/-- The block with transactions of both versions, and a serialization of blocks in the order of
their parts. -/
def laidOutEnv : StorageEnv :=
  { mixedEnv with oxide := { mixedEnv.oxide with
      serializeBlock := fun block => 0 :: UInt8.ofNat block.transactions.length ::
        block.transactions.flatMap fun hash => [UInt8.ofNat hash.toNat] } }

def laidOutBlock : VerifiedBlockInformation := { mixedBlock with blockBlob := [0, 2, 41, 42] }

theorem laidOutBlock_validToAdd : ValidToAdd laidOutEnv .empty laidOutBlock :=
  have h := mixedBlock_validToAdd
  have hwf := h.wellFormed
  ⟨⟨hwf.readHeader, hwf.readTx, hwf.minerInput, hwf.transactions, hwf.commitments⟩, h.height_eq,
    h.height_lt, h.hashes_nodup, h.hashes_new, h.keyImages_nodup, h.keyImages_new, h.blockHash_new⟩

theorem laidOutBlock_run : ∃ t, Run laidOutEnv [laidOutBlock] t := by
  obtain ⟨c, t, -, hadd, -⟩ := addBlock_spec represents_empty laidOutBlock_validToAdd
  exact ⟨t, .add .empty laidOutBlock_validToAdd hadd⟩

theorem run_completeEntry_txid_laidOutBlock :
    ∃ t, Run laidOutEnv [laidOutBlock] t ∧
      ∀ height < chainHeight t, ∃ b, [laidOutBlock][height]? = some b ∧
      getBlockCompleteEntryFromHeight (fun n => [UInt8.ofNat n])
        (fun hash => [UInt8.ofNat hash.toNat]) height t =
        some ⟨false, b.blockBlob, 0, .normal (b.txs.map (·.txBlob))⟩ := by
  obtain ⟨t, hrun⟩ := laidOutBlock_run
  refine ⟨t, hrun, (run_completeEntry_txid (fun block => rfl) hrun fun b hb => ?_).1⟩
  obtain rfl := mem_singleton.mp hb
  rfl

end Cuprate.Storage
