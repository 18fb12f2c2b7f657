import Cuprate.Storage.Contents

/-!
# Consistent tables

What the tables of a main chain have to do with each other and with the blocks of the chain.
-/

namespace Cuprate.Storage

/-- The transactions of a chain, in the order of their ids. -/
def chainTxs (env : StorageEnv) (chain : List VerifiedBlockInformation) : List StoredTx :=
  chain.flatMap (storedTxs env)

/-- How many RingCT outputs a transaction has: one for each output if it is of version 2. -/
def rctCount : Transaction → Nat
  | .v1 .. => 0
  | .v2 txPrefix _ => txPrefix.outputs.length

/-- The number of RingCT outputs of a chain. -/
def chainRctCount (env : StorageEnv) (chain : List VerifiedBlockInformation) : Nat :=
  ((chainTxs env chain).map fun x => rctCount x.tx).sum

/-- Output `j` of a transaction is the stored output with index `k`: among those of its amount for
version 1, among the RingCT outputs for version 2. -/
def StoredAt (env : StorageEnv) (outputs : PreRctOutputId → Option Output)
    (rctOutputs : Nat → Option RctOutput)
    (x : StoredTx) (txId j : Nat) (out : Cuprate.Output) (k : Nat) : Prop :=
  match x.tx with
  | .v1 .. => outputs (out.amount.getD 0, k) = some (preRctOutput x.tx txId x.height out)
  | .v2 _ proofs => ∃ commitment, commitmentOf env x.tx proofs j out = some commitment ∧
    rctOutputs k = some (rctOutput x.tx txId x.height out commitment)

/-- The indices are those of the outputs of the transaction, one for each. -/
def IndexesOutputs (env : StorageEnv) (outputs : PreRctOutputId → Option Output)
    (rctOutputs : Nat → Option RctOutput)
    (x : StoredTx) (txId : Nat) (indices : List Nat) : Prop :=
  indices.length = x.tx.txPrefix.outputs.length ∧
    ∀ j out k, x.tx.txPrefix.outputs[j]? = some out → indices[j]? = some k →
      StoredAt env outputs rctOutputs x txId j out k

/-- The tables are those of the main chain `chain`. -/
structure Consistent (env : StorageEnv) (chain : List VerifiedBlockInformation) (t : Tables) : Prop where
  /-- The ids are `0..n`, in the order of the chain. -/
  txIds : ∀ hash i, t.txIds.lookup hash = some i ↔ (chainTxs env chain)[i]?.map (·.hash) = some hash
  txBlobs : ∀ i, t.txBlobs.lookup i = (chainTxs env chain)[i]?.map (·.blob)
  txHeights : ∀ i, t.txHeights.lookup i = (chainTxs env chain)[i]?.map (·.height)
  txOutputs_isSome : ∀ i, (t.txOutputs.lookup i).isSome ↔ i < (chainTxs env chain).length
  txOutputs : ∀ i x indices, (chainTxs env chain)[i]? = some x → t.txOutputs.lookup i = some indices →
    IndexesOutputs env t.outputs.lookup t.rctOutputs.lookup x i indices
  /-- The indices of an amount are `0..num_outputs`. -/
  outputs : ∀ amount k, (t.outputs.lookup (amount, k)).isSome ↔ k < (t.numOutputs.lookup amount).getD 0
  rctOutputs : ∀ k, (t.rctOutputs.lookup k).isSome ↔ k < t.rctOutputs.len
  cumulativeRctOuts : ∀ height info, t.blockInfos.lookup height = some info →
    info.cumulativeRctOuts = chainRctCount env (chain.take (height + 1))
  /-- The RingCT outputs up to a block are those with the indices below its count. -/
  rctOutputs_below : ∀ height info, t.blockInfos.lookup height = some info →
    info.cumulativeRctOuts ≤ t.rctOutputs.len ∧
      ∀ k out, t.rctOutputs.lookup k = some out → (out.height ≤ height ↔ k < info.cumulativeRctOuts)
  keyImages : ∀ k, t.keyImages.lookup k = some () ↔ ∃ x ∈ chainTxs env chain, k ∈ x.tx.keyImages
  /-- The heights and the block information are inverse to each other. -/
  blockHeights : ∀ hash height, t.blockHeights.lookup hash = some height ↔
    (t.blockInfos.lookup height).map (·.blockHash) = some hash
  blockInfos : ∀ height, (t.blockInfos.lookup height).map (·.blockHash) = chain[height]?.map (·.blockHash)
  chainHeight_eq : chainHeight t = chain.length

end Cuprate.Storage
