import Cuprate.Storage.Ops
import Cuprate.Collections.Numbered

/-!
# What the tables hold

The abstract content of the database: the transactions and blocks of the chain in their order, and
the outputs in the order they were numbered. `Represents` says which tables hold a given content;
`Contents.addBlock` is what `add_block` does to it.
-/

namespace Cuprate.Storage

open Collections Finmap

/-- A transaction as it is stored. -/
structure StoredTx where
  tx : Transaction
  blob : List UInt8
  hash : Hash
  height : Nat

/-- A block as it is stored. -/
structure StoredBlock where
  info : BlockInfo
  headerBlob : List UInt8
  txHashes : List Hash

/-- What the tables say, as lists in the order of insertion. -/
structure Contents where
  txs : List StoredTx
  /-- The indices of the outputs of each transaction. -/
  txOutputs : List (List Nat)
  /-- The pre-RCT outputs of each amount. -/
  outputs : UInt64 → List Output
  rctOutputs : List RctOutput
  blocks : List StoredBlock

def Contents.empty : Contents := ⟨[], [], fun _ => [], [], []⟩

/-- The tables hold the content. -/
structure Represents (t : Tables) (c : Contents) : Prop where
  txIds : t.txIds.IsIndex (c.txs.map (·.hash))
  txBlobs : t.txBlobs.IsSeq (c.txs.map (·.blob))
  txHeights : t.txHeights.IsSeq (c.txs.map (·.height))
  txOutputs : t.txOutputs.IsSeq c.txOutputs
  txOutputs_length : c.txOutputs.length = c.txs.length
  txUnlockTime : ∀ i, t.txUnlockTime.lookup i = c.txs[i]?.bind fun x => unlockTime x.tx
  keyImages : t.keyImages.IsSet (c.txs.flatMap fun x => x.tx.keyImages)
  outputs : IsStacks t.numOutputs t.outputs c.outputs
  rctOutputs : t.rctOutputs.IsSeq c.rctOutputs
  blockInfos : t.blockInfos.IsSeq (c.blocks.map (·.info))
  blockHeaderBlobs : t.blockHeaderBlobs.IsSeq (c.blocks.map (·.headerBlob))
  blockTxsHashes : t.blockTxsHashes.IsSeq (c.blocks.map (·.txHashes))
  blockHeights : t.blockHeights.IsIndex (c.blocks.map (·.info.blockHash))

/-- The pre-RCT outputs of a transaction, with their amounts. -/
def preRctOutputsOf (x : StoredTx) (txId : Nat) : List (UInt64 × Output) :=
  match x.tx with
  | .v1 txPrefix _ =>
    txPrefix.outputs.map fun out => (out.amount.getD 0, preRctOutput x.tx txId x.height out)
  | .v2 .. => []

/-- The RingCT outputs, from output `i` on. -/
def rctOutputsFrom (env : StorageEnv) (tx : Transaction) (proofs : Option RctProofs) (txId height : Nat) :
    Nat → List Cuprate.Output → Option (List RctOutput)
  | _, [] => some []
  | i, out :: outs => do
    let commitment ← commitmentOf env tx proofs i out
    let rest ← rctOutputsFrom env tx proofs txId height (i + 1) outs
    some (rctOutput tx txId height out commitment :: rest)

def rctOutputsOf (env : StorageEnv) (x : StoredTx) (txId : Nat) : Option (List RctOutput) :=
  match x.tx with
  | .v1 .. => some []
  | .v2 txPrefix proofs => rctOutputsFrom env x.tx proofs txId x.height 0 txPrefix.outputs

/-- The positions that the outputs get when they are pushed one after another. -/
def stackIndices {A V : Type} [DecidableEq A] (f : A → List V) : List (A × V) → List Nat
  | [] => []
  | p :: l => (f p.1).length :: stackIndices (pushStack f p.1 p.2) l

/-- The indices of the outputs of a transaction that is added. -/
def Contents.indices (c : Contents) (x : StoredTx) : List Nat :=
  match x.tx with
  | .v1 .. => stackIndices c.outputs (preRctOutputsOf x c.txs.length)
  | .v2 txPrefix _ => List.range' c.rctOutputs.length txPrefix.outputs.length

/-- Adds a transaction. -/
def Contents.addTx (env : StorageEnv) (c : Contents) (x : StoredTx) : Option Contents :=
  (rctOutputsOf env x c.txs.length).map fun rct =>
    { txs := c.txs ++ [x]
      txOutputs := c.txOutputs ++ [c.indices x]
      outputs := pushAll c.outputs (preRctOutputsOf x c.txs.length)
      rctOutputs := c.rctOutputs ++ rct
      blocks := c.blocks }

/-- The transactions of a block, the miner transaction first. -/
def storedTxs (env : StorageEnv) (b : VerifiedBlockInformation) : List StoredTx :=
  ⟨b.block.minerTransaction, env.oxide.serializeTx b.block.minerTransaction,
    env.oxide.hashTx b.block.minerTransaction, b.height⟩ ::
    b.txs.map fun tx => ⟨tx.tx, tx.txBlob, tx.txHash, b.height⟩

/-- The coins generated so far. -/
def Contents.generatedCoins (c : Contents) : UInt64 :=
  (c.blocks.getLast?.map (·.info.cumulativeGeneratedCoins)).getD 0

/-- A block as it is stored on top of `c`, once its transactions are added. -/
def storedBlock (env : StorageEnv) (b : VerifiedBlockInformation) (c : Contents) (rctOuts : Nat) :
    StoredBlock where
  info := blockInfoOf b c.generatedCoins rctOuts c.txs.length
  headerBlob := env.serializeHeader b.block.header
  txHashes := b.block.transactions

/-- Adds a block. -/
def Contents.addBlock (env : StorageEnv) (c : Contents) (b : VerifiedBlockInformation) : Option Contents :=
  ((storedTxs env b).foldlM (Contents.addTx env) c).map fun c' =>
    { c' with blocks := c.blocks ++ [storedBlock env b c c'.rctOutputs.length] }

/-- Each output of a version 2 transaction that is not a miner transaction has a commitment. -/
def HasCommitments : Transaction → Prop
  | .v1 .. => True
  | .v2 txPrefix proofs =>
    (Transaction.v2 txPrefix proofs).hasGen ∨
      ∃ p, proofs = some p ∧ txPrefix.outputs.length ≤ p.base.commitments.length

/-- The parts of the block information fit together, and reading what was serialized returns it
unchanged. -/
structure WellFormed (env : StorageEnv) (b : VerifiedBlockInformation) : Prop where
  readHeader : env.readHeader (env.serializeHeader b.block.header) = some b.block.header
  readTx : ∀ x ∈ storedTxs env b, env.readTx x.blob = some x.tx
  minerInput : ∃ height, b.block.minerTransaction.txPrefix.inputs = [.gen height]
  transactions : b.block.transactions = b.txs.map (·.txHash)
  commitments : ∀ tx ∈ b.txs, HasCommitments tx.tx

/-- A block can be added on top of the tables: it has the chain height, and its hash, its
transactions and its key images are new. -/
structure ValidToAdd (env : StorageEnv) (t : Tables) (b : VerifiedBlockInformation) : Prop where
  wellFormed : WellFormed env b
  height_eq : b.height = chainHeight t
  height_lt : b.height < 2 ^ 32
  hashes_nodup : ((storedTxs env b).map (·.hash)).Nodup
  hashes_new : ∀ x ∈ storedTxs env b, t.txIds.lookup x.hash = none
  keyImages_nodup : ((storedTxs env b).flatMap fun x => x.tx.keyImages).Nodup
  keyImages_new : ∀ x ∈ storedTxs env b, ∀ k ∈ x.tx.keyImages, t.keyImages.lookup k = none
  blockHash_new : t.blockHeights.lookup b.blockHash = none

/-- The block can be added to the contents. -/
structure ValidOn (env : StorageEnv) (c : Contents) (b : VerifiedBlockInformation) : Prop where
  wellFormed : WellFormed env b
  height_eq : b.height = c.blocks.length
  keyImages_new : ∀ x ∈ storedTxs env b, ∀ k ∈ x.tx.keyImages, k ∉ c.txs.flatMap fun x => x.tx.keyImages

/-- The content of the database when the main chain is `chain`. -/
inductive ChainContents (env : StorageEnv) : List VerifiedBlockInformation → Contents → Prop where
  | empty : ChainContents env [] .empty
  | add {chain : List VerifiedBlockInformation} {c c' : Contents} {b : VerifiedBlockInformation}
      (hchain : ChainContents env chain c) (hvalid : ValidOn env c b)
      (hadd : c.addBlock env b = some c') : ChainContents env (chain ++ [b]) c'

/-- The tables that a run of added and popped blocks leads to, with the blocks that were added and
not popped. -/
inductive Run (env : StorageEnv) : List VerifiedBlockInformation → Tables → Prop where
  | empty : Run env [] .empty
  | add {chain : List VerifiedBlockInformation} {t t' : Tables} {b : VerifiedBlockInformation}
      (hrun : Run env chain t) (hvalid : ValidToAdd env t b) (hadd : addBlock env b t = some t') :
      Run env (chain ++ [b]) t'
  | pop {chain : List VerifiedBlockInformation} {t t' : Tables} {popped : PoppedBlock}
      (hrun : Run env chain t) (hpop : popBlock env t = some (popped, t')) : Run env chain.dropLast t'

end Cuprate.Storage
