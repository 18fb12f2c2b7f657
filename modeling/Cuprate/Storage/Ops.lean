import Cuprate.Storage.Tables
import Cuprate.Consensus.Context

/-!
# Adding and popping blocks

`add_block` and `pop_block` with everything they call (`storage/blockchain/src/ops`). `put`
overwrites, `delete` does not mind a missing key, `get`, `take` and `update` fail for one. A failed
operation or a panic is `none`: the database transaction is then aborted.
-/

namespace Cuprate.Storage

open Collections

/-- Adds a pre-RCT output. Returns its index among the outputs of the amount. -/
def addOutput (amount : UInt64) (output : Output) (t : Tables) : Nat × Tables :=
  let numOutputs := (t.numOutputs.lookup amount).getD 0
  (numOutputs,
    { t with
      numOutputs := t.numOutputs.insert amount (numOutputs + 1)
      outputs := t.outputs.insert (amount, numOutputs) output })

/-- Removes an output from before RingCT. -/
def removeOutput (id : PreRctOutputId) (t : Tables) : Option Tables :=
  (t.numOutputs.lookup id.1).map fun numOutputs =>
    { t with
      numOutputs :=
        if numOutputs = 1 then t.numOutputs.erase id.1 else t.numOutputs.insert id.1 (numOutputs - 1)
      outputs := t.outputs.erase id }

/-- Adds a RingCT output under the next index. -/
def addRctOutput (output : RctOutput) (t : Tables) : Nat × Tables :=
  (t.rctOutputs.len, { t with rctOutputs := t.rctOutputs.insert t.rctOutputs.len output })

/-- Removes the RingCT output with the highest index. -/
def removeLastRctOutput (t : Tables) : Tables :=
  { t with rctOutputs := t.rctOutputs.erase (t.rctOutputs.len - 1) }

/-! ## Transactions -/

/-- The unlock time of a transaction, as it is stored: height and time are not told apart. -/
def unlockTime (tx : Transaction) : Option UInt64 :=
  match tx.txPrefix.additionalTimelock with
  | .none => none
  | .block height => some (UInt64.ofNat height)
  | .time time => some time

/-- An output of a version 1 transaction, as it is stored. -/
def preRctOutput (tx : Transaction) (txId height : Nat) (output : Cuprate.Output) : Output where
  key := output.key
  height := height
  nonZeroUnlockTime := (unlockTime tx).isSome
  txIdx := txId

/-- The commitment of an output of a version 2 transaction. A missing one is a panic. -/
def commitmentOf (env : StorageEnv) (tx : Transaction) (proofs : Option RctProofs) (i : Nat)
    (output : Cuprate.Output) : Option CompressedPoint :=
  if tx.hasGen then some (env.computeZeroCommitment (output.amount.getD 0))
  else proofs.bind fun proofs => proofs.base.commitments[i]?

/-- An output of a version 2 transaction, as it is stored. -/
def rctOutput (tx : Transaction) (txId height : Nat) (output : Cuprate.Output)
    (commitment : CompressedPoint) : RctOutput where
  key := output.key
  height := height
  nonZeroUnlockTime := (unlockTime tx).isSome
  txIdx := txId
  commitment := commitment

/-- Adds the outputs of a version 1 transaction, and returns their indices. -/
def addPreRctOutputs (tx : Transaction) (txId height : Nat) :
    List Cuprate.Output → Tables → List Nat × Tables
  | [], t => ([], t)
  | output :: outputs, t =>
    let added := addOutput (output.amount.getD 0) (preRctOutput tx txId height output) t
    let rest := addPreRctOutputs tx txId height outputs added.2
    (added.1 :: rest.1, rest.2)

/-- Adds the outputs of a version 2 transaction, from output `i` on, and returns their indices. -/
def addRctOutputs (env : StorageEnv) (tx : Transaction) (proofs : Option RctProofs) (txId height : Nat) :
    Nat → List Cuprate.Output → Tables → Option (List Nat × Tables)
  | _, [], t => some ([], t)
  | i, output :: outputs, t => do
    let commitment ← commitmentOf env tx proofs i output
    let added := addRctOutput (rctOutput tx txId height output commitment) t
    let rest ← addRctOutputs env tx proofs txId height (i + 1) outputs added.2
    some (added.1 :: rest.1, rest.2)

/-- Adds the outputs of a transaction, and returns their indices. -/
def addTxOutputs (env : StorageEnv) (tx : Transaction) (txId height : Nat) (t : Tables) :
    Option (List Nat × Tables) :=
  match tx with
  | .v1 txPrefix _ => some (addPreRctOutputs tx txId height txPrefix.outputs t)
  | .v2 txPrefix proofs => addRctOutputs env tx proofs txId height 0 txPrefix.outputs t

/-- The tables after the data of a transaction is added, but not its outputs. -/
def addTxData (tx : Transaction) (txBlob : List UInt8) (txHash : Hash) (blockHeight : Nat)
    (t : Tables) : Tables :=
  let txId := t.txIds.len
  { t with
    txIds := t.txIds.insert txHash txId
    txHeights := t.txHeights.insert txId blockHeight
    txBlobs := t.txBlobs.insert txId txBlob
    txUnlockTime :=
      match unlockTime tx with
      | some time => t.txUnlockTime.insert txId time
      | none => t.txUnlockTime
    keyImages := tx.keyImages.foldl (fun keyImages k => keyImages.insert k ()) t.keyImages }

/-- Adds a transaction. Returns its id. -/
def addTx (env : StorageEnv) (tx : Transaction) (txBlob : List UInt8) (txHash : Hash) (blockHeight : Nat)
    (t : Tables) : Option (Nat × Tables) := do
  let txId := t.txIds.len
  let t := addTxData tx txBlob txHash blockHeight t
  let added ← (if blockHeight < 2 ^ 32 then addTxOutputs env tx txId blockHeight t else none)
  some (txId, { added.2 with txOutputs := added.2.txOutputs.insert txId added.1 })

/-- Removes one output of a transaction: the one with the highest index of its kind. -/
def removeTxOutput (tx : Transaction) (t : Tables) (output : Cuprate.Output) : Option Tables :=
  match output.amount with
  | some amount =>
    -- the outputs of RingCT miner transactions have clear amounts too
    if tx.hasGen ∧ tx.version = 2 then some (removeLastRctOutput t)
    else (t.numOutputs.lookup amount).bind fun numOutputs => removeOutput (amount, numOutputs - 1) t
  | none => some (removeLastRctOutput t)

/-- The tables after the data of a transaction is removed, but not its key images and outputs. -/
def removeTxData (txHash : Hash) (txId : Nat) (t : Tables) : Tables :=
  { t with
    txIds := t.txIds.erase txHash
    txBlobs := t.txBlobs.erase txId
    txHeights := t.txHeights.erase txId
    txOutputs := t.txOutputs.erase txId
    txUnlockTime := t.txUnlockTime.erase txId }

/-- Removes a transaction with its outputs and key images. -/
def removeTx (env : StorageEnv) (txHash : Hash) (t : Tables) : Option (Transaction × Tables) := do
  let txId ← t.txIds.lookup txHash
  let txBlob ← t.txBlobs.lookup txId
  let tx ← env.readTx txBlob
  let t := removeTxData txHash txId t
  let t ← tx.txPrefix.outputs.foldlM (removeTxOutput tx)
    { t with keyImages := t.keyImages.eraseAll tx.keyImages }
  some (tx, t)

/-! ## Blocks -/

/-- The number of blocks on the main chain. -/
def chainHeight (t : Tables) : Nat := t.blockHeights.len

/-- The coins generated up to a block; there are none before the genesis block. -/
def cumulativeGeneratedCoins (blockHeight : Nat) (t : Tables) : Option UInt64 :=
  match t.blockInfos.lookup blockHeight with
  | some info => some info.cumulativeGeneratedCoins
  | none => if blockHeight = 0 then some 0 else none

/-- Adds the transactions of a block that are not its miner transaction. -/
def addTxs (env : StorageEnv) (blockHeight : Nat) :
    List VerifiedTransactionInformation → Tables → Option Tables
  | [], t => some t
  | tx :: txs, t => do
    let added ← addTx env tx.tx tx.txBlob tx.txHash blockHeight t
    addTxs env blockHeight txs added.2

/-- The block information that is stored for a block. -/
def blockInfoOf (block : VerifiedBlockInformation) (cumulativeGeneratedCoins : UInt64)
    (cumulativeRctOuts miningTxIndex : Nat) : BlockInfo where
  timestamp := block.block.header.timestamp
  cumulativeGeneratedCoins := Consensus.saturatingAdd cumulativeGeneratedCoins block.generatedCoins
  weight := block.weight
  cumulativeDifficultyLow := block.cumulativeDifficulty % 2 ^ 64
  cumulativeDifficultyHigh := block.cumulativeDifficulty / 2 ^ 64
  blockHash := block.blockHash
  cumulativeRctOuts := cumulativeRctOuts
  longTermWeight := block.longTermWeight
  miningTxIndex := miningTxIndex

/-- Adds the transactions of a block. Returns the id of its miner transaction. -/
def addBlockTxs (env : StorageEnv) (block : VerifiedBlockInformation) (t : Tables) :
    Option (Nat × Tables) := do
  let minerTx := block.block.minerTransaction
  let miner ← addTx env minerTx (env.oxide.serializeTx minerTx) (env.oxide.hashTx minerTx)
    block.height t
  let t ← addTxs env block.height block.txs miner.2
  some (miner.1, t)

/-- Adds a block. Its height must be the chain height. -/
def addBlock (env : StorageEnv) (block : VerifiedBlockInformation) (t : Tables) : Option Tables :=
  if block.height < 2 ^ 32 ∧ block.height = chainHeight t then do
    let added ← addBlockTxs env block t
    let t := added.2
    let coins ← cumulativeGeneratedCoins (block.height - 1) t
    some
      { t with
        -- the outputs of this block are already counted
        blockInfos := t.blockInfos.insert block.height
          (blockInfoOf block coins t.rctOutputs.len added.1)
        blockHeaderBlobs := t.blockHeaderBlobs.insert block.height
          (env.serializeHeader block.block.header)
        blockTxsHashes := t.blockTxsHashes.insert block.height block.block.transactions
        blockHeights := t.blockHeights.insert block.blockHash block.height }
  else none

/-- The entry with the highest key. -/
def lastEntry {V : Type} (t : Table Nat V) : Option (Nat × V) :=
  let key := t.keys.sup id
  (t.lookup key).map fun v => (key, v)

/-- Removes the transactions one after another, and returns them. -/
def removeTxs (env : StorageEnv) : List Hash → Tables → Option (List Transaction × Tables)
  | [], t => some ([], t)
  | txHash :: txHashes, t => do
    let removed ← removeTx env txHash t
    let rest ← removeTxs env txHashes removed.2
    some (removed.1 :: rest.1, rest.2)

/-- A block that was taken off, with its transactions. -/
structure PoppedBlock where
  height : Nat
  info : BlockInfo
  block : Block
  txs : List Transaction

/-- Removes the top block. It is returned with its transactions, which may go to an alternative
chain. -/
def popBlock (env : StorageEnv) (t : Tables) : Option (PoppedBlock × Tables) := do
  let last ← lastEntry t.blockInfos
  let blockHeader ← t.blockHeaderBlobs.lookup last.1
  let blockTxsHashes ← t.blockTxsHashes.lookup last.1
  let minerTransaction ← t.txBlobs.lookup last.2.miningTxIndex
  let header ← env.readHeader blockHeader
  let minerTx ← env.readTx minerTransaction
  let block ← Block.new header minerTx blockTxsHashes
  let t :=
    { t with
      blockInfos := t.blockInfos.erase last.1
      blockHeights := t.blockHeights.erase last.2.blockHash
      blockHeaderBlobs := t.blockHeaderBlobs.erase last.1
      blockTxsHashes := t.blockTxsHashes.erase last.1 }
  let miner ← removeTx env (env.oxide.hashTx block.minerTransaction) t
  let removed ← removeTxs env block.transactions miner.2
  some (⟨last.1, last.2, block, removed.1⟩, removed.2)

end Cuprate.Storage
