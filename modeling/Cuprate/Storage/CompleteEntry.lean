import Cuprate.Storage.Outputs
import Cuprate.Wire.Types

/-!
# Whole blocks and transaction ids

`get_block_complete_entry_from_height` (`storage/blockchain/src/ops/block.rs`) puts the blob of a
block together from the blobs of the header and of the miner transaction and from the hashes of the
other transactions. The id of the transaction that an output is from is found in the same way
(`ops/output.rs`). Variable length integers are those of monero-oxide.
-/

namespace Cuprate.Storage

open Wire

section

variable (writeVarInt : Nat → List UInt8) (hashBytes : Hash → List UInt8)

/-- Reading a written block gives it back. -/
def SerializesBlocks (env : StorageEnv) : Prop :=
  ∀ block, env.oxide.serializeBlock block =
    env.serializeHeader block.header ++ env.oxide.serializeTx block.minerTransaction ++
      writeVarInt block.transactions.length ++ block.transactions.flatMap hashBytes

/-- The blob of a block, the index of its miner transaction and the number of its other
transactions. -/
def getBlockBlobWithTxIndexes (blockHeight : Nat) (t : Tables) : Option (List UInt8 × Nat × Nat) := do
  let blockInfo ← t.blockInfos.lookup blockHeight
  let blockTxs ← t.blockTxsHashes.lookup blockHeight
  let header ← t.blockHeaderBlobs.lookup blockHeight
  let minerTxBlob ← t.txBlobs.lookup blockInfo.miningTxIndex
  some (header ++ minerTxBlob ++ writeVarInt blockTxs.length ++ blockTxs.flatMap hashBytes,
    blockInfo.miningTxIndex, blockTxs.length)

/-- The block at a height with its transactions. -/
def getBlockCompleteEntryFromHeight (blockHeight : Nat) (t : Tables) : Option BlockCompleteEntry := do
  let (blockBlob, minerTxIdx, numbNonMinerTxs) ← getBlockBlobWithTxIndexes writeVarInt hashBytes
    blockHeight t
  let firstTxIdx := minerTxIdx + 1
  let txBlobs ← (List.range' firstTxIdx numbNonMinerTxs).mapM fun idx => t.txBlobs.lookup idx
  some { block := blockBlob, txs := .normal txBlobs, pruned := false, blockWeight := 0 }

end

/-- The id of the transaction with the index `txIdx`, which is in the block at `height`. -/
def outputTxid (env : StorageEnv) (height txIdx : Nat) (t : Tables) : Option Hash := do
  let blockInfo ← t.blockInfos.lookup height
  let minerTxId := blockInfo.miningTxIndex
  if minerTxId = txIdx then do
    let txBlob ← t.txBlobs.lookup minerTxId
    let tx ← env.readTx txBlob
    some (env.oxide.hashTx tx)
  else if txIdx < minerTxId then none
  else do
    let txsHashes ← t.blockTxsHashes.lookup height
    txsHashes[txIdx - minerTxId - 1]?

end Cuprate.Storage
