import Cuprate.Collections.PartitionPoint
import Cuprate.Storage.CompleteEntry
import Cuprate.Storage.Reads

/-!
# What peers ask for

The requests `NextChainEntry`, `FindFirstUnknown` and `TxsInBlock`
(`storage/blockchain/src/service/read.rs`) with the search they share (`ops/blockchain.rs`). A
missing key is `none`. Sums of 64-bit numbers wrap around.
-/

namespace Cuprate.Storage.Database

open Collections

/-- The first unknown block of a chain in chronological order, the first known block of one in
reverse order. -/
def findSplitPoint (blockIds : List Hash) (chronologicalOrder includeAltBlocks : Bool)
    (db : Database) : Nat :=
  partitionPoint (fun blockId =>
    ((db.tables.blockHeights.lookup blockId).isSome ||
      includeAltBlocks && (db.altBlockHeights.lookup blockId).isSome) == chronologicalOrder) blockIds

/-- The request `FindFirstUnknown`: the index of the first unknown block, and its height. -/
def findFirstUnknown (blockIds : List Hash) (db : Database) : Option (Option (Nat × Nat)) :=
  let idx := findSplitPoint blockIds true true db
  if idx = blockIds.length then some none
  else if idx = 0 then some (some (0, 0))
  else do
    let lastKnown ← blockIds[idx - 1]?
    let lastKnownHeight ← db.tables.blockHeights.lookup lastKnown
    some (some (idx, lastKnownHeight + 1))

section

variable (writeVarInt : Nat → List UInt8) (hashBytes : Hash → List UInt8)

/-- The request `TxsInBlock`: the blob of a block and those of its transactions at the given
indexes. -/
def txsInBlock (blockHash : Hash) (missingTxs : List UInt64) (db : Database) :
    Option (Option (List UInt8 × List (List UInt8))) := do
  let blockHeight ← db.tables.blockHeights.lookup blockHash
  let (block, minerTxIndex, numbTxs) ← getBlockBlobWithTxIndexes writeVarInt hashBytes blockHeight
    db.tables
  let firstTxIndex := minerTxIndex + 1
  if numbTxs < missingTxs.length then some none
  else do
    let txs ← missingTxs.mapM fun indexOffset =>
      db.tables.txBlobs.lookup ((firstTxIndex + indexOffset.toNat) % 2 ^ 64)
    some (some (block, txs))

/-- The response to `NextChainEntry`. -/
structure NextChainEntry where
  startHeight : Option Nat
  chainHeight : Nat
  blockIds : List Hash
  blockWeights : List Nat
  cumulativeDifficulty : Nat
  firstBlockBlob : Option (List UInt8)
deriving DecidableEq, Repr

/-- The ids and weights that follow the first known id. -/
def nextChainEntry (blockIds : List Hash) (nextEntrySize : Nat) (db : Database) : Option NextChainEntry :=
  let idx := findSplitPoint blockIds false false db
  match blockIds[idx]? with
  -- This will happen if we have a different genesis block.
  | none => some ⟨none, 0, [], [], 0, none⟩
  | some firstKnownBlockHash => do
    let firstKnownHeight ← db.tables.blockHeights.lookup firstKnownBlockHash
    let height := chainHeight db.tables
    let lastHeightInChainEntry := min ((firstKnownHeight + nextEntrySize) % 2 ^ 64) height
    let infos ← (List.range' firstKnownHeight (lastHeightInChainEntry - firstKnownHeight)).mapM
      fun height => db.tables.blockInfos.lookup height
    let topBlockInfo ← db.tables.blockInfos.lookup (height - 1)
    let firstBlockBlob ← (if infos.length ≥ 2 then
        (getBlockBlobWithTxIndexes writeVarInt hashBytes (firstKnownHeight + 1) db.tables).map
          fun b => some b.1
      else some none)
    some ⟨some firstKnownHeight, height, infos.map (·.blockHash), infos.map (·.weight),
      topBlockInfo.cumulativeDifficultyHigh * 2 ^ 64 + topBlockInfo.cumulativeDifficultyLow,
        firstBlockBlob⟩

end

end Cuprate.Storage.Database
