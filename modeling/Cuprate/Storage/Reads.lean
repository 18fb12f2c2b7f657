import Cuprate.Storage.Database
import Cuprate.Storage.Outputs

/-!
# Reading the database

The read requests of the consensus code and of the blockchain manager
(`storage/blockchain/src/service/read.rs`) with the operations behind them (`ops/block.rs` and
`ops/alt_block/block.rs`). A missing key, a blob that cannot be read and the panic for an unknown
hard fork are `none`.
-/

namespace Cuprate.Storage.Database

/-- The extended header of a block of the main chain. -/
def getBlockExtendedHeaderFromHeight (env : StorageEnv) (t : Tables) (blockHeight : Nat) :
    Option ExtendedBlockHeader := do
  let blockInfo ← t.blockInfos.lookup blockHeight
  let blockHeaderBlob ← t.blockHeaderBlobs.lookup blockHeight
  let blockHeader ← env.readHeader blockHeaderBlob
  let version ← (HardFork.fromVersion blockHeader.hardforkVersion).toOption
  some
    { version := version
      vote := blockHeader.hardforkSignal
      timestamp := blockHeader.timestamp
      cumulativeDifficulty :=
        blockInfo.cumulativeDifficultyHigh * 2 ^ 64 + blockInfo.cumulativeDifficultyLow
      blockWeight := blockInfo.weight
      longTermWeight := blockInfo.longTermWeight }

/-- The extended header of an alternative block. Its version is also given as its vote. -/
def getAltBlockExtendedHeaderFromHeight (env : StorageEnv) (db : Database) (height : AltBlockHeight) :
    Option ExtendedBlockHeader := do
  let blockInfo ← db.altBlocksInfo.lookup height
  let blockBlob ← db.altBlockBlobs.lookup height
  -- a block starts with its header
  let blockHeader ← env.readHeader blockBlob
  let version ← (HardFork.fromVersion blockHeader.hardforkVersion).toOption
  some
    { version := version
      vote := blockHeader.hardforkVersion
      timestamp := blockHeader.timestamp
      cumulativeDifficulty :=
        blockInfo.cumulativeDifficultyHigh * 2 ^ 64 + blockInfo.cumulativeDifficultyLow
      blockWeight := blockInfo.weight
      longTermWeight := blockInfo.longTermWeight }

/-- The header at a height of the chain that it is stored under. -/
def storedExtendedHeader (env : StorageEnv) (db : Database) : Chain → Nat → Option ExtendedBlockHeader
  | .main, height => getBlockExtendedHeaderFromHeight env db.tables height
  | .alt chainId, height => getAltBlockExtendedHeaderFromHeight env db (chainId, height)

/-- The headers of a range that is stored under one chain. -/
def headersInRange (env : StorageEnv) (db : Database) (range : Chain × Nat × Nat) :
    Option (List ExtendedBlockHeader) :=
  (List.range' range.2.1 (range.2.2 - range.2.1)).mapM (storedExtendedHeader env db range.1)

/-- The request `BlockExtendedHeaderInRange`. -/
def blockExtendedHeaderInRange (env : StorageEnv) (db : Database) (start stop : Nat) :
    Chain → Option (List ExtendedBlockHeader)
  | .main => headersInRange env db (.main, start, stop)
  | .alt chainId => do
    let ranges ← getAltChainHistoryRanges (start, stop) chainId db.altChainInfos
    let headers ← ranges.reverse.mapM (headersInRange env db)
    some headers.flatten

/-- The request `FindBlock`: the main chain first. -/
def findBlock (db : Database) (blockHash : Hash) : Option (Chain × Nat) :=
  match db.tables.blockHeights.lookup blockHash with
  | some height => some (.main, height)
  | none => (db.altBlockHeights.lookup blockHash).map fun height => (.alt height.1, height.2)

/-- The request `BlockHash` for the main chain. -/
def mainBlockHash (db : Database) (blockHeight : Nat) : Option Hash :=
  (db.tables.blockInfos.lookup blockHeight).map (·.blockHash)

end Cuprate.Storage.Database
