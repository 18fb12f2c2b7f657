import Cuprate.Consensus.ContextPop
import Cuprate.Storage.Reads

/-!
# Checking alternative blocks

`sanity_check_alt_block` (`consensus/src/block/alt_block.rs`) with the requests of the context
service that it makes (`consensus/context/src/alt_chains.rs` and `task.rs`). The caches of an
alternative chain are popped from a copy of the main caches or read from the database, and then
kept. `AltNode` is the part of this that chooses the RandomX VM. An error of the context service
reaches the check as a database error.
-/

namespace Cuprate.Consensus

open Collections Storage

/-- What the node's code calls and the model does not define. The rules depend on the chain
through its key images only. -/
structure NodeEnv extends DatabaseEnv where
  pow : PowFunctions
  checks : TxChecks

def NodeEnv.blockEnv (env : NodeEnv) : BlockEnv := ⟨env.oxide, env.pow, env.checks⟩

/-- The context cache of an alternative chain. A cache is `none` if it has not been built yet. -/
structure AltChainContext extends AltChainContextCache where
  weightCache : Option BlockWeightsCache
  difficultyCache : Option DifficultyCache
deriving DecidableEq, Repr

/-- Adds a new block to the context. -/
def AltChainContext.addNewBlock (c : AltChainContext) (height : Nat) (blockHash : Hash)
    (blockWeight longTermBlockWeight : Nat) (timestamp : UInt64) (cumulativeDifficulty : Nat) :
    Option AltChainContext := do
  let difficultyCache ← c.difficultyCache.mapM fun cache =>
    cache.newBlock height timestamp cumulativeDifficulty
  let weightCache ← c.weightCache.mapM fun cache => cache.newBlock height blockWeight longTermBlockWeight
  some
    { c.toAltChainContextCache.addNewBlock blockHash with
      weightCache := weightCache
      difficultyCache := difficultyCache }

/-- The answers of the node's database, for the headers of one of its chains. -/
def answers (env : StorageEnv) (db : Storage.Database) (chain : Chain) : Database Unit where
  blockExtendedHeaderInRange start stop := found (db.blockExtendedHeaderInRange env start stop chain)
  blockExtendedHeader height :=
    found (Storage.Database.getBlockExtendedHeaderFromHeight env db.tables height)
  blockHash height := found (db.mainBlockHash height)
  generatedCoins height := found (cumulativeGeneratedCoins height db.tables)

def serviceFault : Fault Unit → Fault ExtendedConsensusError := Fault.map fun _ => .dbErr

/-- The context service: the context task and its contexts of alternative chains, by their top
hashes. -/
structure ContextService extends ContextTask where
  altChainCacheMap : Table Hash AltChainContext

namespace ContextService

/-- The part of the service that the choice of the VM needs. -/
def altNode (s : ContextService) (db : Storage.Database) : AltNode where
  db := db.chains
  rxVmCache := s.rxVmCache
  altChainMap := s.altChainCacheMap.mapValues fun _ c => c.toAltChainContextCache

/-- A context for the first block on top of a stored one. -/
def newAltChainContext (prevId : Hash) (parentChain : Chain) (topHeight : Nat) : AltChainContext where
  cachedRxVm := none
  chainHeight := topHeight + 1
  topHash := prevId
  chainId := none
  parentChain := parentChain
  weightCache := none
  difficultyCache := none

/-- The request `AltChainContextCache`: takes the context for a block on top of `prevId`, or makes a
new one. -/
def getAltChainContext (prevId : Hash) (db : Storage.Database) (s : ContextService) :
    Option (AltChainContext × ContextService) :=
  match s.altChainCacheMap.lookup prevId with
  | some cache => some (cache, { s with altChainCacheMap := s.altChainCacheMap.erase prevId })
  | none => (db.findBlock prevId).map fun found => (newAltChainContext prevId found.1 found.2, s)

/-- The request `AltChainDifficultyCache`. -/
def getAltChainDifficultyCache (env : StorageEnv) (prevId : Hash) (db : Storage.Database)
    (s : ContextService) :
    Except (Fault ExtendedConsensusError) DifficultyCache :=
  match db.findBlock prevId with
  | none => .error (.error .dbErr)
  | some (.main, topHeight) =>
    (s.difficultyCache.tryPopBlocksMainChain (s.difficultyCache.lastAccountedHeight - topHeight)
      (answers env db .main)).mapError serviceFault
  | some (.alt chainId, topHeight) =>
    (DifficultyCache.tryInitFromChainHeight (topHeight + 1) s.difficultyCache.config
      (answers env db (.alt chainId))).mapError serviceFault

/-- The request `AltChainWeightCache`. -/
def getAltChainWeightCache (env : StorageEnv) (prevId : Hash) (db : Storage.Database)
    (s : ContextService) :
    Except (Fault ExtendedConsensusError) BlockWeightsCache :=
  match db.findBlock prevId with
  | none => .error (.error .dbErr)
  | some (.main, topHeight) =>
    (s.weightCache.tryPopBlocksMainChain (s.weightCache.tipHeight - topHeight)
      fun _ => answers env db .main).mapError serviceFault
  | some (.alt chainId, topHeight) =>
    (BlockWeightsCache.tryInitFromChainHeight (topHeight + 1) s.weightCache.config
      fun _ => answers env db (.alt chainId)).mapError serviceFault

/-- The difficulty cache of an alternative chain, built if it is not there yet. -/
def altDifficultyCache (env : StorageEnv) (prevId : Hash) (context : AltChainContext)
    (db : Storage.Database)
    (s : ContextService) : Except (Fault ExtendedConsensusError) DifficultyCache :=
  match context.difficultyCache with
  | some cache => .ok cache
  | none => s.getAltChainDifficultyCache env prevId db

/-- The weight cache of an alternative chain, built if it is not there yet. -/
def altWeightCache (env : StorageEnv) (prevId : Hash) (context : AltChainContext) (db : Storage.Database)
    (s : ContextService) : Except (Fault ExtendedConsensusError) BlockWeightsCache :=
  match context.weightCache with
  | some cache => .ok cache
  | none => s.getAltChainWeightCache env prevId db

end ContextService

/-- The transactions of a block, in the order in which it names them. -/
def pullOrderedTransactions (block : Block) (txs : Table Hash TransactionVerificationData) :
    Except (Fault ExtendedConsensusError) (List TransactionVerificationData) :=
  if block.transactions.length ≠ txs.len then .error (.error .txsIncludedWithBlockIncorrect)
  else
    match txs.takeAll block.transactions with
    | some txs => .ok txs
    | none => .error (.error .txsIncludedWithBlockIncorrect)

/-- The checks against the difficulty cache. Returns the cumulative difficulty of the block. -/
def checkAltDifficulty (now : UInt64) (block : PreparedBlock) (difficultyCache : DifficultyCache) :
    Except (Fault ExtendedConsensusError) Nat := do
  (checkMedianTimestamp block.block (difficultyCache.medianTimestamp BLOCKCHAIN_TIMESTAMP_CHECK_WINDOW)
    now).mapError blockFault
  let nextDifficulty ← orPanic (difficultyCache.nextDifficulty block.hfVersion)
  (checkBlockPow block.powHash nextDifficulty).mapError blockFault
  pure ((difficultyCache.cumulativeDifficulty + nextDifficulty) % 2 ^ 128)

/-- The checks against the weight cache. Returns the long term weight of the block. -/
def checkAltWeight (hfVersion : HardFork) (blockWeight : Nat) (weightCache : BlockWeightsCache) :
    Except (Fault ExtendedConsensusError) Nat := do
  let medianForBlockReward ← orPanic (weightCache.medianForBlockReward hfVersion)
  (checkBlockWeight blockWeight medianForBlockReward).mapError blockFault
  let medianLongTermWeight ← orPanic weightCache.medianLongTermWeight
  pure (calculateBlockLongTermWeight hfVersion blockWeight medianLongTermWeight)

/-- The information on an alternative block that passed the checks. -/
def altBlockInformation (block : PreparedBlock) (txs : List TransactionVerificationData)
    (height longTermWeight cumulativeDifficulty : Nat) (chainId : ChainId) :
    Storage.Database.AltBlockInformation where
  block := block.block
  blockBlob := block.blockBlob
  txs := txs.map verifiedTransaction
  blockHash := block.blockHash
  powHash := block.powHash
  height := height
  weight := block.minerTxWeight + (txs.map (·.txWeight)).sum
  longTermWeight := longTermWeight
  cumulativeDifficulty := cumulativeDifficulty
  chainId := chainId

/-- The checks of an alternative block, once its context is taken. Returns the context for the next
block. -/
def checkAltBlock (env : NodeEnv) (now : UInt64) (newChainId : ChainId) (block : Block)
    (txs : Table Hash TransactionVerificationData) (context : AltChainContext) (db : Storage.Database)
    (s : ContextService) :
    Except (Fault ExtendedConsensusError) (Storage.Database.AltBlockInformation × AltChainContext) := do
  let prepped ← AltNode.prepAltBlock block context.toAltChainContextCache (s.altNode db)
  let preppedBlock ← (PreparedBlock.new env.blockEnv block prepped.1).mapError
    (Fault.map fun e => .conErr (.block e))
  let difficultyCache ← s.altDifficultyCache env.toStorageEnv block.header.previous context db
  let cumulativeDifficulty ← checkAltDifficulty now preppedBlock difficultyCache
  let orderedTxs ← pullOrderedTransactions block txs
  let blockWeight := preppedBlock.minerTxWeight + (orderedTxs.map (·.txWeight)).sum
  let weightCache ← s.altWeightCache env.toStorageEnv block.header.previous context db
  let longTermWeight ← checkAltWeight preppedBlock.hfVersion blockWeight weightCache
  let chainId := prepped.2.chainId.getD newChainId
  let blockInfo := altBlockInformation preppedBlock orderedTxs prepped.2.chainHeight longTermWeight
    cumulativeDifficulty chainId
  let checked : AltChainContext :=
    { prepped.2 with
      chainId := some chainId
      weightCache := some weightCache
      difficultyCache := some difficultyCache }
  let next ← orPanic (checked.addNewBlock blockInfo.height blockInfo.blockHash blockInfo.weight
    blockInfo.longTermWeight blockInfo.block.header.timestamp cumulativeDifficulty)
  pure (blockInfo, next)

/-- Checks an alternative block. Only a block that passes puts its context back. `newChainId` is the
random id of a new chain. -/
def sanityCheckAltBlock (env : NodeEnv) (now : UInt64) (newChainId : ChainId) (block : Block)
    (txs : Table Hash TransactionVerificationData) (db : Storage.Database) (s : ContextService) :
    Except (Fault ExtendedConsensusError) Storage.Database.AltBlockInformation × ContextService :=
  match s.getAltChainContext block.header.previous db with
  | none => (.error (.error .dbErr), s)
  | some (context, s) =>
    match checkAltBlock env now newChainId block txs context db s with
    | .error e => (.error e, s)
    | .ok (blockInfo, next) =>
      (.ok blockInfo, { s with altChainCacheMap := s.altChainCacheMap.insert next.topHash next })

/-- A block that is prepared from the information on an alternative block, when a re-org verifies it
again. The vote and the version are swapped. -/
def PreparedBlock.newAltBlock (oxide : MoneroOxide) (block : Storage.Database.AltBlockInformation) :
    Except BlockError PreparedBlock :=
  ((HardFork.fromVersion block.block.header.hardforkVersion).mapError fun _ =>
    .hardForkError .hardForkUnknown).map fun hfVote =>
      { block := block.block
        blockBlob := block.blockBlob
        hfVote := hfVote
        hfVersion := .fromVote block.block.header.hardforkSignal
        blockHash := block.blockHash
        powHash := block.powHash
        minerTxWeight := oxide.txWeight block.block.minerTransaction }

end Cuprate.Consensus
