import Cuprate.Consensus.Blocks
import Cuprate.Consensus.Difficulty
import Cuprate.Consensus.Weight

/-!
# The blockchain context

The task that keeps the context caches in step with the main chain (`consensus/context/src/task.rs`
and `lib.rs`). Its caches of alternative chains are modelled apart. A panic or a database error is
`none`.
-/

namespace Cuprate.Consensus

open HardFork

/-- The number of timestamps whose median is used. -/
def BLOCKCHAIN_TIMESTAMP_CHECK_WINDOW : Nat := 60

/-- The context that a block is verified in. -/
structure BlockchainContext where
  cumulativeDifficulty : Nat
  contextToVerifyBlock : ContextToVerifyBlock
  medianLongTermWeight : Nat
  topBlockTimestamp : Option UInt64
deriving DecidableEq, Repr

namespace BlockchainContext

/-- The time that time locks are checked with. It panics if there is a median timestamp but no top
block. -/
def currentAdjustedTimestampForTimeLock (ctx : BlockchainContext) (now : UInt64) : Option UInt64 :=
  let currentHf := ctx.contextToVerifyBlock.currentHf
  if currentHf < V13 then some now
  else
    match ctx.contextToVerifyBlock.medianBlockTimestamp with
    | none => some now
    | some median =>
      let adjustedMedian :=
        median + UInt64.ofNat ((BLOCKCHAIN_TIMESTAMP_CHECK_WINDOW + 1) * currentHf.blockTime / 2)
      ctx.topBlockTimestamp.map fun timestamp =>
        min adjustedMedian (timestamp + UInt64.ofNat currentHf.blockTime)

/-- The long term weight of a block with this weight. -/
def nextBlockLongTermWeight (ctx : BlockchainContext) (blockWeight : Nat) : Nat :=
  calculateBlockLongTermWeight ctx.contextToVerifyBlock.currentHf blockWeight ctx.medianLongTermWeight

end BlockchainContext

/-- Data needed from a new block to add it to the context caches. -/
structure NewBlockData where
  blockHash : Hash
  height : Nat
  timestamp : UInt64
  weight : Nat
  longTermWeight : Nat
  generatedCoins : UInt64
  vote : HardFork
  cumulativeDifficulty : Nat
deriving DecidableEq, Repr

/-- The context that the caches give. -/
def blockchainContext (weightCache : BlockWeightsCache) (difficultyCache : DifficultyCache)
    (currentHf : HardFork)
    (topHash : Hash) (chainHeight : Nat) (alreadyGeneratedCoins : UInt64) :
    Option BlockchainContext := do
  let medianForBlockReward ← weightCache.medianForBlockReward currentHf
  let effectiveMedianWeight ← weightCache.effectiveMedianBlockWeight currentHf
  let nextDifficulty ← difficultyCache.nextDifficulty currentHf
  let medianLongTermWeight ← weightCache.medianLongTermWeight
  some
    { cumulativeDifficulty := difficultyCache.cumulativeDifficulty
      contextToVerifyBlock :=
        { medianWeightForBlockReward := medianForBlockReward
          effectiveMedianWeight := effectiveMedianWeight
          topHash := topHash
          medianBlockTimestamp := difficultyCache.medianTimestamp BLOCKCHAIN_TIMESTAMP_CHECK_WINDOW
          chainHeight := chainHeight
          currentHf := currentHf
          nextDifficulty := nextDifficulty
          alreadyGeneratedCoins := alreadyGeneratedCoins }
      medianLongTermWeight := medianLongTermWeight
      topBlockTimestamp := difficultyCache.topBlockTimestamp }

def saturatingAdd (a b : UInt64) : UInt64 := UInt64.ofNat (min (2 ^ 64 - 1) (a.toNat + b.toNat))

/-- The configurations of the caches. -/
structure ContextConfig where
  difficultyCfg : DifficultyCacheConfig
  weightsConfig : BlockWeightsCacheConfig
  hardForkCfg : HardForkConfig

/-- What the context reads of each block: its extended header, its hash and the coins generated up
to it. -/
structure ChainRecord where
  header : ExtendedBlockHeader
  hash : Hash
  generatedCoins : UInt64
deriving DecidableEq, Repr

/-- The context task: the context caches, and the context they last gave. -/
structure ContextTask where
  contextCache : BlockchainContext
  difficultyCache : DifficultyCache
  weightCache : BlockWeightsCache
  rxVmCache : RandomXVmCache Hash
  hardforkState : HardForkState
  chainHeight : Nat
  topBlockHash : Hash
  alreadyGeneratedCoins : UInt64

namespace ContextTask

/-- The context of the current caches. -/
def currentContext (s : ContextTask) : Option BlockchainContext :=
  blockchainContext s.weightCache s.difficultyCache s.hardforkState.currentHardfork s.topBlockHash
    s.chainHeight s.alreadyGeneratedCoins

/-- The stored context is that of the caches. -/
def Synced (s : ContextTask) : Prop := s.currentContext = some s.contextCache

/-- Computes the context anew. -/
def updateBlockchainContext (s : ContextTask) : Option ContextTask :=
  s.currentContext.map fun context => { s with contextCache := context }

/-- Initialises the context task from the database. -/
def initContext (cfg : ContextConfig) (db : List ChainRecord) : Option ContextTask := do
  let top ← db.getLast?
  let headers := db.map (·.header)
  let hardforkState ← HardForkState.initFromChainHeight db.length cfg.hardForkCfg headers
  let difficultyCache ← DifficultyCache.initFromChainHeight db.length cfg.difficultyCfg headers
  let weightCache ← BlockWeightsCache.initFromChainHeight db.length cfg.weightsConfig headers
  let rxVmCache ← RandomXVmCache.initFromChainHeight db.length hardforkState.currentHardfork
    (db.map (·.hash))
  let context ← blockchainContext weightCache difficultyCache hardforkState.currentHardfork top.hash
    db.length top.generatedCoins
  some
    { contextCache := context
      difficultyCache := difficultyCache
      weightCache := weightCache
      rxVmCache := rxVmCache
      hardforkState := hardforkState
      chainHeight := db.length
      topBlockHash := top.hash
      alreadyGeneratedCoins := top.generatedCoins }

/-- The request `Update`: adds a new block to the caches. -/
def update (s : ContextTask) (new : NewBlockData) : Option ContextTask := do
  let difficultyCache ← s.difficultyCache.newBlock new.height new.timestamp new.cumulativeDifficulty
  let weightCache ← s.weightCache.newBlock new.height new.weight new.longTermWeight
  let hardforkState ← s.hardforkState.newBlock new.vote new.height
  updateBlockchainContext
    { s with
      difficultyCache := difficultyCache
      weightCache := weightCache
      hardforkState := hardforkState
      rxVmCache := s.rxVmCache.newBlock new.height new.blockHash
      chainHeight := new.height + 1
      topBlockHash := new.blockHash
      alreadyGeneratedCoins := saturatingAdd s.alreadyGeneratedCoins new.generatedCoins }

/-- The request `BatchGetDifficulties`. -/
def batchGetDifficulties (s : ContextTask) (blocks : List (UInt64 × HardFork)) : Option (List Nat) :=
  s.difficultyCache.nextDifficulties blocks s.hardforkState.currentHardfork

end ContextTask

end Cuprate.Consensus
