import Cuprate.Collections.Result
import Cuprate.Consensus.AltChains
import Cuprate.Consensus.Context

/-!
# Popping blocks from the blockchain context

The request `PopBlocks` of the context task (`consensus/context/src/task.rs`) with a database that
may fail at any read. The first error ends the request: what was updated before it stays updated. A
panic is the fault `panic`.
-/

namespace Cuprate.Consensus

open Collections

variable {ε : Type}

/-- The answers of a database, any of which may be an error. -/
structure Database (ε : Type) where
  blockExtendedHeaderInRange : Nat → Nat → Except ε (List ExtendedBlockHeader)
  blockExtendedHeader : Nat → Except ε ExtendedBlockHeader
  blockHash : Nat → Except ε Hash
  generatedCoins : Nat → Except ε UInt64

/-- The reads of the request, in the order they are made. -/
inductive ReadPoint where
  | difficulty
  | longTermWeights
  | shortTermWeights
  | seeds
  | votes
  | topHeader
  | generatedCoins
  | topHash
deriving DecidableEq, Repr

/-- The answer of a database that lacks what is not there. -/
def found {α : Type} : Option α → Except Unit α
  | some a => .ok a
  | none => .error ()

def request {α : Type} (answer : Except ε α) : Except (Fault ε) α := answer.mapError .error

namespace DifficultyCache

/-- `initFromChainHeight` with a database that may fail. -/
def tryInitFromChainHeight (chainHeight : Nat) (config : DifficultyCacheConfig) (db : Database ε) :
    Except (Fault ε) DifficultyCache :=
  (request (db.blockExtendedHeaderInRange (skipGenesis (chainHeight - config.totalBlockCount))
    chainHeight)).map fun headers =>
      { timestamps := headers.map (·.timestamp)
        cumulativeDifficulties := headers.map (·.cumulativeDifficulty)
        lastAccountedHeight := chainHeight - 1
        config := config }

/-- `popBlocksMainChain` with a database that may fail. -/
def tryPopBlocksMainChain (numbBlocks : Nat) (db : Database ε) (c : DifficultyCache) :
    Except (Fault ε) DifficultyCache :=
  if c.timestamps.length < numbBlocks then
    tryInitFromChainHeight (c.lastAccountedHeight - numbBlocks + 1) c.config db
  else
    let retainedBlocks := c.timestamps.length - numbBlocks
    let currentChainHeight := c.lastAccountedHeight + 1
    let newStartHeight := skipGenesis (currentChainHeight - c.config.totalBlockCount - numbBlocks)
    (request (db.blockExtendedHeaderInRange newStartHeight
      (currentChainHeight - c.timestamps.length))).bind
      fun headers =>
        let timestamps := headers.map (·.timestamp) ++ c.timestamps.take retainedBlocks
        let cumulativeDifficulties :=
          headers.map (·.cumulativeDifficulty) ++ c.cumulativeDifficulties.take retainedBlocks
        if timestamps.length = cumulativeDifficulties.length then
          .ok { c with
            timestamps := timestamps
            cumulativeDifficulties := cumulativeDifficulties
            lastAccountedHeight := c.lastAccountedHeight - numbBlocks }
        else .error .panic

end DifficultyCache

namespace BlockWeightsCache

open Helper

/-- `initFromChainHeight` with a database that may fail. -/
def tryInitFromChainHeight (chainHeight : Nat) (config : BlockWeightsCacheConfig)
    (db : ReadPoint → Database ε) : Except (Fault ε) BlockWeightsCache := do
  let longTerm ← request ((db .longTermWeights).blockExtendedHeaderInRange
    (chainHeight - config.longTermWindow) chainHeight)
  let shortTerm ← request ((db .shortTermWeights).blockExtendedHeaderInRange
    (chainHeight - config.shortTermWindow) chainHeight)
  let shortTermBlockWeights ←
    orPanic (RollingMedian.fromVec (shortTerm.map (·.blockWeight)) config.shortTermWindow)
  let longTermWeights ←
    orPanic (RollingMedian.fromVec (longTerm.map (·.longTermWeight)) config.longTermWindow)
  .ok ⟨shortTermBlockWeights, longTermWeights, chainHeight - 1, config⟩

/-- `popBlocksMainChain` with a database that may fail. -/
def tryPopBlocksMainChain (numbBlocks : Nat) (db : ReadPoint → Database ε) (c : BlockWeightsCache) :
    Except (Fault ε) BlockWeightsCache :=
  if c.longTermWeights.window.length ≤ numbBlocks then
    tryInitFromChainHeight (c.tipHeight - numbBlocks + 1) c.config db
  else do
    let chainHeight := c.tipHeight + 1
    let oldLongTerm ← request ((db .longTermWeights).blockExtendedHeaderInRange
      (chainHeight - (c.config.longTermWindow + numbBlocks))
        (chainHeight - c.longTermWeights.window.length))
    let oldShortTerm ← request ((db .shortTermWeights).blockExtendedHeaderInRange
      (chainHeight - (c.config.shortTermWindow + numbBlocks))
      (min (chainHeight - c.shortTermBlockWeights.window.length) (chainHeight - numbBlocks)))
    let windows ← orPanic (popBacks numbBlocks c.shortTermBlockWeights c.longTermWeights)
    let longTermWeights ← orPanic (windows.2.appendFront (oldLongTerm.map (·.longTermWeight)))
    let shortTermBlockWeights ← orPanic (windows.1.appendFront (oldShortTerm.map (·.blockWeight)))
    .ok ⟨shortTermBlockWeights, longTermWeights, c.tipHeight - numbBlocks, c.config⟩

end BlockWeightsCache

namespace RandomXVmCache

/-- Keeps the seeds and VMs below `newHeight`. -/
def retainBelow (newHeight : Nat) (c : RandomXVmCache Hash) : RandomXVmCache Hash :=
  { c with
    seeds := c.seeds.filter fun s => s.1 < newHeight
    vms := c.vms.retain fun height _ => height < newHeight }

/-- The seeds and VMs are dropped before the database is asked. -/
def tryPopBlocksMainChain (newHeight : Nat) (db : Database ε) : Effect (Fault ε) (RandomXVmCache Hash) :=
  fun c =>
    let c := c.retainBelow newHeight
    if c.seeds.length < RX_SEEDS_CACHED then
      match getLastRxSeedHeights newHeight RX_SEEDS_CACHED with
      | none => (.error .panic, c)
      | some lastHeights =>
        -- `split_at` panics past the end of the list
        if lastHeights.length < c.seeds.length then (.error .panic, c)
        else
          let seedHeights := lastHeights.drop c.seeds.length
          Effect.update (fun c => (request (seedHeights.mapM db.blockHash)).map fun seedHashes =>
            { c with seeds := c.seeds ++ seedHeights.zip seedHashes }) c
    else (.ok (), c)

end RandomXVmCache

namespace HardForkState

def votesIn (headers : List ExtendedBlockHeader) (windowSize : Nat) : HFVotes :=
  headers.foldl (fun votes h => votes.addVoteForHf (HardFork.fromVote h.vote)) (HFVotes.new windowSize)

/-- `initFromChainHeight` with a database that may fail. -/
def tryInitFromChainHeight (chainHeight : Nat) (config : HardForkConfig) (db : ReadPoint → Database ε) :
    Except (Fault ε) HardForkState := do
  let headers ← request ((db .votes).blockExtendedHeaderInRange (chainHeight - config.window) chainHeight)
  let extHeader ← request ((db .topHeader).blockExtendedHeader (chainHeight - 1))
  .ok (checkSetNewHf
    { config := config
      currentHardfork := extHeader.version
      votes := votesIn headers config.window
      lastHeight := chainHeight - 1 })

/-- `popBlocksMainChain` with a database that may fail. -/
def tryPopBlocksMainChain (numbBlocks : Nat) (db : ReadPoint → Database ε) (s : HardForkState) :
    Except (Fault ε) HardForkState :=
  if s.votes.totalVotes < s.config.window then
    tryInitFromChainHeight (s.lastHeight + 1 - numbBlocks) s.config db
  else do
    let retainedBlocks := s.votes.totalVotes - s.config.window
    let currentChainHeight := s.lastHeight + 1
    let headers ← request ((db .votes).blockExtendedHeaderInRange
      (currentChainHeight - s.config.window - numbBlocks)
        (currentChainHeight - numbBlocks - retainedBlocks))
    let votes ← orPanic (s.votes.reverseBlocks numbBlocks (votesIn headers numbBlocks))
    .ok { s with votes := votes, lastHeight := s.lastHeight - numbBlocks }

end HardForkState

/-- The context task with its contexts of alternative chains. -/
structure FullContextTask extends ContextTask where
  altChainCacheMap : AltChainMap

namespace FullContextTask

def popDifficultyCache (numbBlocks : Nat) (db : ReadPoint → Database ε) :
    Effect (Fault ε) FullContextTask :=
  .update fun s => (s.difficultyCache.tryPopBlocksMainChain numbBlocks (db .difficulty)).map fun cache =>
    { s with difficultyCache := cache }

def popWeightCache (numbBlocks : Nat) (db : ReadPoint → Database ε) : Effect (Fault ε) FullContextTask :=
  .update fun s => (s.weightCache.tryPopBlocksMainChain numbBlocks db).map fun cache =>
    { s with weightCache := cache }

def popRxVmCache (numbBlocks : Nat) (db : ReadPoint → Database ε) : Effect (Fault ε) FullContextTask :=
  fun s =>
    let popped := RandomXVmCache.tryPopBlocksMainChain (s.chainHeight - numbBlocks - 1)
      (db .seeds) s.rxVmCache
    (popped.1, { s with rxVmCache := popped.2 })

def popHardforkState (numbBlocks : Nat) (db : ReadPoint → Database ε) : Effect (Fault ε) FullContextTask :=
  .update fun s => (s.hardforkState.tryPopBlocksMainChain numbBlocks db).map fun state =>
    { s with hardforkState := state }

def popChainHeight (numbBlocks : Nat) : Effect (Fault ε) FullContextTask :=
  .update fun s => .ok { s with altChainCacheMap := ∅, chainHeight := s.chainHeight - numbBlocks }

/-- Reads the data of the new top block, and publishes the new context. -/
def readTopBlock (db : ReadPoint → Database ε) : Effect (Fault ε) FullContextTask :=
  .update fun s => do
    let alreadyGeneratedCoins ← request ((db .generatedCoins).generatedCoins (s.chainHeight - 1))
    let topBlockHash ← request ((db .topHash).blockHash (s.chainHeight - 1))
    let task ← orPanic (ContextTask.updateBlockchainContext
      { s.toContextTask with alreadyGeneratedCoins := alreadyGeneratedCoins, topBlockHash :=
        topBlockHash })
    .ok { s with toContextTask := task }

/-- The request `PopBlocks`. -/
def popBlocks (numbBlocks : Nat) (db : ReadPoint → Database ε) :
    Effect (Fault ε) FullContextTask := fun s =>
  if numbBlocks < s.chainHeight then
    Effect.seq [popDifficultyCache numbBlocks db, popWeightCache numbBlocks db, popRxVmCache numbBlocks db,
      popHardforkState numbBlocks db, popChainHeight numbBlocks, readTopBlock db] s
  else (.error .panic, s)

end FullContextTask

end Cuprate.Consensus
