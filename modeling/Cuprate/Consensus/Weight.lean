import Cuprate.Helper.Num
import Cuprate.Consensus.HardForks

/-!
# The block weights cache

Block weight medians and long term weights (`consensus/context/src/weight.rs`), with the penalty
free zones of `consensus/rules/src/blocks.rs`. Weights are natural numbers. A panic is `none`.
-/

namespace Cuprate.Consensus

open Helper HardFork

def PENALTY_FREE_ZONE_1 : Nat := 20000

def PENALTY_FREE_ZONE_2 : Nat := 60000

def PENALTY_FREE_ZONE_5 : Nat := 300000

/-- The weight up to which blocks have no penalty. -/
def penaltyFreeZone (hf : HardFork) : Nat :=
  if hf = V1 then PENALTY_FREE_ZONE_1
  else if V2 ≤ hf ∧ hf < V5 then PENALTY_FREE_ZONE_2
  else PENALTY_FREE_ZONE_5

/-- Calculates the effective median with the long term and short term median. -/
def calculateEffectiveMedianBlockWeight (hf : HardFork)
    (medianShortTermWeight medianLongTermWeight : Nat) : Nat :=
  if hf < V10 then max medianShortTermWeight (penaltyFreeZone hf)
  else
    let longTermMedian := max medianLongTermWeight PENALTY_FREE_ZONE_5
    let effectiveMedian :=
      if V10 ≤ hf ∧ hf < V15 then
        min (max PENALTY_FREE_ZONE_5 medianShortTermWeight) (50 * longTermMedian)
      else min (max longTermMedian medianShortTermWeight) (50 * longTermMedian)
    max effectiveMedian (penaltyFreeZone hf)

/-- The long term weight of a block; products of weights are natural numbers and do not wrap. -/
def calculateBlockLongTermWeight (hf : HardFork) (blockWeight longTermMedian : Nat) : Nat :=
  if hf < V10 then blockWeight
  else
    let longTermMedian := max (penaltyFreeZone hf) longTermMedian
    if V10 ≤ hf ∧ hf < V15 then min (longTermMedian + longTermMedian * 2 / 5) blockWeight
    else
      min (longTermMedian + longTermMedian * 7 / 10) (max blockWeight (longTermMedian * 10 / 17))

/-- The lengths of the two windows. -/
structure BlockWeightsCacheConfig where
  shortTermWindow : Nat
  longTermWindow : Nat
deriving DecidableEq, Repr

def BlockWeightsCacheConfig.mainNet : BlockWeightsCacheConfig := ⟨100, 100000⟩

/-- The weights of the last blocks. -/
structure BlockWeightsCache where
  shortTermBlockWeights : RollingMedian Nat
  longTermWeights : RollingMedian Nat
  tipHeight : Nat
  config : BlockWeightsCacheConfig
deriving DecidableEq, Repr

namespace BlockWeightsCache

/-- The cache of a stored chain. -/
def initFromChainHeight (chainHeight : Nat) (config : BlockWeightsCacheConfig)
    (db : List ExtendedBlockHeader) : Option BlockWeightsCache := do
  let longTerm ← blockExtendedHeaderInRange db (chainHeight - config.longTermWindow) chainHeight
  let shortTerm ← blockExtendedHeaderInRange db (chainHeight - config.shortTermWindow) chainHeight
  let shortTermBlockWeights ←
    RollingMedian.fromVec (shortTerm.map (·.blockWeight)) config.shortTermWindow
  let longTermWeights ←
    RollingMedian.fromVec (longTerm.map (·.longTermWeight)) config.longTermWindow
  some ⟨shortTermBlockWeights, longTermWeights, chainHeight - 1, config⟩

/-- Pops the youngest item of both windows, once for each block. -/
def popBacks : Nat → RollingMedian Nat → RollingMedian Nat → Option (RollingMedian Nat × RollingMedian Nat)
  | 0, shortTerm, longTerm => some (shortTerm, longTerm)
  | numbBlocks + 1, shortTerm, longTerm => do
    let shortTerm ← shortTerm.popBack
    let longTerm ← longTerm.popBack
    popBacks numbBlocks shortTerm longTerm

/-- Pops blocks from the top of the cache: what is missing at the front of the windows is read from
the database. -/
def popBlocksMainChain (c : BlockWeightsCache) (numbBlocks : Nat) (db : List ExtendedBlockHeader) :
    Option BlockWeightsCache :=
  if c.longTermWeights.window.length ≤ numbBlocks then
    initFromChainHeight (c.tipHeight - numbBlocks + 1) c.config db
  else do
    let chainHeight := c.tipHeight + 1
    let oldLongTerm ← blockExtendedHeaderInRange db (chainHeight - (c.config.longTermWindow + numbBlocks))
      (chainHeight - c.longTermWeights.window.length)
    let oldShortTerm ← blockExtendedHeaderInRange db
      (chainHeight - (c.config.shortTermWindow + numbBlocks))
      -- the blocks we have, or the new chain height
      (min (chainHeight - c.shortTermBlockWeights.window.length) (chainHeight - numbBlocks))
    let (shortTerm, longTerm) ← popBacks numbBlocks c.shortTermBlockWeights c.longTermWeights
    let longTermWeights ← longTerm.appendFront (oldLongTerm.map (·.longTermWeight))
    let shortTermBlockWeights ← shortTerm.appendFront (oldShortTerm.map (·.blockWeight))
    some ⟨shortTermBlockWeights, longTermWeights, c.tipHeight - numbBlocks, c.config⟩

/-- Adds a block. -/
def newBlock (c : BlockWeightsCache) (blockHeight blockWeight longTermWeight : Nat) :
    Option BlockWeightsCache :=
  if c.tipHeight + 1 = blockHeight then do
    let longTermWeights ← c.longTermWeights.push longTermWeight
    let shortTermBlockWeights ← c.shortTermBlockWeights.push blockWeight
    some ⟨shortTermBlockWeights, longTermWeights, c.tipHeight + 1, c.config⟩
  else none

def medianLongTermWeight (c : BlockWeightsCache) : Option Nat := median c.longTermWeights.sortedWindow

def medianShortTermWeight (c : BlockWeightsCache) : Option Nat :=
  median c.shortTermBlockWeights.sortedWindow

/-- The effective median of the cached weights. -/
def effectiveMedianBlockWeight (c : BlockWeightsCache) (hf : HardFork) : Option Nat := do
  let shortTerm ← c.medianShortTermWeight
  let longTerm ← c.medianLongTermWeight
  some (calculateEffectiveMedianBlockWeight hf shortTerm longTerm)

/-- The median weight used to calculate the block reward penalty. -/
def medianForBlockReward (c : BlockWeightsCache) (hf : HardFork) : Option Nat :=
  (if hf < V12 then c.medianShortTermWeight else c.effectiveMedianBlockWeight hf).map fun m =>
    max m (penaltyFreeZone hf)

end BlockWeightsCache

end Cuprate.Consensus
