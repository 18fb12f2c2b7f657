import Cuprate.Consensus.Difficulty
import Cuprate.Consensus.MinerTx
import Cuprate.MachineNumbers.Checked

/-!
# The rules with overflow checks

The arithmetic of the difficulty and of the miner's payout as a build with overflow checks computes
it: an operation that leaves its range panics, which is `none`, where the release build wraps
around.
-/

namespace Cuprate.Consensus

open MachineNumbers HardFork

/-- The window with checked subtractions. -/
def getWindowStartAndEndChecked (windowLen accountedWindow window : Nat) : Option (Nat × Nat) :=
  let windowLen := if windowLen > window then window else windowLen
  if windowLen ≤ accountedWindow then some (0, windowLen)
  else do
    let outliers ← checkedSub windowLen accountedWindow
    let start := (outliers + 1) / 2
    let stop ← checkedAdd 64 start accountedWindow
    some (start, stop)

/-- The work of the kept window, and the time it took. -/
def windowedWorkChecked (config : DifficultyCacheConfig) (timestamps : List UInt64)
    (cumulativeDifficulties : List Nat) : Option (Nat × Nat) := do
  let timestamps := timestamps.take config.window
  let bothCuts ← checkedMul 64 2 config.cut
  let accountedWindow ← checkedSub config.window bothCuts
  let bounds ← getWindowStartAndEndChecked timestamps.length accountedWindow config.window
  let lastIndex ← checkedSub bounds.2 1
  let last ← selectNth timestamps lastIndex
  let first ← selectNth timestamps bounds.1
  let timeSpan ← checkedSub last.toNat first.toNat
  let workEnd ← cumulativeDifficulties[lastIndex]?
  let workStart ← cumulativeDifficulties[bounds.1]?
  let work ← checkedSub workEnd workStart
  some (work, timeSpan)

def divCeilChecked (a b : Nat) : Option Nat :=
  (checkedDiv a b).map fun quotient => if a % b = 0 then quotient else quotient + 1

/-- The next difficulty with checked arithmetic; `none` is a panic or a wrap around. -/
def nextDifficultyChecked (config : DifficultyCacheConfig) (timestamps : List UInt64)
    (cumulativeDifficulties : List Nat) (hf : HardFork) : Option Nat :=
  match config.fixedDifficulty with
  | some fixedDifficulty => some fixedDifficulty
  | none =>
    if timestamps.length ≤ 1 then some 1
    else do
      let w ← windowedWorkChecked config timestamps cumulativeDifficulties
      let product ← checkedMul 128 w.1 hf.blockTime
      divCeilChecked product (if w.2 = 0 then 1 else w.2)

def totalOutputs (outputs : List Output) : Nat := (outputs.map fun out => (out.amount.getD 0).toNat).sum

/-- The base reward with checked arithmetic. -/
def calculateBaseRewardChecked (alreadyGeneratedCoins : Nat) (hf : HardFork) : Option Nat := do
  let targetMins := hf.blockTime / 60
  let fewerBlocks ← checkedSub targetMins 1
  let emissionSpeedFactor ← checkedSub 20 fewerBlocks
  let coinsLeft ← checkedSub MONEY_SUPPLY.toNat alreadyGeneratedCoins
  let minimumReward ← checkedMul 64 MINIMUM_REWARD_PER_MIN.toNat targetMins
  some (max (coinsLeft >>> emissionSpeedFactor) minimumReward)

/-- The reward of a block with checked arithmetic. -/
def calculateBlockRewardChecked (blockWeight medianBw alreadyGeneratedCoins : Nat) (hf : HardFork) :
    Option Nat := do
  let baseReward ← calculateBaseRewardChecked alreadyGeneratedCoins hf
  if blockWeight ≤ medianBw then some baseReward
  else do
    let doubleMedian ← checkedMul 64 2 medianBw
    let weightLeft ← checkedSub doubleMedian blockWeight
    let multiplicand ← checkedMul 64 weightLeft blockWeight
    let product ← checkedMul 128 baseReward multiplicand
    let quotient ← checkedDiv product medianBw
    let reward ← checkedDiv quotient medianBw
    narrow 64 reward

/-- The check of the miner's outputs with checked arithmetic. -/
def checkTotalOutputAmtChecked (totalOutput reward fees : Nat) (hf : HardFork) :
    Option (Except MinerTxError Nat) :=
  if hf = V1 ∨ V12 ≤ hf then do
    let expected ← checkedAdd 64 reward fees
    some (if totalOutput ≠ expected then .error .outputAmountIncorrect else .ok reward)
  else do
    let generated ← checkedSub totalOutput fees
    -- the second operand of `||` is computed only if the first one is false
    if generated > reward then some (.error .outputAmountIncorrect)
    else do
      let allowed ← checkedAdd 64 reward fees
      some (if totalOutput > allowed then .error .outputAmountIncorrect else .ok generated)

end Cuprate.Consensus
