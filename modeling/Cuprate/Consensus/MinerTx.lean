import Cuprate.Types.Transaction
import Cuprate.Consensus.Errors

/-!
# Miner transactions

The rules for the miner transaction of a block (`consensus/rules/src/miner_tx.rs`). Amounts are
`u64` and wrap around where the source does not check; weights are `usize`.
-/

namespace Cuprate.Consensus

open Collections HardFork

/-- The total supply in atomic units. -/
def MONEY_SUPPLY : UInt64 := 18446744073709551615

/-- The tail emission per minute. -/
def MINIMUM_REWARD_PER_MIN : UInt64 := 300000000000

/-- Blocks for which the miner's outputs are locked. -/
def MINER_TX_TIME_LOCKED_BLOCKS : Nat := 60

def MAX_BLOCK_HEIGHT : Nat := 500000000

/-- The decomposed amounts: a digit followed by zeros, as far as `u64` reaches. -/
def decomposedAmounts : List UInt64 :=
  ((List.range 19).flatMap fun zeros => (List.range 9).map fun digit =>
    UInt64.ofNat ((digit + 1) * 10 ^ zeros)) ++ [10000000000000000000]

def isDecomposedAmount (amount : UInt64) : Bool := amount ∈ decomposedAmounts

/-- The output types allowed for the hard fork; at hard fork 15 they only have to be the same. -/
def checkOutputTypes (outputs : List Output) (hf : HardFork) : Except TransactionError Unit :=
  if hf = V15 then
    if (outputs.zip outputs.tail).all fun outs => outs.1.viewTag.isSome == outs.2.viewTag.isSome then
      .ok ()
    else .error .outputTypeInvalid
  else
    outputs.forM fun out =>
      if hf ≤ V14 ∧ out.viewTag.isSome ∨ V16 ≤ hf ∧ out.viewTag.isNone then .error .outputTypeInvalid
      else .ok ()

/-- The base block reward, without the penalty for expanding the block. -/
def calculateBaseReward (alreadyGeneratedCoins : UInt64) (hf : HardFork) : UInt64 :=
  let targetMins := UInt64.ofNat (hf.blockTime / 60)
  let emissionSpeedFactor := 20 - (targetMins - 1)
  max ((MONEY_SUPPLY - alreadyGeneratedCoins) >>> emissionSpeedFactor)
    (MINIMUM_REWARD_PER_MIN * targetMins)

/-- The miner reward for a block. It panics when the quotient does not fit in `u64`, or the median
is zero. -/
def calculateBlockReward (blockWeight medianBw : Nat) (alreadyGeneratedCoins : UInt64) (hf : HardFork) :
    Option UInt64 :=
  let baseReward := calculateBaseReward alreadyGeneratedCoins hf
  if blockWeight ≤ medianBw then some baseReward
  else
    -- both factors and their product are computed on `usize`
    let multiplicand := (2 * medianBw % 2 ^ 64 + 2 ^ 64 - blockWeight) % 2 ^ 64 * blockWeight % 2 ^ 64
    let reward := baseReward.toNat * multiplicand / medianBw / medianBw
    if medianBw = 0 ∨ 2 ^ 64 ≤ reward then none else some (UInt64.ofNat reward)

/-- Checks the version of a miner transaction. -/
def checkMinerTxVersion (txVersion : TxVersion) (hf : HardFork) : Except MinerTxError Unit :=
  if V12 ≤ hf ∧ txVersion ≠ .ringCT then .error .versionInvalid else .ok ()

/-- Checks that the only input is a coinbase input with the height. -/
def checkInputs (inputs : List Input) (chainHeight : Nat) : Except MinerTxError Unit :=
  match inputs with
  | [.gen height] => if height = chainHeight then .ok () else .error .inputsHeightIncorrect
  | [.toKey ..] => .error .inputNotOfTypeGen
  | _ => .error .incorrectNumbOfInputs

/-- Checks that the outputs are locked long enough. -/
def checkTimeLock (timeLock : Timelock) (chainHeight : Nat) : Except MinerTxError Unit :=
  match timeLock with
  | .block tillHeight =>
    if tillHeight > MAX_BLOCK_HEIGHT then .error .invalidLockTime
    else if tillHeight = chainHeight + MINER_TX_TIME_LOCKED_BLOCKS then .ok ()
    else .error .invalidLockTime
  | .none | .time _ => .error .invalidLockTime

/-- One round of the loop of `sum_outputs`. -/
def addOutput (hf : HardFork) (txVersion : TxVersion) (sum : UInt64) (out : Output) :
    Except MinerTxError UInt64 :=
  let amt := out.amount.getD 0
  if txVersion = .ringSignatures ∧ amt = 0 then .error .outputAmountIncorrect
  else if hf = V3 ∧ ¬ isDecomposedAmount amt then .error .outputNotDecomposed
  else if 2 ^ 64 ≤ sum.toNat + amt.toNat then .error .outputsOverflow
  else .ok (sum + amt)

/-- The sum of the outputs, each of which is checked. -/
def sumOutputs (outputs : List Output) (hf : HardFork) (txVersion : TxVersion) :
    Except MinerTxError UInt64 :=
  outputs.foldlM (addOutput hf txVersion) 0

/-- Checks the total output amount, and returns the coins that were generated. -/
def checkTotalOutputAmt (totalOutput reward fees : UInt64) (hf : HardFork) : Except MinerTxError UInt64 :=
  if hf = V1 ∨ V12 ≤ hf then
    if totalOutput ≠ reward + fees then .error .outputAmountIncorrect else .ok reward
  else if totalOutput - fees > reward ∨ totalOutput > reward + fees then .error .outputAmountIncorrect
  else .ok (totalOutput - fees)

def minerTxVersion (tx : Transaction) : Except MinerTxError TxVersion :=
  match TxVersion.fromRaw tx.version with
  | some version => .ok version
  | none => .error .versionInvalid

/-- A miner transaction has no RingCT proofs from hard fork 12 on. -/
def checkRctType (tx : Transaction) (hf : HardFork) : Except MinerTxError Unit :=
  match tx with
  | .v1 .. => .ok ()
  | .v2 _ proofs => if V12 ≤ hf ∧ proofs.isSome then .error .rctTypeNotNull else .ok ()

/-- The checks of the miner transaction that do not depend on its amounts. -/
def checkMinerTxShape (tx : Transaction) (chainHeight : Nat) (hf : HardFork) :
    Except MinerTxError TxVersion := do
  let txVersion ← minerTxVersion tx
  checkMinerTxVersion txVersion hf
  checkRctType tx hf
  checkTimeLock tx.txPrefix.additionalTimelock chainHeight
  checkInputs tx.txPrefix.inputs chainHeight
  (checkOutputTypes tx.txPrefix.outputs hf).mapError fun _ => .invalidOutputType
  pure txVersion

/-- Checks all miner transaction rules, and returns the coins that were generated. -/
def checkMinerTx (tx : Transaction) (totalFees : UInt64) (chainHeight blockWeight medianBw : Nat)
    (alreadyGeneratedCoins : UInt64) (hf : HardFork) : Except (Fault MinerTxError) UInt64 := do
  let txVersion ← (checkMinerTxShape tx chainHeight hf).mapError .error
  let reward ← orPanic (calculateBlockReward blockWeight medianBw alreadyGeneratedCoins hf)
  let totalOuts ← (sumOutputs tx.txPrefix.outputs hf txVersion).mapError .error
  (checkTotalOutputAmt totalOuts reward totalFees hf).mapError .error

end Cuprate.Consensus
