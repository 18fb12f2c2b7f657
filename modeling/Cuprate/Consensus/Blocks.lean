import Cuprate.Types.Block
import Cuprate.Consensus.MinerTx
import Cuprate.Consensus.RandomX

/-!
# Block rules

The rules for a block and its proof of work (`consensus/rules/src/blocks.rs` and
`consensus/rules/src/hard_forks.rs`). The proof of work functions are parameters, and so is the
clock.
-/

namespace Cuprate.Consensus

open Collections HardFork

/-- Bytes that a block may have over twice the effective median. -/
def BLOCK_SIZE_SANITY_LEEWAY : Nat := 100

/-- Seconds that a block may be in the future. -/
def BLOCK_FUTURE_TIME_LIMIT : UInt64 := 60 * 60 * 2

/-- The proof of work hash that block 202612 is taken to have. -/
def BLOCK_202612_POW_HASH : Hash :=
  0x84f64766475d51837ac9efbef1926486e58563c95a19fef4aec3254f03000000#256

/-- The proof of work functions; a failing one returns `none`. -/
structure PowFunctions where
  cryptonightHashV0 : List UInt8 → Hash
  cryptonightHashV1 : List UInt8 → Option Hash
  cryptonightHashV2 : List UInt8 → Hash
  cryptonightHashR : List UInt8 → Nat → Hash
  randomX : RandomXVm Hash → List UInt8 → Option Hash

def orPowInvalid : Option Hash → Except (Fault BlockError) Hash
  | some hash => .ok hash
  | none => .error (.error .powInvalid)

/-- The proof of work hash of a block; RandomX needs a VM. -/
def calculatePowHash (pow : PowFunctions) (randomxVm : Option (RandomXVm Hash)) (buf : List UInt8)
    (height : Nat)
    (hf : HardFork) : Except (Fault BlockError) Hash :=
  if height = 202612 then .ok BLOCK_202612_POW_HASH
  else if hf < V7 then .ok (pow.cryptonightHashV0 buf)
  else if hf = V7 then orPowInvalid (pow.cryptonightHashV1 buf)
  else if hf < V10 then .ok (pow.cryptonightHashV2 buf)
  else if hf < V12 then .ok (pow.cryptonightHashR buf height)
  else
    match randomxVm with
    | some vm => orPowInvalid (pow.randomX vm buf)
    | none => .error .panic

/-- The number a hash stands for in the proof of work: its bytes, the first one lowest. -/
def hashValue (hash : Hash) : Nat :=
  ((List.range 32).map fun i => (hash.extractLsb' (8 * (31 - i)) 8).toNat * 256 ^ i).sum

/-- A hash is valid for the difficulty if their product fits in 256 bits. -/
def checkBlockPow (hash : Hash) (difficulty : Nat) : Except BlockError Unit :=
  if 2 ^ 256 ≤ hashValue hash * difficulty then .error .powInvalid else .ok ()

/-- Checks the size of a block. -/
def blockSizeSanityCheck (blockBlobLen effectiveMedian : Nat) : Except BlockError Unit :=
  if blockBlobLen > effectiveMedian * 2 + BLOCK_SIZE_SANITY_LEEWAY then .error .tooLarge else .ok ()

/-- Checks the weight of a block. -/
def checkBlockWeight (blockWeight medianForBlockReward : Nat) : Except BlockError Unit :=
  if blockWeight > medianForBlockReward * 2 then .error .tooLarge else .ok ()

/-- Checks the number of transactions. -/
def checkAmountTxs (numberNoneMinerTxs : Nat) : Except BlockError Unit :=
  if numberNoneMinerTxs + 1 > 0x10000000 then .error .tooManyTxs else .ok ()

/-- Checks that a block follows the top block. -/
def checkPrevId (block : Block) (topHash : Hash) : Except BlockError Unit :=
  if block.header.previous = topHash then .ok () else .error .previousIDIncorrect

/-- `now` is the current time of the system. -/
def checkTimestamp (block : Block) (medianTimestamp now : UInt64) : Except BlockError Unit :=
  if block.header.timestamp < medianTimestamp ∨ now + BLOCK_FUTURE_TIME_LIMIT < block.header.timestamp
  then .error .timeStampInvalid
  else .ok ()

/-- Checks that no transaction occurs twice. -/
def checkTxsUnique (txs : List Hash) : Except BlockError Unit :=
  if txs.dedup.length = txs.length then .ok () else .error .duplicateTransaction

/-- Checks a block's version and vote, where `hf` is the current hard fork. -/
def checkBlockVersionVote (hf version vote : HardFork) : Except HardForkError Unit :=
  if hf ≠ version then .error .versionIncorrect
  else if vote < hf then .error .voteTooLow
  else .ok ()

/-- What the check of a block needs of the chain. -/
structure ContextToVerifyBlock where
  medianWeightForBlockReward : Nat
  effectiveMedianWeight : Nat
  /-- The hash of the block before the one that is verified. -/
  topHash : Hash
  /-- The median timestamp of the last 60 blocks, if there are as many. -/
  medianBlockTimestamp : Option UInt64
  chainHeight : Nat
  currentHf : HardFork
  nextDifficulty : Nat
  alreadyGeneratedCoins : UInt64
deriving DecidableEq, Repr

/-- The version and vote of a block, which must be right for the current hard fork. -/
def checkedVersionVote (block : Block) (hf : HardFork) : Except BlockError (HardFork × HardFork) := do
  let versionVote ← (fromBlockHeader block.header).mapError fun _ =>
    .hardForkError .hardForkUnknown
  (checkBlockVersionVote hf versionVote.1 versionVote.2).mapError .hardForkError
  pure versionVote

/-- Checks a timestamp against the median of the last ones and the clock. -/
def checkMedianTimestamp (block : Block) (medianTimestamp : Option UInt64) (now : UInt64) :
    Except BlockError Unit :=
  match medianTimestamp with
  | some medianTimestamp => checkTimestamp block medianTimestamp now
  | none => .ok ()

/-- The checks of a block up to its miner transaction; returns the block's vote. -/
def checkBlockHeader (block : Block) (blockWeight blockBlobLen : Nat) (ctx : ContextToVerifyBlock)
    (now : UInt64) : Except BlockError HardFork := do
  let versionVote ← checkedVersionVote block ctx.currentHf
  checkMedianTimestamp block ctx.medianBlockTimestamp now
  checkPrevId block ctx.topHash
  checkBlockWeight blockWeight ctx.medianWeightForBlockReward
  blockSizeSanityCheck blockBlobLen ctx.effectiveMedianWeight
  checkAmountTxs block.transactions.length
  checkTxsUnique block.transactions
  pure versionVote.2

/-- Checks a block, without its proof of work and its transactions. Returns the block's vote and the
coins it generates. -/
def checkBlock (block : Block) (totalFees : UInt64) (blockWeight blockBlobLen : Nat)
    (ctx : ContextToVerifyBlock)
    (now : UInt64) : Except (Fault BlockError) (HardFork × UInt64) := do
  let vote ← (checkBlockHeader block blockWeight blockBlobLen ctx now).mapError .error
  let generatedCoins ← (checkMinerTx block.minerTransaction totalFees ctx.chainHeight blockWeight
    ctx.medianWeightForBlockReward ctx.alreadyGeneratedCoins ctx.currentHf).mapError
      (Fault.map .minerTxError)
  pure (vote, generatedCoins)

end Cuprate.Consensus
