import Cuprate.Collections.Result

/-!
# Pruning seeds

The blocks a pruned peer keeps (`pruning/src/lib.rs`). The chain is cut into stripes of 4096 blocks,
of which a peer keeps one in every `2 ^ log_stripes`, together with the last 5500 blocks.
-/

namespace Cuprate.Pruning

open Collections

/-- The amount of blocks that peers keep before another stripe starts storing blocks. -/
def CRYPTONOTE_PRUNING_STRIPE_SIZE : Nat := 4096

/-- The amount of blocks from the top of the chain that should not be pruned. -/
def CRYPTONOTE_PRUNING_TIP_BLOCKS : Nat := 5500

def PRUNING_SEED_LOG_STRIPES_MASK : Nat := 7

def MAX_BLOCK_HEIGHT_USIZE : Nat := 500000000

/-- Why a seed is invalid. -/
inductive PruningError where
  | logStripesOutOfRange
  | stripeOutOfRange
  | blockHeightTooLarge
  | blockChainHeightTooLarge
  | calculatedHeightSmallerThanEnteredBlock
  | seedDoesNotHaveCorrectLogStripes
deriving DecidableEq, Repr

/-- The seed of a pruned peer. The constructors of the source keep the stripe between 1 and
`2 ^ log_stripes`. -/
structure DecompressedPruningSeed where
  /-- The amount of portions the blockchain is split into. -/
  logStripes : Nat
  /-- The specific portion this peer keeps. -/
  stripe : Nat
  logStripes_le : logStripes ≤ PRUNING_SEED_LOG_STRIPES_MASK
  stripe_pos : 0 < stripe
  stripe_le : stripe ≤ 1 <<< logStripes
deriving DecidableEq

/-- The seed of a peer. -/
inductive PruningSeed where
  | notPruned
  | pruned (seed : DecompressedPruningSeed)
deriving DecidableEq

/-- The stripe that keeps a block, if the block is not one of the tip blocks. -/
def getBlockPruningStripe (blockHeight blockchainHeight logStripe : Nat) : Option Nat :=
  if blockHeight + CRYPTONOTE_PRUNING_TIP_BLOCKS ≥ blockchainHeight then none
  else some ((blockHeight / CRYPTONOTE_PRUNING_STRIPE_SIZE &&& (1 <<< logStripe - 1)) + 1)

namespace DecompressedPruningSeed

def new (stripe logStripes : Nat) : Except PruningError DecompressedPruningSeed :=
  if hlog : logStripes > PRUNING_SEED_LOG_STRIPES_MASK then .error .logStripesOutOfRange
  else if hstripe : stripe > 0 ∧ stripe ≤ 1 <<< logStripes then
    .ok ⟨logStripes, stripe, Nat.not_lt.mp hlog, hstripe.1, hstripe.2⟩
  else .error .stripeOutOfRange

/-- The order of seeds. -/
def cmp (seed other : DecompressedPruningSeed) : Ordering :=
  match compare seed.logStripes other.logStripes with
  | .eq => compare seed.stripe other.stripe
  | ord => ord

/-- Whether a peer with this seed should have a non-pruned version of a block. -/
def hasFullBlock (seed : DecompressedPruningSeed) (height blockchainHeight : Nat) : Bool :=
  match getBlockPruningStripe height blockchainHeight seed.logStripes with
  | some blockStripe => seed.stripe == blockStripe
  | none => true

/-- The first height from `blockHeight` on for which this seed stores blocks. -/
def getNextUnprunedBlock (seed : DecompressedPruningSeed) (blockHeight blockchainHeight : Nat) :
    Except (Fault PruningError) Nat :=
  if blockHeight > MAX_BLOCK_HEIGHT_USIZE ∨ blockHeight > blockchainHeight then
    .error (.error .blockHeightTooLarge)
  else if blockchainHeight > MAX_BLOCK_HEIGHT_USIZE then .error (.error .blockChainHeightTooLarge)
  else if blockHeight + CRYPTONOTE_PRUNING_TIP_BLOCKS ≥ blockchainHeight then .ok blockHeight
  else do
    let blockPruningStripe ← orPanic (getBlockPruningStripe blockHeight blockchainHeight seed.logStripes)
    if seed.stripe = blockPruningStripe then .ok blockHeight
    else
      -- How many times each seed has stored blocks.
      let cycles := (blockHeight / CRYPTONOTE_PRUNING_STRIPE_SIZE) >>> seed.logStripes
      let cyclesStart := cycles + if seed.stripe > blockPruningStripe then 0 else 1
      let calculatedHeight := cyclesStart * (CRYPTONOTE_PRUNING_STRIPE_SIZE <<< seed.logStripes)
        + (seed.stripe - 1) * CRYPTONOTE_PRUNING_STRIPE_SIZE
      if calculatedHeight + CRYPTONOTE_PRUNING_TIP_BLOCKS > blockchainHeight then
        .ok (blockchainHeight - CRYPTONOTE_PRUNING_TIP_BLOCKS)
      else if calculatedHeight < blockHeight then
        .error (.error .calculatedHeightSmallerThanEnteredBlock)
      else .ok calculatedHeight

/-- The first height from `blockHeight` on that this seed prunes. -/
def getNextPrunedBlock (seed : DecompressedPruningSeed) (blockHeight blockchainHeight : Nat) :
    Except (Fault PruningError) (Option Nat) :=
  if blockHeight + CRYPTONOTE_PRUNING_TIP_BLOCKS ≥ blockchainHeight then .ok none
  else do
    let blockPruningStripe ← orPanic (getBlockPruningStripe blockHeight blockchainHeight seed.logStripes)
    if seed.stripe ≠ blockPruningStripe then .ok (some blockHeight)
    else
      -- The blocks this seed prunes next are those the next stripe starts to keep.
      let nextStripe := 1 + (seed.stripe &&& (1 <<< seed.logStripes - 1))
      let next ← orPanic (new nextStripe seed.logStripes).toOption
      let calculatedHeight ← next.getNextUnprunedBlock blockHeight blockchainHeight
      if calculatedHeight + CRYPTONOTE_PRUNING_TIP_BLOCKS > blockchainHeight then .ok none
      else .ok (some calculatedHeight)

end DecompressedPruningSeed

namespace PruningSeed

/-- The order of seeds. -/
def cmp : PruningSeed → PruningSeed → Ordering
  | notPruned, notPruned => .eq
  | notPruned, pruned _ => .gt
  | pruned _, notPruned => .lt
  | pruned seed1, pruned seed2 => seed1.cmp seed2

/-- Whether a peer with the seed has the block in full. -/
def hasFullBlock (seed : PruningSeed) (height blockchainHeight : Nat) : Bool :=
  match seed with
  | notPruned => true
  | pruned seed => seed.hasFullBlock height blockchainHeight

/-- The next block the peer has in full. -/
def getNextUnprunedBlock (seed : PruningSeed) (blockHeight blockchainHeight : Nat) :
    Except (Fault PruningError) Nat :=
  match seed with
  | notPruned => .ok blockHeight
  | pruned seed => seed.getNextUnprunedBlock blockHeight blockchainHeight

/-- The next block the peer does not have in full. -/
def getNextPrunedBlock (seed : PruningSeed) (blockHeight blockchainHeight : Nat) :
    Except (Fault PruningError) (Option Nat) :=
  match seed with
  | notPruned => .ok none
  | pruned seed => seed.getNextPrunedBlock blockHeight blockchainHeight

end PruningSeed

end Cuprate.Pruning
