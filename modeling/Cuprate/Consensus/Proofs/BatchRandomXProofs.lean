import Cuprate.Consensus.Proofs.BatchDifficultyProofs
import Cuprate.Consensus.Proofs.RandomXProofs

/-!
# The RandomX VMs of a batch

The VMs for a batch are those of the chain below it and one for a seed inside it. A batch of at most
100 blocks has at most one seed height, and the seed of a block is at least 65 blocks below it.
-/

namespace Cuprate.Consensus

open Collections HardFork RandomXVmCache List Option Except

variable {s : ContextTask} {chain : List Hash} {blocks : List PreparedBlockExPow} {topHf : HardFork}

variable {block : PreparedBlockExPow} {i : Nat}

/-- The hash of the ancestor of the block at a height that is its RandomX seed. -/
def seedHash (chain : List Hash) (blocks : List PreparedBlockExPow) (height : Nat) : Option Hash :=
  (chain ++ blocks.map (·.blockHash))[randomxSeedHeight height]?

end Cuprate.Consensus
