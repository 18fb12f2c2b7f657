import Cuprate.Storage.Ops

/-!
# The compact history of the main chain

The request `CompactChainHistory` (`storage/blockchain/src/service/read.rs` and `service/free.rs`):
the top blocks one by one, then blocks further and further apart, and the genesis block.
-/

namespace Cuprate.Storage

/-- The offset from the top block that a position of the compact history has. -/
def compactHistoryIndexToHeightOffset (initialBlocks i : Nat) : Nat :=
  if i ≤ initialBlocks then i
  else initialBlocks + (2 <<< (i - initialBlocks)) % 2 ^ 64 - 2

/-- Whether the growing gaps skip the genesis block. -/
def compactHistoryGenesisNotIncluded (initialBlocks topBlockHeight : Nat) : Bool :=
  let n := topBlockHeight - initialBlocks + 2
  initialBlocks < topBlockHeight && 2 ^ n.log2 ≠ n

/-- The heights from position `i` on, as far as they are not below the genesis block. -/
def compactHistoryHeights (initialBlocks topBlockHeight : Nat) : Nat → Nat → Option (List Nat)
  -- the shift overflows
  | 0, _ => none
  | rounds + 1, i =>
    let offset := compactHistoryIndexToHeightOffset initialBlocks i
    if offset ≤ topBlockHeight then
      (compactHistoryHeights initialBlocks topBlockHeight rounds (i + 1)).map
        ((topBlockHeight - offset) :: ·)
    else some []

/-- The number of ids before the gaps grow. -/
def INITIAL_BLOCKS : Nat := 11

/-- The height of the top block. -/
def topBlockHeight (t : Tables) : Option Nat :=
  if chainHeight t = 0 then none else some (chainHeight t - 1)

/-- The cumulative difficulty of the top block and the ids of the history. -/
def compactChainHistory (t : Tables) : Option (Nat × List Hash) := do
  let top ← topBlockHeight t
  let topBlockInfo ← t.blockInfos.lookup top
  let heights ← compactHistoryHeights INITIAL_BLOCKS top (INITIAL_BLOCKS + 64) 0
  let blockIds ← heights.mapM fun height => (t.blockInfos.lookup height).map (·.blockHash)
  let genesis ← (if compactHistoryGenesisNotIncluded INITIAL_BLOCKS top then
      (t.blockInfos.lookup 0).map fun info => [info.blockHash]
    else some [])
  some (topBlockInfo.cumulativeDifficultyHigh * 2 ^ 64 + topBlockInfo.cumulativeDifficultyLow,
    blockIds ++ genesis)

end Cuprate.Storage
