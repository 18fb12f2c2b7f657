import Cuprate.Helper.Num
import Cuprate.Consensus.HardForks

/-!
# The difficulty cache

The timestamps and cumulative difficulties of the last blocks, and the difficulty they give to the
next block (`consensus/context/src/difficulty.rs`). Difficulties are `u128`: sums and products wrap
around. A panic is `none`.
-/

namespace Cuprate.Consensus

/-- The window of the difficulty. -/
structure DifficultyCacheConfig where
  window : Nat
  /-- How many blocks are removed from each end of the window. -/
  cut : Nat
  /-- How many blocks the difficulty lags behind. -/
  lag : Nat
  fixedDifficulty : Option Nat
deriving DecidableEq, Repr

namespace DifficultyCacheConfig

/-- The amount of blocks that are tracked, on `usize`. -/
def totalBlockCount (config : DifficultyCacheConfig) : Nat := (config.window + config.lag) % 2 ^ 64

/-- The amount of blocks left after the outliers are removed, on `usize`. -/
def accountedWindowLen (config : DifficultyCacheConfig) : Nat :=
  (config.window + 2 ^ 64 - 2 * config.cut % 2 ^ 64) % 2 ^ 64

def mainNet : DifficultyCacheConfig := ⟨720, 60, 15, none⟩

end DifficultyCacheConfig

/-- The part of the sorted window that counts. -/
def getWindowStartAndEnd (windowLen accountedWindow window : Nat) : Nat × Nat :=
  let windowLen := if windowLen > window then window else windowLen
  if windowLen ≤ accountedWindow then (0, windowLen)
  else
    let start := (windowLen - accountedWindow + 1) / 2
    (start, start + accountedWindow)

/-- `select_nth_unstable`: the element that stands at the index once the slice is sorted. -/
def selectNth (timestamps : List UInt64) (n : Nat) : Option UInt64 :=
  (timestamps.insertionSort (· ≤ ·))[n]?

/-- The work of the kept window, and the time it took. -/
def windowedWork (config : DifficultyCacheConfig) (timestamps : List UInt64)
    (cumulativeDifficulties : List Nat) : Option (Nat × Nat) := do
  -- without the lag
  let timestamps := timestamps.take config.window
  let bounds := getWindowStartAndEnd timestamps.length config.accountedWindowLen config.window
  let last ← selectNth timestamps (bounds.2 - 1)
  let first ← selectNth timestamps bounds.1
  let workEnd ← cumulativeDifficulties[bounds.2 - 1]?
  let workStart ← cumulativeDifficulties[bounds.1]?
  some ((workEnd + 2 ^ 128 - workStart) % 2 ^ 128, (last - first).toNat)

def divCeil (a b : Nat) : Nat := if a % b = 0 then a / b else a / b + 1

/-- The difficulty at which the work takes `blockTime` seconds a block. -/
def targetDifficulty (blockTime windowedWork timeSpan : Nat) : Nat :=
  divCeil (windowedWork * blockTime % 2 ^ 128) (if timeSpan = 0 then 1 else timeSpan)

/-- The difficulty of the next block. -/
def nextDifficulty (config : DifficultyCacheConfig) (timestamps : List UInt64)
    (cumulativeDifficulties : List Nat)
    (hf : HardFork) : Option Nat :=
  match config.fixedDifficulty with
  | some fixedDifficulty => some fixedDifficulty
  | none =>
    if timestamps.length ≤ 1 then some 1
    else
      (windowedWork config timestamps cumulativeDifficulties).map fun w =>
        targetDifficulty hf.blockTime w.1 w.2

/-- The data difficulties are calculated from. -/
@[ext]
structure DifficultyCache where
  timestamps : List UInt64
  cumulativeDifficulties : List Nat
  lastAccountedHeight : Nat
  config : DifficultyCacheConfig
deriving DecidableEq, Repr

namespace DifficultyCache

/-- The timestamps and cumulative difficulties of the headers of a height range. -/
def getBlocksInPowInfo (db : List ExtendedBlockHeader) (start stop : Nat) :
    Option (List UInt64 × List Nat) :=
  (blockExtendedHeaderInRange db start stop).map fun headers =>
    (headers.map (·.timestamp), headers.map (·.cumulativeDifficulty))

/-- The cache of a stored chain. -/
def initFromChainHeight (chainHeight : Nat) (config : DifficultyCacheConfig)
    (db : List ExtendedBlockHeader) : Option DifficultyCache :=
  let blockStart := chainHeight - config.totalBlockCount
  -- the genesis block is skipped
  let blockStart := if blockStart = 0 then 1 else blockStart
  (getBlocksInPowInfo db blockStart chainHeight).map fun info =>
    { timestamps := info.1
      cumulativeDifficulties := info.2
      lastAccountedHeight := chainHeight - 1
      config := config }

def skipGenesis (start : Nat) : Nat := if start = 0 then 1 else start

/-- Pops blocks from the top of the cache: what is missing at its front is read from the
database. -/
def popBlocksMainChain (c : DifficultyCache) (numbBlocks : Nat) (db : List ExtendedBlockHeader) :
    Option DifficultyCache :=
  if c.timestamps.length < numbBlocks then
    initFromChainHeight (c.lastAccountedHeight - numbBlocks + 1) c.config db
  else
    let retainedBlocks := c.timestamps.length - numbBlocks
    let currentChainHeight := c.lastAccountedHeight + 1
    let newStartHeight := skipGenesis (currentChainHeight - c.config.totalBlockCount - numbBlocks)
    (getBlocksInPowInfo db newStartHeight (currentChainHeight - c.timestamps.length)).bind fun info =>
      let timestamps := info.1 ++ c.timestamps.take retainedBlocks
      let cumulativeDifficulties := info.2 ++ c.cumulativeDifficulties.take retainedBlocks
      if timestamps.length = cumulativeDifficulties.length then
        some { c with
          timestamps := timestamps
          cumulativeDifficulties := cumulativeDifficulties
          lastAccountedHeight := c.lastAccountedHeight - numbBlocks }
      else none

/-- Adds a timestamp and a cumulative difficulty, and drops the oldest ones of a full window. -/
def push (c : DifficultyCache) (timestamp : UInt64) (cumulativeDifficulty : Nat) : DifficultyCache :=
  let timestamps := c.timestamps ++ [timestamp]
  let cumulativeDifficulties := c.cumulativeDifficulties ++ [cumulativeDifficulty]
  if timestamps.length > c.config.totalBlockCount then
    { c with timestamps := timestamps.tail, cumulativeDifficulties := cumulativeDifficulties.tail }
  else { c with timestamps := timestamps, cumulativeDifficulties := cumulativeDifficulties }

/-- Adds a block, and drops the oldest if the window is full. -/
def newBlock (c : DifficultyCache) (height : Nat) (timestamp : UInt64) (cumulativeDifficulty : Nat) :
    Option DifficultyCache :=
  if c.lastAccountedHeight + 1 = height then
    some { c.push timestamp cumulativeDifficulty with lastAccountedHeight := height }
  else none

/-- The difficulty of the next block. -/
def nextDifficulty (c : DifficultyCache) (hf : HardFork) : Option Nat :=
  Consensus.nextDifficulty c.config c.timestamps c.cumulativeDifficulties hf

/-- The cumulative difficulty of the chain; the genesis block has a difficulty of 1. -/
def cumulativeDifficulty (c : DifficultyCache) : Nat := c.cumulativeDifficulties.getLast?.getD 1

/-- The loop of `next_difficulties`, on copies of the cache's two lists; `difficulty` is the last
one that was calculated. -/
def nextDifficultiesLoop (c : DifficultyCache) (difficulty : Nat) :
    List (UInt64 × HardFork) → Option (List Nat)
  | [] => some []
  | (newTimestamp, hf) :: blocks => do
    let c := c.push newTimestamp ((c.cumulativeDifficulty + difficulty) % 2 ^ 128)
    let next ← c.nextDifficulty hf
    let rest ← nextDifficultiesLoop c next blocks
    some (next :: rest)

/-- The difficulties for the next blocks: for the cache as it is, and after each of the given
timestamps, at the hard fork given with it. -/
def nextDifficulties (c : DifficultyCache) (blocks : List (UInt64 × HardFork)) (currentHf : HardFork) :
    Option (List Nat) := do
  let first ← c.nextDifficulty currentHf
  let rest ← c.nextDifficultiesLoop first blocks
  some (first :: rest)

/-- The median timestamp of the last `numbBlocks` blocks, `none` if there are not enough.
`numbBlocks` is positive, so the inner `none` of the source never occurs. -/
def medianTimestamp (c : DifficultyCache) (numbBlocks : Nat) : Option UInt64 :=
  if c.lastAccountedHeight + 1 = numbBlocks then
    -- the genesis block is not in the cache, and its timestamp is 0
    Helper.median ((0 :: c.timestamps).insertionSort (· ≤ ·))
  else if c.timestamps.length < numbBlocks then none
  else
    Helper.median ((c.timestamps.drop (c.timestamps.length - numbBlocks)).insertionSort (· ≤ ·))

/-- The timestamp of the top block, unless it is the genesis block. -/
def topBlockTimestamp (c : DifficultyCache) : Option UInt64 := c.timestamps.getLast?

end DifficultyCache

end Cuprate.Consensus
