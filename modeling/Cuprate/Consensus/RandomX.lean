import Cuprate.Types.HardFork
import Cuprate.Collections.Table

/-!
# The RandomX VM cache

The seed heights of RandomX (`consensus/rules/src/blocks.rs`) and the cache of the VMs built from
them (`consensus/context/src/rx_vms.rs`). A VM is known by the seed it was built from. The database
is the list of the hashes of the main chain; a panic or a database error is `none`.
-/

namespace Cuprate.Consensus

open Collections

/-- Blocks between two seeds. -/
def RX_SEEDHASH_EPOCH_BLOCKS : Nat := 2048

/-- Blocks before a seed is used. -/
def RX_SEEDHASH_EPOCH_LAG : Nat := 64

/-- The number of seeds in the cache. -/
def RX_SEEDS_CACHED : Nat := 2

/-- Whether the block at the height is a seed. -/
def isRandomxSeedHeight (height : Nat) : Bool := height % RX_SEEDHASH_EPOCH_BLOCKS == 0

/-- The first height of the epoch of `height`: the mask `!(RX_SEEDHASH_EPOCH_BLOCKS - 1)` clears the
low bits. -/
def epochStart (height : Nat) : Nat :=
  height / RX_SEEDHASH_EPOCH_BLOCKS * RX_SEEDHASH_EPOCH_BLOCKS

/-- The height of the RandomX seed for the block at `height`. -/
def randomxSeedHeight (height : Nat) : Nat :=
  if height ≤ RX_SEEDHASH_EPOCH_BLOCKS + RX_SEEDHASH_EPOCH_LAG then 0
  else epochStart (height - RX_SEEDHASH_EPOCH_LAG - 1)

/-- The loop of `get_last_rx_seed_heights`. -/
def lastRxSeedHeightsLoop (lastHeight : Nat) : Nat → List Nat
  | 0 => []
  | amount + 1 =>
    if lastHeight = 0 then []
    else
      let seedHeight := epochStart (lastHeight - 1)
      seedHeight :: lastRxSeedHeightsLoop seedHeight amount

/-- The largest amount for which `Vec::with_capacity` does not panic: a vector is smaller than `2 ^
63` bytes, and a height has eight. -/
def MAX_SEEDS_CAPACITY : Nat := 2 ^ 60 - 1

/-- The last `amount` of seed heights, newest first. The amount is a `usize`: one less than 0 is the
largest one. `none` is a panic. -/
def getLastRxSeedHeights (lastHeight amount : Nat) : Option (List Nat) :=
  if MAX_SEEDS_CAPACITY < amount then none
  else if isRandomxSeedHeight lastHeight then
    some (lastHeight :: lastRxSeedHeightsLoop lastHeight (if amount = 0 then 2 ^ 64 - 1 else amount - 1))
  else some (lastRxSeedHeightsLoop lastHeight amount)

/-- A RandomX machine, which is determined by its seed. -/
structure RandomXVm (H : Type) where
  new ::
  seed : H
deriving DecidableEq, Repr

/-- The seeds and machines of the main chain. -/
structure RandomXVmCache (H : Type) where
  /-- The top seeds, newest first. -/
  seeds : List (Nat × H)
  vms : Table Nat (RandomXVm H)
  /-- A VM that was given to the cache from outside. -/
  cachedVm : Option (H × RandomXVm H)

namespace RandomXVmCache

variable {H : Type} [DecidableEq H]

/-- The hashes of the blocks at these heights. -/
def getBlockHashes (heights : List Nat) (db : List H) : Option (List H) := heights.mapM (db[·]?)

/-- A machine for each seed. -/
def newVms (seeds : List (Nat × H)) : Table Nat (RandomXVm H) :=
  seeds.foldl (fun vms s => vms.insert s.1 (.new s.2)) ∅

/-- The cache of a stored chain. -/
def initFromChainHeight (chainHeight : Nat) (hf : HardFork) (db : List H) :
    Option (RandomXVmCache H) := do
  let seedHeights ← getLastRxSeedHeights (chainHeight - 1) RX_SEEDS_CACHED
  let seedHashes ← getBlockHashes seedHeights db
  let seeds := seedHeights.zip seedHashes
  some
    { seeds := seeds
      vms := if HardFork.V12 ≤ hf then newVms seeds else ∅
      cachedVm := none }

/-- Adds a VM to the cache, with the seed it was created with. -/
def addVm (c : RandomXVmCache H) (vm : H × RandomXVm H) : RandomXVmCache H :=
  { c with cachedVm := some vm }

/-- The VM given to the cache if it is the one for `seed`, a new one otherwise. -/
def takeCachedVm (c : RandomXVmCache H) (seed : H) : RandomXVm H :=
  match c.cachedVm with
  | some (cachedHash, cachedVm) => if cachedHash = seed then cachedVm else .new seed
  | none => .new seed

/-- The main-chain VMs, after the missing ones are created. -/
def getVms (c : RandomXVmCache H) : Table Nat (RandomXVm H) × RandomXVmCache H :=
  let c :=
    if c.seeds.length = c.vms.len then c
    else if c.seeds.length = c.vms.len + 1 then
      -- one more seed than VMs: only the newest seed gets one
      match c.seeds with
      | [] => c
      | (seedHeight, nextSeedHash) :: _ =>
        { c with
          vms := c.vms.insert seedHeight (c.takeCachedVm nextSeedHash)
          cachedVm := none }
    else { c with vms := newVms c.seeds }
  (c.vms, c)

/-- Removes the seeds and VMs at `newHeight` and above, and refills the seeds. -/
def popBlocksMainChain (c : RandomXVmCache H) (newHeight : Nat) (db : List H) :
    Option (RandomXVmCache H) :=
  let seeds := c.seeds.filter fun s => s.1 < newHeight
  let vms := c.vms.retain fun height _ => height < newHeight
  if seeds.length < RX_SEEDS_CACHED then do
    let lastHeights ← getLastRxSeedHeights newHeight RX_SEEDS_CACHED
    -- `split_at` panics past the end of the list
    if lastHeights.length < seeds.length then none
    else
      let seedHeights := lastHeights.drop seeds.length
      let seedHashes ← getBlockHashes seedHeights db
      some { c with seeds := seeds ++ seedHeights.zip seedHashes, vms := vms }
  else some { c with seeds := seeds, vms := vms }

/-- Adds a block that may be a seed. -/
def newBlock (c : RandomXVmCache H) (height : Nat) (hash : H) : RandomXVmCache H :=
  if isRandomxSeedHeight height then
    let seeds := (height, hash) :: c.seeds
    if seeds.length > RX_SEEDS_CACHED then
      let seeds := seeds.dropLast
      { c with
        seeds := seeds
        vms := c.vms.retain fun height _ => seeds.any fun s => height == s.1 }
    else { c with seeds := seeds }
  else c

end RandomXVmCache

/-- The main chain of a node, as its block hashes, and the cache that follows it. -/
structure RxNode (H : Type) where
  chain : List H
  cache : RandomXVmCache H

/-- What happens to the cache. The VMs other parts of the node create come with their seed. -/
inductive RxOp (H : Type) where
  | newBlock (hash : H)
  | popBlocks (newHeight : Nat)
  | getVms
  | addVm (seed : H)

namespace RxNode

variable {H : Type} [DecidableEq H]

def top (n : RxNode H) : Nat := n.chain.length - 1

def init (chain : List H) (hf : HardFork) : Option (RxNode H) :=
  (RandomXVmCache.initFromChainHeight chain.length hf chain).map fun c => ⟨chain, c⟩

/-- One operation on the cache, with the chain it belongs to. -/
def step (n : RxNode H) : RxOp H → Option (RxNode H)
  | .newBlock hash => some ⟨n.chain ++ [hash], n.cache.newBlock n.chain.length hash⟩
  | .popBlocks newHeight =>
    let chain := n.chain.take (newHeight + 1)
    (n.cache.popBlocksMainChain newHeight chain).map fun c => ⟨chain, c⟩
  | .getVms => some ⟨n.chain, n.cache.getVms.2⟩
  | .addVm seed => some ⟨n.chain, n.cache.addVm (seed, .new seed)⟩

end RxNode

end Cuprate.Consensus
