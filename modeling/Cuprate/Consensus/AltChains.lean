import Cuprate.Consensus.Errors
import Cuprate.Consensus.RandomX
import Cuprate.Storage.AltBlocks
import Cuprate.Collections.Ancestry

/-!
# Alternative blocks

The contexts of alternative chains (`consensus/context/src/alt_chains.rs`), the RandomX VMs of their
blocks (`rx_vms.rs`), and `sanity_check_alt_block` (`consensus/src/block/alt_block.rs`) as the
blockchain manager calls it. The difficulty and weight caches of a context are left out: the checks
that use them come after the VM is chosen, and their outcome is an argument.
-/

namespace Cuprate.Consensus

open Collections Storage

/-- The context of an alternative chain. -/
structure AltChainContextCache where
  cachedRxVm : Option (Nat × RandomXVm Hash)
  chainHeight : Nat
  topHash : Hash
  chainId : Option ChainId
  /-- The chain that the block below the first block of the context is on. -/
  parentChain : Chain
deriving DecidableEq, Repr

/-- Puts a block on an alternative chain. -/
def AltChainContextCache.addNewBlock (cache : AltChainContextCache) (blockHash : Hash) :
    AltChainContextCache :=
  { cache with chainHeight := cache.chainHeight + 1, topHash := blockHash }

/-- The contexts of alternative chains by their top blocks. -/
abbrev AltChainMap := Table Hash AltChainContextCache

/-- Takes the context for a block on top of `prevId`, or makes a new one. An error reaches
`sanity_check_alt_block` as a database error. -/
def getAltChainContext (prevId : Hash) (altCacheMap : AltChainMap) (db : ChainDb) :
    Option (AltChainContextCache × AltChainMap) :=
  match altCacheMap.lookup prevId with
  | some cache => some (cache, altCacheMap.erase prevId)
  | none => (db.findBlock prevId).map fun found =>
    ({ cachedRxVm := none
       chainHeight := found.2 + 1
       topHash := prevId
       chainId := none
       parentChain := found.1 }, altCacheMap)

/-- The VM for an alternative block: one of the main chain if the seed is the same, or a new one. -/
def RandomXVmCache.getAltVm (c : RandomXVmCache Hash) (height : Nat) (chain : Chain) (db : ChainDb) :
    Option (RandomXVm Hash) := do
  let seedHash ← db.blockHash (randomxSeedHeight height) chain
  match c.seeds.find? fun s => s.2 = seedHash with
  | some s =>
    match c.vms.lookup s.1 with
    | some vm => some vm
    | none => some (.new seedHash)
  | none => some (.new seedHash)

/-- The node, as far as alternative blocks are concerned. -/
structure AltNode where
  db : ChainDb
  rxVmCache : RandomXVmCache Hash
  altChainMap : AltChainMap

namespace AltNode

/-- The cached VM of a context, if it is the one for the seed height. -/
def cachedVmFor (seedHeight : Nat) (cache : AltChainContextCache) : Option (RandomXVm Hash) :=
  match cache.cachedRxVm with
  | some (cachedSeedHeight, vm) => if seedHeight = cachedSeedHeight then some vm else none
  | none => none

/-- The RandomX VM for a block height of an alternative chain, from version 12 on. -/
def altRxVm (blockHeight hf : Nat) (parentChain : Chain) (cache : AltChainContextCache) (n : AltNode) :
    Except (Fault ExtendedConsensusError) (Option (RandomXVm Hash) × AltChainContextCache) :=
  if hf < 12 then .ok (none, cache)
  else
    let seedHeight := randomxSeedHeight blockHeight
    let vm :=
      match cachedVmFor seedHeight cache with
      | some vm => some vm
      | none => n.rxVmCache.getAltVm blockHeight parentChain n.db
    match vm with
    | some vm => .ok (some vm, { cache with cachedRxVm := some (seedHeight, vm) })
    | none => .error (.error .dbErr)

/-- The checks up to the choice of the VM. -/
def prepAltBlock (block : Block) (cache : AltChainContextCache) (n : AltNode) :
    Except (Fault ExtendedConsensusError) (Option (RandomXVm Hash) × AltChainContextCache) :=
  match block.minerTransaction.txPrefix.inputs with
  | [.gen height] =>
    if height ≠ cache.chainHeight then .error (blockFault (.minerTxError .inputsHeightIncorrect))
    else altRxVm cache.chainHeight block.header.hardforkVersion cache.parentChain cache n
  | _ => .error (blockFault (.minerTxError .inputNotOfTypeGen))

/-- The VM that the proof of work of an alternative block is computed with. -/
def altBlockRxVm (block : Block) (n : AltNode) :
    Except (Fault ExtendedConsensusError) (Option (RandomXVm Hash)) :=
  match getAltChainContext block.header.previous n.altChainMap n.db with
  | none => .error (.error .dbErr)
  | some (cache, _) => (prepAltBlock block cache n).map Prod.fst

/-- The checks of the proof of work, the timestamp and the weight: they may depend on the VM. -/
abbrev AltBlockChecks := Option (RandomXVm Hash) → Except (Fault ExtendedConsensusError) Unit

/-- Checks an alternative block. `newChainId` is the random id of a new chain. Only a block that
passes puts its context back. -/
def sanityCheckAltBlock (oxide : MoneroOxide) (checks : AltBlockChecks) (newChainId : ChainId)
    (block : Block)
    (n : AltNode) :
    Except (Fault ExtendedConsensusError) AltBlockInformation × AltNode :=
  match getAltChainContext block.header.previous n.altChainMap n.db with
  | none => (.error (.error .dbErr), n)
  | some (cache, altChainMap) =>
    let n := { n with altChainMap := altChainMap }
    match (prepAltBlock block cache n).bind fun prepped => (checks prepped.1).map fun _ => prepped.2 with
    | .error e => (.error e, n)
    | .ok cache =>
      let chainId := cache.chainId.getD newChainId
      let blockInfo : AltBlockInformation :=
        { previous := block.header.previous
          blockHash := oxide.hashBlock block
          height := cache.chainHeight
          chainId := chainId }
      let cache := { cache with chainId := some chainId }.addNewBlock blockInfo.blockHash
      (.ok blockInfo, { n with altChainMap := n.altChainMap.insert cache.topHash cache })

/-- Adds an alternative block that is not heavier than the main chain. -/
def handleIncomingAltBlock (oxide : MoneroOxide) (checks : AltBlockChecks) (newChainId : ChainId)
    (block : Block)
    (n : AltNode) : AltNode :=
  match n.db.findBlock (oxide.hashBlock block) with
  | some _ => n
  | none =>
    match sanityCheckAltBlock oxide checks newChainId block n with
    | (.error _, n) => n
    | (.ok blockInfo, n) =>
      match n.db.addAltBlock blockInfo with
      | some db => { n with db := db }
      | none => n

def addMainBlock (blockHash : Hash) (n : AltNode) : AltNode :=
  { n with
    db := { n.db with mainChain := n.db.mainChain ++ [blockHash] }
    rxVmCache := n.rxVmCache.newBlock n.db.mainChain.length blockHash }

/-- Pops blocks from the main chain. The contexts of all alternative chains are dropped. -/
def popBlocks (numbBlocks : Nat) (oldMainChainId : ChainId) (n : AltNode) : Option AltNode := do
  let db ← n.db.popBlocks numbBlocks oldMainChainId
  let rxVmCache ← n.rxVmCache.popBlocksMainChain (n.db.mainChain.length - numbBlocks - 1) db.mainChain
  some { db := db, rxVmCache := rxVmCache, altChainMap := ∅ }

/-- The states that a node can be in. `A` has the ancestors of each block, which its hash commits
to. A heavier alternative block is not added; the pop that switches to its chain drops its context
again. A switch that fails before the pop, when the blocks of the new chain are read, is left out.
The alternative blocks are flushed when there are no contexts. -/
inductive Reachable (A : Ancestry Hash) (oxide : MoneroOxide) : AltNode → Prop where
  | start {chain : List Hash} {hf : HardFork} {rxVmCache : RandomXVmCache Hash} (hne : chain ≠ [])
      (hchain : A.IsBranch chain)
      (hinit : RandomXVmCache.initFromChainHeight chain.length hf chain = some rxVmCache) :
      Reachable A oxide ⟨⟨chain, ∅, ∅, ∅⟩, rxVmCache, ∅⟩
  | addMainBlock {n : AltNode} {blockHash : Hash} (hn : Reachable A oxide n)
      (hblock : A.chain blockHash = n.db.mainChain ++ [blockHash]) :
      Reachable A oxide (n.addMainBlock blockHash)
  | getVms {n : AltNode} (hn : Reachable A oxide n) :
      Reachable A oxide { n with rxVmCache := n.rxVmCache.getVms.2 }
  | addVm {n : AltNode} (hn : Reachable A oxide n) (seed : Hash) :
      Reachable A oxide { n with rxVmCache := n.rxVmCache.addVm (seed, .new seed) }
  | popBlocks {n n' : AltNode} {numbBlocks : Nat} {oldMainChainId : ChainId} (hn : Reachable A oxide n)
      (hpop : n.popBlocks numbBlocks oldMainChainId = some n') : Reachable A oxide n'
  | flushAltBlocks {n : AltNode} (hn : Reachable A oxide n) (hmap : n.altChainMap = ∅) :
      Reachable A oxide { n with db := n.db.flushAltBlocks }
  | altBlock {n : AltNode} {checks : AltBlockChecks} {newChainId : ChainId} {block : Block}
      (hn : Reachable A oxide n)
      (hblock : A.chain (oxide.hashBlock block) = A.chain block.header.previous ++ [oxide.hashBlock block])
      (hnew : n.db.altChainInfos.lookup newChainId = none) :
      Reachable A oxide (n.handleIncomingAltBlock oxide checks newChainId block)

end AltNode

end Cuprate.Consensus
