import Cuprate.Types.Block
import Cuprate.Collections.Table

/-!
# Alternative blocks in the database

The tables of the alternative chains and what reads and writes them
(`storage/blockchain/src/ops/alt_block`, `service/read.rs` and `service/write.rs`). The main chain
is the list of its block hashes, and an alternative block is its hash; blobs and transactions are
left out. A database error or a panic is `none`.
-/

namespace Cuprate

/-- The id of an alternative chain. -/
abbrev ChainId := Nat

/-- The main chain or an alternative one. -/
inductive Chain where
  | main
  | alt (id : ChainId)
deriving DecidableEq, Repr

namespace Storage

open Collections

/-- Where an alternative chain leaves its parent, and its length. -/
structure AltChainInfo where
  parentChain : Chain
  /-- The height of the last block shared with the parent chain. -/
  commonAncestorHeight : Nat
  chainHeight : Nat
deriving DecidableEq, Repr

/-- The chain and the height of an alternative block. -/
abbrev AltBlockHeight := ChainId × Nat

/-- The main chain and the tables of the alternative chains. -/
structure ChainDb where
  mainChain : List Hash
  altChainInfos : Table ChainId AltChainInfo
  altBlockHeights : Table Hash AltBlockHeight
  /-- The hashes in `alt_blocks_info`. -/
  altBlocksInfo : Table AltBlockHeight Hash

/-- What the chains of alternative blocks depend on. -/
structure AltBlockInformation where
  previous : Hash
  blockHash : Hash
  height : Nat
  chainId : ChainId
deriving DecidableEq, Repr

namespace ChainDb

/-- Removes all alternative blocks. -/
def flushAltBlocks (db : ChainDb) : ChainDb :=
  { db with altChainInfos := ∅, altBlockHeights := ∅, altBlocksInfo := ∅ }

/-- The chain that a new alternative block forks from, by its previous block. -/
def parentOf (prevHash : Hash) (db : ChainDb) : Chain :=
  match db.altBlockHeights.lookup prevHash with
  | some altParentHeight => .alt altParentHeight.1
  | none => .main

/-- Updates the information on the chain of a new alternative block. It panics at height 0. -/
def updateAltChainInfo (altBlockHeight : AltBlockHeight) (prevHash : Hash) (db : ChainDb) :
    Option ChainDb :=
  let parentChain := parentOf prevHash db
  match db.altChainInfos.lookup altBlockHeight.1 with
  | some info =>
    if info.chainHeight < altBlockHeight.2 + 1 then
      some { db with
        altChainInfos := db.altChainInfos.insert altBlockHeight.1
          { info with chainHeight := altBlockHeight.2 + 1 } }
    else if altBlockHeight.2 = 0 then none
    else
      -- blocks are being popped, so the split point moves down
      some { db with
        altChainInfos := db.altChainInfos.insert altBlockHeight.1
          { info with commonAncestorHeight := altBlockHeight.2 - 1, parentChain := parentChain } }
  | none =>
    if altBlockHeight.2 = 0 then none
    else
      some { db with
        altChainInfos := db.altChainInfos.insert altBlockHeight.1
          { parentChain := parentChain
            commonAncestorHeight := altBlockHeight.2 - 1
            chainHeight := altBlockHeight.2 + 1 } }

/-- Adds an alternative block. -/
def addAltBlock (altBlock : AltBlockInformation) (db : ChainDb) : Option ChainDb := do
  let altBlockHeight := (altBlock.chainId, altBlock.height)
  let db := { db with altBlockHeights := db.altBlockHeights.insert altBlock.blockHash altBlockHeight }
  let db ← updateAltChainInfo altBlockHeight altBlock.previous db
  some { db with altBlocksInfo := db.altBlocksInfo.insert altBlockHeight altBlock.blockHash }

/-- The loop of `get_alt_block_hash`: the chain that the block at a height is stored under. A loop
of more rounds than there are chains never ends. -/
def originalChain (altChainInfos : Table ChainId AltChainInfo) (blockHeight : Nat) :
    Nat → ChainId → Option Chain
  | 0, _ => none
  | rounds + 1, chain => do
    let chainInfo ← altChainInfos.lookup chain
    if chainInfo.commonAncestorHeight < blockHeight then some (.alt chain)
    else
      match chainInfo.parentChain with
      | .main => some .main
      | .alt altChainId => originalChain altChainInfos blockHeight rounds altChainId

/-- The hash of the block at a height of an alternative chain, the part below its split point
included. -/
def getAltBlockHash (blockHeight : Nat) (altChain : ChainId) (db : ChainDb) : Option Hash := do
  let chain ← originalChain db.altChainInfos blockHeight db.altChainInfos.len altChain
  match chain with
  | .main => db.mainChain[blockHeight]?
  | .alt chainId => db.altBlocksInfo.lookup (chainId, blockHeight)

/-- The request `BlockHash`. -/
def blockHash (blockHeight : Nat) (chain : Chain) (db : ChainDb) : Option Hash :=
  match chain with
  | .main => db.mainChain[blockHeight]?
  | .alt chain => getAltBlockHash blockHeight chain db

/-- The request `FindBlock`: the chain and the height of a block, the main chain first. -/
def findBlock (hash : Hash) (db : ChainDb) : Option (Chain × Nat) :=
  match db.mainChain.idxOf? hash with
  | some height => some (.main, height)
  | none => (db.altBlockHeights.lookup hash).map fun height => (.alt height.1, height.2)

/-- Moves the top block of the main chain to an alternative chain. Its previous block is the one
below. -/
def popBlock (chainId : ChainId) (db : ChainDb) : Option ChainDb := do
  let blockHash ← db.mainChain.getLast?
  let mainChain := db.mainChain.dropLast
  addAltBlock
    { previous := mainChain.getLast?.getD 0
      blockHash := blockHash
      height := mainChain.length
      chainId := chainId }
    { db with mainChain := mainChain }

/-- Pops blocks and stores each as an alternative block. -/
def popBlocksLoop (chainId : ChainId) : Nat → ChainDb → Option ChainDb
  | 0, db => some db
  | numbBlocks + 1, db => do
    let db ← popBlock chainId db
    popBlocksLoop chainId numbBlocks db

/-- The request `PopBlocks`: the popped blocks become the only alternative chain. -/
def popBlocks (numbBlocks : Nat) (oldMainChainId : ChainId) (db : ChainDb) : Option ChainDb :=
  popBlocksLoop oldMainChainId numbBlocks db.flushAltBlocks

end ChainDb

end Storage

end Cuprate
