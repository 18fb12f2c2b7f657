import Cuprate.Storage.AltBlocks
import Cuprate.Storage.Contents
import Cuprate.Helper.Num
import Cuprate.Consensus.BlockVerification

/-!
# The database

All tables of the blockchain database, with the operations on alternative blocks
(`storage/blockchain/src/ops/alt_block`), the move of popped blocks to an alternative chain
(`pop_block` in `ops/block.rs`), the write requests (`service/write.rs`) and the request
`AltBlocksInChain` (`service/read.rs`). `Database.chains` is what `ChainDb` keeps of the tables. A
database error or a panic is `none`: the transaction is then aborted.
-/

namespace Cuprate.Storage

open Collections

/-- What the storage code calls, with the reading of blocks. -/
structure DatabaseEnv extends StorageEnv where
  readBlock : List UInt8 → Option Block

/-- What is stored of an alternative block, apart from its blob. -/
structure CompactAltBlockInfo where
  blockHash : Hash
  powHash : Hash
  height : Nat
  weight : Nat
  longTermWeight : Nat
  cumulativeDifficultyLow : Nat
  cumulativeDifficultyHigh : Nat
deriving DecidableEq, Repr

/-- Information on a transaction of an alternative block. -/
structure AltTransactionInfo where
  txWeight : Nat
  fee : UInt64
  txHash : Hash
deriving DecidableEq, Repr

/-- The tables of the main chain and of the alternative chains. -/
structure Database where
  tables : Tables
  altChainInfos : Table ChainId AltChainInfo
  altBlockHeights : Table Hash AltBlockHeight
  altBlocksInfo : Table AltBlockHeight CompactAltBlockInfo
  altBlockBlobs : Table AltBlockHeight (List UInt8)
  altTransactionBlobs : Table Hash (List UInt8)
  altTransactionInfos : Table Hash AltTransactionInfo

namespace Database

/-- A block on an alternative chain (`types/types/src/types.rs`). -/
structure AltBlockInformation where
  block : Block
  blockBlob : List UInt8
  /-- All transactions but the miner transaction, in the order of the block. -/
  txs : List VerifiedTransactionInformation
  blockHash : Hash
  powHash : Hash
  height : Nat
  weight : Nat
  longTermWeight : Nat
  cumulativeDifficulty : Nat
  chainId : ChainId
deriving DecidableEq, Repr

def empty : Database := ⟨.empty, ∅, ∅, ∅, ∅, ∅, ∅⟩

/-- The hashes of the main chain, in order. -/
def mainChain (t : Tables) : List Hash :=
  (List.range (chainHeight t)).filterMap fun height => (t.blockInfos.lookup height).map (·.blockHash)

/-- The chains of the database, by the hashes of their blocks. -/
def chains (db : Database) : ChainDb where
  mainChain := mainChain db.tables
  altChainInfos := db.altChainInfos
  altBlockHeights := db.altBlockHeights
  altBlocksInfo := db.altBlocksInfo.mapValues fun _ info => info.blockHash

/-- Removes all alternative blocks. -/
def flushAltBlocks (db : Database) : Database :=
  { db with
    altChainInfos := ∅
    altBlockHeights := ∅
    altBlocksInfo := ∅
    altBlockBlobs := ∅
    altTransactionBlobs := ∅
    altTransactionInfos := ∅ }

def altTransactionInfo (tx : VerifiedTransactionInformation) : AltTransactionInfo where
  txWeight := tx.txWeight
  fee := tx.fee
  txHash := tx.txHash

/-- Adds a transaction of an alternative block. Its blob is stored if no chain has it yet. -/
def addAltTransactionBlob (db : Database) (tx : VerifiedTransactionInformation) : Database :=
  { db with
    altTransactionInfos := db.altTransactionInfos.insert tx.txHash (altTransactionInfo tx)
    altTransactionBlobs :=
      if (db.tables.txIds.lookup tx.txHash).isSome ∨ (db.altTransactionBlobs.lookup tx.txHash).isSome then
        db.altTransactionBlobs
      else db.altTransactionBlobs.insert tx.txHash tx.txBlob }

/-- A transaction of an alternative block. -/
def getAltTransaction (env : DatabaseEnv) (txHash : Hash) (db : Database) :
    Option VerifiedTransactionInformation := do
  let txInfo ← db.altTransactionInfos.lookup txHash
  -- the blob of a transaction of the main chain may be there only
  let txBlob ← (db.altTransactionBlobs.lookup txHash).or
    ((db.tables.txIds.lookup txHash).bind db.tables.txBlobs.lookup)
  let tx ← env.readTx txBlob
  some
    { txBlob := txBlob
      txWeight := txInfo.txWeight
      fee := txInfo.fee
      txHash := txInfo.txHash
      tx := tx }

/-! ## Alternative blocks -/

/-- Updates the information on the chain of a new alternative block. No other table is read or
written. -/
def updateAltChainInfo (altBlockHeight : AltBlockHeight) (prevHash : Hash) (db : Database) :
    Option Database :=
  (ChainDb.updateAltChainInfo altBlockHeight prevHash db.chains).map fun chains =>
    { db with altChainInfos := chains.altChainInfos }

def compactAltBlockInfo (altBlock : AltBlockInformation) : CompactAltBlockInfo where
  blockHash := altBlock.blockHash
  powHash := altBlock.powHash
  height := altBlock.height
  weight := altBlock.weight
  longTermWeight := altBlock.longTermWeight
  cumulativeDifficultyLow := altBlock.cumulativeDifficulty % 2 ^ 64
  cumulativeDifficultyHigh := altBlock.cumulativeDifficulty / 2 ^ 64

/-- Adds an alternative block. It must have as many transactions as hashes of them. -/
def addAltBlock (altBlock : AltBlockInformation) (db : Database) : Option Database := do
  let altBlockHeight := (altBlock.chainId, altBlock.height)
  let db ← updateAltChainInfo altBlockHeight altBlock.block.header.previous
    { db with altBlockHeights := db.altBlockHeights.insert altBlock.blockHash altBlockHeight }
  if altBlock.txs.length = altBlock.block.transactions.length then
    some (altBlock.txs.foldl addAltTransactionBlob
      { db with
        altBlocksInfo := db.altBlocksInfo.insert altBlockHeight (compactAltBlockInfo altBlock)
        altBlockBlobs := db.altBlockBlobs.insert altBlockHeight altBlock.blockBlob })
  else none

/-- An alternative block, from its own chain only. -/
def getAltBlock (env : DatabaseEnv) (db : Database) (altBlockHeight : AltBlockHeight) :
    Option AltBlockInformation := do
  let blockInfo ← db.altBlocksInfo.lookup altBlockHeight
  let blockBlob ← db.altBlockBlobs.lookup altBlockHeight
  let block ← env.readBlock blockBlob
  let txs ← block.transactions.mapM fun txHash => getAltTransaction env txHash db
  some
    { block := block
      blockBlob := blockBlob
      txs := txs
      blockHash := blockInfo.blockHash
      powHash := blockInfo.powHash
      height := blockInfo.height
      weight := blockInfo.weight
      longTermWeight := blockInfo.longTermWeight
      cumulativeDifficulty :=
        blockInfo.cumulativeDifficultyHigh * 2 ^ 64 + blockInfo.cumulativeDifficultyLow
      chainId := altBlockHeight.1 }

/-- The loop of `get_alt_chain_history_ranges`, from the height `i` down. One of more rounds than
there are chains never ends. -/
def historyRanges (altChainInfos : Table ChainId AltChainInfo) (start : Nat) :
    Nat → Nat → ChainId → Option (List (Chain × Nat × Nat))
  | 0, i, _ => if start < i then none else some []
  | rounds + 1, i, currentChainId =>
    if start < i then do
      let chainInfo ← altChainInfos.lookup currentChainId
      let splitHeight := chainInfo.commonAncestorHeight + 1
      let range := (.alt currentChainId, max start splitHeight, min i chainInfo.chainHeight)
      match chainInfo.parentChain with
      | .main => some [range, (.main, start, splitHeight)]
      | .alt altChainId =>
        if altChainId = currentChainId then none
        else (historyRanges altChainInfos start rounds splitHeight altChainId).map (range :: ·)
    else some []

/-- The ranges of heights that an alternative chain is made of, from its top down, each with the
chain that its blocks are stored under. -/
def getAltChainHistoryRanges (range : Nat × Nat) (altChain : ChainId)
    (altChainInfos : Table ChainId AltChainInfo) : Option (List (Chain × Nat × Nat)) :=
  historyRanges altChainInfos range.1 altChainInfos.len range.2 altChain

/-- The blocks of a range of an alternative chain. A range of the main chain is a panic. -/
def altBlocksInRange (env : DatabaseEnv) (db : Database) :
    Chain × Nat × Nat → Option (List AltBlockInformation)
  | (.alt chainId, start, stop) =>
    (List.range' start (stop - start)).mapM fun height => getAltBlock env db (chainId, height)
  | (.main, _) => none

def USIZE_MAX : Nat := 2 ^ 64 - 1

/-- The request `AltBlocksInChain`: the blocks of an alternative chain until it joins the main
chain. -/
def altBlocksInChain (env : DatabaseEnv) (chainId : ChainId) (db : Database) :
    Option (List AltBlockInformation) := do
  let history ← getAltChainHistoryRanges (0, USIZE_MAX) chainId db.altChainInfos
  let blocks ← (history.reverse.drop 1).mapM (altBlocksInRange env db)
  some blocks.flatten

/-- The information on a transaction that was removed from the main chain. -/
def verifiedTransaction (env : DatabaseEnv) (tx : Transaction) : Option VerifiedTransactionInformation :=
  (Helper.txFee tx).map fun fee =>
    { txBlob := env.oxide.serializeTx tx
      txWeight := env.oxide.txWeight tx
      fee := fee
      txHash := env.oxide.hashTx tx
      tx := tx }

/-- A popped block as an alternative block. The hash 0 passes every check of the proof of work. -/
def poppedAltBlock (env : DatabaseEnv) (chainId : ChainId) (popped : PoppedBlock)
    (txs : List VerifiedTransactionInformation) : AltBlockInformation where
  block := popped.block
  blockBlob := env.oxide.serializeBlock popped.block
  txs := txs
  blockHash := popped.info.blockHash
  powHash := 0
  height := popped.height
  weight := popped.info.weight
  longTermWeight := popped.info.longTermWeight
  cumulativeDifficulty :=
    popped.info.cumulativeDifficultyHigh * 2 ^ 64 + popped.info.cumulativeDifficultyLow
  chainId := chainId

/-- Removes the top block of the main chain, and moves it to an alternative chain if one is
given. -/
def popBlock (env : DatabaseEnv) (moveToAltChain : Option ChainId) (db : Database) : Option Database := do
  let popped ← Storage.popBlock env.toStorageEnv db.tables
  match moveToAltChain with
  | some chainId => do
    let txs ← popped.1.txs.mapM (verifiedTransaction env)
    addAltBlock (poppedAltBlock env chainId popped.1 txs) { db with tables := popped.2 }
  | none => some { db with tables := popped.2 }

/-- Pops blocks and stores each as an alternative block. -/
def popBlocksLoop (env : DatabaseEnv) (chainId : ChainId) : Nat → Database → Option Database
  | 0, db => some db
  | numbBlocks + 1, db => do
    let db ← popBlock env (some chainId) db
    popBlocksLoop env chainId numbBlocks db

/-- Adds a block to the main chain. -/
def writeBlock (env : DatabaseEnv) (block : VerifiedBlockInformation) (db : Database) : Option Database :=
  (addBlock env.toStorageEnv block db.tables).map fun tables => { db with tables := tables }

/-- Adds blocks to the main chain. -/
def writeBlocks (env : DatabaseEnv) (blocks : List VerifiedBlockInformation) (db : Database) :
    Option Database :=
  blocks.foldlM (fun db block => writeBlock env block db) db

/-- Pops blocks from the main chain and keeps them as an alternative chain. -/
def popBlocks (env : DatabaseEnv) (numbBlocks : Nat) (oldMainChainId : ChainId) (db : Database) :
    Option Database :=
  popBlocksLoop env oldMainChainId numbBlocks db.flushAltBlocks

/-- The requests that write. -/
inductive BlockchainWriteRequest where
  | writeBlock (block : VerifiedBlockInformation)
  | batchWriteBlocks (blocks : List VerifiedBlockInformation)
  | writeAltBlock (altBlock : AltBlockInformation)
  | popBlocks (numbBlocks : Nat)
  | flushAltBlocks

/-- The answers to requests that write. -/
inductive BlockchainResponse where
  | ok
  | popBlocks (oldMainChainId : ChainId)
deriving DecidableEq, Repr

/-- Handles a write request. The id is the random one that popped blocks get. -/
def handleBlockchainRequest (env : DatabaseEnv) (randomId : ChainId) (db : Database) :
    BlockchainWriteRequest → Option (BlockchainResponse × Database)
  | .writeBlock block => (db.writeBlock env block).map fun db => (.ok, db)
  | .batchWriteBlocks blocks => (db.writeBlocks env blocks).map fun db => (.ok, db)
  | .writeAltBlock altBlock => (db.addAltBlock altBlock).map fun db => (.ok, db)
  | .popBlocks numbBlocks => (db.popBlocks env numbBlocks randomId).map fun db => (.popBlocks randomId, db)
  | .flushAltBlocks => some (.ok, db.flushAltBlocks)

/-- The fields of the information on a transaction are what its type says. The fee is that of the
verification. -/
structure TxFields (env : DatabaseEnv) (tx : VerifiedTransactionInformation) : Prop where
  txBlob : tx.txBlob = env.oxide.serializeTx tx.tx
  txWeight : tx.txWeight = env.oxide.txWeight tx.tx
  txHash : tx.txHash = env.oxide.hashTx tx.tx
  fee : Consensus.txFee tx.tx = .ok tx.fee

/-- A block that was verified on top of a chain with the tables `t`. -/
structure VerifiedBlock (env : DatabaseEnv) (chain : List VerifiedBlockInformation) (t : Tables)
    (b : VerifiedBlockInformation) : Prop extends ValidToAdd env.toStorageEnv t b where
  blockBlob : b.blockBlob = env.oxide.serializeBlock b.block
  readBlock : env.readBlock (env.oxide.serializeBlock b.block) = some b.block
  previous : ∀ top, chain.getLast? = some top → b.block.header.previous = top.blockHash
  txFields : ∀ tx ∈ b.txs, TxFields env tx
  keyInputs : ∀ tx ∈ b.txs, tx.tx.hasGen = false

/-- The fields of an alternative block are what its type says, and it is read back from its
blobs. -/
structure AltBlockFields (env : DatabaseEnv) (altBlock : AltBlockInformation) : Prop where
  blockBlob : altBlock.blockBlob = env.oxide.serializeBlock altBlock.block
  readBlock : env.readBlock (env.oxide.serializeBlock altBlock.block) = some altBlock.block
  transactions : altBlock.block.transactions = altBlock.txs.map (·.txHash)
  txFields : ∀ tx ∈ altBlock.txs, TxFields env tx
  readTx : ∀ tx ∈ altBlock.txs, env.readTx tx.txBlob = some tx.tx

/-- A block of the main chain as an alternative one. -/
def altBlockOf (chainId : ChainId) (b : VerifiedBlockInformation) : AltBlockInformation where
  block := b.block
  blockBlob := b.blockBlob
  txs := b.txs
  blockHash := b.blockHash
  powHash := 0
  height := b.height
  weight := b.weight
  longTermWeight := b.longTermWeight
  cumulativeDifficulty := b.cumulativeDifficulty
  chainId := chainId

/-- The alternative blocks that were added, by their places. -/
abbrev Placed := AltBlockHeight → Option AltBlockInformation

/-- Another block is added; it replaces one at the same place. -/
def Placed.add (altBlock : AltBlockInformation) (added : Placed) : Placed :=
  Function.update added (altBlock.chainId, altBlock.height) (some altBlock)

/-- The blocks of a chain that were moved to an alternative chain, the top block first. -/
def Placed.ofPopped (chainId : ChainId) (blocks : List VerifiedBlockInformation) : Placed :=
  blocks.foldr (fun b added => added.add (altBlockOf chainId b)) fun _ => none

section

variable (env : DatabaseEnv) (Tx : Transaction → Prop) (Alt : AltBlockInformation → Prop)

/-- The databases that requests lead to, with the verified main chain and the alternative blocks
added since the tables were last emptied. Transactions are of the kind `Tx`, alternative blocks of
the kind `Alt`. -/
inductive Reachable : List VerifiedBlockInformation → Placed → Database → Prop where
  | empty : Reachable [] (fun _ => none) empty
  | writeBlock {chain : List VerifiedBlockInformation} {added : Placed} {db db' : Database}
      {b : VerifiedBlockInformation} (hreach : Reachable chain added db)
      (hverified : VerifiedBlock env chain db.tables b)
      (htxs : ∀ x ∈ storedTxs env.toStorageEnv b, Tx x.tx) (hwrite : db.writeBlock env b = some db') :
      Reachable (chain ++ [b]) added db'
  | writeAltBlock {chain : List VerifiedBlockInformation} {added : Placed} {db db' : Database}
      {altBlock : AltBlockInformation} (hreach : Reachable chain added db) (halt : Alt altBlock)
      (hwrite : db.addAltBlock altBlock = some db') : Reachable chain (added.add altBlock) db'
  | popBlocks {chain : List VerifiedBlockInformation} {added : Placed} {db db' : Database}
      {numbBlocks : Nat} {id : ChainId} (hreach : Reachable chain added db)
      (hpop : db.popBlocks env numbBlocks id = some db') :
      Reachable (chain.take (chain.length - numbBlocks))
        (.ofPopped id (chain.drop (chain.length - numbBlocks))) db'
  | flushAltBlocks {chain : List VerifiedBlockInformation} {added : Placed} {db : Database}
      (hreach : Reachable chain added db) : Reachable chain (fun _ => none) db.flushAltBlocks

end

end Database

end Cuprate.Storage
