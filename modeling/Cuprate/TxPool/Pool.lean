import Cuprate.Types.Block
import Cuprate.Collections.Result
import Cuprate.Collections.Table
import Cuprate.Stream.Bytes

/-!
# The database of the transaction pool

The tables of the transaction pool (`storage/txpool/src/tables.rs`), the operations on them (`ops`)
and the write requests (`service/write.rs`). A request that fails is aborted and leaves the tables
as they were.
-/

namespace Cuprate.TxPool

open Collections

/-! ## Stored types -/

/-- What is outside the repository: how transactions are read and hashed, and the hash of blobs. -/
structure PoolEnv where
  oxide : MoneroOxide
  readTx : List UInt8 → Option Transaction
  transactionBlobHash : List UInt8 → Hash

/-- The state of a transaction in the pool. -/
structure TxStateFlags where
  stateStem : Bool
  doubleSpent : Bool
deriving DecidableEq, Repr

/-- What is stored of a transaction. -/
structure TransactionInfo where
  fee : UInt64
  weight : Nat
  receivedAt : UInt64
  flags : TxStateFlags
deriving DecidableEq, Repr

/-- A verification state as it is stored. Zeros stand for what a state does not have. -/
structure RawCachedVerificationState where
  rawValidAtHash : Hash
  rawHf : Nat
  rawValidPastTimestamp : List UInt8
deriving DecidableEq, Repr

namespace RawCachedVerificationState

/-- It panics on a lock that is not time based. -/
def ofState : CachedVerificationState → Option RawCachedVerificationState
  | .notVerified => some ⟨0, 0, Stream.leBytes 8 0⟩
  | .onlySemantic hf => some ⟨0, hf.asU8, Stream.leBytes 8 0⟩
  | .validAtHashAndHF blockHash hf => some ⟨blockHash, hf.asU8, Stream.leBytes 8 0⟩
  | .validAtHashAndHFWithTimeBasedLock blockHash hf (.time time) =>
    some ⟨blockHash, hf.asU8, Stream.leBytes 8 time.toNat⟩
  | .validAtHashAndHFWithTimeBasedLock _ _ _ => none

/-- It panics on an unknown hard fork. -/
def toState (value : RawCachedVerificationState) : Option CachedVerificationState :=
  -- without a hash there is no block this is valid at
  if value.rawValidAtHash = 0 then
    if value.rawHf = 0 then some .notVerified
    else (HardFork.fromVersion value.rawHf).toOption.map .onlySemantic
  else
    let rawValidPastTimestamp := UInt64.ofNat (Stream.leValue value.rawValidPastTimestamp)
    (HardFork.fromVersion value.rawHf).toOption.map fun hf =>
      if rawValidPastTimestamp = 0 then .validAtHashAndHF value.rawValidAtHash hf
      else .validAtHashAndHFWithTimeBasedLock value.rawValidAtHash hf (.time rawValidPastTimestamp)

end RawCachedVerificationState

/-- The tables of the pool. -/
structure Tables where
  transactionBlobs : Table Hash (List UInt8)
  transactionInfos : Table Hash TransactionInfo
  cachedVerificationState : Table Hash RawCachedVerificationState
  spentKeyImages : Table CompressedPoint Hash
  knownBlobHashes : Table Hash Hash

def Tables.empty : Tables := ⟨∅, ∅, ∅, ∅, ∅⟩

/-- Why an operation returns an error. -/
inductive TxPoolWriteError where
  /-- The transaction that already spends a key image. -/
  | doubleSpend (txHash : Hash)
  | keyNotFound
deriving DecidableEq, Repr

/-- The result of a write. -/
abbrev Write := Except (Fault TxPoolWriteError)

/-! ## Operations -/

/-- The key image of an input; a coinbase input panics. -/
def kiFromInput : Input → Write CompressedPoint
  | .toKey _ _ keyImage => .ok keyImage
  | .gen _ => .error .panic

/-- Adds the key image of one input, unless it is already spent. -/
def addKeyImage (txHash : Hash) (kisTable : Table CompressedPoint Hash) (input : Input) :
    Write (Table CompressedPoint Hash) := do
  let ki ← kiFromInput input
  match kisTable.lookup ki with
  | some doubleSpendTxHash => .error (.error (.doubleSpend doubleSpendTxHash))
  | none => .ok (kisTable.insert ki txHash)

/-- Adds the key images of a transaction; one that is there is an error. -/
def addTxKeyImages (inputs : List Input) (txHash : Hash) (kisTable : Table CompressedPoint Hash) :
    Write (Table CompressedPoint Hash) :=
  inputs.foldlM (addKeyImage txHash) kisTable

/-- Removes the key images of a transaction. -/
def removeTxKeyImages (inputs : List Input) (kisTable : Table CompressedPoint Hash) :
    Write (Table CompressedPoint Hash) :=
  inputs.foldlM (fun kisTable input => (kiFromInput input).map kisTable.erase) kisTable

/-- Adds a transaction at the time `now`. -/
def addTransaction (env : PoolEnv) (now : UInt64) (tx : TransactionVerificationData) (stateStem : Bool)
    (tables : Tables) : Write Tables := do
  let rawState ← orPanic (RawCachedVerificationState.ofState tx.cachedVerificationState)
  let spentKeyImages ← addTxKeyImages tx.tx.txPrefix.inputs tx.txHash tables.spentKeyImages
  .ok
    { transactionBlobs := tables.transactionBlobs.insert tx.txHash tx.txBlob
      transactionInfos := tables.transactionInfos.insert tx.txHash
        { fee := tx.fee
          weight := tx.txWeight
          receivedAt := now
          flags := ⟨stateStem, false⟩ }
      cachedVerificationState := tables.cachedVerificationState.insert tx.txHash rawState
      spentKeyImages := spentKeyImages
      knownBlobHashes := tables.knownBlobHashes.insert (env.transactionBlobHash tx.txBlob) tx.txHash }

/-- Removes a transaction. A blob that cannot be read is a panic. -/
def removeTransaction (env : PoolEnv) (txHash : Hash) (tables : Tables) : Write Tables :=
  match tables.transactionBlobs.lookup txHash with
  | none => .error (.error .keyNotFound)
  | some txBlob => do
    let tx ← orPanic (env.readTx txBlob)
    let spentKeyImages ← removeTxKeyImages tx.txPrefix.inputs tables.spentKeyImages
    .ok
      { transactionBlobs := tables.transactionBlobs.erase txHash
        transactionInfos := tables.transactionInfos.erase txHash
        cachedVerificationState := tables.cachedVerificationState.erase txHash
        spentKeyImages := spentKeyImages
        knownBlobHashes := tables.knownBlobHashes.erase (env.transactionBlobHash txBlob) }

/-- The verification data of a transaction in the pool. -/
def getTransactionVerificationData (env : PoolEnv) (txHash : Hash) (tables : Tables) :
    Option TransactionVerificationData := do
  let txBlob ← tables.transactionBlobs.lookup txHash
  let txInfo ← tables.transactionInfos.lookup txHash
  let rawState ← tables.cachedVerificationState.lookup txHash
  let cachedVerificationState ← rawState.toState
  let tx ← env.readTx txBlob
  let version ← TxVersion.fromRaw tx.version
  some
    { tx := tx
      version := version
      txBlob := txBlob
      txWeight := txInfo.weight
      fee := txInfo.fee
      txHash := txHash
      cachedVerificationState := cachedVerificationState }

/-- Moves a transaction to the public pool at the time `now`. -/
def promote (now : UInt64) (txHash : Hash) (tables : Tables) : Write Tables :=
  match tables.transactionInfos.lookup txHash with
  | none => .error (.error .keyNotFound)
  | some info =>
    .ok
      { tables with
        transactionInfos := tables.transactionInfos.insert txHash
          { info with
            receivedAt := now
            flags := { info.flags with stateStem := false } } }

/-- One round of `new_block`: the transaction that spends the key image is reported, then removed; a
key that is not found is ignored. -/
def newBlockRound (env : PoolEnv) (state : List Hash × Tables) (keyImage : CompressedPoint) :
    Write (List Hash × Tables) :=
  match state.2.spentKeyImages.lookup keyImage with
  | none => .ok state
  | some txHash =>
    match removeTransaction env txHash state.2 with
    | .ok tables => .ok (state.1 ++ [txHash], tables)
    | .error (.error .keyNotFound) => .ok (state.1 ++ [txHash], state.2)
    | .error e => .error e

/-- Removes all transactions that spend key images which were spent in a new block. -/
def newBlock (env : PoolEnv) (spentKeyImages : List CompressedPoint) (tables : Tables) :
    Write (List Hash × Tables) :=
  spentKeyImages.foldlM (newBlockRound env) ([], tables)

/-- The requests that write. -/
inductive TxpoolWriteRequest where
  | addTransaction (tx : TransactionVerificationData) (stateStem : Bool)
  | removeTransaction (txHash : Hash)
  | promote (txHash : Hash)
  | newBlock (spentKeyImages : List CompressedPoint)

/-- The answers to requests that write. -/
inductive TxpoolWriteResponse where
  | ok
  /-- The transaction that a new one double spends. -/
  | addTransaction (doubleSpend : Option Hash)
  | newBlock (txsRemoved : List Hash)
deriving DecidableEq, Repr

/-- Handles a write request at the time `now`: the response, and the tables after it. A double spend
is no error. -/
def handleTxpoolRequest (env : PoolEnv) (now : UInt64) (tables : Tables) :
    TxpoolWriteRequest → Except (Fault TxPoolWriteError) TxpoolWriteResponse × Tables
  | .addTransaction tx stateStem =>
    match addTransaction env now tx stateStem tables with
    | .ok tables' => (.ok (.addTransaction none), tables')
    | .error (.error (.doubleSpend txHash)) => (.ok (.addTransaction (some txHash)), tables)
    | .error e => (.error e, tables)
  | .removeTransaction txHash =>
    match removeTransaction env txHash tables with
    | .ok tables' => (.ok .ok, tables')
    | .error e => (.error e, tables)
  | .promote txHash =>
    match promote now txHash tables with
    | .ok tables' => (.ok .ok, tables')
    | .error e => (.error e, tables)
  | .newBlock spentKeyImages =>
    match newBlock env spentKeyImages tables with
    | .ok (txsRemoved, tables') => (.ok (.newBlock txsRemoved), tables')
    | .error e => (.error e, tables)

/-- The fields of the data are what its type says, and its blob is read back as the transaction. -/
structure DataFields (env : PoolEnv) (tx : TransactionVerificationData) : Prop where
  txBlob : tx.txBlob = env.oxide.serializeTx tx.tx
  readTx : env.readTx tx.txBlob = some tx.tx
  txHash : tx.txHash = env.oxide.hashTx tx.tx
  version : TxVersion.fromRaw tx.tx.version = some tx.version

/-- No two transactions of the kind have the same hash, and no two of their blobs. -/
structure HashesDiffer (env : PoolEnv) (Tx : Transaction → Prop) : Prop where
  hashTx : ∀ tx tx', Tx tx → Tx tx' → env.oxide.hashTx tx = env.oxide.hashTx tx' → tx = tx'
  blobHash : ∀ tx tx', Tx tx → Tx tx' →
    env.transactionBlobHash (env.oxide.serializeTx tx) = env.transactionBlobHash
      (env.oxide.serializeTx tx') → tx = tx'

/-- The data that was last added for each transaction hash. -/
abbrev Added := Hash → Option TransactionVerificationData

def Added.after (added : Added) :
    TxpoolWriteRequest → Except (Fault TxPoolWriteError) TxpoolWriteResponse → Added
  | .addTransaction tx _, .ok (.addTransaction none) => Function.update added tx.txHash (some tx)
  | _, _ => added

/-- The pools that requests lead to, with the data that was added. Added transactions are of the
kind `Tx`. -/
inductive Reachable (env : PoolEnv) (Tx : Transaction → Prop) : Added → Tables → Prop where
  | empty : Reachable env Tx (fun _ => none) .empty
  | request {added : Added} {tables : Tables} (now : UInt64) (req : TxpoolWriteRequest)
      (hreach : Reachable env Tx added tables)
      (hfields : ∀ tx stateStem, req = .addTransaction tx stateStem → DataFields env tx ∧ Tx tx.tx) :
      Reachable env Tx (added.after req (handleTxpoolRequest env now tables req).1)
        (handleTxpoolRequest env now tables req).2

end Cuprate.TxPool
