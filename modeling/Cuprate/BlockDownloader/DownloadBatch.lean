import Cuprate.Types.Block
import Mathlib.Data.List.Dedup

/-!
# Downloaded batches

How a peer's answer to a request for blocks is deserialized and checked
(`p2p/p2p/src/block_downloader/download_batch.rs`). Of several invalid blocks the first one gives
the error; the source returns that of any. Bans of peers are left out.
-/

namespace Cuprate.BlockDownloader

/-- The limit for the blob of one transaction. -/
def MAX_TRANSACTION_BLOB_SIZE : Nat := 1000000

/-- The errors of the downloader. -/
inductive BlockDownloadError where
  | timedOut
  | bufferWasClosed
  | peerDidNotHaveRequestedData
  | peersResponseWasInvalid
  | chainInvalid
  | failedToFindAChainToFollow
  | peerSentNoOverlappingBlocks
  | serviceError
deriving DecidableEq, Repr

/-- How blobs are read. -/
structure BlockReader extends MoneroOxide where
  readBlock : List UInt8 → Option Block
  readTx : List UInt8 → Option Transaction
  /-- The height in the miner transaction. -/
  number : Block → Nat

/-- A pruned transaction with the hash of what was cut off. -/
structure PrunedTxBlobEntry where
  blob : List UInt8
  prunableHash : Hash
deriving DecidableEq, Repr

/-- The transactions of a block in a message. -/
inductive TransactionBlobs where
  | pruned (txs : List PrunedTxBlobEntry)
  | normal (txs : List (List UInt8))
  | none
deriving DecidableEq, Repr

namespace TransactionBlobs

def len : TransactionBlobs → Nat
  | pruned txs => txs.length
  | normal txs => txs.length
  | none => 0

def takeNormal : TransactionBlobs → Option (List (List UInt8))
  | pruned _ => Option.none
  | normal txs => some txs
  | none => some []

end TransactionBlobs

/-- A block with its transactions in a message. -/
structure BlockCompleteEntry where
  block : List UInt8
  txs : TransactionBlobs
deriving DecidableEq, Repr

/-- The blocks of one answer. -/
structure BlockBatch (H : Type) where
  blocks : List (Block × List Transaction)
  size : Nat
  peerHandle : H
deriving DecidableEq, Repr

/-- Removes the hashes of the transactions from the expected ones. -/
def removeExpected (reader : BlockReader) (expected : List Hash) : List Transaction → Option (List Hash)
  | [] => some expected
  | tx :: txs =>
    if reader.hashTx tx ∈ expected then removeExpected reader (expected.erase (reader.hashTx tx)) txs
    else none

/-- One block of an answer, with its size. -/
def deserializeEntry (reader : BlockReader) (expectedStartHeight : Nat) (requestedIds : List Hash)
    (previousId : Hash)
    (entry : BlockCompleteEntry × Nat) :
    Except BlockDownloadError ((Block × List Transaction) × Nat) :=
  match reader.readBlock entry.1.block with
  | none => .error .peersResponseWasInvalid
  | some block =>
    if requestedIds[entry.2]? ≠ some (reader.hashBlock block) ∨
        block.transactions.length ≠ entry.1.txs.len then .error .peersResponseWasInvalid
    -- The hash matched, so the peer who told us the id is to blame.
    else if entry.2 = 0 ∧ block.header.previous ≠ previousId then .error .chainInvalid
    else if reader.number block ≠ entry.2 + expectedStartHeight then .error .chainInvalid
    else
      match entry.1.txs.takeNormal with
      | none => .error .peersResponseWasInvalid
      | some blobs =>
        match blobs.mapM fun blob =>
            if blob.length > MAX_TRANSACTION_BLOB_SIZE then none else reader.readTx blob with
        | none => .error .peersResponseWasInvalid
        | some txs =>
          -- The expected transactions are a set.
          if removeExpected reader block.transactions.dedup txs = some [] then
            .ok ((block, txs), entry.1.block.length + (blobs.map List.length).sum)
          else .error .peersResponseWasInvalid

/-- Reads the blocks of an answer. -/
def deserializeBatch {H : Type} (reader : BlockReader) (blocksResponse : List BlockCompleteEntry)
    (expectedStartHeight : Nat) (requestedIds : List Hash) (previousId : Hash) (peerHandle : H) :
    Except BlockDownloadError (BlockBatch H) := do
  let blocks ← blocksResponse.zipIdx.mapM
    (deserializeEntry reader expectedStartHeight requestedIds previousId)
  .ok ⟨blocks.map (·.1), (blocks.map (·.2)).sum, peerHandle⟩

end Cuprate.BlockDownloader
