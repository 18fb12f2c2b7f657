import Cuprate.BlockDownloader.ChainEntry
import Cuprate.Collections.Result

/-!
# Fast sync

The check of the block ids of peers against the embedded hashes
(`consensus/fast-sync/src/fast_sync.rs`): each is the hash of the ids of 512 consecutive blocks. The
blake3 hasher is the list of the hashes it was updated with, and `finalize` is a parameter. The
database is read through `blockHash`.
-/

namespace Cuprate.FastSync

open Collections BlockDownloader

variable {P H E : Type}

/-- The size of a batch of block hashes to hash to create a fast sync hash. -/
def FAST_SYNC_BATCH_LEN : Nat := 512

/-- The embedded hashes, with the function they were made by. -/
structure FastSyncHashes where
  hashes : List Hash
  finalize : List Hash → Hash

/-- Why entries are invalid. -/
inductive ValidateError (E : Type) where
  | database (e : E)
  | hashesDoNotMatch
deriving DecidableEq, Repr

/-- The height of the first block not included in the embedded hashes. -/
def FastSyncHashes.fastSyncStopHeight (sync : FastSyncHashes) : Nat :=
  sync.hashes.length * FAST_SYNC_BATCH_LEN

/-- The index of the hash that contains this block in the fast sync hashes. -/
def getHashIndexForHeight (height : Nat) : Nat := height / FAST_SYNC_BATCH_LEN

/-- The hashes of the main-chain blocks of a range of heights. -/
def blockHashInRange (blockHash : Nat → Except E Hash) (start stop : Nat) : Except E (List Hash) :=
  (List.range' start (stop - start)).mapM blockHash

/-- The loop that moves entries from the back of `entries`, given from the back, to the front of
`unknown` until enough ids have moved. -/
def splitUnknownLoop : List (ChainEntry P H) → Nat → List (ChainEntry P H) →
    List (ChainEntry P H) × List (ChainEntry P H)
  | [], _, unknown => ([], unknown)
  | back :: front, hashesStopDiffLastHeight, unknown =>
    if hashesStopDiffLastHeight = 0 then (back :: front, unknown)
    else if hashesStopDiffLastHeight ≤ back.ids.length then
      -- This batch is partially valid so it is split.
      ({ back with ids := back.ids.take (back.ids.length - hashesStopDiffLastHeight) } :: front,
        { back with ids := back.ids.drop (back.ids.length - hashesStopDiffLastHeight) } :: unknown)
    else splitUnknownLoop front (hashesStopDiffLastHeight - back.ids.length) (back :: unknown)

def splitUnknown (entries : List (ChainEntry P H)) (hashesStopDiffLastHeight : Nat) :
    List (ChainEntry P H) × List (ChainEntry P H) :=
  let (entries, unknown) := splitUnknownLoop entries.reverse hashesStopDiffLastHeight []
  (entries.reverse, unknown)

/-- The loop that verifies the hashes; returns `last_i`. -/
def FastSyncHashes.verifyHashes (sync : FastSyncHashes) (hashesStartHeight : Nat) :
    List Hash → Nat → List Hash → Nat → Except (Fault (ValidateError E)) Nat
  | [], _, _, lastI => .ok lastI
  | hash :: hashes, i, hasher, _ =>
    if (i + 1) % FAST_SYNC_BATCH_LEN = 0 then
      match sync.hashes[getHashIndexForHeight (hashesStartHeight + i)]? with
      | none => .error .panic
      | some expected =>
        if sync.finalize (hasher ++ [hash]) ≠ expected then .error (.error .hashesDoNotMatch)
        else sync.verifyHashes hashesStartHeight hashes (i + 1) [] (i + 1)
    else sync.verifyHashes hashesStartHeight hashes (i + 1) (hasher ++ [hash]) (i + 1)

/-- Validates that the entries are in the fast-sync hashes. Returns the valid entries and those to
pass in again with more entries. -/
def FastSyncHashes.validateEntries (sync : FastSyncHashes) (blockHash : Nat → Except E Hash)
    (entries : List (ChainEntry P H)) (startHeight : Nat) :
    Except (Fault (ValidateError E)) (List (ChainEntry P H) × List (ChainEntry P H)) :=
  -- Past the top fast sync block all entries are returned as valid.
  if sync.fastSyncStopHeight ≤ startHeight then .ok (entries, [])
  else do
    let hashesStartHeight := startHeight / FAST_SYNC_BATCH_LEN * FAST_SYNC_BATCH_LEN
    let lastHeight := amountOfHashes entries + startHeight
    let hashesStopHeight :=
      min (lastHeight / FAST_SYNC_BATCH_LEN * FAST_SYNC_BATCH_LEN) sync.fastSyncStopHeight
    let startingHashes ←
      (blockHashInRange blockHash hashesStartHeight startHeight).mapError (.error ∘ .database)
    if amountOfHashes entries + startingHashes.length < FAST_SYNC_BATCH_LEN then .ok ([], entries)
    else
      let (valid, unknown) := splitUnknown entries (lastHeight - hashesStopHeight)
      let lastI ← sync.verifyHashes hashesStartHeight (startingHashes ++ allIds valid) 0 [] 1
      if lastI % FAST_SYNC_BATCH_LEN = 0 then .ok (valid, unknown) else .error .panic

end Cuprate.FastSync
