import Cuprate.FastSync.ValidateEntries
import Cuprate.MachineNumbers.Checked
import Cuprate.Pruning.PruningSeed

/-!
# The chain tracker

The chain the block downloader follows (`p2p/p2p/src/block_downloader/chain_tracker.rs`): the
entries that are validated and those that wait for more entries, from which batches are handed out.
A panic is `none`; bans of peers are left out.
-/

namespace Cuprate.BlockDownloader

open Collections Pruning FastSync MachineNumbers

variable {P H E : Type}

/-- A batch of blocks to request from a peer. -/
structure BlocksToRetrieve (P H : Type) where
  ids : List Hash
  /-- The hash of the last block before this batch. -/
  prevId : Hash
  startHeight : Nat
  peerWhoToldUs : P
  peerWhoToldUsHandle : H
  /-- The number of requests sent for this batch. -/
  requestsSent : Nat
  /-- The number of times this batch has been requested from a peer and failed. -/
  failures : Nat
deriving DecidableEq, Repr

/-- Why an entry is refused. -/
inductive ChainTrackerError (E : Type) where
  | newEntryIsInvalid
  | newEntryIsEmpty
  | newEntryDoesNotFollowChain
  | chainSvcError (e : E)
deriving DecidableEq, Repr

/-- The service with our chain state, as far as it validates entries: it returns the valid and the
unknown ones. -/
structure ChainSvc (P H E : Type) where
  ready : Except E Unit
  validateEntries : List (ChainEntry P H) → Nat → Except E (List (ChainEntry P H) × List (ChainEntry P H))

/-- The chain that is followed, as far as it is not handed out yet. -/
structure ChainTracker (P H : Type) where
  /-- The entries, in order, that we should request. -/
  validEntries : List (ChainEntry P H)
  /-- The entries that are pending more entries to check validity. -/
  unknownEntries : List (ChainEntry P H)
  /-- The height of the first block in the first entry. -/
  firstHeight : Nat
  /-- The hash of the last block in the last entry. -/
  topSeenHash : Hash
  /-- The hash of the block one below `firstHeight`. -/
  previousHash : Hash
  ourGenesis : Hash
deriving DecidableEq, Repr

namespace ChainTracker

/-- A tracker with its first entry. -/
def new (newEntry : ChainEntry P H) (firstHeight : Nat) (ourGenesis previousHash : Hash)
    (svc : ChainSvc P H E) : Option (Except (ChainTrackerError E) (ChainTracker P H)) := do
  let topSeenHash ← newEntry.ids.getLast?
  match (do svc.ready; svc.validateEntries [newEntry] firstHeight) with
  | .error e => some (.error (.chainSvcError e))
  | .ok (valid, unknown) =>
    some (.ok ⟨valid, unknown, firstHeight, topSeenHash, previousHash, ourGenesis⟩)

/-- The height after the last block in the tracker. -/
def topHeight (tracker : ChainTracker P H) : Nat :=
  tracker.firstHeight + amountOfHashes (tracker.validEntries ++ tracker.unknownEntries)

/-- Attempts to add an incoming entry. When validation fails, the unknown entries it was given are
gone. -/
def addEntry (tracker : ChainTracker P H) (chainEntry : ChainEntry P H) (svc : ChainSvc P H E) :
    Except (ChainTrackerError E) Unit × ChainTracker P H :=
  match chainEntry.ids with
  | [] => (.error .newEntryIsInvalid, tracker)
  | [_] => (.error .newEntryIsEmpty, tracker)
  | first :: second :: rest =>
    if first ≠ tracker.topSeenHash then (.error .newEntryDoesNotFollowChain, tracker)
    else
      -- The first block is ignored, we already know it.
      let newEntry := { chainEntry with ids := second :: rest }
      let tracker := { tracker with
        topSeenHash := (second :: rest).getLast (List.cons_ne_nil _ _)
        unknownEntries := tracker.unknownEntries ++ [newEntry] }
      match svc.ready with
      | .error e => (.error (.chainSvcError e), tracker)
      | .ok () =>
        match svc.validateEntries tracker.unknownEntries
            (tracker.firstHeight + amountOfHashes tracker.validEntries) with
        | .error e => (.error (.chainSvcError e), { tracker with unknownEntries := [] })
        | .ok (valid, unknown) =>
          (.ok (), { tracker with
            validEntries := tracker.validEntries ++ valid
            unknownEntries := unknown })

/-- Returns a batch of at most `maxBlocks` blocks to request. -/
def blocksToGet (tracker : ChainTracker P H) (pruningSeed : PruningSeed) (maxBlocks : Nat) :
    Option (Option (BlocksToRetrieve P H) × ChainTracker P H) :=
  if pruningSeed.hasFullBlock tracker.firstHeight MAX_BLOCK_HEIGHT_USIZE then
    match tracker.validEntries with
    | [] => some (none, tracker)
    | entry :: entries => do
      let nextPruned ←
        (pruningSeed.getNextPrunedBlock tracker.firstHeight MAX_BLOCK_HEIGHT_USIZE).toOption
      let untilPruned ← checkedSub (nextPruned.getD MAX_BLOCK_HEIGHT_USIZE) tracker.firstHeight
      let endIdx := min (min entry.ids.length maxBlocks) untilPruned
      if endIdx = 0 then some (none, tracker)
      else
        let idsToGet := entry.ids.take endIdx
        let idsLeft := entry.ids.drop endIdx
        let blocks := {
          ids := idsToGet
          prevId := tracker.previousHash
          startHeight := tracker.firstHeight
          peerWhoToldUs := entry.peer
          peerWhoToldUsHandle := entry.handle
          requestsSent := 0
          failures := 0 }
        some (some blocks, { tracker with
          firstHeight := tracker.firstHeight + endIdx
          previousHash := idsToGet.getLastD tracker.previousHash
          validEntries :=
            if idsLeft.isEmpty then entries else { entry with ids := idsLeft } :: entries })
  else some (none, tracker)

end ChainTracker

/-- The service validates entries against the embedded hashes, with any database. -/
def ChainSvc.ByFastSync (sync : FastSyncHashes) (svc : ChainSvc P H (Fault (ValidateError E))) :
    Prop :=
  ∃ blockHash : Nat → Except E Hash, svc.validateEntries = sync.validateEntries blockHash

/-- A batch that was handed out, with the call that returned it. -/
structure HandedOut (P H : Type) where
  pruningSeed : PruningSeed
  maxBlocks : Nat
  blocks : BlocksToRetrieve P H

def handedIds (handed : List (HandedOut P H)) : List Hash := handed.flatMap fun b => b.blocks.ids

/-- The trackers reached by successful calls, with the ids added so far and the batches handed out
so far. -/
inductive ChainTracker.Run (E : Type) (sync : FastSyncHashes) (firstHeight : Nat)
    (previousHash : Hash) : ChainTracker P H → List Hash → List (HandedOut P H) → Prop
  | new {entry : ChainEntry P H} {ourGenesis : Hash}
      {svc : ChainSvc P H (Fault (ValidateError E))} {tracker : ChainTracker P H}
      (hentry : entry.ids ≠ []) (hsvc : svc.ByFastSync sync)
      (hnew : ChainTracker.new entry firstHeight ourGenesis previousHash svc = some (.ok tracker)) :
      Run E sync firstHeight previousHash tracker entry.ids []
  | addEntry {tracker tracker' : ChainTracker P H} {added : List Hash} {handed : List (HandedOut P H)}
      {entry : ChainEntry P H} {svc : ChainSvc P H (Fault (ValidateError E))}
      (hrun : Run E sync firstHeight previousHash tracker added handed) (hsvc : svc.ByFastSync sync)
      (hadd : tracker.addEntry entry svc = (.ok (), tracker')) :
      Run E sync firstHeight previousHash tracker' (added ++ entry.ids.tail) handed
  | blocksToGet {tracker tracker' : ChainTracker P H} {added : List Hash}
      {handed : List (HandedOut P H)} {pruningSeed : PruningSeed} {maxBlocks : Nat}
      {blocks : Option (BlocksToRetrieve P H)}
      (hrun : Run E sync firstHeight previousHash tracker added handed) (hmax : 1 ≤ maxBlocks)
      (hget : tracker.blocksToGet pruningSeed maxBlocks = some (blocks, tracker')) :
      Run E sync firstHeight previousHash tracker' added
        (handed ++ (blocks.map fun b => ⟨pruningSeed, maxBlocks, b⟩).toList)

/-! ## Requests -/

/-- The largest number of blocks in a batch (`p2p/p2p/src/constants.rs`). -/
def MAX_BLOCK_BATCH_LEN : Nat := 100

/-- Whether a peer has all the blocks in a range, according to its seed (`block_downloader.rs`). -/
def clientHasBlockInRange (pruningSeed : PruningSeed) (startHeight length : Nat) : Bool :=
  pruningSeed.hasFullBlock startHeight MAX_BLOCK_HEIGHT_USIZE &&
    pruningSeed.hasFullBlock (startHeight + length) MAX_BLOCK_HEIGHT_USIZE

end Cuprate.BlockDownloader
