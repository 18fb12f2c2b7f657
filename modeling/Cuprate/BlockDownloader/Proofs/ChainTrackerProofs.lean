import Cuprate.BlockDownloader.ChainTracker
import Cuprate.FastSync.Proofs.ValidateEntriesProofs
import Cuprate.Pruning.Proofs.PruningSeedProofs

/-!
# The batches a chain tracker hands out

The validated ids end at a multiple of 512 whenever ids below the stop height wait for validation,
so validation never empties an entry.
-/

namespace Cuprate.FastSync

open Collections BlockDownloader List ChainTracker

variable {P H E : Type} {sync : FastSyncHashes} {blockHash : Nat → Except E Hash}

/-- The three ways in which validation succeeds. -/
theorem validateEntries_eq_ok {entries valid unknown : List (ChainEntry P H)} {start : Nat}
    (h : sync.validateEntries blockHash entries start = .ok (valid, unknown)) :
    (sync.fastSyncStopHeight ≤ start ∧ valid = entries ∧ unknown = []) ∨
    (start < sync.fastSyncStopHeight ∧
      amountOfHashes entries + start % FAST_SYNC_BATCH_LEN < FAST_SYNC_BATCH_LEN ∧
      valid = [] ∧ unknown = entries) ∨
    (start < sync.fastSyncStopHeight ∧
      FAST_SYNC_BATCH_LEN ≤ amountOfHashes entries + start % FAST_SYNC_BATCH_LEN ∧
      splitUnknown entries (unknownAmount sync entries start) = (valid, unknown)) := by
  by_cases hstop : start < sync.fastSyncStopHeight
  · cases hdb : blockHashInRange blockHash (start / FAST_SYNC_BATCH_LEN * FAST_SYNC_BATCH_LEN) start with
    | error e =>
      have hnot : ¬sync.fastSyncStopHeight ≤ start := not_le.mpr hstop
      simp only [FastSyncHashes.validateEntries, hnot, if_false, hdb] at h
      cases h
    | ok starting =>
      rcases validateEntries_below entries hstop hdb with
        ⟨hfew, hok⟩ | ⟨hfull, valid', unknown', hsplit, n, -, ⟨-, hok⟩ | ⟨-, herr⟩⟩
      · obtain ⟨rfl, rfl⟩ := Prod.mk.inj (Except.ok.inj (hok.symm.trans h))
        exact .inr (.inl ⟨hstop, hfew, rfl, rfl⟩)
      · obtain ⟨rfl, rfl⟩ := Prod.mk.inj (Except.ok.inj (hok.symm.trans h))
        exact .inr (.inr ⟨hstop, hfull, hsplit⟩)
      · rw [herr] at h
        cases h
  · rw [validateEntries_past entries (not_lt.mp hstop)] at h
    cases h
    exact .inl ⟨not_lt.mp hstop, rfl, rfl⟩

theorem splitUnknown_of_lt (entries : List (ChainEntry P H)) {last : ChainEntry P H} {diff : Nat}
    (hlt : diff < last.ids.length) :
    splitUnknown (entries ++ [last]) diff =
      if diff = 0 then (entries ++ [last], [])
      else (entries ++ [{ last with ids := last.ids.take (last.ids.length - diff) }],
        [{ last with ids := last.ids.drop (last.ids.length - diff) }]) := by
  by_cases hzero : diff = 0
  · simp [splitUnknown, splitUnknownLoop, hzero]
  · simp [splitUnknown, splitUnknownLoop, hzero, hlt.le]

def NoneEmpty (entries : List (ChainEntry P H)) : Prop := ∀ e ∈ entries, e.ids ≠ []

theorem noneEmpty_nil : NoneEmpty ([] : List (ChainEntry P H)) := nofun

theorem NoneEmpty.append {xs ys : List (ChainEntry P H)} (hxs : NoneEmpty xs) (hys : NoneEmpty ys) :
    NoneEmpty (xs ++ ys) := fun e he => (mem_append.mp he).elim (hxs e) (hys e)

theorem NoneEmpty.singleton {e : ChainEntry P H} (h : e.ids ≠ []) : NoneEmpty [e] := by
  intro e' he'
  rwa [mem_singleton.mp he']

/-- Ids below the stop height only wait while they do not fill the group they are in. -/
def Aligned (sync : FastSyncHashes) (height : Nat) (unknown : List (ChainEntry P H)) : Prop :=
  height < sync.fastSyncStopHeight →
    amountOfHashes unknown + height % FAST_SYNC_BATCH_LEN < FAST_SYNC_BATCH_LEN

theorem aligned_nil (height : Nat) : Aligned sync height ([] : List (ChainEntry P H)) := by
  intro _
  simp only [amountOfHashes_nil, FAST_SYNC_BATCH_LEN]
  omega

/-- Validation of the waiting entries together with a new one cuts inside the new entry. -/
theorem validateEntries_noneEmpty {waiting valid unknown : List (ChainEntry P H)} {entry : ChainEntry P H}
    {start : Nat} (hwaiting : NoneEmpty waiting) (hentry : entry.ids ≠ [])
      (haligned : Aligned sync start waiting)
    (h : sync.validateEntries blockHash (waiting ++ [entry]) start = .ok (valid, unknown)) :
    NoneEmpty valid ∧ NoneEmpty unknown ∧ Aligned sync (start + amountOfHashes valid) unknown ∧
      allIds valid ++ allIds unknown = allIds waiting ++ entry.ids := by
  have hall : NoneEmpty (waiting ++ [entry]) := hwaiting.append (.singleton hentry)
  have hids : allIds (waiting ++ [entry]) = allIds waiting ++ entry.ids := by simp
  rcases validateEntries_eq_ok h with ⟨hstop, rfl, rfl⟩ | ⟨-, hfew, rfl, rfl⟩ | ⟨hstop, hfull, hsplit⟩
  · exact ⟨hall, noneEmpty_nil, aligned_nil _, by rw [hids, allIds_nil, append_nil]⟩
  · exact ⟨noneEmpty_nil, hall, fun _ => hfew, hids⟩
  · have hcut := cutsAt_unknownAmount _ hstop hfull
    obtain ⟨hsent, hamount⟩ := splitUnknown_spec _ _ hcut.le
    rw [hsplit] at hsent hamount
    simp only at hsent hamount
    obtain ⟨hvalid, hlen⟩ := allIds_split hsent
    rw [hids] at hvalid
    have hunknown : amountOfHashes unknown = unknownAmount sync (waiting ++ [entry]) start := by omega
    have hend : start + (amountOfHashes (waiting ++ [entry])
        - unknownAmount sync (waiting ++ [entry]) start) = start + amountOfHashes valid := by omega
    have hmod := hcut.aligned
    have hgroup := hcut.group_le
    have hfew := hcut.few_unknown
    rw [hend] at hmod hgroup hfew
    -- The waiting ids end before the group does, so the cut is inside the new entry.
    have hwait := haligned hstop
    simp only [amountOfHashes_append, amountOfHashes_cons, amountOfHashes_nil] at hamount
    have hinside : unknownAmount sync (waiting ++ [entry]) start < entry.ids.length := by
      simp only [FAST_SYNC_BATCH_LEN] at hwait hgroup
      omega
    refine ⟨?_, ?_, fun hlt => ?_, hvalid.symm⟩
    · rw [splitUnknown_of_lt waiting hinside] at hsplit
      split at hsplit
      · cases hsplit
        exact hall
      · cases hsplit
        refine hwaiting.append (.singleton fun hnil => ?_)
        have := congrArg List.length hnil
        rw [length_take, length_nil] at this
        omega
    · rw [splitUnknown_of_lt waiting hinside] at hsplit
      split at hsplit
      · cases hsplit
        exact noneEmpty_nil
      · cases hsplit
        refine .singleton fun hnil => ?_
        have := congrArg List.length hnil
        rw [length_drop, length_nil] at this
        omega
    · rw [hunknown, hmod, add_zero]
      exact hfew.resolve_right (by omega)

end Cuprate.FastSync

namespace Cuprate.BlockDownloader

open Collections Pruning FastSync MachineNumbers Option List

variable {P H E : Type}

namespace ChainTracker

/-- The batch of the first `n` ids of `entry`. -/
def batch (tracker : ChainTracker P H) (entry : ChainEntry P H) (n : Nat) : BlocksToRetrieve P H where
  ids := entry.ids.take n
  prevId := tracker.previousHash
  startHeight := tracker.firstHeight
  peerWhoToldUs := entry.peer
  peerWhoToldUsHandle := entry.handle
  requestsSent := 0
  failures := 0

/-- The tracker after the first `n` ids of its first entry were handed out. -/
def afterBatch (tracker : ChainTracker P H) (entry : ChainEntry P H)
    (entries : List (ChainEntry P H)) (n : Nat) : ChainTracker P H :=
  { tracker with
    firstHeight := tracker.firstHeight + n
    previousHash := (entry.ids.take n).getLastD tracker.previousHash
    validEntries :=
      if (entry.ids.drop n).isEmpty then entries
      else { entry with ids := entry.ids.drop n } :: entries }

variable {tracker tracker' : ChainTracker P H} {seed : PruningSeed} {maxBlocks : Nat}

variable {entry : ChainEntry P H}

theorem blocksToGet_cons {entries : List (ChainEntry P H)}
    (hkeep : seed.hasFullBlock tracker.firstHeight MAX_BLOCK_HEIGHT_USIZE)
    (hvalid : tracker.validEntries = entry :: entries) {next : Option Nat}
    (hnext : seed.getNextPrunedBlock tracker.firstHeight MAX_BLOCK_HEIGHT_USIZE = .ok next) :
    tracker.blocksToGet seed maxBlocks =
      (checkedSub (next.getD MAX_BLOCK_HEIGHT_USIZE) tracker.firstHeight).bind fun untilPruned =>
        if min (min entry.ids.length maxBlocks) untilPruned = 0 then some (none, tracker)
        else some (some (tracker.batch entry (min (min entry.ids.length maxBlocks) untilPruned)),
          tracker.afterBatch entry entries (min (min entry.ids.length maxBlocks) untilPruned)) := by
  simp only [blocksToGet, hkeep, if_true, hvalid, hnext]
  rfl

/-- A batch is a non-empty part of the first entry that the seed keeps in full. -/
theorem blocksToGet_cases {result : Option (BlocksToRetrieve P H)}
    (h : tracker.blocksToGet seed maxBlocks = some (result, tracker')) :
      result = none ∧ tracker' = tracker ∨
    ∃ entry entries n, tracker.validEntries = entry :: entries ∧ 0 < n ∧ n ≤ entry.ids.length ∧
      n ≤ maxBlocks ∧ (∀ height, tracker.firstHeight ≤ height → height < tracker.firstHeight + n →
        seed.hasFullBlock height MAX_BLOCK_HEIGHT_USIZE) ∧
      result = some (tracker.batch entry n) ∧ tracker' = tracker.afterBatch entry entries n := by
  by_cases hkeep : seed.hasFullBlock tracker.firstHeight MAX_BLOCK_HEIGHT_USIZE
  · cases hvalid : tracker.validEntries with
    | nil =>
      simp only [blocksToGet, hkeep, if_true, hvalid] at h
      exact .inl ((Prod.mk.inj (some.inj h)).imp Eq.symm Eq.symm)
    | cons entry entries =>
      obtain ⟨next, hnext, hkept, -⟩ := PruningSeed.exists_getNextPrunedBlock hkeep
      rw [blocksToGet_cons hkeep hvalid hnext] at h
      obtain ⟨untilPruned, hsub, h⟩ := bind_eq_some_iff.mp h
      obtain ⟨hle, rfl⟩ := checkedSub_eq_some.mp hsub
      split at h
      · exact .inl ((Prod.mk.inj (some.inj h)).imp Eq.symm Eq.symm)
      · next hpos =>
        obtain ⟨hblocks, htracker⟩ := Prod.mk.inj (some.inj h)
        refine .inr ⟨entry, entries, _, rfl, Nat.pos_of_ne_zero hpos, ?_, ?_, fun height hle hlt => ?_,
          hblocks.symm, htracker.symm⟩
        · omega
        · omega
        · exact hkept height hle (by omega)
  · simp only [blocksToGet, hkeep] at h
    exact .inl ((Prod.mk.inj (some.inj h)).imp Eq.symm Eq.symm)

theorem blocksToGet_none (h : tracker.blocksToGet seed maxBlocks = some (none, tracker')) :
    tracker' = tracker := by
  rcases blocksToGet_cases h with ⟨-, heq⟩ | ⟨_, _, _, -, -, -, -, -, hnone, -⟩
  · exact heq
  · cases hnone

theorem blocksToGet_eq_some {blocks : BlocksToRetrieve P H}
    (h : tracker.blocksToGet seed maxBlocks = some (some blocks, tracker')) :
    ∃ entry entries n, tracker.validEntries = entry :: entries ∧ 0 < n ∧ n ≤ entry.ids.length ∧
      n ≤ maxBlocks ∧ (∀ height, tracker.firstHeight ≤ height → height < tracker.firstHeight + n →
        seed.hasFullBlock height MAX_BLOCK_HEIGHT_USIZE) ∧
      blocks = tracker.batch entry n ∧ tracker' = tracker.afterBatch entry entries n := by
  simpa using blocksToGet_cases h

theorem exists_blocksToGet {entries : List (ChainEntry P H)}
    (hkeep : seed.hasFullBlock tracker.firstHeight MAX_BLOCK_HEIGHT_USIZE)
    (hheight : tracker.firstHeight < MAX_BLOCK_HEIGHT_USIZE) (hstripes : ¬seed.SingleStripe)
      (hmax : 1 ≤ maxBlocks)
    (hvalid : tracker.validEntries = entry :: entries) (hentry : entry.ids ≠ []) :
    ∃ blocks tracker', tracker.blocksToGet seed maxBlocks = some (some blocks, tracker') := by
  obtain ⟨next, hnext, -, -, hlt⟩ := PruningSeed.exists_getNextPrunedBlock hkeep
  have hlt := hlt hheight hstripes
  have hlen := length_pos_iff.mpr hentry
  rw [blocksToGet_cons hkeep hvalid hnext, checkedSub, if_pos hlt.le, bind_some, if_neg (by omega)]
  exact ⟨_, _, rfl⟩

theorem addEntry_eq_ok {chainEntry : ChainEntry P H} {svc : ChainSvc P H E}
    (h : tracker.addEntry chainEntry svc = (.ok (), tracker')) :
    ∃ valid unknown, chainEntry.ids.tail ≠ [] ∧
      svc.validateEntries (tracker.unknownEntries ++ [{ chainEntry with ids := chainEntry.ids.tail }])
        (tracker.firstHeight + amountOfHashes tracker.validEntries) = .ok (valid, unknown) ∧
      tracker'.validEntries = tracker.validEntries ++ valid ∧ tracker'.unknownEntries = unknown ∧
      tracker'.firstHeight = tracker.firstHeight ∧ tracker'.previousHash = tracker.previousHash := by
  obtain ⟨ids, peer, handle⟩ := chainEntry
  match ids with
  | [] => cases h
  | [_] => cases h
  | first :: second :: rest =>
    simp only [addEntry] at h
    split at h
    · cases h
    split at h
    · cases h
    split at h
    · cases h
    · next valid unknown hsvc =>
      cases h
      exact ⟨valid, unknown, cons_ne_nil _ _, hsvc, rfl, rfl, rfl, rfl⟩

/-! ## Runs -/

/-- Every batch starts where the batches before it end, has its previous id and at most as many ids
as asked for, and the peer keeps all its blocks. -/
def Consecutive (firstHeight : Nat) (previousHash : Hash) (handed : List (HandedOut P H)) : Prop :=
  ∀ before b after, handed = before ++ b :: after →
    b.blocks.startHeight = firstHeight + (handedIds before).length ∧
    b.blocks.prevId = (handedIds before).getLastD previousHash ∧
    1 ≤ b.blocks.ids.length ∧ b.blocks.ids.length ≤ b.maxBlocks ∧
    ∀ height, b.blocks.startHeight ≤ height → height < b.blocks.startHeight + b.blocks.ids.length →
      b.pruningSeed.hasFullBlock height MAX_BLOCK_HEIGHT_USIZE

@[simp] theorem handedIds_append (xs ys : List (HandedOut P H)) :
    handedIds (xs ++ ys) = handedIds xs ++ handedIds ys := flatMap_append ..

@[simp] theorem handedIds_singleton (b : HandedOut P H) :
    handedIds [b] = b.blocks.ids := flatMap_singleton ..

theorem Consecutive.append {firstHeight : Nat} {previousHash : Hash} {handed : List (HandedOut P H)}
    (h : Consecutive firstHeight previousHash handed) {b : HandedOut P H}
    (hstart : b.blocks.startHeight = firstHeight + (handedIds handed).length)
    (hprev : b.blocks.prevId = (handedIds handed).getLastD previousHash) (hpos : 1 ≤ b.blocks.ids.length)
    (hmax : b.blocks.ids.length ≤ b.maxBlocks)
    (hkept : ∀ height, b.blocks.startHeight ≤ height →
      height < b.blocks.startHeight + b.blocks.ids.length →
      b.pruningSeed.hasFullBlock height MAX_BLOCK_HEIGHT_USIZE) :
    Consecutive firstHeight previousHash (handed ++ [b]) := by
  intro before b' after heq
  rcases eq_nil_or_concat after with rfl | ⟨after, last, rfl⟩
  · obtain ⟨rfl, hb⟩ := append_inj' heq rfl
    obtain rfl := singleton_inj.mp hb
    exact ⟨hstart, hprev, hpos, hmax, hkept⟩
  · rw [concat_eq_append, ← cons_append, ← append_assoc] at heq
    exact h before b' after (append_inj_left' heq rfl)

/-- What the calls keep: the added ids are those handed out, then the validated and the waiting
ones. -/
structure Inv (sync : FastSyncHashes) (firstHeight : Nat) (previousHash : Hash)
    (tracker : ChainTracker P H) (added : List Hash) (handed : List (HandedOut P H)) : Prop where
  added_eq : added = handedIds handed ++ (allIds tracker.validEntries ++ allIds tracker.unknownEntries)
  firstHeight_eq : tracker.firstHeight = firstHeight + (handedIds handed).length
  previousHash_eq : tracker.previousHash = (handedIds handed).getLastD previousHash
  consecutive : Consecutive firstHeight previousHash handed
  valid : NoneEmpty tracker.validEntries
  unknown : NoneEmpty tracker.unknownEntries
  aligned : Aligned sync (tracker.firstHeight + amountOfHashes tracker.validEntries)
    tracker.unknownEntries

variable {sync : FastSyncHashes} {firstHeight : Nat} {previousHash : Hash} {added : List Hash}
  {handed : List (HandedOut P H)}

theorem inv_new {ourGenesis : Hash} {svc : ChainSvc P H (Fault (ValidateError E))}
    (hentry : entry.ids ≠ [])
    (hsvc : svc.ByFastSync sync)
      (hnew : new entry firstHeight ourGenesis previousHash svc = some (.ok tracker)) :
    Inv sync firstHeight previousHash tracker entry.ids [] := by
  obtain ⟨top, -, hnew⟩ := bind_eq_some_iff.mp hnew
  split at hnew
  · exact absurd (some.inj hnew) (nomatch ·)
  · next valid unknown hres =>
    obtain rfl := Except.ok.inj (some.inj hnew)
    obtain ⟨-, -, hvalidate⟩ := bind_eq_ok.mp hres
    obtain ⟨blockHash, hsvc⟩ := hsvc
    rw [hsvc] at hvalidate
    obtain ⟨hvalid, hunknown, haligned, hids⟩ :=
      validateEntries_noneEmpty noneEmpty_nil hentry (aligned_nil firstHeight) hvalidate
    exact ⟨hids.symm, rfl, rfl, fun before b after h => by simp at h, hvalid, hunknown, haligned⟩

theorem Inv.addEntry (hinv : Inv sync firstHeight previousHash tracker added handed)
    {svc : ChainSvc P H (Fault (ValidateError E))} (hsvc : svc.ByFastSync sync)
    (hadd : tracker.addEntry entry svc = (.ok (), tracker')) :
    Inv sync firstHeight previousHash tracker' (added ++ entry.ids.tail) handed := by
  obtain ⟨valid, unknown, hentry, hvalidate, hvalid', hunknown', hfirst, hprev⟩ := addEntry_eq_ok hadd
  obtain ⟨blockHash, hsvc⟩ := hsvc
  rw [hsvc] at hvalidate
  obtain ⟨hvalid, hunknown, haligned, hids⟩ :=
    validateEntries_noneEmpty hinv.unknown hentry hinv.aligned hvalidate
  constructor
  · rw [hinv.added_eq, hvalid', hunknown', allIds_append]
    simp only [append_assoc, hids]
  · rw [hfirst, hinv.firstHeight_eq]
  · rw [hprev, hinv.previousHash_eq]
  · exact hinv.consecutive
  · rw [hvalid']
    exact hinv.valid.append hvalid
  · rw [hunknown']
    exact hunknown
  · rw [hfirst, hvalid', hunknown', amountOfHashes_append, ← add_assoc]
    exact haligned

theorem getLastD_append_of_ne_nil {α : Type} {xs ys : List α} (a : α) (h : ys ≠ []) :
    (xs ++ ys).getLastD a = ys.getLastD (xs.getLastD a) := by
  rw [getLastD_eq_getLast?, getLastD_eq_getLast?, getLast?_append_of_ne_nil _ h,
    getLast?_eq_getLast_of_ne_nil h]
  rfl

theorem Inv.blocksToGet (hinv : Inv sync firstHeight previousHash tracker added handed)
    {blocks : BlocksToRetrieve P H}
      (hget : tracker.blocksToGet seed maxBlocks = some (some blocks, tracker')) :
    Inv sync firstHeight previousHash tracker' added (handed ++ [⟨seed, maxBlocks, blocks⟩]) := by
  obtain ⟨entry, entries, n, hvalid, hpos, hlen, hmax, hkept, rfl, rfl⟩ := blocksToGet_eq_some hget
  have htake : (entry.ids.take n).length = n := by
    rw [length_take]
    omega
  have hne : entry.ids.take n ≠ [] := length_pos_iff.mp (by omega)
  have hsplit := take_append_drop n entry.ids
  have hentries := hinv.valid
  rw [hvalid] at hentries
  -- The ids left of the first entry, which leaves the queue when there are none.
  have hrest : allIds (tracker.afterBatch entry entries n).validEntries
      = entry.ids.drop n ++ allIds entries := by
    simp only [afterBatch]
    split
    · next hempty => rw [isEmpty_iff.mp hempty, nil_append]
    · rfl
  have hids : handedIds (handed ++ [⟨seed, maxBlocks, tracker.batch entry n⟩])
      = handedIds handed ++ entry.ids.take n := by
    rw [handedIds_append, handedIds_singleton]
    rfl
  have hadded := hinv.added_eq
  rw [hvalid, allIds_cons] at hadded
  constructor
  · rw [hrest, hids, hadded]
    simp only [append_assoc]
    rw [← append_assoc (entry.ids.take n), hsplit]
    rfl
  · rw [hids, length_append, ← add_assoc, ← hinv.firstHeight_eq, htake]
    rfl
  · rw [hids, getLastD_append_of_ne_nil _ hne, ← hinv.previousHash_eq]
    rfl
  · exact hinv.consecutive.append hinv.firstHeight_eq hinv.previousHash_eq (by simp only [batch]; omega)
      (by simp only [batch]; omega) (by simpa only [batch, htake] using hkept)
  · simp only [afterBatch]
    split
    · exact fun e he => hentries e (.tail _ he)
    · next hempty =>
      intro e he
      rcases mem_cons.mp he with rfl | he
      · simpa [List.isEmpty_iff] using hempty
      · exact hentries e (.tail _ he)
  · exact hinv.unknown
  · have haligned := hinv.aligned
    have hamount : (tracker.afterBatch entry entries n).firstHeight
        + amountOfHashes (tracker.afterBatch entry entries n).validEntries
        = tracker.firstHeight + amountOfHashes tracker.validEntries := by
      rw [← length_allIds, hrest, hvalid, amountOfHashes_cons, length_append, length_drop, length_allIds]
      simp only [afterBatch]
      omega
    rw [hamount]
    exact haligned

theorem Run.inv (hrun : Run E sync firstHeight previousHash tracker added handed) :
    Inv sync firstHeight previousHash tracker added handed := by
  induction hrun with
  | new hentry hsvc hnew => exact inv_new hentry hsvc hnew
  | addEntry _ hsvc hadd ih => exact ih.addEntry hsvc hadd
  | @blocksToGet _ _ _ _ _ _ blocks _ _ hget ih =>
    cases blocks with
    | none =>
      rw [blocksToGet_none hget]
      simpa using ih
    | some blocks => exact ih.blocksToGet hget

theorem blocksToGet_ne_none (hheight : tracker.firstHeight < MAX_BLOCK_HEIGHT_USIZE) :
    tracker.blocksToGet seed maxBlocks ≠ none := by
  by_cases hkeep : seed.hasFullBlock tracker.firstHeight MAX_BLOCK_HEIGHT_USIZE
  · cases hvalid : tracker.validEntries with
    | nil => simp [blocksToGet, hkeep, hvalid]
    | cons entry entries =>
      obtain ⟨next, hnext, -, hle, -⟩ := PruningSeed.exists_getNextPrunedBlock hkeep
      rw [blocksToGet_cons hkeep hvalid hnext, checkedSub, if_pos (hle hheight), bind_some]
      split
      · exact some_ne_none _
      · exact some_ne_none _
  · simp [blocksToGet, hkeep]

/-- The batches follow one another and are a prefix of the added ids; below the maximum height, a
seed of several stripes gets none only when it does not keep the next block or no validated id is
left. -/
theorem Run.batches_follow_added (hrun : Run E sync firstHeight previousHash tracker added handed) :
    Consecutive firstHeight previousHash handed ∧ handedIds handed <+: added ∧
    ∀ (seed : PruningSeed) (maxBlocks : Nat), 1 ≤ maxBlocks →
      tracker.firstHeight < MAX_BLOCK_HEIGHT_USIZE → tracker.blocksToGet seed maxBlocks ≠ none ∧
      (¬seed.SingleStripe → ∀ tracker', tracker.blocksToGet seed maxBlocks = some (none, tracker') →
        seed.hasFullBlock tracker.firstHeight MAX_BLOCK_HEIGHT_USIZE = false ∨
          allIds tracker.validEntries = []) := by
  have hinv := hrun.inv
  refine ⟨hinv.consecutive, ⟨_, hinv.added_eq.symm⟩, fun seed maxBlocks hmax hheight => ?_⟩
  refine ⟨blocksToGet_ne_none hheight, fun hstripes tracker' hnone => ?_⟩
  by_cases hkeep : seed.hasFullBlock tracker.firstHeight MAX_BLOCK_HEIGHT_USIZE
  · right
    cases hvalid : tracker.validEntries with
    | nil => rfl
    | cons entry entries =>
      have hentry : entry.ids ≠ [] := hinv.valid entry (hvalid ▸ .head _)
      obtain ⟨blocks, tracker'', hsome⟩ := exists_blocksToGet hkeep hheight hstripes hmax hvalid hentry
      rw [hsome] at hnone
      exact absurd (Prod.mk.inj (some.inj hnone)).1 (some_ne_none _)
  · exact .inl (Bool.not_eq_true _ ▸ hkeep)

def emptySync : FastSyncHashes := ⟨[], fun _ => 0⟩

def oneIdTracker (height : Nat) : ChainTracker String Nat :=
  ⟨[⟨[1], "a", 0⟩], [], height, 1, 0, 0⟩

/-- A service that validates entries without embedded hashes. -/
def emptySvc : ChainSvc String Nat (Fault (ValidateError Unit)) :=
  ⟨.ok (), emptySync.validateEntries fun _ => .error ()⟩

theorem emptySvc_validateEntries (entries : List (ChainEntry String Nat)) (height : Nat) :
    emptySvc.validateEntries entries height = .ok (entries, []) := by
  have hstop : emptySync.fastSyncStopHeight = 0 := by simp [FastSyncHashes.fastSyncStopHeight, emptySync]
  dsimp only [emptySvc]
  rw [validateEntries_past entries (hstop.trans_le (Nat.zero_le height))]

theorem emptySvc_byFastSync : emptySvc.ByFastSync emptySync := by
  refine ⟨fun _ => .error (), ?_⟩
  dsimp only [emptySvc]

theorem oneIdTracker_run (height : Nat) : Run Unit emptySync height 0 (oneIdTracker height) [1] [] := by
  have hnew : new ⟨[1], "a", 0⟩ height 0 0 emptySvc = some (.ok (oneIdTracker height)) := by
    unfold new
    rw [emptySvc_validateEntries]
    rfl
  exact .new (cons_ne_nil _ _) emptySvc_byFastSync hnew

def wholeChainSeed : PruningSeed := .pruned ⟨0, 1, by decide, by decide, by decide⟩

/-- At the maximum height no batch is handed out although the peer keeps every block, and a seed of
one stripe never gets a batch. -/
theorem blocksToGet_blocked :
    (∃ tracker : ChainTracker String Nat, Run Unit emptySync MAX_BLOCK_HEIGHT_USIZE 0 tracker [1] [] ∧
      PruningSeed.notPruned.hasFullBlock tracker.firstHeight MAX_BLOCK_HEIGHT_USIZE = true ∧
      allIds tracker.validEntries = [1] ∧ tracker.blocksToGet .notPruned 1 = some (none, tracker)) ∧
    (∃ tracker : ChainTracker String Nat, Run Unit emptySync 0 0 tracker [1] [] ∧
      wholeChainSeed.hasFullBlock tracker.firstHeight MAX_BLOCK_HEIGHT_USIZE = true ∧
      allIds tracker.validEntries = [1] ∧
        tracker.blocksToGet wholeChainSeed 1 = some (none, tracker)) := by
  refine ⟨⟨_, oneIdTracker_run _, rfl, rfl, ?_⟩, ⟨_, oneIdTracker_run 0, ?_, rfl, ?_⟩⟩
  · decide +kernel
  · decide +kernel
  · decide +kernel

/-- The tracker of one id hands it out to an unpruned peer. -/
theorem batches_follow_added_oneIdTracker :
    ∃ (tracker : ChainTracker String Nat) (handed : List (HandedOut String Nat)),
      Run Unit emptySync 0 0 tracker [1] handed ∧ handed.length = 1 ∧
      Consecutive 0 0 handed ∧ handedIds handed <+: [1] ∧ tracker.blocksToGet .notPruned 5 ≠ none := by
  have hget : (oneIdTracker 0).blocksToGet .notPruned 5
      = some (some ((oneIdTracker 0).batch ⟨[1], "a", 0⟩ 1),
        (oneIdTracker 0).afterBatch ⟨[1], "a", 0⟩ [] 1) := by
    decide +kernel
  have hrun := (oneIdTracker_run 0).blocksToGet (by decide) hget
  obtain ⟨hconsecutive, hpre, hnext⟩ := hrun.batches_follow_added
  exact ⟨_, _, hrun, rfl, hconsecutive, hpre, (hnext .notPruned 5 (by decide) (by decide)).1⟩

/-- The new entry has a new id and follows the chain, so the service is asked. -/
def AsksService (tracker : ChainTracker P H) (chainEntry : ChainEntry P H) : Prop :=
  2 ≤ chainEntry.ids.length ∧ chainEntry.ids.head? = some tracker.topSeenHash

/-- What the service answers to the new entry. -/
def serviceAnswer (tracker : ChainTracker P H) (chainEntry : ChainEntry P H) (svc : ChainSvc P H E) :
    Except E (List (ChainEntry P H) × List (ChainEntry P H)) := do
  svc.ready
  svc.validateEntries (tracker.unknownEntries ++ [{ chainEntry with ids := chainEntry.ids.tail }])
    (tracker.firstHeight + amountOfHashes tracker.validEntries)

/-- A call fails exactly if the service is not asked or answers with an error. It then leaves the
tracker as it was if the service is not asked, and otherwise only if the service was ready, no entry
waited and the new ids lead back to the top seen hash. -/
theorem addEntry_error_unchanged_iff (tracker : ChainTracker P H) (chainEntry : ChainEntry P H)
    (svc : ChainSvc P H E) : ((tracker.addEntry chainEntry svc).1.isOk = false ↔
      (tracker.AsksService chainEntry → (tracker.serviceAnswer chainEntry svc).isOk = false)) ∧
    ((tracker.addEntry chainEntry svc).1.isOk = false → ((tracker.addEntry chainEntry svc).2 = tracker ↔
      (tracker.AsksService chainEntry → svc.ready.isOk ∧ tracker.unknownEntries = [] ∧
        chainEntry.ids.getLast? = some tracker.topSeenHash))) := by
  obtain ⟨ids, peer, handle⟩ := chainEntry
  unfold addEntry AsksService serviceAnswer
  match ids with
  | [] => simp [Except.isOk, Except.toBool]
  | [_] => simp [Except.isOk, Except.toBool]
  | first :: second :: rest =>
    by_cases hfollows : first = tracker.topSeenHash
    · obtain ⟨valid, unknown, firstHeight, topSeenHash, previousHash, ourGenesis⟩ := tracker
      dsimp only at hfollows ⊢
      subst hfollows
      rw [if_neg (not_not.mpr rfl)]
      have hlast : (second :: rest).getLast? = some ((second :: rest).getLast (cons_ne_nil _ _)) :=
        getLast?_eq_getLast_of_ne_nil _
      cases hready : svc.ready with
      | error e =>
        -- the new entry stays with the entries that wait
        simp [Except.isOk, Except.toBool, bind, Except.bind]
      | ok =>
        dsimp only [tail_cons]
        cases svc.validateEntries (unknown ++ [⟨second :: rest, peer, handle⟩])
            (firstHeight + amountOfHashes valid) with
        | error e =>
          simp [Except.isOk, Except.toBool, bind, Except.bind, hlast, eq_comm, and_comm]
        | ok answer => simp [Except.isOk, Except.toBool, bind, Except.bind]
    · simp [Except.isOk, Except.toBool, hfollows]

/-- The service refuses ids that lead back to the top seen hash, and no other ids wait. -/
theorem addEntry_error_unchanged_loop :
    let svc : ChainSvc String Nat Unit := ⟨.ok (), fun _ _ => .error ()⟩
    ((oneIdTracker 0).addEntry ⟨[1, 2, 1], "b", 1⟩ svc).1 = .error (.chainSvcError ()) ∧
      ((oneIdTracker 0).addEntry ⟨[1, 2, 1], "b", 1⟩ svc).2 = oneIdTracker 0 := by
  intro svc
  have h := (addEntry_error_unchanged_iff (oneIdTracker 0) ⟨[1, 2, 1], "b", 1⟩ svc).2
  exact ⟨rfl, (h rfl).mpr fun _ => ⟨rfl, rfl, rfl⟩⟩

def oneHashSync : FastSyncHashes := ⟨[0], fun ids => if ids.getLast? = some 11 then 0 else 1⟩

def oneHashSvc : ChainSvc String Nat (Fault (ValidateError Unit)) :=
  ⟨.ok (), oneHashSync.validateEntries fun _ => .ok 1⟩

/-- The id 10 waits for the block at height 511. After the ids of another peer have failed
validation it is gone, and the entry with the block that was waited for no longer follows. -/
theorem addEntry_hashesDoNotMatch_loses_ids :
    ∃ tracker bad : ChainTracker String Nat, Run Unit oneHashSync 510 0 tracker [10] [] ∧
      tracker.addEntry ⟨[10, 12], "b", 1⟩ oneHashSvc =
        (.error (.chainSvcError (.error .hashesDoNotMatch)), bad) ∧
      allIds tracker.unknownEntries = [10] ∧ allIds bad.unknownEntries = [] ∧ bad.topSeenHash = 12 ∧
      tracker.topHeight = 511 ∧ bad.topHeight = 510 ∧
      (tracker.addEntry ⟨[10, 11], "c", 2⟩ oneHashSvc).1 = .ok () ∧
      (bad.addEntry ⟨[10, 11], "c", 2⟩ oneHashSvc).1 = .error .newEntryDoesNotFollowChain := by
  have hnew : new ⟨[10], "a", 0⟩ 510 0 0 oneHashSvc =
      some (.ok ⟨[], [⟨[10], "a", 0⟩], 510, 10, 0, 0⟩) := by decide +kernel
  have hadd : addEntry ⟨[], [⟨[10], "a", 0⟩], 510, 10, 0, 0⟩ ⟨[10, 12], "b", 1⟩ oneHashSvc =
      (.error (.chainSvcError (.error .hashesDoNotMatch)), ⟨[], [], 510, 12, 0, 0⟩) := by decide +kernel
  have hsvc : oneHashSvc.ByFastSync oneHashSync := by
    refine ⟨fun _ => .ok 1, ?_⟩
    dsimp only [oneHashSvc]
  refine ⟨_, _, .new (cons_ne_nil _ _) hsvc hnew, hadd, rfl, rfl, rfl, rfl, rfl, ?_, rfl⟩
  decide +kernel

end ChainTracker

end Cuprate.BlockDownloader
