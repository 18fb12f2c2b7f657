import Cuprate.FastSync.ValidateEntries

/-!
# What entry validation accepts

The split keeps every id with its peer and cuts at a multiple of 512; the loop over the hashes
accepts exactly when each group of 512 hashes matches its embedded hash.
-/

namespace Cuprate.FastSync

open Collections BlockDownloader List FastSyncHashes

variable {P H E : Type}

theorem splitUnknownLoop_spec (entries : List (ChainEntry P H)) (diff : Nat)
    (unknown : List (ChainEntry P H))
    (hdiff : diff ≤ amountOfHashes entries) :
    sentIds (splitUnknownLoop entries diff unknown).1.reverse
        ++ sentIds (splitUnknownLoop entries diff unknown).2
      = sentIds entries.reverse ++ sentIds unknown ∧
    amountOfHashes (splitUnknownLoop entries diff unknown).1 + diff = amountOfHashes entries := by
  induction entries generalizing diff unknown with
  | nil =>
    have hzero : diff = 0 := by simpa using hdiff
    simp [splitUnknownLoop, hzero]
  | cons back front ih =>
    rw [amountOfHashes_cons] at hdiff
    by_cases hzero : diff = 0
    · simp [splitUnknownLoop, hzero]
    by_cases hle : diff ≤ back.ids.length
    · have hids := take_append_drop (back.ids.length - diff) back.ids
      constructor
      · simp only [splitUnknownLoop, hzero, hle, if_true, if_false, reverse_cons, sentIds_append,
          sentIds_cons, sentIds_nil, append_nil, append_assoc]
        rw [← append_assoc (List.map _ (back.ids.take _)), ← map_append, hids]
      · simp only [splitUnknownLoop, hzero, hle, if_true, if_false, amountOfHashes_cons, length_take]
        omega
    · obtain ⟨hsent, hamount⟩ := ih (diff - back.ids.length) (back :: unknown) (by omega)
      simp only [splitUnknownLoop, hzero, hle, if_false]
      constructor
      · rw [hsent]
        simp
      · rw [amountOfHashes_cons]
        omega

theorem splitUnknown_spec (entries : List (ChainEntry P H)) (diff : Nat)
    (hdiff : diff ≤ amountOfHashes entries) :
    sentIds (splitUnknown entries diff).1 ++ sentIds (splitUnknown entries diff).2 = sentIds entries ∧
    amountOfHashes (splitUnknown entries diff).1 + diff = amountOfHashes entries := by
  have hspec := splitUnknownLoop_spec entries.reverse diff [] (by rwa [amountOfHashes_reverse])
  rw [amountOfHashes_reverse, reverse_reverse, sentIds_nil, append_nil] at hspec
  refine ⟨hspec.1, ?_⟩
  show amountOfHashes (splitUnknownLoop entries.reverse diff []).1.reverse + diff = _
  rw [amountOfHashes_reverse]
  exact hspec.2

variable {sync : FastSyncHashes} {hashesStart : Nat}

theorem verifyHashes_append (l rest hasher : List Hash) (i lastI : Nat)
    (hlen : i % FAST_SYNC_BATCH_LEN + l.length < FAST_SYNC_BATCH_LEN) :
    (sync.verifyHashes hashesStart (l ++ rest) i hasher lastI : Except (Fault (ValidateError E)) Nat)
      = sync.verifyHashes hashesStart rest (i + l.length) (hasher ++ l)
          (if l = [] then lastI else i + l.length) := by
  induction l generalizing i hasher lastI with
  | nil => simp
  | cons hash l ih =>
    simp only [FAST_SYNC_BATCH_LEN, length_cons] at hlen ih
    have hinside : ¬(i + 1) % FAST_SYNC_BATCH_LEN = 0 := by
      simp only [FAST_SYNC_BATCH_LEN]
      omega
    rw [cons_append, verifyHashes, if_neg hinside, ih _ _ _ (by omega)]
    have hlast : (if l = [] then i + 1 else i + 1 + l.length) = i + (l.length + 1) := by
      split
      · next h => simp [h]
      · omega
    rw [hlast, append_assoc, singleton_append, length_cons, if_neg (cons_ne_nil _ _), add_assoc,
      add_comm 1]

variable {start : Nat} {g : List Hash}

/-- A whole group is compared with its embedded hash. -/
theorem verifyHashes_group (rest : List Hash)
    {i lastI : Nat} {expected : Hash} (hg : g.length = FAST_SYNC_BATCH_LEN)
    (hi : (hashesStart + i) % FAST_SYNC_BATCH_LEN = 0) (hstart : hashesStart % FAST_SYNC_BATCH_LEN = 0)
    (hexp : sync.hashes[(hashesStart + i) / FAST_SYNC_BATCH_LEN]? = some expected) :
    (sync.verifyHashes hashesStart (g ++ rest) i [] lastI : Except (Fault (ValidateError E)) Nat)
      = if sync.finalize g = expected then
          sync.verifyHashes hashesStart rest (i + FAST_SYNC_BATCH_LEN) [] (i + FAST_SYNC_BATCH_LEN)
        else .error (.error .hashesDoNotMatch) := by
  simp only [FAST_SYNC_BATCH_LEN] at hg hi hstart hexp ⊢
  have hne : g ≠ [] := by
    rintro rfl
    simp at hg
  -- All but the last hash of the group only reach the hasher.
  obtain ⟨init, last, rfl⟩ : ∃ init last, g = init ++ [last] :=
    ⟨g.dropLast, g.getLast hne, (dropLast_append_getLast hne).symm⟩
  have hinit : init.length = 511 := by simpa using hg
  have hmod : i % 512 = 0 := by omega
  rw [append_assoc, verifyHashes_append init _ _ _ _ (by simp only [FAST_SYNC_BATCH_LEN]; omega),
    hinit, singleton_append, verifyHashes]
  have hfull : (i + 511 + 1) % FAST_SYNC_BATCH_LEN = 0 := by
    simp only [FAST_SYNC_BATCH_LEN]
    omega
  have hindex : getHashIndexForHeight (hashesStart + (i + 511)) = (hashesStart + i) / 512 := by
    simp only [getHashIndexForHeight, FAST_SYNC_BATCH_LEN]
    omega
  rw [if_pos hfull, hindex, hexp, nil_append]
  by_cases heq : sync.finalize (init ++ [last]) = expected
  · simp [heq]
  · simp [heq]

/-- The `k`-th group of 512 hashes. -/
def group (hashes : List Hash) (k : Nat) : List Hash :=
  (hashes.drop (FAST_SYNC_BATCH_LEN * k)).take FAST_SYNC_BATCH_LEN

theorem group_zero_append (rest : List Hash) (hg : g.length = FAST_SYNC_BATCH_LEN) :
    group (g ++ rest) 0 = g := by
  simp [group, ← hg]

theorem group_succ_append (rest : List Hash) (k : Nat) (hg : g.length = FAST_SYNC_BATCH_LEN) :
    group (g ++ rest) (k + 1) = group rest k := by
  rw [group, group, Nat.mul_succ, add_comm, ← hg, drop_length_add_append]

/-- Over whole groups the loop ends at the last hash when every group matches, and else with the
error. -/
theorem verifyHashes_groups {hashes : List Hash} {n i lastI : Nat}
    (hlen : hashes.length = FAST_SYNC_BATCH_LEN * n)
    (hi : (hashesStart + i) % FAST_SYNC_BATCH_LEN = 0) (hstart : hashesStart % FAST_SYNC_BATCH_LEN = 0)
    (htable : (hashesStart + i) / FAST_SYNC_BATCH_LEN + n ≤ sync.hashes.length) :
    ((∀ k < n, sync.hashes[(hashesStart + i) / FAST_SYNC_BATCH_LEN + k]?
        = some (sync.finalize (group hashes k))) ∧
      (sync.verifyHashes hashesStart hashes i [] lastI : Except (Fault (ValidateError E)) Nat)
        = .ok (if n = 0 then lastI else i + hashes.length)) ∨
    ((∃ k < n, sync.hashes[(hashesStart + i) / FAST_SYNC_BATCH_LEN + k]?
        ≠ some (sync.finalize (group hashes k))) ∧
      (sync.verifyHashes hashesStart hashes i [] lastI : Except (Fault (ValidateError E)) Nat)
        = .error (.error .hashesDoNotMatch)) := by
  induction n generalizing hashes i lastI with
  | zero =>
    have hnil : hashes = [] := length_eq_zero_iff.mp (by simpa using hlen)
    subst hnil
    exact .inl ⟨by simp, rfl⟩
  | succ n ih =>
    have hsplit := take_append_drop FAST_SYNC_BATCH_LEN hashes
    have hg : (hashes.take FAST_SYNC_BATCH_LEN).length = FAST_SYNC_BATCH_LEN := by
      rw [length_take, hlen, Nat.mul_succ]
      omega
    generalize hashes.take FAST_SYNC_BATCH_LEN = g at hsplit hg
    generalize hashes.drop FAST_SYNC_BATCH_LEN = rest at hsplit
    subst hsplit
    rw [length_append, hg, Nat.mul_succ] at hlen
    obtain ⟨expected, hexp⟩ : ∃ e, sync.hashes[(hashesStart + i) / FAST_SYNC_BATCH_LEN]? = some e :=
      ⟨_, getElem?_eq_getElem (by omega)⟩
    have hnext : (hashesStart + (i + FAST_SYNC_BATCH_LEN)) / FAST_SYNC_BATCH_LEN
        = (hashesStart + i) / FAST_SYNC_BATCH_LEN + 1 := by
      simp only [FAST_SYNC_BATCH_LEN]
      omega
    rw [verifyHashes_group rest hg hi hstart hexp]
    by_cases heq : sync.finalize g = expected
    · rw [if_pos heq]
      have hrec := @ih rest (i + FAST_SYNC_BATCH_LEN) (i + FAST_SYNC_BATCH_LEN)
        (by omega) (by simp only [FAST_SYNC_BATCH_LEN] at hi ⊢; omega) (by omega)
      rw [hnext] at hrec
      rcases hrec with ⟨hall, hok⟩ | ⟨⟨k, hk, hne⟩, herr⟩
      · refine .inl ⟨fun k hk => ?_, ?_⟩
        · cases k with
          | zero => rw [group_zero_append rest hg, heq, add_zero, hexp]
          | succ k => rw [group_succ_append rest k hg, ← hall k (by omega), add_right_comm, add_assoc]
        · rw [hok, if_neg (Nat.succ_ne_zero n), length_append, hg]
          split
          · next h =>
            have : rest.length = 0 := by rw [h] at hlen; omega
            rw [this, add_zero]
          · rw [add_assoc]
      · refine .inr ⟨⟨k + 1, by omega, ?_⟩, herr⟩
        rw [group_succ_append rest k hg, ← add_assoc, add_right_comm]
        exact hne
    · refine .inr ⟨⟨0, by omega, ?_⟩, if_neg heq⟩
      rw [group_zero_append rest hg, add_zero, hexp]
      exact fun h => heq (Option.some.inj h).symm

theorem length_blockHashInRange {blockHash : Nat → Except E Hash} {stop : Nat} {hashes : List Hash}
    (h : blockHashInRange blockHash start stop = .ok hashes) : hashes.length = stop - start := by
  rw [← (mapM_eq_ok.mp h).length_eq, length_range']

/-- The amount of ids at the back of `entries` that cannot be checked yet. -/
def unknownAmount (sync : FastSyncHashes) (entries : List (ChainEntry P H)) (start : Nat) : Nat :=
  amountOfHashes entries + start
    - min ((amountOfHashes entries + start) / FAST_SYNC_BATCH_LEN * FAST_SYNC_BATCH_LEN)
        sync.fastSyncStopHeight

/-- Where the ids that can be checked end, when there is a whole group of them. -/
structure CutsAt (sync : FastSyncHashes) (start amount unknown : Nat) : Prop where
  le : unknown ≤ amount
  aligned : (start + (amount - unknown)) % FAST_SYNC_BATCH_LEN = 0
  le_stop : start + (amount - unknown) ≤ sync.fastSyncStopHeight
  group_le : start / FAST_SYNC_BATCH_LEN * FAST_SYNC_BATCH_LEN + FAST_SYNC_BATCH_LEN
    ≤ start + (amount - unknown)
  few_unknown : unknown < FAST_SYNC_BATCH_LEN ∨ start + (amount - unknown) = sync.fastSyncStopHeight

theorem cutsAt_unknownAmount (entries : List (ChainEntry P H)) (hstop : start < sync.fastSyncStopHeight)
    (hfull : FAST_SYNC_BATCH_LEN ≤ amountOfHashes entries + start % FAST_SYNC_BATCH_LEN) :
    CutsAt sync start (amountOfHashes entries) (unknownAmount sync entries start) := by
  simp only [FAST_SYNC_BATCH_LEN] at hfull
  -- The stop height is a multiple of 512, so the first group lies below it.
  obtain ⟨n, hn⟩ : ∃ n, sync.fastSyncStopHeight = 512 * n := ⟨_, mul_comm ..⟩
  obtain ⟨m, hm, hmod, hle, hgroup, hlast, hfew⟩ : ∃ m,
      min ((amountOfHashes entries + start) / FAST_SYNC_BATCH_LEN * FAST_SYNC_BATCH_LEN)
        sync.fastSyncStopHeight = m ∧ m % 512 = 0 ∧ m ≤ sync.fastSyncStopHeight ∧
      start / 512 * 512 + 512 ≤ m ∧ m ≤ amountOfHashes entries + start ∧
      (amountOfHashes entries + start < m + 512 ∨ m = sync.fastSyncStopHeight) := by
    refine ⟨_, rfl, ?_⟩
    simp only [FAST_SYNC_BATCH_LEN]
    omega
  have hrest : unknownAmount sync entries start = amountOfHashes entries + start - m :=
      by rw [unknownAmount, hm]
  have hend : start + (amountOfHashes entries - unknownAmount sync entries start) = m := by omega
  constructor
  · omega
  · rw [hend]
    exact hmod
  · rw [hend]
    exact hle
  · rw [hend]
    exact hgroup
  · rw [hend]
    rcases hfew with hfew | hfew
    · exact .inl (show _ < 512 by omega)
    · exact .inr hfew

variable {blockHash : Nat → Except E Hash}

section
variable (entries : List (ChainEntry P H))
include entries

theorem validateEntries_past (hstop : sync.fastSyncStopHeight ≤ start) :
    sync.validateEntries blockHash entries start = .ok (entries, []) := if_pos hstop

theorem validateEntries_eq {starting : List Hash} (hstop : start < sync.fastSyncStopHeight)
    (hdb : blockHashInRange blockHash (start / FAST_SYNC_BATCH_LEN * FAST_SYNC_BATCH_LEN) start =
      .ok starting) : sync.validateEntries blockHash entries start =
      if amountOfHashes entries + starting.length < FAST_SYNC_BATCH_LEN then .ok ([], entries)
      else
        let (valid, unknown) := splitUnknown entries (unknownAmount sync entries start)
        (sync.verifyHashes (start / FAST_SYNC_BATCH_LEN * FAST_SYNC_BATCH_LEN) (starting ++ allIds valid)
            0 [] 1).bind fun lastI =>
          if lastI % FAST_SYNC_BATCH_LEN = 0 then .ok (valid, unknown) else .error .panic := by
  have hnot : ¬sync.fastSyncStopHeight ≤ start := not_le.mpr hstop
  simp only [validateEntries, hnot, if_false, hdb]
  rfl

/-- What validation does below the stop height once the database has answered. -/
theorem validateEntries_below {starting : List Hash} (hstop : start < sync.fastSyncStopHeight)
    (hdb : blockHashInRange blockHash (start / FAST_SYNC_BATCH_LEN * FAST_SYNC_BATCH_LEN) start =
      .ok starting) : (amountOfHashes entries + start % FAST_SYNC_BATCH_LEN < FAST_SYNC_BATCH_LEN ∧
      sync.validateEntries blockHash entries start = .ok ([], entries)) ∨
    (FAST_SYNC_BATCH_LEN ≤ amountOfHashes entries + start % FAST_SYNC_BATCH_LEN ∧
      ∃ valid unknown, splitUnknown entries (unknownAmount sync entries start) = (valid, unknown) ∧
        ∃ n, start + amountOfHashes valid = FAST_SYNC_BATCH_LEN * (start / FAST_SYNC_BATCH_LEN + n) ∧
        (((∀ k < n, sync.hashes[start / FAST_SYNC_BATCH_LEN + k]?
            = some (sync.finalize (group (starting ++ allIds valid) k))) ∧
          sync.validateEntries blockHash entries start = .ok (valid, unknown)) ∨
        ((∃ k < n, sync.hashes[start / FAST_SYNC_BATCH_LEN + k]?
            ≠ some (sync.finalize (group (starting ++ allIds valid) k))) ∧
          sync.validateEntries blockHash entries start = .error (.error .hashesDoNotMatch)))) := by
  have hlen : starting.length = start % FAST_SYNC_BATCH_LEN := by
    rw [length_blockHashInRange hdb]
    simp only [FAST_SYNC_BATCH_LEN]
    omega
  rw [validateEntries_eq entries hstop hdb, hlen]
  by_cases hfull : amountOfHashes entries + start % FAST_SYNC_BATCH_LEN < FAST_SYNC_BATCH_LEN
  · exact .inl ⟨hfull, if_pos hfull⟩
  · have hcut := cutsAt_unknownAmount entries hstop (not_lt.mp hfull)
    obtain ⟨-, hvalid⟩ := splitUnknown_spec entries _ hcut.le
    rw [if_neg hfull]
    refine .inr ⟨not_lt.mp hfull, ?_⟩
    generalize splitUnknown entries (unknownAmount sync entries start) = split at hvalid ⊢
    obtain ⟨valid, unknown⟩ := split
    generalize unknownAmount sync entries start = rest at hcut hvalid
    obtain ⟨hle, haligned, hstopAt, hgroup, -⟩ := hcut
    have hend : start + amountOfHashes valid = start + (amountOfHashes entries - rest) := by
      have : amountOfHashes valid + rest = amountOfHashes entries := hvalid
      omega
    rw [← hend] at haligned hstopAt hgroup
    simp only [fastSyncStopHeight, FAST_SYNC_BATCH_LEN] at haligned hstopAt hgroup hlen ⊢
    obtain ⟨n, hn⟩ : ∃ n, start + amountOfHashes valid = 512 * (start / 512 + n) :=
      ⟨(start + amountOfHashes valid) / 512 - start / 512, by omega⟩
    refine ⟨valid, unknown, rfl, n, hn, ?_⟩
    have hlast : (0 + (starting ++ allIds valid).length) % 512 = 0 := by
      rw [length_append, length_allIds, hlen]
      omega
    have hpos : n ≠ 0 := by omega
    have hgroups := @verifyHashes_groups E sync (start / 512 * 512) (starting ++ allIds valid) n 0 1
      (by rw [length_append, length_allIds, hlen]; simp only [FAST_SYNC_BATCH_LEN]; omega)
      (by simp only [FAST_SYNC_BATCH_LEN]; omega) (by simp only [FAST_SYNC_BATCH_LEN]; omega)
      (by simp only [FAST_SYNC_BATCH_LEN]; omega)
    have hindex : (start / 512 * 512 + 0) / FAST_SYNC_BATCH_LEN = start / 512 := by
      simp only [FAST_SYNC_BATCH_LEN]
      omega
    rw [hindex, if_neg hpos] at hgroups
    rcases hgroups with ⟨hall, hok⟩ | ⟨hne, herr⟩
    · refine .inl ⟨hall, ?_⟩
      rw [hok]
      exact if_pos hlast
    · refine .inr ⟨hne, ?_⟩
      rw [herr]
      rfl

end

/-! ## The groups of a chain -/

/-- The id at a height of the chain that follows the main chain up to `start` and then `ids`. -/
def hashAt (chain : Nat → Hash) (start : Nat) (ids : List Hash) (height : Nat) : Hash :=
  if height < start then chain height else ids.getD (height - start) 0

/-- The ids of the `g`-th group of 512 heights. -/
def groupAt (chain : Nat → Hash) (start : Nat) (ids : List Hash) (g : Nat) : List Hash :=
  (List.range' (FAST_SYNC_BATCH_LEN * g) FAST_SYNC_BATCH_LEN).map (hashAt chain start ids)

/-- The `g`-th group of heights ends after `start`, has all its ids known and has an embedded
hash. -/
def Covered (sync : FastSyncHashes) (start amount g : Nat) : Prop :=
  start / FAST_SYNC_BATCH_LEN ≤ g ∧ FAST_SYNC_BATCH_LEN * (g + 1) ≤ start + amount ∧ g < sync.hashes.length

theorem append_eq_map_hashAt (chain : Nat → Hash) {first : Nat} (ids : List Hash) (hle : first ≤ start) :
    (List.range' first (start - first)).map chain ++ ids
      = (List.range' first (start - first + ids.length)).map (hashAt chain start ids) := by
  rw [← range'_append_1, map_append]
  congr 1
  · refine map_congr_left fun height hmem => ?_
    have hlt : height < start := by
      have := mem_range'_1.mp hmem
      omega
    rw [hashAt, if_pos hlt]
  · refine ext_getElem (by simp) fun i hi _ => ?_
    have hat : first + (start - first) + i - start = i := by omega
    simp only [getElem_map, getElem_range', hashAt, one_mul, hat,
      if_neg (show ¬first + (start - first) + i < start by omega)]
    exact (getElem_eq_getD 0)

theorem group_eq_groupAt (chain : Nat → Hash) (ids : List Hash) {k : Nat}
    (hk : FAST_SYNC_BATCH_LEN * (start / FAST_SYNC_BATCH_LEN + k + 1) ≤ start + ids.length) :
    group ((List.range' (start / FAST_SYNC_BATCH_LEN * FAST_SYNC_BATCH_LEN)
        (start - start / FAST_SYNC_BATCH_LEN * FAST_SYNC_BATCH_LEN)).map chain ++ ids) k
      = groupAt chain start ids (start / FAST_SYNC_BATCH_LEN + k) := by
  simp only [FAST_SYNC_BATCH_LEN] at hk ⊢
  rw [append_eq_map_hashAt chain ids (by omega), group, groupAt, ← map_drop, ← map_take]
  simp only [FAST_SYNC_BATCH_LEN]
  rw [drop_range', take_range'_of_length_ge (by omega), mul_one, mul_add, mul_comm (start / 512)]

theorem groupAt_append (chain : Nat → Hash) (ids rest : List Hash) {g : Nat}
    (hg : FAST_SYNC_BATCH_LEN * (g + 1) ≤ start + ids.length) :
    groupAt chain start (ids ++ rest) g = groupAt chain start ids g := by
  refine map_congr_left fun height hmem => ?_
  have hmem := mem_range'_1.mp hmem
  unfold hashAt
  split
  · rfl
  · rw [Nat.mul_succ] at hg
    rw [getD_eq_getElem?_getD, getD_eq_getElem?_getD, getElem?_append_left (by omega)]

theorem blockHashInRange_of_chain {chain : Nat → Hash} {stop : Nat}
    (hdb : ∀ height < stop, blockHash height = .ok (chain height)) :
    blockHashInRange blockHash start stop = .ok ((List.range' start (stop - start)).map chain) := by
  refine mapM_eq_ok.mpr (forall₂_map_right_iff.mpr (forall₂_same.mpr fun height hmem => ?_))
  refine hdb height ?_
  have := mem_range'_1.mp hmem
  omega

/-- What validation does, in terms of the groups of heights. -/
theorem validateEntries_groups {chain : Nat → Hash} (entries : List (ChainEntry P H))
    (hstop : start < sync.fastSyncStopHeight)
      (hdb : ∀ height < start, blockHash height = .ok (chain height)) :
    ((∀ g, Covered sync start (amountOfHashes entries) g →
        sync.hashes[g]? = some (sync.finalize (groupAt chain start (allIds entries) g))) ∧
      ∃ valid unknown, sync.validateEntries blockHash entries start = .ok (valid, unknown) ∧
        sentIds valid ++ sentIds unknown = sentIds entries ∧
        (amountOfHashes valid = 0 ∨ (start + amountOfHashes valid) % FAST_SYNC_BATCH_LEN = 0 ∧
          start + amountOfHashes valid ≤ sync.fastSyncStopHeight) ∧
        (amountOfHashes unknown < FAST_SYNC_BATCH_LEN ∨
          sync.fastSyncStopHeight ≤ start + amountOfHashes valid)) ∨
    ((∃ g, Covered sync start (amountOfHashes entries) g ∧
        sync.hashes[g]? ≠ some (sync.finalize (groupAt chain start (allIds entries) g))) ∧
      sync.validateEntries blockHash entries start = .error (.error .hashesDoNotMatch)) := by
  have hbelow := validateEntries_below entries hstop (blockHashInRange_of_chain hdb)
  rcases hbelow with ⟨hfew, hok⟩ | ⟨hfull, valid, unknown, hsplit, n, hn, hres⟩
  · refine .inl ⟨fun g hg => ?_, [], entries, hok, rfl, .inl rfl, .inl ?_⟩
    · -- No group is covered.
      obtain ⟨hfirst, hlast, -⟩ := hg
      simp only [FAST_SYNC_BATCH_LEN] at hfew hfirst hlast
      omega
    · simp only [FAST_SYNC_BATCH_LEN] at hfew ⊢
      omega
  · have hcut := cutsAt_unknownAmount entries hstop hfull
    obtain ⟨hsent, hamount⟩ := splitUnknown_spec entries _ hcut.le
    rw [hsplit] at hsent hamount
    simp only at hsent hamount
    obtain ⟨hids, hlen⟩ := allIds_split hsent
    have hunknown : amountOfHashes unknown = unknownAmount sync entries start := by omega
    have hend : start + (amountOfHashes entries - unknownAmount sync entries start)
        = start + amountOfHashes valid := by omega
    have haligned := hcut.aligned
    have hstopAt := hcut.le_stop
    have hfew := hcut.few_unknown
    rw [hend] at haligned hstopAt hfew
    -- The groups the loop compares are the covered ones.
    have hgroup : ∀ k < n, group ((range' (start / FAST_SYNC_BATCH_LEN * FAST_SYNC_BATCH_LEN)
        (start - start / FAST_SYNC_BATCH_LEN * FAST_SYNC_BATCH_LEN)).map chain ++ allIds valid) k
        = groupAt chain start (allIds entries) (start / FAST_SYNC_BATCH_LEN + k) := by
      intro k hk
      have hle : FAST_SYNC_BATCH_LEN * (start / FAST_SYNC_BATCH_LEN + k + 1)
          ≤ start + (allIds valid).length := by
        rw [length_allIds, hn]
        exact Nat.mul_le_mul_left _ (by omega)
      rw [group_eq_groupAt chain _ hle, hids, groupAt_append chain _ _ hle]
    have hcovered : ∀ g, Covered sync start (amountOfHashes entries) g ↔
        ∃ k < n, g = start / FAST_SYNC_BATCH_LEN + k := by
      intro g
      simp only [Covered, fastSyncStopHeight, FAST_SYNC_BATCH_LEN]
        at hn hstopAt haligned hfew ⊢
      constructor
      · rintro ⟨hfirst, hlast, htable⟩
        exact ⟨g - start / 512, by omega, by omega⟩
      · rintro ⟨k, hk, rfl⟩
        omega
    rcases hres with ⟨hall, hok⟩ | ⟨⟨k, hk, hne⟩, herr⟩
    · refine .inl ⟨fun g hg => ?_, valid, unknown, hok, hsent, .inr ⟨haligned, hstopAt⟩, ?_⟩
      · obtain ⟨k, hk, rfl⟩ := (hcovered g).mp hg
        rw [hall k hk, hgroup k hk]
      · rw [hunknown]
        exact hfew.imp_right fun h => h.ge
    · refine .inr ⟨⟨_, (hcovered _).mpr ⟨k, hk, rfl⟩, ?_⟩, herr⟩
      rwa [hgroup k hk] at hne

/-- Entry validation keeps every id with its peer, cuts at a checked multiple of 512, and fails
exactly when a covered group does not match its embedded hash. -/
theorem validateEntries_correct {chain : Nat → Hash} (entries : List (ChainEntry P H)) (start : Nat)
    (hdb : ∀ height < start, blockHash height = .ok (chain height)) :
    (∀ valid unknown, sync.validateEntries blockHash entries start = .ok (valid, unknown) →
      sentIds valid ++ sentIds unknown = sentIds entries ∧
      (start < sync.fastSyncStopHeight →
        (amountOfHashes valid = 0 ∨ (start + amountOfHashes valid) % FAST_SYNC_BATCH_LEN = 0 ∧
          start + amountOfHashes valid ≤ sync.fastSyncStopHeight) ∧
        (∀ g, start / FAST_SYNC_BATCH_LEN ≤ g →
          FAST_SYNC_BATCH_LEN * (g + 1) ≤ start + amountOfHashes valid →
          sync.hashes[g]? = some (sync.finalize (groupAt chain start (allIds valid) g))) ∧
        (amountOfHashes unknown < FAST_SYNC_BATCH_LEN ∨
          sync.fastSyncStopHeight ≤ start + amountOfHashes valid))) ∧
    (sync.validateEntries blockHash entries start = .error (.error .hashesDoNotMatch) ↔
      ∃ g, Covered sync start (amountOfHashes entries) g ∧
        sync.hashes[g]? ≠ some (sync.finalize (groupAt chain start (allIds entries) g))) ∧
    sync.validateEntries blockHash entries start ≠ .error .panic := by
  by_cases hstop : start < sync.fastSyncStopHeight
  · rcases validateEntries_groups entries hstop hdb with
      ⟨hall, valid, unknown, hok, hsent, hvalid, hunknown⟩ | ⟨hne, herr⟩
    · refine ⟨fun valid' unknown' hok' => ?_, ?_, ?_⟩
      · obtain ⟨rfl, rfl⟩ := Prod.mk.inj (Except.ok.inj (hok.symm.trans hok'))
        refine ⟨hsent, fun _ => ⟨hvalid, fun g hfirst hlast => ?_, hunknown⟩⟩
        obtain ⟨hids, hlen⟩ := allIds_split hsent
        have hcovered : Covered sync start (amountOfHashes entries) g := by
          refine ⟨hfirst, by omega, ?_⟩
          simp only [fastSyncStopHeight, FAST_SYNC_BATCH_LEN] at hstop hvalid hfirst hlast
          omega
        rw [hall g hcovered, hids, groupAt_append chain _ _ (by rwa [length_allIds])]
      · rw [hok]
        exact ⟨(nomatch ·), fun ⟨g, hg, hne⟩ => absurd (hall g hg) hne⟩
      · rw [hok]
        exact (nomatch ·)
    · rw [herr]
      exact ⟨fun _ _ => (nomatch ·), iff_of_true rfl hne, (nomatch ·)⟩
  · rw [validateEntries_past entries (not_lt.mp hstop)]
    refine ⟨fun valid unknown h => ?_, ⟨(nomatch ·), ?_⟩, (nomatch ·)⟩
    · cases h
      exact ⟨append_nil _, fun h => absurd h hstop⟩
    · rintro ⟨g, ⟨hfirst, -, htable⟩, -⟩
      simp only [fastSyncStopHeight, FAST_SYNC_BATCH_LEN] at hstop hfirst htable
      omega

def sampleSync : FastSyncHashes := ⟨[7], fun _ => 7⟩

def sampleBlockHash : Nat → Except Unit Hash := fun _ => .ok 1

def sampleEntries : List (ChainEntry String Nat) := [⟨[2, 3, 4], "a", 1⟩, ⟨[5], "b", 2⟩]

/-- Two entries from height 510 on, against one embedded hash: the group has 510 main-chain ids and
the first two ids of the first entry. -/
theorem validateEntries_correct_sampleEntries :
    (∀ valid unknown, sampleSync.validateEntries sampleBlockHash sampleEntries 510 = .ok (valid, unknown) →
      sentIds valid ++ sentIds unknown = [(2, "a", 1), (3, "a", 1), (4, "a", 1), (5, "b", 2)]) ∧
    (sampleSync.validateEntries sampleBlockHash sampleEntries 510 = .error (.error .hashesDoNotMatch) ↔
      ∃ g, Covered sampleSync 510 4 g ∧
        sampleSync.hashes[g]? ≠ some (sampleSync.finalize (groupAt (fun _ => 1) 510 [2, 3, 4, 5] g))) := by
  obtain ⟨hok, herror, -⟩ := @validateEntries_correct String Nat Unit sampleSync sampleBlockHash
    (fun _ => 1) sampleEntries 510 fun _ _ => rfl
  exact ⟨fun valid unknown h => (hok valid unknown h).1, herror⟩

end Cuprate.FastSync
