import Cuprate.Consensus.Proofs.DifficultyProofs
import Cuprate.Helper.Proofs.MedianProofs

/-!
# The median timestamp

The cache does not hold the genesis block, so a chain of exactly as many blocks as are asked for
needs its timestamp put back.
-/

namespace Cuprate.Consensus.DifficultyCache

open List UInt64

/-- The timestamps of a chain; that of its genesis block counts as 0. -/
def chainTimestamps (chain : List ExtendedBlockHeader) : List UInt64 :=
  0 :: chain.tail.map (·.timestamp)

variable {config : DifficultyCacheConfig} {chain : List ExtendedBlockHeader} {n : Nat}

theorem chainTimestamps_length (hne : chain ≠ []) : (chainTimestamps chain).length = chain.length := by
  have hpos := length_pos_iff.mpr hne
  rw [chainTimestamps, length_cons, length_map, length_tail]
  omega

theorem drop_chainTimestamps {start : Nat} (hpos : 0 < start) :
    (chainTimestamps chain).drop start = (chain.drop start).map (·.timestamp) := by
  obtain ⟨start, rfl⟩ := Nat.exists_eq_succ_of_ne_zero hpos.ne'
  rw [chainTimestamps, drop_succ_cons, ← map_drop, drop_tail]

theorem medianTimestamp_ofHeaders (hne : chain ≠ []) (hn : n ≤ config.totalBlockCount) :
    (ofHeaders config chain.length (chain.drop (firstHeight config chain.length))).medianTimestamp n =
      if chain.length < n then none
      else Helper.median (((chainTimestamps chain).rtake n).insertionSort (· ≤ ·)) := by
  have hpos := length_pos_iff.mpr hne
  have hlength := chainTimestamps_length hne
  unfold medianTimestamp
  simp only [ofHeaders_timestamps, ofHeaders_lastAccountedHeight, length_map, length_drop,
    List.rtake, hlength]
  by_cases hall : chain.length = n
  · -- all blocks of the chain, with the genesis block
    have hfirst : firstHeight config chain.length = 1 := by
      unfold firstHeight
      omega
    rw [if_pos (by omega), if_neg (by omega), hfirst, hall, Nat.sub_self, drop_zero, drop_one]
    rfl
  · rw [if_neg (by omega)]
    by_cases hshort : chain.length < n
    · rw [if_pos hshort, if_pos]
      unfold firstHeight
      omega
    · have hfirst : firstHeight config chain.length ≤ chain.length - n := by
        unfold firstHeight
        omega
      rw [if_neg (by omega), if_neg hshort, drop_chainTimestamps (by omega), ← map_drop, drop_drop]
      congr 5
      omega

/-- After any history, the median timestamp of `n` blocks exists exactly if the chain has `n`
blocks. It is the median of the last `n` timestamps, with the genesis block at 0. -/
theorem medianTimestamp_of_run (config : DifficultyCacheConfig) (chain : List ExtendedBlockHeader)
    (c : DifficultyCache) (h : (follower config).Run chain c) (n : Nat) (hpos : 1 ≤ n)
    (hle : n ≤ config.totalBlockCount) :
    ((c.medianTimestamp n).isSome ↔ n ≤ chain.length) ∧ ∀ m, c.medianTimestamp n = some m →
        m.toNat = Helper.medianOf (((chainTimestamps chain).rtake n).map toNat) ∧
        ∀ lo hi, (∀ t ∈ (chainTimestamps chain).rtake n, lo ≤ t ∧ t ≤ hi) → lo ≤ m ∧ m ≤ hi := by
  obtain ⟨hne, hread⟩ := (follower_faithful config).run h
  obtain rfl := Option.some.inj ((initFromChainHeight_length config chain).symm.trans hread)
  have hlength := chainTimestamps_length hne
  have hchain := length_pos_iff.mpr hne
  rw [medianTimestamp_ofHeaders hne hle]
  by_cases hshort : chain.length < n
  · rw [if_pos hshort]
    exact ⟨⟨nofun, fun h => absurd hshort (by omega)⟩, nofun⟩
  have hlast : (chainTimestamps chain).rtake n ≠ [] := by
    rw [← length_pos_iff, List.rtake, length_drop]
    omega
  obtain ⟨m, hm, hmedian⟩ := Helper.median_insertionSort hlast
  rw [if_neg hshort, hm]
  refine ⟨⟨fun _ => by omega, fun _ => rfl⟩, ?_⟩
  rintro _ ⟨⟩
  refine ⟨hmedian, fun lo hi hbounds => ?_⟩
  rw [le_iff_toNat_le, le_iff_toNat_le, hmedian]
  refine Helper.medianOf_mem_Icc (mt map_eq_nil_iff.mp hlast) fun _ hmem => ?_
  obtain ⟨t, ht, rfl⟩ := mem_map.mp hmem
  exact (hbounds t ht).imp le_iff_toNat_le.mp le_iff_toNat_le.mp

/-- A chain of two blocks, asked for the median of both. -/
theorem medianTimestamp_of_two_blocks :
    ((ofHeaders ⟨2, 0, 0, none⟩ 2 [powHeader 9 2]).medianTimestamp 2).isSome ∧
      (ofHeaders ⟨2, 0, 0, none⟩ 2 [powHeader 9 2]).medianTimestamp 2 = some 4 := by
  have hrun : (follower ⟨2, 0, 0, none⟩).Run [powHeader 5 1, powHeader 9 2]
      (ofHeaders ⟨2, 0, 0, none⟩ 2 [powHeader 9 2]) := .read (by simp) rfl
  exact ⟨(medianTimestamp_of_run _ _ _ hrun 2 (by decide) (by decide)).1.mpr (by decide), by decide⟩

end Cuprate.Consensus.DifficultyCache
