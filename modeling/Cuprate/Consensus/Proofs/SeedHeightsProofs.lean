import Cuprate.Consensus.RandomX

/-!
# Seed heights

`seedHeights top` are the heights the cache of a chain with top height `top` is for. They are what
`getLastRxSeedHeights` computes, and most pops keep and refill them (`refilled_eq_iff`).
-/

namespace Cuprate.Consensus

open List

/-- The two largest seed heights that are not above `top`, newest first. -/
def seedHeights (top : Nat) : List Nat :=
  ((List.range (top + 1)).filter isRandomxSeedHeight).reverse.take RX_SEEDS_CACHED

theorem isRandomxSeedHeight_iff (height : Nat) :
    isRandomxSeedHeight height = true ↔ height % 2048 = 0 := beq_iff_eq

theorem epochStart_eq (height : Nat) : epochStart height = height / 2048 * 2048 := rfl

/-- The multiples of 2048 below `bound`, in decreasing order. -/
def seedHeightsBelow (bound : Nat) : List Nat :=
  ((List.range bound).filter fun height => 2048 ∣ height).reverse

variable {top newHeight height : Nat}

theorem mem_seedHeightsBelow {bound : Nat} :
    height ∈ seedHeightsBelow bound ↔ 2048 ∣ height ∧ height < bound := by
  rw [seedHeightsBelow, mem_reverse, mem_filter, mem_range, decide_eq_true_iff, and_comm]

theorem pairwise_seedHeightsBelow (bound : Nat) : (seedHeightsBelow bound).Pairwise (· > ·) :=
  pairwise_reverse.mpr (pairwise_lt_range.filter _)

theorem seedHeightsBelow_succ_of_seed (h : top % 2048 = 0) :
    seedHeightsBelow (top + 1) = top :: seedHeightsBelow top := by
  unfold seedHeightsBelow
  rw [range_succ, filter_append, filter_singleton, decide_eq_true (Nat.dvd_of_mod_eq_zero h),
    reverse_append]
  rfl

theorem seedHeightsBelow_succ_of_not_seed (h : top % 2048 ≠ 0) :
    seedHeightsBelow (top + 1) = seedHeightsBelow top := by
  unfold seedHeightsBelow
  rw [range_succ, filter_append, filter_singleton,
    decide_eq_false (mt Nat.mod_eq_zero_of_dvd h), cond_false, append_nil]

theorem seedHeightsBelow_succ (top : Nat) :
    seedHeightsBelow (top + 1) = epochStart top :: seedHeightsBelow (epochStart top) := by
  induction top with
  | zero => rfl
  | succ top ih =>
    by_cases hseed : (top + 1) % 2048 = 0
    · rw [seedHeightsBelow_succ_of_seed hseed, epochStart_eq,
        show (top + 1) / 2048 * 2048 = top + 1 by omega]
    · rw [seedHeightsBelow_succ_of_not_seed hseed, ih, epochStart_eq, epochStart_eq,
        show (top + 1) / 2048 = top / 2048 by omega]

theorem lastRxSeedHeightsLoop_eq (amount : Nat) :
    ∀ lastHeight, lastRxSeedHeightsLoop lastHeight amount = (seedHeightsBelow lastHeight).take amount := by
  induction amount with
  | zero => exact fun _ => rfl
  | succ amount ih =>
    intro lastHeight
    cases lastHeight with
    | zero => rfl
    | succ top =>
      rw [lastRxSeedHeightsLoop, if_neg (Nat.succ_ne_zero top), seedHeightsBelow_succ, take_succ_cons]
      exact congrArg _ (ih _)

section
variable {amount : Nat} (hcapacity : amount ≤ MAX_SEEDS_CAPACITY)
include hcapacity

theorem getLastRxSeedHeights_of_seed (hseed : top % 2048 = 0) (hamount : amount ≠ 0) :
    getLastRxSeedHeights top amount = some ((seedHeightsBelow (top + 1)).take amount) := by
  rw [getLastRxSeedHeights, if_neg (Nat.not_lt.mpr hcapacity),
    if_pos ((isRandomxSeedHeight_iff top).mpr hseed),
    if_neg hamount, lastRxSeedHeightsLoop_eq, seedHeightsBelow_succ_of_seed hseed,
      take_cons (Nat.pos_of_ne_zero hamount)]

theorem getLastRxSeedHeights_of_not_seed (hseed : top % 2048 ≠ 0) :
    getLastRxSeedHeights top amount = some ((seedHeightsBelow (top + 1)).take amount) := by
  rw [getLastRxSeedHeights, if_neg (Nat.not_lt.mpr hcapacity),
    if_neg (mt (isRandomxSeedHeight_iff top).mp hseed), lastRxSeedHeightsLoop_eq,
    seedHeightsBelow_succ_of_not_seed hseed]

end

theorem seedHeights_eq_take (top : Nat) :
    seedHeights top = (seedHeightsBelow (top + 1)).take RX_SEEDS_CACHED := by
  have hfilter : (fun height => decide (2048 ∣ height)) = isRandomxSeedHeight := by
    funext height
    rw [Bool.eq_iff_iff, isRandomxSeedHeight_iff, decide_eq_true_iff, Nat.dvd_iff_mod_eq_zero]
  rw [seedHeights, seedHeightsBelow, hfilter]

theorem getLastRxSeedHeights_eq (top : Nat) :
    getLastRxSeedHeights top RX_SEEDS_CACHED = some (seedHeights top) := by
  rw [seedHeights_eq_take]
  by_cases hseed : top % 2048 = 0
  · exact getLastRxSeedHeights_of_seed (by decide) hseed (by decide)
  · exact getLastRxSeedHeights_of_not_seed (by decide) hseed

theorem seedHeights_succ_of_seed (h : (top + 1) % 2048 = 0) :
    seedHeights (top + 1) = (top + 1) :: (seedHeights top).take 1 := by
  rw [seedHeights_eq_take, seedHeights_eq_take, seedHeightsBelow_succ_of_seed h, take_take]
  rfl

theorem seedHeights_succ_of_not_seed (h : (top + 1) % 2048 ≠ 0) :
    seedHeights (top + 1) = seedHeights top := by
  rw [seedHeights_eq_take, seedHeights_eq_take, seedHeightsBelow_succ_of_not_seed h]

theorem seedHeights_of_lt (h : top < 2048) : seedHeights top = [0] := by
  rw [seedHeights_eq_take, seedHeightsBelow_succ, epochStart_eq, show top / 2048 * 2048 = 0 by omega]
  rfl

theorem seedHeights_of_le (h : 2048 ≤ top) :
    seedHeights top = [epochStart top, epochStart top - 2048] := by
  have htop := epochStart_eq top
  have hbefore := epochStart_eq (epochStart top - 1)
  have hsucc : epochStart top = epochStart top - 1 + 1 := by omega
  have hsecond : epochStart (epochStart top - 1) = epochStart top - 2048 := by omega
  rw [seedHeights_eq_take, seedHeightsBelow_succ]
  nth_rewrite 2 [hsucc]
  rw [seedHeightsBelow_succ, hsecond]
  rfl

theorem randomxSeedHeight_mem_of_le (hlt : top < height) (hnear : height ≤ top + 2048)
    (hle : randomxSeedHeight height ≤ top) : randomxSeedHeight height ∈ seedHeights top := by
  have hseed : randomxSeedHeight height =
      if height ≤ 2048 + 64 then 0 else (height - 64 - 1) / 2048 * 2048 := rfl
  by_cases hlow : top < 2048
  · rw [seedHeights_of_lt hlow, mem_singleton]
    split at hseed <;> omega
  · rw [seedHeights_of_le (by omega), mem_pair, epochStart_eq]
    split at hseed <;> omega

theorem randomxSeedHeight_mem (top : Nat) : randomxSeedHeight (top + 1) ∈ seedHeights top := by
  have hseed : randomxSeedHeight (top + 1) =
      if top + 1 ≤ 2048 + 64 then 0 else (top + 1 - 64 - 1) / 2048 * 2048 := rfl
  refine randomxSeedHeight_mem_of_le (Nat.lt_succ_self top) (by omega) ?_
  split at hseed <;> omega

/-- The seed of every later block is among the last two seed heights of the chain below it. The last
`amount` of seed heights are the `amount` largest multiples of 2048 up to the top, unless none are
asked for on top of a seed height: the amount goes below zero. For amounts that no vector has room
for the function panics. -/
theorem getLastRxSeedHeights_eq_take_iff (top amount : Nat) :
    (∃ heights, getLastRxSeedHeights top 2 = some heights ∧ randomxSeedHeight (top + 1) ∈ heights) ∧
      (seedHeightsBelow (top + 1)).Pairwise (· > ·) ∧
      (∀ height, height ∈ seedHeightsBelow (top + 1) ↔ 2048 ∣ height ∧ height ≤ top) ∧
      (getLastRxSeedHeights top amount = some ((seedHeightsBelow (top + 1)).take amount) ↔
        amount < 2 ^ 60 ∧ (amount ≠ 0 ∨ isRandomxSeedHeight top = false)) := by
  refine ⟨⟨_, getLastRxSeedHeights_eq top, randomxSeedHeight_mem top⟩, pairwise_seedHeightsBelow _,
    fun height => ?_, ?_⟩
  · rw [mem_seedHeightsBelow, Nat.lt_succ_iff]
  · rw [Bool.eq_false_iff, ne_eq (isRandomxSeedHeight top), isRandomxSeedHeight_iff]
    by_cases hcapacity : amount ≤ MAX_SEEDS_CAPACITY
    · have hlt : amount < 2 ^ 60 := Nat.lt_of_le_pred (by decide) hcapacity
      rw [and_iff_right hlt]
      by_cases hseed : top % 2048 = 0
      · by_cases hamount : amount = 0
        · -- the top is listed before the amount is looked at
          subst hamount
          refine ⟨fun h => ?_, fun h => (h.elim (absurd rfl) (absurd hseed))⟩
          rw [getLastRxSeedHeights, if_neg (Nat.not_lt.mpr hcapacity),
            if_pos ((isRandomxSeedHeight_iff top).mpr hseed)] at h
          cases h
        · exact ⟨fun _ => .inl hamount, fun _ => getLastRxSeedHeights_of_seed hcapacity hseed hamount⟩
      · exact ⟨fun _ => .inr hseed, fun _ => getLastRxSeedHeights_of_not_seed hcapacity hseed⟩
    · rw [getLastRxSeedHeights, if_pos (Nat.not_le.mp hcapacity)]
      refine iff_of_false nofun fun h => hcapacity ?_
      exact Nat.le_pred_of_lt h.1

/-- No seed heights were asked for, and the genesis block is returned. -/
theorem getLastRxSeedHeights_none_of_genesis :
    getLastRxSeedHeights 0 0 = some [0] ∧ (seedHeightsBelow (0 + 1)).take 0 = [] := by
  refine ⟨?_, rfl⟩
  rw [getLastRxSeedHeights, if_neg (by decide), if_pos rfl, lastRxSeedHeightsLoop_eq]
  rfl

theorem le_of_mem_seedHeights (h : height ∈ seedHeights top) : height ≤ top := by
  have hmem := (mem_filter.mp (mem_reverse.mp (mem_of_mem_take h))).1
  exact Nat.lt_succ_iff.mp (mem_range.mp hmem)

/-- The seed heights after a pop to `newHeight`: those kept and those refilled. -/
def refilled (kept : List Nat) (newHeight : Nat) : List Nat :=
  kept ++ (seedHeights newHeight).drop kept.length

theorem filter_seedHeights (hle : newHeight ≤ top) : (seedHeights top).filter (· < newHeight) =
      if epochStart top < newHeight then seedHeights newHeight
      else if 2048 ≤ top ∧ epochStart top - 2048 < newHeight then [epochStart top - 2048] else [] := by
  have htop := epochStart_eq top
  by_cases hhead : epochStart top < newHeight
  · rw [if_pos hhead]
    by_cases hlow : top < 2048
    · rw [seedHeights_of_lt hlow, seedHeights_of_lt (by omega)]
      exact filter_eq_self.mpr (by simp; omega)
    · have hsame : epochStart newHeight = epochStart top := by
        rw [epochStart_eq, epochStart_eq]
        omega
      rw [seedHeights_of_le (by omega), seedHeights_of_le (by omega), hsame]
      exact filter_eq_self.mpr (by simp; omega)
  · rw [if_neg hhead]
    by_cases hlow : top < 2048
    · rw [seedHeights_of_lt hlow, if_neg (by omega), filter_singleton]
      have : ¬ 0 < newHeight := by omega
      simp [this]
    · rw [seedHeights_of_le (by omega)]
      by_cases hsecond : epochStart top - 2048 < newHeight
      · rw [if_pos ⟨by omega, hsecond⟩]
        simp [hhead, hsecond]
      · rw [if_neg (by omega)]
        simp [hhead, hsecond]

theorem refilled_eq_iff (hle : newHeight ≤ top) :
    refilled ((seedHeights top).filter (· < newHeight)) newHeight = seedHeights newHeight ↔
      ¬ (2048 ≤ newHeight ∧ newHeight % 2048 = 0 ∧ newHeight / 2048 = top / 2048) := by
  have htop := epochStart_eq top
  have hnew := epochStart_eq newHeight
  rw [filter_seedHeights hle, refilled]
  by_cases hhead : epochStart top < newHeight
  · rw [if_pos hhead]
    refine iff_of_true ?_ (by omega)
    rw [drop_length, append_nil]
  rw [if_neg hhead]
  by_cases hsecond : 2048 ≤ top ∧ epochStart top - 2048 < newHeight
  · rw [if_pos hsecond]
    by_cases hlow : newHeight < 2048
    · refine iff_of_true ?_ (by omega)
      rw [seedHeights_of_lt hlow, show epochStart top - 2048 = 0 by omega]
      rfl
    · rw [seedHeights_of_le (by omega)]
      show [epochStart top - 2048, epochStart newHeight - 2048] = _ ↔ _
      simp only [List.cons.injEq, and_true]
      omega
  · rw [if_neg hsecond]
    exact iff_of_true rfl (by omega)

theorem nodup_seedHeights (top : Nat) : (seedHeights top).Nodup := by
  rw [seedHeights_eq_take]
  exact ((pairwise_seedHeightsBelow _).sublist (take_sublist ..)).imp Nat.ne_of_gt

theorem length_filter_seedHeights_le (hle : newHeight ≤ top) :
    ((seedHeights top).filter (· < newHeight)).length ≤ (seedHeights newHeight).length := by
  have hone : 1 ≤ (seedHeights newHeight).length := length_pos_of_mem (randomxSeedHeight_mem newHeight)
  rw [filter_seedHeights hle]
  split
  · exact le_rfl
  · split
    · exact hone
    · exact Nat.zero_le _

end Cuprate.Consensus
