import Cuprate.Pruning.Proofs.PruningSeedProofs
import Mathlib.Data.Int.CardIntervalMod
import Mathlib.Data.Nat.Periodic

/-!
# The order of the pruning seeds

The seeds are ordered by the number of stripes, then by the stripe, and a peer that prunes nothing
comes last. This is not the order of how much the peers keep.
-/

namespace Cuprate.Pruning

theorem DecompressedPruningSeed.bounds (seed : DecompressedPruningSeed) :
    seed.logStripes ≤ 7 ∧ seed.stripe ≤ 128 := by
  have hlog : seed.logStripes ≤ 7 := seed.logStripes_le
  refine ⟨hlog, le_trans seed.stripe_le ?_⟩
  rw [Nat.shiftLeft_eq, one_mul]
  exact Nat.pow_le_pow_right (by omega) hlog

namespace PruningSeed

/-- The place of a seed in the order. No stripe is above 128, so the number of stripes comes
first. -/
def rank : PruningSeed → Nat
  | notPruned => 8 * 129
  | pruned seed => seed.logStripes * 129 + seed.stripe

theorem cmp_eq_compareOn : PruningSeed.cmp = compareOn rank := by
  funext seed other
  unfold compareOn
  cases seed with
  | notPruned =>
    cases other with
    | notPruned => simp [cmp]
    | pruned other =>
      have h := other.bounds
      refine (Nat.compare_eq_gt.mpr ?_).symm
      simp only [rank]
      omega
  | pruned seed =>
    have h := seed.bounds
    cases other with
    | notPruned =>
      refine (Nat.compare_eq_lt.mpr ?_).symm
      simp only [rank]
      omega
    | pruned other =>
      have h' := other.bounds
      simp only [cmp, DecompressedPruningSeed.cmp, rank]
      rcases Nat.lt_trichotomy seed.logStripes other.logStripes with hlt | heq | hgt
      · rw [Nat.compare_eq_lt.mpr hlt, eq_comm, Nat.compare_eq_lt]
        omega
      · rw [heq, Nat.compare_eq_eq.mpr rfl]
        simp only [Nat.compare_eq_ite_lt, Nat.add_lt_add_iff_left]
      · rw [Nat.compare_eq_gt.mpr hgt, eq_comm, Nat.compare_eq_gt]
        omega

theorem rank_injective : Function.Injective rank := by
  intro seed other h
  cases seed with
  | notPruned =>
    cases other with
    | notPruned => rfl
    | pruned other =>
      have h' := other.bounds
      simp only [rank] at h
      omega
  | pruned seed =>
    have hs := seed.bounds
    cases other with
    | notPruned =>
      simp only [rank] at h
      omega
    | pruned other =>
      have ho := other.bounds
      have hspos := seed.stripe_pos
      have hopos := other.stripe_pos
      simp only [rank] at h
      have hlog : seed.logStripes = other.logStripes := by omega
      have hstripe : seed.stripe = other.stripe := by omega
      obtain ⟨_, _, _, _, _⟩ := seed
      obtain ⟨_, _, _, _, _⟩ := other
      obtain rfl : _ = _ := hlog
      obtain rfl : _ = _ := hstripe
      rfl

instance : Std.TransCmp PruningSeed.cmp := by
  rw [cmp_eq_compareOn]
  infer_instance

instance : Std.LawfulEqCmp PruningSeed.cmp where
  eq_of_compare {seed other} h := by
    rw [cmp_eq_compareOn] at h
    exact rank_injective (Nat.compare_eq_eq.mp h)

/-- The logarithm of the number of stripes; a peer that prunes nothing keeps the only one. -/
def logStripes : PruningSeed → Nat
  | notPruned => 0
  | pruned seed => seed.logStripes

/-- How many full blocks a peer stores of a cycle of `2 ^ cycle` stripes that begins at `start`. -/
def fullBlocks (seed : PruningSeed) (start cycle blockchainHeight : Nat) : Nat :=
  ((Finset.Ico start (start + CRYPTONOTE_PRUNING_STRIPE_SIZE * 2 ^ cycle)).filter
    fun height => seed.hasFullBlock height blockchainHeight).card

theorem count_div_mul (q : Nat → Prop) [DecidablePred q] {size : Nat} (hsize : 0 < size) (n : Nat) :
    (size * n).count (fun height => q (height / size)) = size * n.count q := by
  induction n with
  | zero => simp
  | succ n ih =>
    have hblock : size.count (fun k => q ((size * n + k) / size)) = if q n then size else 0 := by
      have hdiv : ∀ k < size, (q ((size * n + k) / size) ↔ q n) := by
        intro k hk
        rw [Nat.mul_add_div hsize, Nat.div_eq_of_lt hk, add_zero]
      split
      · next hq => exact Nat.count_iff_forall.mpr fun k hk => (hdiv k hk).mpr hq
      · next hq => exact Nat.count_iff_forall_not.mpr fun k hk => mt (hdiv k hk).mp hq
    rw [Nat.mul_succ, Nat.count_add, ih, hblock, Nat.count_succ, mul_add]
    split
    · rw [mul_one]
    · rw [mul_zero]

theorem fullBlocks_eq {seed : PruningSeed} {start cycle blockchainHeight : Nat}
    (hlog : seed.logStripes ≤ cycle)
    (htip : start + CRYPTONOTE_PRUNING_STRIPE_SIZE * 2 ^ cycle + CRYPTONOTE_PRUNING_TIP_BLOCKS ≤
      blockchainHeight) :
    seed.fullBlocks start cycle blockchainHeight = CRYPTONOTE_PRUNING_STRIPE_SIZE * 2 ^
      (cycle - seed.logStripes) := by
  unfold fullBlocks
  cases seed with
  | notPruned => simp [hasFullBlock, logStripes]
  | pruned seed =>
    let kept (k : Nat) : Prop := k ≡ seed.stripe - 1 [MOD 2 ^ seed.logStripes]
    have hcycle : 2 ^ cycle % 2 ^ seed.logStripes = 0 := Nat.mod_eq_zero_of_dvd (Nat.pow_dvd_pow 2 hlog)
    have hstripe : seed.stripe - 1 < 2 ^ seed.logStripes := by
      have hle := seed.stripe_le
      have hpos := seed.stripe_pos
      rw [Nat.one_shiftLeft] at hle
      omega
    have hkept : ∀ height ∈ Finset.Ico start (start + CRYPTONOTE_PRUNING_STRIPE_SIZE * 2 ^ cycle),
        ((pruned seed).hasFullBlock height blockchainHeight ↔
          kept (height / CRYPTONOTE_PRUNING_STRIPE_SIZE)) := by
      intro height hmem
      have hlt := (Finset.mem_Ico.mp hmem).2
      have hpos := seed.stripe_pos
      rw [hasFullBlock_pruned, DecompressedPruningSeed.hasFullBlock_iff, or_iff_right (by omega)]
      show _ ↔ _ % _ = _ % _
      rw [Nat.mod_eq_of_lt hstripe]
      omega
    have hperiodic : Function.Periodic (fun height => kept (height / CRYPTONOTE_PRUNING_STRIPE_SIZE))
        (CRYPTONOTE_PRUNING_STRIPE_SIZE * 2 ^ cycle) := by
      intro height
      show (_ % _ = _) = (_ % _ = _)
      rw [Nat.add_mul_div_left _ _ (by decide), Nat.add_mod, hcycle, add_zero, Nat.mod_mod]
    rw [Finset.filter_congr hkept, Nat.filter_Ico_card_eq_of_periodic _ _ _ hperiodic,
      count_div_mul kept (by decide), Nat.count_modEq_card _ (Nat.two_pow_pos _), hcycle,
      if_neg (Nat.not_lt_zero _), add_zero]
    exact congrArg _ (Nat.pow_div hlog (by decide))

/-- The order is total and consistent with equality. A seed stores at least as many full blocks of a
cycle as another exactly if it has no more stripes, which is not what being greater means. -/
theorem cmp_total_and_fullBlocks_le_iff (a b : PruningSeed) {start cycle blockchainHeight : Nat}
    (ha : a.logStripes ≤ cycle) (hb : b.logStripes ≤ cycle)
    (htip : start + CRYPTONOTE_PRUNING_STRIPE_SIZE * 2 ^ cycle + CRYPTONOTE_PRUNING_TIP_BLOCKS ≤
      blockchainHeight) :
    (a.cmp b = .eq ↔ a = b) ∧ b.cmp a = (a.cmp b).swap ∧
      (∀ c, (a.cmp b).isLE → (b.cmp c).isLE → (a.cmp c).isLE) ∧
      (a.fullBlocks start cycle blockchainHeight ≤ b.fullBlocks start cycle blockchainHeight ↔
        b.logStripes ≤ a.logStripes) := by
  refine ⟨Std.LawfulEqCmp.compare_eq_iff_eq, Std.OrientedCmp.eq_swap, fun c => Std.TransCmp.isLE_trans, ?_⟩
  rw [fullBlocks_eq ha htip, fullBlocks_eq hb htip, Nat.mul_le_mul_left_iff (by decide),
    Nat.pow_le_pow_iff_right (by decide)]
  omega

/-- The first of eight stripes is less than half of the blocks. -/
theorem cmp_total_and_fullBlocks_le_iff_eighth : ∃ a b : PruningSeed, a.logStripes = 3 ∧ b.logStripes = 1 ∧
    a.fullBlocks 0 3 40000 ≤ b.fullBlocks 0 3 40000 ∧
      ¬ b.fullBlocks 0 3 40000 ≤ a.fullBlocks 0 3 40000 := by
  let a : PruningSeed := .pruned ⟨3, 1, by decide, by decide, by decide⟩
  let b : PruningSeed := .pruned ⟨1, 2, by decide, by decide, by decide⟩
  have hle := (@cmp_total_and_fullBlocks_le_iff a b 0 3 40000 (by decide) (by decide) (by decide)).2.2.2
  have hge := (@cmp_total_and_fullBlocks_le_iff b a 0 3 40000 (by decide) (by decide) (by decide)).2.2.2
  exact ⟨a, b, rfl, rfl, hle.mpr (by decide), mt hge.mp (by decide)⟩

/-- A peer that keeps one of two stripes is greater than one that keeps the only stripe, and stores
half as much. -/
theorem greater_seed_stores_less : ∃ a b : PruningSeed, a.cmp b = .lt ∧
    b.fullBlocks 0 1 20000 < a.fullBlocks 0 1 20000 := by
  refine ⟨.pruned ⟨0, 1, by decide, by decide, by decide⟩, .pruned ⟨1, 1, by decide, by decide, by decide⟩,
    by decide, ?_⟩
  rw [fullBlocks_eq (by decide) (by decide), fullBlocks_eq (by decide) (by decide)]
  decide

end PruningSeed

end Cuprate.Pruning
