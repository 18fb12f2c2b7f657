import Cuprate.Consensus.Checked

/-!
# The miner's payout

The reward falls from the base reward to nothing as the weight of a block goes from the median to
twice the median. The check of the amount that the miner takes is exact only where no sum overflows
and the outputs cover the fees.
-/

namespace Cuprate.Consensus

open MachineNumbers HardFork

theorem blockTime_eq_or (hf : HardFork) : hf.blockTime = 60 ∨ hf.blockTime = 120 := by cases hf <;> decide

theorem toNat_max (a b : UInt64) : (max a b).toNat = max a.toNat b.toNat := by
  show (if a ≤ b then b else a).toNat = _
  rw [Nat.max_def, apply_ite UInt64.toNat]
  simp only [UInt64.le_iff_toNat_le]

theorem calculateBaseRewardChecked_eq (coins : UInt64) (hf : HardFork) :
    calculateBaseRewardChecked coins.toNat hf = some (calculateBaseReward coins hf).toNat := by
  have hcoins := coins.toNat_lt
  have hsupply : MONEY_SUPPLY.toNat = 2 ^ 64 - 1 := rfl
  have hle : coins.toNat ≤ MONEY_SUPPLY.toNat := by omega
  have hleft : (MONEY_SUPPLY - coins).toNat = MONEY_SUPPLY.toNat - coins.toNat :=
    UInt64.toNat_sub_of_le _ _ (UInt64.le_iff_toNat_le.mpr hle)
  unfold calculateBaseRewardChecked calculateBaseReward
  rw [toNat_max, UInt64.toNat_shiftRight, hleft]
  rcases blockTime_eq_or hf with htime | htime
  · simp only [htime, checkedSub_of_le hle]
    rfl
  · simp only [htime, checkedSub_of_le hle]
    rfl

section Penalty

variable {median weight weight' : Nat}

theorem penalty_le_penalty (hmedian : median ≤ weight) (hle : weight ≤ weight')
    (hdouble : weight' ≤ 2 * median) :
    (2 * median - weight') * weight' ≤ (2 * median - weight) * weight := by
  obtain ⟨above, rfl⟩ := Nat.exists_eq_add_of_le hmedian
  obtain ⟨more, rfl⟩ := Nat.exists_eq_add_of_le hle
  obtain ⟨left, hleft⟩ := Nat.exists_eq_add_of_le hdouble
  rw [show 2 * median - (median + above + more) = left by omega,
    show 2 * median - (median + above) = left + more by omega]
  have hmedian : median = above + more + left := by omega
  rw [hmedian]
  nlinarith [Nat.zero_le (above * more), Nat.zero_le (more * more)]

theorem penalty_le_sq (hmedian : median ≤ weight) (hdouble : weight ≤ 2 * median) :
    (2 * median - weight) * weight ≤ median * median := by
  have h := penalty_le_penalty le_rfl hmedian hdouble
  rwa [show 2 * median - median = median by omega] at h

/-- The reward for a block of the given weight, on natural numbers. -/
def penalized (base median weight : Nat) : Nat :=
  if weight ≤ median then base else base * (2 * median - weight) * weight / median ^ 2

variable {base : Nat}

theorem penalized_le_base (hdouble : weight ≤ 2 * median) : penalized base median weight ≤ base := by
  unfold penalized
  split
  · exact le_rfl
  · refine Nat.div_le_of_le_mul ?_
    rw [mul_assoc, mul_comm (median ^ 2), pow_two]
    exact Nat.mul_le_mul_left _ (penalty_le_sq (by omega) hdouble)

theorem penalized_antitone (hle : weight ≤ weight') (hdouble : weight' ≤ 2 * median) :
    penalized base median weight' ≤ penalized base median weight := by
  by_cases hlight : weight ≤ median
  · have hbase : penalized base median weight = base := if_pos hlight
    rw [hbase]
    exact penalized_le_base hdouble
  · unfold penalized
    rw [if_neg hlight, if_neg (by omega), mul_assoc, mul_assoc]
    exact Nat.div_le_div_right (Nat.mul_le_mul_left _ (penalty_le_penalty (by omega) hle hdouble))

end Penalty

/-- A block of up to twice the median gets the penalized reward, calculated in range. -/
theorem calculateBlockReward_eq {weight median : Nat} (coins : UInt64) (hf : HardFork) (hpos : 0 < median)
    (hsmall : median < 2 ^ 32) (hdouble : weight ≤ 2 * median) :
    calculateBlockRewardChecked weight median coins.toNat hf =
        some (penalized (calculateBaseReward coins hf).toNat median weight) ∧
      calculateBlockReward weight median coins hf =
        some (UInt64.ofNat (penalized (calculateBaseReward coins hf).toNat median weight)) := by
  have hbase := (calculateBaseReward coins hf).toNat_lt
  unfold calculateBlockRewardChecked calculateBlockReward
  rw [calculateBaseRewardChecked_eq, Option.bind_eq_bind, Option.bind_some]
  generalize calculateBaseReward coins hf = base at hbase ⊢
  by_cases hlight : weight ≤ median
  · rw [if_pos hlight, penalized, if_pos hlight]
    exact ⟨rfl, by rw [if_pos hlight, UInt64.ofNat_toNat]⟩
  have hsq : (2 * median - weight) * weight ≤ median * median := penalty_le_sq (by omega) hdouble
  have hmedianSq : median * median < 2 ^ 64 := by nlinarith
  have hfactor : (2 * median - weight) * weight < 2 ^ 64 := hsq.trans_lt hmedianSq
  have hproduct : base.toNat * ((2 * median - weight) * weight) < 2 ^ 128 := by nlinarith
  have hreward : base.toNat * ((2 * median - weight) * weight) / median / median =
      penalized base.toNat median weight := by
    rw [penalized, if_neg hlight, Nat.div_div_eq_div_mul, mul_assoc, pow_two]
  have hfits : penalized base.toNat median weight < 2 ^ 64 := (penalized_le_base hdouble).trans_lt hbase
  have hleft : (2 * median % 2 ^ 64 + 2 ^ 64 - weight) % 2 ^ 64 = 2 * median - weight := by omega
  constructor
  · rw [if_neg hlight, checkedMul_of_lt (show 2 * median < 2 ^ 64 by omega), Option.bind_some,
      checkedSub_of_le hdouble, Option.bind_some, checkedMul_of_lt hfactor, Option.bind_some,
      checkedMul_of_lt hproduct, Option.bind_some, checkedDiv_of_pos hpos, Option.bind_some,
      checkedDiv_of_pos hpos, Option.bind_some, hreward, narrow_of_lt hfits]
  · have hrange : ¬ (median = 0 ∨ 2 ^ 64 ≤ penalized base.toNat median weight) := by omega
    rw [if_neg hlight, hleft, Nat.mod_eq_of_lt hfactor]
    dsimp only
    rw [hreward, if_neg hrange]

/-- Up to twice the median the reward is calculated in range. It is the base reward up to the
median, and the floor of the penalized reward above it. It does not increase with the weight, and
nothing is left of it at twice the median. -/
theorem calculateBlockReward_penalizes (coins : UInt64) (hf : HardFork) (median weight : Nat)
    (hpos : 0 < median)
    (hsmall : median < 2 ^ 32) (hdouble : weight ≤ 2 * median) :
    ∃ reward : UInt64,
      calculateBlockRewardChecked weight median coins.toNat hf = some reward.toNat ∧
      calculateBlockReward weight median coins hf = some reward ∧
      reward.toNat = (if weight ≤ median then (calculateBaseReward coins hf).toNat
        else (calculateBaseReward coins hf).toNat * (2 * median - weight) * weight / median ^ 2) ∧
      reward ≤ calculateBaseReward coins hf ∧
      (∀ weight' reward', weight ≤ weight' → weight' ≤ 2 * median →
        calculateBlockReward weight' median coins hf = some reward' → reward' ≤ reward) ∧
      (weight = 2 * median → reward = 0) := by
  have hbase := (calculateBaseReward coins hf).toNat_lt
  have htoNat : ∀ w, w ≤ 2 * median →
      (UInt64.ofNat (penalized (calculateBaseReward coins hf).toNat median w)).toNat =
        penalized (calculateBaseReward coins hf).toNat median w := by
    intro w hw
    exact UInt64.toNat_ofNat_of_lt' ((penalized_le_base hw).trans_lt hbase)
  obtain ⟨hchecked, hreward⟩ := calculateBlockReward_eq coins hf hpos hsmall hdouble
  refine ⟨_, ?_, hreward, htoNat _ hdouble, ?_, fun weight' reward' hle hdouble' hreward' => ?_, ?_⟩
  · rw [hchecked, htoNat _ hdouble]
  · rw [UInt64.le_iff_toNat_le, htoNat _ hdouble]
    exact penalized_le_base hdouble
  · rw [(calculateBlockReward_eq coins hf hpos hsmall hdouble').2] at hreward'
    rw [← Option.some.inj hreward', UInt64.le_iff_toNat_le, htoNat _ hdouble, htoNat _ hdouble']
    exact penalized_antitone hle hdouble'
  · rintro rfl
    rw [penalized, if_neg (by omega), Nat.sub_self, mul_zero, zero_mul, Nat.zero_div]
    rfl

/-- A block one and a half times as heavy as the median. -/
theorem calculateBlockReward_penalizes_half :
    ∃ reward : UInt64, calculateBlockReward 450000 300000 0 V16 = some reward ∧
      reward ≤ calculateBaseReward 0 V16 := by
  obtain ⟨reward, -, hreward, -, hle, -⟩ :=
    calculateBlockReward_penalizes 0 V16 300000 450000 (by omega) (by omega) (by omega)
  exact ⟨reward, hreward, hle⟩

theorem addOutput_toNat (hf : HardFork) (txVersion : TxVersion) (sum : UInt64) (out : Output)
    (next : UInt64)
    (h : addOutput hf txVersion sum out = .ok next) :
      next.toNat = sum.toNat + (out.amount.getD 0).toNat := by
  unfold addOutput at h
  dsimp only at h
  split at h
  · cases h
  split at h
  · cases h
  split at h
  · cases h
  · cases h
    rw [UInt64.toNat_add]
    exact Nat.mod_eq_of_lt (by omega)

theorem sumOutputs_eq {outputs : List Output} {hf : HardFork} {txVersion : TxVersion} {total : UInt64}
    (h : sumOutputs outputs hf txVersion = .ok total) : total.toNat = totalOutputs outputs := by
  rw [foldlM_add _ (addOutput_toNat hf txVersion) h, totalOutputs, UInt64.toNat_zero, zero_add]

theorem checkTotalOutputAmtChecked_isSome_iff (total reward fees : UInt64) (hf : HardFork) :
    (checkTotalOutputAmtChecked total.toNat reward.toNat fees.toNat hf).isSome ↔
      reward.toNat + fees.toNat < 2 ^ 64 ∧ (hf = V1 ∨ V12 ≤ hf ∨ fees.toNat ≤ total.toNat) := by
  have htotal := total.toNat_lt
  unfold checkTotalOutputAmtChecked
  by_cases hexact : hf = V1 ∨ V12 ≤ hf
  · rw [if_pos hexact]
    by_cases hfits : reward.toNat + fees.toNat < 2 ^ 64
    · rw [checkedAdd_of_lt hfits]
      exact ⟨fun _ => ⟨hfits, hexact.imp_right .inl⟩, fun _ => rfl⟩
    · rw [checkedAdd, narrow, if_neg hfits]
      exact ⟨nofun, fun h => absurd h.1 hfits⟩
  · rw [if_neg hexact]
    rw [not_or] at hexact
    by_cases hcover : fees.toNat ≤ total.toNat
    · rw [checkedSub_of_le hcover, Option.bind_eq_bind, Option.bind_some]
      split
      · exact ⟨fun _ => ⟨by omega, .inr (.inr hcover)⟩, fun _ => rfl⟩
      · by_cases hfits : reward.toNat + fees.toNat < 2 ^ 64
        · rw [checkedAdd_of_lt hfits]
          exact ⟨fun _ => ⟨hfits, .inr (.inr hcover)⟩, fun _ => rfl⟩
        · rw [checkedAdd, narrow, if_neg hfits]
          exact ⟨nofun, fun h => absurd h.1 hfits⟩
    · rw [checkedSub, if_neg hcover]
      exact ⟨nofun, fun h => h.2.elim (absurd · hexact.1) (·.elim (absurd · hexact.2) (absurd · hcover))⟩

/-- The miner takes `generated` coins besides the fees. -/
def Pays (total : Nat) (reward fees : UInt64) (hf : HardFork) (generated : UInt64) : Prop :=
  total = generated.toNat + fees.toNat ∧ generated ≤ reward ∧ (hf = V1 ∨ V12 ≤ hf → generated = reward)

/-- In range, the release build computes the same, and accepts exactly what is paid. -/
theorem checkTotalOutputAmt_of_fits {total reward fees : UInt64} {hf : HardFork}
    (hfits : reward.toNat + fees.toNat < 2 ^ 64) (hcover : hf = V1 ∨ V12 ≤ hf ∨ fees.toNat ≤ total.toNat) :
    checkTotalOutputAmtChecked total.toNat reward.toNat fees.toNat hf =
        some ((checkTotalOutputAmt total reward fees hf).map UInt64.toNat) ∧
      ∀ generated, checkTotalOutputAmt total reward fees hf = .ok generated ↔
        Pays total.toNat reward fees hf generated := by
  have hsum : (reward + fees).toNat = reward.toNat + fees.toNat := by
    rw [UInt64.toNat_add]
    exact Nat.mod_eq_of_lt hfits
  unfold checkTotalOutputAmtChecked checkTotalOutputAmt
  by_cases hexact : hf = V1 ∨ V12 ≤ hf
  · rw [if_pos hexact, if_pos hexact, checkedAdd_of_lt hfits, Option.bind_eq_bind, Option.bind_some]
    by_cases heq : total = reward + fees
    · subst heq
      rw [if_neg (not_not_intro hsum), if_neg (not_not_intro rfl)]
      refine ⟨rfl, fun generated => ⟨fun h => ?_, fun h => congrArg _ (h.2.2 hexact).symm⟩⟩
      cases h
      exact ⟨hsum, UInt64.le_refl _, fun _ => rfl⟩
    · have hne : total.toNat ≠ reward.toNat + fees.toNat := fun h =>
          heq (UInt64.toNat_inj.mp (h.trans hsum.symm))
      rw [if_pos hne, if_pos heq]
      refine ⟨rfl, fun generated => ⟨nofun, fun h => ?_⟩⟩
      have htotal := h.1
      rw [h.2.2 hexact] at htotal
      exact absurd htotal hne
  · rw [← or_assoc, or_iff_right hexact] at hcover
    have hsub : (total - fees).toNat = total.toNat - fees.toNat :=
      UInt64.toNat_sub_of_le _ _ (UInt64.le_iff_toNat_le.mpr hcover)
    rw [if_neg hexact, if_neg hexact, checkedSub_of_le hcover, Option.bind_eq_bind, Option.bind_some]
    by_cases hhigh : total.toNat - fees.toNat > reward.toNat
    · have hhigh' : total - fees > reward := by rwa [gt_iff_lt, UInt64.lt_iff_toNat_lt, hsub]
      rw [if_pos hhigh, if_pos (.inl hhigh')]
      refine ⟨rfl, fun generated => ⟨nofun, fun h => ?_⟩⟩
      have htotal := h.1
      have hle := UInt64.le_iff_toNat_le.mp h.2.1
      omega
    · have hlow : ¬ (total - fees > reward ∨ total > reward + fees) := by
        rw [gt_iff_lt, gt_iff_lt, UInt64.lt_iff_toNat_lt, UInt64.lt_iff_toNat_lt, hsub, hsum]
        omega
      rw [if_neg hhigh, checkedAdd_of_lt hfits, Option.bind_some, if_neg (by omega), if_neg hlow]
      refine ⟨by rw [← hsub]; rfl, fun generated => ⟨fun h => ?_, fun h => ?_⟩⟩
      · cases h
        refine ⟨by omega, ?_, fun h => absurd h hexact⟩
        rw [UInt64.le_iff_toNat_le, hsub]
        omega
      · have hgenerated : total - fees = generated := UInt64.toNat_inj.mp (by rw [hsub, h.1]; omega)
        rw [hgenerated]

/-- For outputs of a miner transaction that add up, the check of their total is in range and accepts
only what the miner may take, exactly if the reward and the fees fit in 64 bits together and, unless
the miner has to take all of the reward, the outputs cover the fees. -/
theorem checkTotalOutputAmt_sound_iff (outputs : List Output) (hf : HardFork) (txVersion : TxVersion)
    (reward fees total : UInt64) (hsum : sumOutputs outputs hf txVersion = .ok total) :
    total.toNat = totalOutputs outputs ∧
      ((checkTotalOutputAmtChecked total.toNat reward.toNat fees.toNat hf =
            some ((checkTotalOutputAmt total reward fees hf).map UInt64.toNat) ∧
          ∀ generated, checkTotalOutputAmt total reward fees hf = .ok generated →
            Pays (totalOutputs outputs) reward fees hf generated) ↔
        reward.toNat + fees.toNat < 2 ^ 64 ∧
          (hf = V1 ∨ V12 ≤ hf ∨ fees.toNat ≤ totalOutputs outputs)) := by
  have htotal := sumOutputs_eq hsum
  refine ⟨htotal, ⟨fun h => ?_, fun h => ?_⟩⟩
  · rw [← htotal, ← checkTotalOutputAmtChecked_isSome_iff, h.1]
    rfl
  · rw [← htotal] at h ⊢
    obtain ⟨hchecked, hpays⟩ := checkTotalOutputAmt_of_fits h.1 h.2
    exact ⟨hchecked, fun generated => (hpays generated).mp⟩

/-- A miner that takes all of the reward and the fees. -/
theorem checkTotalOutputAmt_sound_all :
    sumOutputs [⟨some 7, 0, some 0⟩] V16 .ringCT = .ok 7 ∧ checkTotalOutputAmt 7 5 2 V16 = .ok 5 ∧
      Pays (totalOutputs [⟨some 7, 0, some 0⟩]) 5 2 V16 5 := by
  have hsum : sumOutputs [⟨some 7, 0, some 0⟩] V16 .ringCT = .ok 7 := by decide
  have haccepted : checkTotalOutputAmt 7 5 2 V16 = .ok 5 := by decide
  have hsound := (checkTotalOutputAmt_sound_iff [⟨some 7, 0, some 0⟩] V16 .ringCT 5 2 7 hsum).2.mpr
      (by decide)
  exact ⟨hsum, haccepted, hsound.2 5 haccepted⟩

/-- The outputs are less than the fees, and the difference goes below zero. Amounts that do not fit
together are even accepted. -/
theorem checkTotalOutputAmt_out_of_range : sumOutputs [⟨some 1, 0, none⟩] V2 .ringSignatures = .ok 1 ∧
      checkTotalOutputAmtChecked 1 17592186044415 2 V2 = none ∧
      checkTotalOutputAmt 1 18446744073709551615 2 V2 = .ok 18446744073709551615 := by
  decide

end Cuprate.Consensus
