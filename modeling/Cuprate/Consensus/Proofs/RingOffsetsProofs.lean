import Cuprate.Consensus.TransactionSemantics

/-!
# Ring members and their offsets

That ring members are distinct is checked on the relative offsets, and that they are old enough on
the last one. Both are meant for the absolute offsets, which are running sums on `u64`: the checks
are enough exactly if the sums do not wrap.
-/

namespace Cuprate.Consensus

open Collections HardFork List

def runningSums (start : Nat) : List Nat → List Nat
  | [] => []
  | n :: ns => (start + n) :: runningSums (start + n) ns

theorem absoluteOffsetsFrom_exact_iff (last : UInt64) (offsets : List UInt64) :
    (absoluteOffsetsFrom last offsets).map UInt64.toNat = runningSums last.toNat
      (offsets.map UInt64.toNat) ↔ last.toNat + (offsets.map UInt64.toNat).sum < 2 ^ 64 := by
  induction offsets generalizing last with
  | nil => exact iff_of_true rfl last.toNat_lt
  | cons offset offsets ih =>
    rw [absoluteOffsetsFrom, map_cons, map_cons, runningSums, sum_cons, List.cons.injEq, ← add_assoc]
    by_cases hfits : last.toNat + offset.toNat < 2 ^ 64
    · have hsum : (last + offset).toNat = last.toNat + offset.toNat := by
        rw [UInt64.toNat_add]
        exact Nat.mod_eq_of_lt hfits
      rw [← hsum, ih]
      exact and_iff_right rfl
    · have hlt := (last + offset).toNat_lt
      exact iff_of_false (fun h => by omega) (by omega)

theorem isChain_absoluteOffsetsFrom (last : UInt64) (offsets : List UInt64)
    (hfits : last.toNat + (offsets.map UInt64.toNat).sum < 2 ^ 64) :
    (last :: absoluteOffsetsFrom last offsets).IsChain (· < ·) ↔ ∀ offset ∈ offsets, offset ≠ 0 := by
  induction offsets generalizing last with
  | nil => exact iff_of_true (.singleton _) nofun
  | cons offset offsets ih =>
    rw [map_cons, sum_cons, ← add_assoc] at hfits
    have hsum : (last + offset).toNat = last.toNat + offset.toNat := by
      rw [UInt64.toNat_add]
      exact Nat.mod_eq_of_lt (by omega)
    have hlt : last < last + offset ↔ offset ≠ 0 := by
      rw [UInt64.lt_iff_toNat_lt, hsum, ne_eq, ← UInt64.toNat_inj, UInt64.toNat_zero]
      omega
    rw [absoluteOffsetsFrom, isChain_cons_cons, hlt, ih _ (by rwa [hsum]), forall_mem_cons]

/-- The outputs of an amount are numbered in the order of the chain. -/
def ChainOrdered (getOutput : UInt64 → UInt64 → Option OutputOnChain) : Prop :=
  ∀ amount i j out out', i ≤ j → getOutput amount i = some out → getOutput amount j = some out' →
    out.height ≤ out'.height

theorem ringMember_eq_ok {getOutput : UInt64 → UInt64 → Option OutputOnChain} {id : UInt64 × UInt64}
    {out : OutputOnChain} (h : ringMember getOutput id = .ok out) : getOutput id.1 id.2 = some out := by
  unfold ringMember at h
  split at h
  · next hget => rw [hget, Except.ok.inj h]
  · cases h

theorem height_le_last {getOutput : UInt64 → UInt64 → Option OutputOnChain}
    (hordered : ChainOrdered getOutput)
    {amount : UInt64} {offsets : List UInt64} {members : List OutputOnChain}
      (hlt : offsets.Pairwise (· < ·))
    (h : (offsets.map fun o => (amount, o)).mapM (ringMember getOutput) = .ok members)
      {out : OutputOnChain}
    (hout : out ∈ members) : ∃ newest, members.getLast? = some newest ∧ out.height ≤ newest.height := by
  have hmembers := forall₂_map_left_iff.mp (mapM_eq_ok.mp h)
  obtain ⟨hlength, hget⟩ := forall₂_iff_get.mp hmembers
  obtain ⟨i, hi, rfl⟩ := mem_iff_getElem.mp hout
  have hlast : members.length - 1 < members.length := by omega
  refine ⟨members[members.length - 1], ?_, ?_⟩
  · rw [getLast?_eq_getElem?, getElem?_eq_getElem hlast]
  · have hle : offsets[i] ≤ offsets[members.length - 1] := by
      by_cases heq : i = members.length - 1
      · simp only [← heq]
        exact UInt64.le_refl _
      · exact UInt64.le_of_lt (pairwise_iff_getElem.mp hlt i _ (by omega) (by omega) (by omega))
    exact hordered amount _ _ _ _ hle (ringMember_eq_ok (hget i (by omega) hi))
      (ringMember_eq_ok (hget _ (by omega) hlast))

theorem drop_one_ne_zero {amount : Option UInt64} {keyOffsets : List UInt64} {keyImage : CompressedPoint}
    {hf : HardFork} (h : checkRingMembersUnique (.toKey amount keyOffsets keyImage) hf = .ok ())
      (hv6 : V6 ≤ hf) : ∀ offset ∈ keyOffsets.drop 1, offset ≠ 0 := by
  rw [checkRingMembersUnique, if_pos hv6] at h
  intro offset hmem heq
  have hchecked := forM_eq_ok.mp h offset hmem
  rw [if_pos heq] at hchecked
  cases hchecked

/-- For an input that passes the checks on its relative offsets, the absolute offsets are increasing
exact sums, its ring members are distinct and the last is the newest, exactly if the sum fits in 64
bits and, before hard fork 6, no offset after the first is 0. -/
theorem getAbsoluteOffsets_increasing_iff (amount : Option UInt64) (keyOffsets : List UInt64)
    (keyImage : CompressedPoint) (hf : HardFork)
    (hdecoys : checkInputHasDecoys (.toKey amount keyOffsets keyImage) = .ok ())
    (hunique : checkRingMembersUnique (.toKey amount keyOffsets keyImage) hf = .ok ()) :
    ∃ absolute, getAbsoluteOffsets keyOffsets = .ok absolute ∧
      ((absolute.map UInt64.toNat = runningSums 0 (keyOffsets.map UInt64.toNat) ∧
        absolute.Pairwise (· < ·) ∧
          (∃ ids, inputRingMemberIds (.toKey amount keyOffsets keyImage) = .ok ids ∧ ids.Nodup) ∧
          ∀ getOutput members, ChainOrdered getOutput →
            inputRingMembers getOutput (.toKey amount keyOffsets keyImage) = .ok members →
            ∀ out ∈ members, ∃ newest, members.getLast? = some newest ∧ out.height ≤ newest.height) ↔
        (V6 ≤ hf ∨ ∀ offset ∈ keyOffsets.drop 1, offset ≠ 0) ∧
          (keyOffsets.map UInt64.toNat).sum < 2 ^ 64) := by
  cases keyOffsets with
  | nil => cases hdecoys
  | cons first offsets =>
    refine ⟨first :: absoluteOffsetsFrom first offsets, rfl, ?_⟩
    have hexact := absoluteOffsetsFrom_exact_iff first offsets
    have hchain := isChain_absoluteOffsetsFrom first offsets
    have htrans : Trans (fun a b : UInt64 => a < b) (fun a b : UInt64 => a < b)
        (fun a b : UInt64 => a < b) :=
      ⟨UInt64.lt_trans⟩
    simp only [map_cons, runningSums, zero_add, List.cons.injEq, true_and, sum_cons, hexact,
      drop_one, tail_cons]
    constructor
    · rintro ⟨hfits, hlt, -⟩
      exact ⟨.inr ((hchain hfits).mp hlt.isChain), hfits⟩
    · rintro ⟨hzero, hfits⟩
      have hne : ∀ offset ∈ offsets, offset ≠ 0 := hzero.elim (drop_one_ne_zero hunique) id
      have hlt : (first :: absoluteOffsetsFrom first offsets).Pairwise (· < ·) :=
          ((hchain hfits).mpr hne).pairwise
      have hnodup : (first :: absoluteOffsetsFrom first offsets).Nodup := by
        refine List.Pairwise.imp (fun {a b} hlt heq => ?_) hlt
        subst heq
        exact UInt64.lt_irrefl _ hlt
      refine ⟨hfits, hlt, ⟨_, rfl, hnodup.map fun _ _ h => (Prod.mk.inj h).2⟩, ?_⟩
      intro getOutput members hordered hmembers out hout
      exact height_le_last hordered hlt hmembers hout

/-- Three ring members, two and three outputs apart. -/
theorem getAbsoluteOffsets_increasing_small :
    ∃ absolute, getAbsoluteOffsets [5, 2, 3] = .ok absolute ∧ absolute.Pairwise (· < ·) := by
  obtain ⟨absolute, hget, hiff⟩ :=
    getAbsoluteOffsets_increasing_iff none [5, 2, 3] 0 V16 (by decide) (by decide)
  exact ⟨absolute, hget, (hiff.mpr ⟨.inl (by decide), by decide⟩).2.1⟩

/-- The offsets pass the checks, and the first ring member comes again. -/
theorem getAbsoluteOffsets_repeats :
    checkInputHasDecoys (.toKey none [5, 3, 18446744073709551613] 0) = .ok () ∧
      checkRingMembersUnique (.toKey none [5, 3, 18446744073709551613] 0) V16 = .ok () ∧
      getAbsoluteOffsets [5, 3, 18446744073709551613] = .ok [5, 8, 5] := by
  decide

end Cuprate.Consensus
