import Cuprate.Consensus.BlockVerification
import Cuprate.Consensus.Checked
import Cuprate.Consensus.TransactionSemantics

/-!
# What the semantic rules ensure

A version 1 transaction that passes the semantic rules conserves money exactly, and its fee is the
one that was calculated when it was parsed.
-/

namespace Cuprate.Consensus

open Collections MachineNumbers HardFork List Except Transaction

def inputAmount : Input → Nat
  | .toKey amount _ _ => (amount.getD 0).toNat
  | .gen _ => 0

def totalInputs (inputs : List Input) : Nat := (inputs.map inputAmount).sum

theorem addAmount_toNat {overflow : TransactionError} {sum amount next : UInt64}
    (h : addAmount overflow sum amount = .ok next) : next.toNat = sum.toNat + amount.toNat := by
  unfold addAmount at h
  split at h
  · cases h
  · cases h
    rw [UInt64.toNat_add]
    exact Nat.mod_eq_of_lt (by omega)

variable {rules : CurveRules} {inputs : List Input} {total fee : UInt64} {outputs : List Output}
  {tx : Transaction} {hf : HardFork} {txHash : Hash}

theorem sumTxOutputs_eq {txVersion : TxVersion} (h : sumTxOutputs outputs hf txVersion = .ok total) :
    total.toNat = totalOutputs outputs := by
  have hstep : ∀ sum out next, addTxOutput hf txVersion sum out = .ok next →
      next.toNat = sum.toNat + (out.amount.getD 0).toNat := by
    intro sum out next hnext
    obtain ⟨_, -, hadd⟩ := bind_eq_ok.mp hnext
    exact addAmount_toNat hadd
  rw [foldlM_add _ hstep h, totalOutputs, UInt64.toNat_zero, zero_add]

theorem sumInputsCheckOverflow_eq (h : sumInputsCheckOverflow inputs = .ok total) :
    total.toNat = totalInputs inputs := by
  have hstep : ∀ sum input next, addInput sum input = .ok next →
      next.toNat = sum.toNat + inputAmount input := by
    intro sum input next hnext
    cases input with
    | gen height => cases hnext
    | toKey amount keyOffsets keyImage => exact addAmount_toNat hnext
  rw [foldlM_add _ hstep h, totalInputs, UInt64.toNat_zero, zero_add]

theorem foldlM_addInputAmount (h : sumInputsCheckOverflow inputs = .ok total) :
    inputs.foldlM addInputAmount 0 = .ok total := by
  refine foldlM_of_foldlM ?_ h
  intro sum input next hnext
  cases input with
  | gen height => cases hnext
  | toKey amount keyOffsets keyImage => exact hnext

theorem foldlM_subOutputAmount (h : totalOutputs outputs ≤ fee.toNat) :
    ∃ rest, outputs.foldlM subOutputAmount fee = .ok rest ∧
      rest.toNat + totalOutputs outputs = fee.toNat := by
  induction outputs generalizing fee with
  | nil => exact ⟨fee, rfl, rfl⟩
  | cons out outputs ih =>
    have htotal : totalOutputs (out :: outputs) = (out.amount.getD 0).toNat + totalOutputs outputs := by
      rw [totalOutputs, map_cons, sum_cons, totalOutputs]
    have hle : out.amount.getD 0 ≤ fee := UInt64.le_iff_toNat_le.mpr (by omega)
    have hsub : (fee - out.amount.getD 0).toNat = fee.toNat - (out.amount.getD 0).toNat :=
      UInt64.toNat_sub_of_le _ _ hle
    have hstep : subOutputAmount fee out = .ok (fee - out.amount.getD 0) := if_neg (UInt64.not_lt.mpr hle)
    obtain ⟨rest, hrest, hsum⟩ := @ih (fee - out.amount.getD 0) (by omega)
    refine ⟨rest, ?_, by omega⟩
    rw [foldlM_cons, hstep]
    exact hrest

theorem keyImages_eq (tx : Transaction) :
    tx.keyImages = tx.txPrefix.inputs.filterMap fun input => (getKi input).toOption := by
  refine filterMap_congr fun input _ => ?_
  cases input <;> rfl

theorem isChain_of_checkNeighboursSorted (hkey : ∀ input ∈ inputs, checkInputType input = .ok ())
    (h : checkNeighboursSorted inputs = .ok ()) :
    (inputs.filterMap fun input => (getKi input).toOption).IsChain (· > ·) := by
  induction inputs with
  | nil => exact .nil
  | cons first inputs ih =>
    cases first with
    | gen height => cases hkey _ (.head _)
    | toKey amount keyOffsets firstKi =>
      cases inputs with
      | nil => exact .singleton _
      | cons second inputs =>
        cases second with
        | gen height => cases hkey _ (.tail _ (.head _))
        | toKey amount' keyOffsets' secondKi =>
          have h : (if firstKi ≤ secondKi then .error .inputsAreNotOrdered
              else checkNeighboursSorted (.toKey amount' keyOffsets' secondKi :: inputs)) = .ok () := h
          split at h
          · cases h
          · next hgt =>
            have hrest := ih (fun input hmem => hkey input (.tail _ hmem)) h
            exact isChain_cons_cons.mpr ⟨BitVec.not_le.mp hgt, hrest⟩

theorem keyImages_pairwise (hkey : ∀ input ∈ tx.txPrefix.inputs, checkInputType input = .ok ())
    (h : checkNeighboursSorted tx.txPrefix.inputs = .ok ()) : tx.keyImages.Pairwise (· > ·) := by
  have hchain := isChain_of_checkNeighboursSorted hkey h
  have htrans : Trans (fun a b : CompressedPoint => a > b) (· > ·) (· > ·) :=
      ⟨fun h h' => BitVec.lt_trans h' h⟩
  rw [keyImages_eq]
  exact hchain.pairwise

theorem keyImages_nodup (h : tx.keyImages.Pairwise (· > ·)) : tx.keyImages.Nodup := by
  refine List.Pairwise.imp (fun {a b} hlt heq => ?_) h
  subst heq
  exact BitVec.lt_irrefl _ hlt

theorem keyImages_length (hkey : ∀ input ∈ tx.txPrefix.inputs, checkInputType input = .ok ()) :
    tx.keyImages.length = tx.txPrefix.inputs.length := by
  rw [keyImages_eq, length_filterMap_eq_countP, countP_eq_length]
  intro input hmem
  have hinput := hkey input hmem
  cases input with
  | gen height => cases hinput
  | toKey amount keyOffsets keyImage => rfl

theorem checkInputsSemantics_eq_ok (h : checkInputsSemantics inputs hf = .ok total) :
    (∀ input ∈ inputs, checkInputSemantics hf input = .ok ()) ∧ checkInputsSorted inputs hf = .ok () ∧
      sumInputsCheckOverflow inputs = .ok total := by
  unfold checkInputsSemantics at h
  split at h
  · cases h
  · obtain ⟨_, hinputs, h⟩ := bind_eq_ok.mp h
    obtain ⟨_, hsorted, h⟩ := bind_eq_ok.mp h
    exact ⟨forM_eq_ok.mp hinputs, hsorted, h⟩

theorem checkOutputsSemantics_eq_ok {txVersion : TxVersion} {bp : Bool}
    (h : checkOutputsSemantics rules outputs hf txVersion bp = .ok total) :
    sumTxOutputs outputs hf txVersion = .ok total := by
  obtain ⟨_, -, h⟩ := bind_eq_ok.mp h
  obtain ⟨_, -, h⟩ := bind_eq_ok.mp h
  obtain ⟨_, -, h⟩ := bind_eq_ok.mp h
  exact h

theorem checkTransactionSemantic_eq_ok {txBlobSize txWeight : Nat}
    (h : checkTransactionSemantic rules tx txBlobSize txWeight txHash hf = .ok fee) :
    ∃ outputsSum inputsSum : UInt64, outputsSum.toNat = totalOutputs tx.txPrefix.outputs ∧
      checkInputsSemantics tx.txPrefix.inputs hf = .ok inputsSum ∧
      semanticFee rules txHash hf outputsSum inputsSum tx = .ok fee := by
  unfold checkTransactionSemantic at h
  split at h
  · cases h
  · obtain ⟨txVersion, -, h⟩ := bind_eq_ok.mp h
    obtain ⟨outputsSum, houtputs, h⟩ := bind_eq_ok.mp h
    obtain ⟨inputsSum, hinputs, h⟩ := bind_eq_ok.mp h
    exact ⟨outputsSum, inputsSum, sumTxOutputs_eq (checkOutputsSemantics_eq_ok houtputs), hinputs, h⟩

theorem semanticFee_v1 {txPrefix : TransactionPrefix} {signatures : List UInt8}
    {outputsSum inputsSum : UInt64}
    (h : semanticFee rules txHash hf outputsSum inputsSum (.v1 txPrefix signatures) = .ok fee) :
    inputsSum.toNat = outputsSum.toNat + fee.toNat ∧ 0 < fee := by
  rw [semanticFee] at h
  split at h
  · cases h
  next hlow =>
  cases h
  rw [ge_iff_le, UInt64.not_le, UInt64.lt_iff_toNat_lt] at hlow
  have hsub : (inputsSum - outputsSum).toNat = inputsSum.toNat - outputsSum.toNat :=
    UInt64.toNat_sub_of_le _ _ (UInt64.le_iff_toNat_le.mpr hlow.le)
  refine ⟨by omega, ?_⟩
  rw [UInt64.lt_iff_toNat_lt, hsub, UInt64.toNat_zero]
  omega

theorem txFee_of_checkTransactionSemantic {txBlobSize txWeight : Nat}
    (h : checkTransactionSemantic rules tx txBlobSize txWeight txHash hf = .ok fee) :
      txFee tx = .ok fee := by
  obtain ⟨outputsSum, inputsSum, houtputs, hinputs, hfee⟩ := checkTransactionSemantic_eq_ok h
  cases tx with
  | v1 txPrefix signatures =>
    dsimp only [Transaction.txPrefix] at houtputs hinputs
    obtain ⟨-, -, hsum⟩ := checkInputsSemantics_eq_ok hinputs
    obtain ⟨hconserved, -⟩ := semanticFee_v1 hfee
    obtain ⟨rest, hrest, htotal⟩ :=
      foldlM_subOutputAmount (show totalOutputs txPrefix.outputs ≤ inputsSum.toNat by omega)
    obtain rfl : rest = fee := UInt64.toNat_inj.mp (by omega)
    rw [txFee, foldlM_addInputAmount hsum]
    exact hrest
  | v2 txPrefix proofs =>
    cases proofs with
    | none => cases hfee
    | some proofs =>
      obtain ⟨_, -, rfl⟩ := map_eq_ok.mp hfee
      rfl

/-- The assertion on the fee never fails for a transaction that was parsed. -/
theorem verifySemantic_ne_panic {checks : TxChecks} {oxide : MoneroOxide}
    {data : TransactionVerificationData}
    (hdata : newTxVerificationData oxide tx = .ok data) (hf : HardFork) (needed : VerificationNeeded) :
    verifySemantic (checks.withSemanticRules rules) hf data needed ≠ .error .panic := by
  obtain ⟨fee, hfee, hdata⟩ := bind_eq_ok.mp hdata
  obtain ⟨version, -, hdata⟩ := bind_eq_ok.mp hdata
  cases hdata
  unfold verifySemantic
  split
  · dsimp only [TxChecks.withSemanticRules]
    cases hsemantic : checkTransactionSemantic rules tx (oxide.serializeTx tx).length (oxide.txWeight tx)
        (oxide.hashTx tx) hf with
    | error e => nofun
    | ok fee' =>
      have heq : fee' = fee := ok.inj ((txFee_of_checkTransactionSemantic hsemantic).symm.trans hfee)
      dsimp only
      rw [if_pos heq]
      nofun
  · nofun

/-- A version 1 transaction that passes the semantic rules spends exactly its inputs on its outputs
and its positive fee; no sum overflows. From hard fork 7 on the key images decrease, one for each
input, so they are distinct. -/
theorem checkTransactionSemantic_v1 (rules : CurveRules) (txPrefix : TransactionPrefix)
    (signatures : List UInt8)
    (txBlobSize txWeight : Nat) (txHash : Hash) (hf : HardFork) (fee : UInt64)
    (h : checkTransactionSemantic rules (.v1 txPrefix signatures) txBlobSize txWeight txHash hf =
      .ok fee) : totalInputs txPrefix.inputs = totalOutputs txPrefix.outputs + fee.toNat ∧
      totalInputs txPrefix.inputs < 2 ^ 64 ∧ 0 < fee ∧ txFee (.v1 txPrefix signatures) = .ok fee ∧
      (V7 ≤ hf → (v1 txPrefix signatures).keyImages.Pairwise (· > ·) ∧
        (v1 txPrefix signatures).keyImages.Nodup ∧
        (v1 txPrefix signatures).keyImages.length = txPrefix.inputs.length) := by
  obtain ⟨outputsSum, inputsSum, houtputs, hinputs, hfee⟩ := checkTransactionSemantic_eq_ok h
  obtain ⟨hchecked, hsorted, hsum⟩ := checkInputsSemantics_eq_ok hinputs
  obtain ⟨hconserved, hpos⟩ := semanticFee_v1 hfee
  have hlt := inputsSum.toNat_lt
  have hinputsSum : inputsSum.toNat = totalInputs txPrefix.inputs := sumInputsCheckOverflow_eq hsum
  have houtputsSum : outputsSum.toNat = totalOutputs txPrefix.outputs := houtputs
  refine ⟨by omega, by omega, hpos, txFee_of_checkTransactionSemantic h, fun hv7 => ?_⟩
  have hkey : ∀ input ∈ (v1 txPrefix signatures).txPrefix.inputs, checkInputType input = .ok () := by
    intro input hmem
    obtain ⟨_, htype, -⟩ := bind_eq_ok.mp (hchecked input hmem)
    exact htype
  rw [checkInputsSorted, if_pos hv7] at hsorted
  have hpairwise := keyImages_pairwise hkey hsorted
  exact ⟨hpairwise, keyImages_nodup hpairwise, keyImages_length hkey⟩

def anyCurve : CurveRules where
  decompresses := fun _ => true
  rctType := fun _ => .clsagBulletproofPlus
  checkOutputRangeProofs := fun _ => .ok ()
  simpleTypeBalances := fun _ => .ok ()

/-- An input of 5 that is all paid as a fee. -/
theorem verifySemantic_ne_panic_five : ∃ data : TransactionVerificationData, data.fee = 5 ∧
    verifySemantic (TxChecks.withSemanticRules ⟨fun _ _ => .ok 0, fun _ => true, fun _ _ =>
      .ok (), fun _ => true⟩
      anyCurve) V7 data .semanticAndContextual ≠ .error .panic :=
  ⟨_, rfl, verifySemantic_ne_panic
    (rfl : newTxVerificationData ⟨fun _ => [], fun _ => 0, fun _ => [], fun _ => [],
    fun _ => 0, fun _ => 0⟩ (.v1 ⟨.none, [.toKey (some 5) [1] 9], [], []⟩ []) = .ok _) V7 _⟩

/-- Two inputs of 5 and 4, with decreasing key images, and an output of 7. -/
theorem checkTransactionSemantic_v1_example : totalInputs [.toKey (some 5) [1] 9, .toKey (some 4) [1] 8] =
        totalOutputs [⟨some 7, 0, none⟩] + (2 : UInt64).toNat ∧
      (0 : UInt64) < 2 := by
  have h := checkTransactionSemantic_v1 anyCurve
    ⟨.none, [.toKey (some 5) [1] 9, .toKey (some 4) [1] 8], [⟨some 7, 0, none⟩], []⟩ [] 100 100 0 V7 2
    (by decide +kernel)
  exact ⟨h.1, h.2.2.1⟩

end Cuprate.Consensus
