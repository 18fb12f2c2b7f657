import Cuprate.Consensus.BlockVerification
import Cuprate.Consensus.Proofs.TimeLocksProofs

/-!
# The skipped decoy check of a verified transaction

`verificationNeeded` asks for a new decoy check only for transactions of version 1. The verdict
depends on how many outputs of an amount the chain has, so it can also change for one of version 2
that spends outputs with an amount.
-/

namespace Cuprate.Consensus

open Collections List DecoyInfo

def numbDecoys : Input → Nat
  | .toKey _ keyOffsets _ => keyOffsets.length - 1
  | .gen _ => 0

def leastDecoys (inputs : List Input) : Nat := (inputs.map numbDecoys).foldl min (2 ^ 64 - 1)

def mostDecoys (inputs : List Input) : Nat := (inputs.map numbDecoys).foldl max 0

def hasRing : Input → Bool
  | .toKey _ keyOffsets _ => !keyOffsets.isEmpty
  | .gen _ => false

/-- An input without enough outputs on the chain to mix with. -/
def isUnmixable (outputsWithAmount : UInt64 → Nat) (hf : HardFork) : Input → Bool
  | .toKey (some amount) _ _ => outputsWithAmount amount ≤ minimumDecoys hf
  | _ => false

variable {outputsWithAmount : UInt64 → Nat} {info info' : DecoyInfo} {hf : HardFork}
  {tx : TransactionVerificationData} {ring : TxRingMembersInfo} {height : Nat} {now : UInt64}

namespace DecoyInfo

theorem addInput_eq_ok {input : Input} :
    info.addInput outputsWithAmount hf input = .ok info' ↔ hasRing input = true ∧ info' =
        { mixable := if isUnmixable outputsWithAmount hf input then info.mixable else info.mixable + 1
          notMixable := if isUnmixable outputsWithAmount hf input then info.notMixable +
            1 else info.notMixable
          minDecoys := min info.minDecoys (numbDecoys input)
          maxDecoys := max info.maxDecoys (numbDecoys input) } := by
  cases input with
  | gen height => simp [addInput, hasRing]
  | toKey amount keyOffsets keyImage =>
    cases keyOffsets with
    | nil => simp [addInput, hasRing]
    | cons offset offsets =>
      rcases amount with _ | amount <;> simp [addInput, hasRing, isUnmixable, numbDecoys, eq_comm]

theorem foldlM_addInput_eq_ok {inputs : List Input} :
    inputs.foldlM (addInput outputsWithAmount hf) info = .ok info' ↔
      (∀ input ∈ inputs, hasRing input = true) ∧
      info' =
        { mixable := info.mixable + inputs.countP (fun input => !isUnmixable outputsWithAmount hf input)
          notMixable := info.notMixable + inputs.countP (isUnmixable outputsWithAmount hf)
          minDecoys := (inputs.map numbDecoys).foldl min info.minDecoys
          maxDecoys := (inputs.map numbDecoys).foldl max info.maxDecoys } := by
  induction inputs generalizing info with
  | nil =>
    constructor
    · intro h
      cases h
      simp
    · rintro ⟨-, rfl⟩
      rfl
  | cons input inputs ih =>
    rw [foldlM_cons]
    constructor
    · intro h
      obtain ⟨info₁, hfirst, hrest⟩ := bind_eq_ok.mp h
      obtain ⟨hring, rfl⟩ := addInput_eq_ok.mp hfirst
      obtain ⟨hrings, rfl⟩ := ih.mp hrest
      refine ⟨forall_mem_cons.mpr ⟨hring, hrings⟩, ?_⟩
      cases hmix : isUnmixable outputsWithAmount hf input <;> simp [hmix] <;> omega
    · rintro ⟨hrings, rfl⟩
      obtain ⟨hring, hrings⟩ := forall_mem_cons.mp hrings
      refine bind_eq_ok.mpr ⟨_, addInput_eq_ok.mpr ⟨hring, rfl⟩, ih.mpr ⟨hrings, ?_⟩⟩
      cases hmix : isUnmixable outputsWithAmount hf input <;> simp [hmix] <;> omega

theorem new_eq_ok {inputs : List Input} :
    new inputs outputsWithAmount hf = .ok info ↔ (∀ input ∈ inputs, hasRing input = true) ∧ info =
        { mixable := inputs.countP fun input => !isUnmixable outputsWithAmount hf input
          notMixable := inputs.countP (isUnmixable outputsWithAmount hf)
          minDecoys := leastDecoys inputs
          maxDecoys := mostDecoys inputs } := by
  unfold new
  rw [foldlM_addInput_eq_ok]
  simp only [Nat.zero_add]
  rfl

end DecoyInfo

/-! ## The decoy check -/

theorem checkDecoyInfoAt_eq_ok : checkDecoyInfoAt info hf = .ok () ↔
      (info.minDecoys < minimumDecoys hf → info.notMixable ≠ 0 ∧ info.mixable ≤ 1) ∧
      (minimumDecoys hf ≤ info.minDecoys → .V8 ≤ hf → info.minDecoys = minimumDecoys hf) ∧
      (.V12 ≤ hf → info.minDecoys = info.maxDecoys) := by
  have hlast : (if HardFork.V12 ≤ hf ∧ info.minDecoys ≠ info.maxDecoys then
      (.error .inputDoesNotHaveExpectedNumbDecoys : Except TransactionError Unit) else pure ()) = .ok () ↔
        (.V12 ≤ hf → info.minDecoys = info.maxDecoys) := by
    split <;> simp_all [pure, Except.pure]
  unfold checkDecoyInfoAt
  by_cases hfew : info.minDecoys < minimumDecoys hf
  · by_cases hnot : info.notMixable = 0
    · simp [hfew, hnot, bind, Except.bind]
    · by_cases hmix : info.mixable > 1
      · simp [hfew, hnot, hmix, bind, Except.bind]
      · simpa [hfew, hnot, hmix, not_le.mpr hfew, not_lt.mp hmix, bind, Except.bind] using hlast
  · by_cases hdefault : .V8 ≤ hf ∧ info.minDecoys ≠ minimumDecoys hf
    · simp [hfew, hdefault, bind, Except.bind, not_lt.mp hfew]
    · have hsame : minimumDecoys hf ≤ info.minDecoys → .V8 ≤ hf → info.minDecoys = minimumDecoys hf :=
        fun _ hlate => by_contra fun hne => hdefault ⟨hlate, hne⟩
      rw [and_iff_right hsame]
      simpa [hfew, hdefault, bind, Except.bind] using hlast

theorem checkDecoyInfo_eq_ok : checkDecoyInfo info hf = .ok () ↔
      if hf = .V15 then checkDecoyInfoAt info .V14 = .ok () ∨ checkDecoyInfoAt info .V16 = .ok ()
      else checkDecoyInfoAt info hf = .ok () := by
  unfold checkDecoyInfo
  split
  · rcases checkDecoyInfoAt info .V14 with e | ⟨⟩ <;> simp
  · rfl

/-- The default number of decoys under the rules of a hard fork other than 15: from hard fork 8 on
it is exactly the minimum. -/
def hasDefaultDecoysAt (decoys : Nat) (hf : HardFork) : Prop :=
  minimumDecoys hf ≤ decoys ∧ (.V8 ≤ hf → decoys = minimumDecoys hf)

instance (decoys : Nat) (hf : HardFork) : Decidable (hasDefaultDecoysAt decoys hf) :=
  inferInstanceAs (Decidable (_ ∧ _))

/-- Hard fork 15 allows the default of 14 and that of 16. -/
def hasDefaultDecoys (decoys : Nat) (hf : HardFork) : Prop :=
  if hf = .V15 then hasDefaultDecoysAt decoys .V14 ∨ hasDefaultDecoysAt decoys .V16
  else hasDefaultDecoysAt decoys hf

instance (decoys : Nat) (hf : HardFork) : Decidable (hasDefaultDecoys decoys hf) :=
  inferInstanceAs (Decidable (ite _ _ _))

theorem checkDecoyInfoAt_of_default (hdefault : hasDefaultDecoysAt info.minDecoys hf) :
    checkDecoyInfoAt info hf = .ok () ↔ (.V12 ≤ hf → info.minDecoys = info.maxDecoys) := by
  obtain ⟨hle, heq⟩ := hdefault
  rw [checkDecoyInfoAt_eq_ok, and_iff_right fun hlt =>
    absurd hle (not_le.mpr hlt), and_iff_right fun _ => heq]

theorem hasDefaultDecoysAt_of_check (hmixable : info.notMixable = 0)
    (h : checkDecoyInfoAt info hf = .ok ()) : hasDefaultDecoysAt info.minDecoys hf := by
  obtain ⟨hfew, hdefault, -⟩ := checkDecoyInfoAt_eq_ok.mp h
  have hle : minimumDecoys hf ≤ info.minDecoys := by
    by_contra hlt
    exact (hfew (not_le.mp hlt)).1 hmixable
  exact ⟨hle, hdefault hle⟩

theorem hasDefaultDecoys_of_check (hmixable : info.notMixable = 0) (h : checkDecoyInfo info hf = .ok ()) :
    hasDefaultDecoys info.minDecoys hf := by
  rw [checkDecoyInfo_eq_ok] at h
  unfold hasDefaultDecoys
  split at h
  · next hfifteen =>
    rw [if_pos hfifteen]
    exact h.imp (hasDefaultDecoysAt_of_check hmixable) (hasDefaultDecoysAt_of_check hmixable)
  · next hfifteen =>
    rw [if_neg hfifteen]
    exact hasDefaultDecoysAt_of_check hmixable h

theorem checkDecoyInfo_of_default (h : checkDecoyInfo info hf = .ok ())
    (hdefault : hasDefaultDecoys info.minDecoys hf) (hmin : info'.minDecoys = info.minDecoys)
    (hmax : info'.maxDecoys = info.maxDecoys) : checkDecoyInfo info' hf = .ok () := by
  rw [checkDecoyInfo_eq_ok] at h ⊢
  unfold hasDefaultDecoys at hdefault
  split at h
  · next hfifteen =>
    rw [if_pos hfifteen] at hdefault ⊢
    -- whichever of the two rules was met, all rings have the same size
    have hsame : info'.minDecoys = info'.maxDecoys := by
      rw [hmin, hmax]
      rcases h with h | h
      · exact (checkDecoyInfoAt_eq_ok.mp h).2.2 (by decide)
      · exact (checkDecoyInfoAt_eq_ok.mp h).2.2 (by decide)
    rw [← hmin] at hdefault
    refine hdefault.imp ?_ ?_
    · intro hfourteen
      exact (checkDecoyInfoAt_of_default hfourteen).mpr fun _ => hsame
    · intro hsixteen
      exact (checkDecoyInfoAt_of_default hsixteen).mpr fun _ => hsame
  · next hfifteen =>
    rw [if_neg hfifteen] at hdefault ⊢
    have hsame := (checkDecoyInfoAt_of_default hdefault).mp h
    rw [← hmin] at hdefault
    rw [checkDecoyInfoAt_of_default hdefault, hmin, hmax]
    exact hsame

/-! ## Chains -/

/-- The outputs of a chain, those of each amount in the order of the chain. -/
def OutputLookup.ofChain (outs : UInt64 → List OutputOnChain) : OutputLookup where
  getOutput amount index := (outs amount)[index.toNat]?
  numberOutsWithAmount amount := (outs amount).length

theorem verifyTransactionsDecoyInfo_singleton {reader : ChainReader} (hf₁ : hf ≠ .V1) :
    verifyTransactionsDecoyInfo reader hf [tx] = .ok () ↔
      ∃ info, new tx.tx.txPrefix.inputs reader.outputs.numberOutsWithAmount hf = .ok info ∧
        checkDecoyInfo info hf = .ok () := by
  unfold verifyTransactionsDecoyInfo
  rw [if_neg hf₁, forM_eq_ok]
  simp only [mem_singleton, forall_eq, verifyDecoyInfo]
  exact bind_eq_ok

theorem ringMemberInfo_decoyInfo {outputs : OutputLookup} (hf₁ : hf ≠ .V1)
    (h : ringMemberInfo outputs hf tx = .ok ring) :
    ∃ info, new tx.tx.txPrefix.inputs outputs.numberOutsWithAmount hf = .ok info ∧
      ring.decoyInfo = some info := by
  obtain ⟨members, -, h⟩ := bind_eq_ok.mp h
  obtain ⟨decoyInfo, hdecoyInfo, h⟩ := bind_eq_ok.mp h
  rw [decoyInfoFor, if_neg hf₁] at hdecoyInfo
  obtain ⟨info, hinfo, rfl⟩ := map_eq_ok.mp hdecoyInfo
  cases h
  exact ⟨info, hinfo, rfl⟩

theorem checkTransactionContextual_decoys {checks : TxChecks} {tx : Transaction}
    (h : checkTransactionContextual checks tx ring height now hf = .ok ())
      (hinfo : ring.decoyInfo = some info) : checkDecoyInfo info hf = .ok () := by
  obtain ⟨version, -, h⟩ := bind_eq_ok.mp h
  obtain ⟨_, hinputs, -⟩ := bind_eq_ok.mp h
  obtain ⟨_, -, hinputs⟩ := bind_eq_ok.mp hinputs
  rw [hinfo] at hinputs
  obtain ⟨_, hdecoys, -⟩ := bind_eq_ok.mp hinputs
  exact hdecoys

theorem verificationNeededFor_same {checks : TxChecks} (topHash : Hash)
    (hok : checkTransactionContextual checks tx.tx ring height now hf = .ok ()) :
    verificationNeededFor [topHash] hf height now
      { tx with cachedVerificationState := verifiedState topHash hf ring } =
        .ok (decoyCheckNeeded tx) := by
  rw [verificationNeededFor_verified rfl (mem_singleton_self topHash)]
  rcases hmin : (timeBasedLocks ring.timeLockedOuts).min? with _ | time
  · rfl
  · have hmem := mem_timeBasedLocks.mp (min?_eq_some_iff.mp hmin).1
    have hunlocked := checkAllTimeLocks_ok_iff.mp (checkTransactionContextual_locks hok) _ hmem
    exact if_pos (outputUnlocked_time.mp hunlocked)

theorem needed_eq_decoyCheckNeeded {hashes : List Hash} {topHash : Hash} {needed : VerificationNeeded}
    (hstate : tx.cachedVerificationState = verifiedState topHash hf ring) (hmem : topHash ∈ hashes)
    (h : verificationNeededFor hashes hf height now tx = .ok needed) : needed = decoyCheckNeeded tx := by
  rw [verificationNeededFor_verified hstate hmem] at h
  split at h
  · split at h
    · exact (Except.ok.inj h).symm
    · cases h
  · exact (Except.ok.inj h).symm

theorem countP_isUnmixable_eq_zero (h : ∀ amount, minimumDecoys hf < outputsWithAmount amount)
    (inputs : List Input) : inputs.countP (isUnmixable outputsWithAmount hf) = 0 := by
  rw [countP_eq_zero]
  intro input _
  rcases input with _ | ⟨_ | amount, offsets, image⟩
  · simp [isUnmixable]
  · simp [isUnmixable]
  · simpa [isUnmixable] using h amount

/-- A transaction that was verified at `height` and marked passes a decoy check on every later chain
on which it is let through without one, exactly if it is of version 1 (this never happens), the hard
fork has no decoy rules, or its smallest ring has the default number of decoys. -/
theorem skippedDecoyCheck_passes_iff {checks : TxChecks} {txs txs' : List TransactionVerificationData}
    {neededs : List VerificationNeeded} {height : Nat} {topHash : Hash} {now : UInt64} {hf : HardFork}
    {outs : UInt64 → List OutputOnChain} {i : Nat} {tx tx' : TransactionVerificationData}
    {needed : VerificationNeeded}
    (hverify : verifyTransactions checks txs neededs height topHash now hf (.ofChain outs) = .ok txs')
    (htx : txs[i]? = some tx) (hneeded : neededs[i]? = some needed) (hfilter : txFilter needed = true)
    (htx' : txs'[i]? = some tx') :
    (∀ (reader : ChainReader) (outs' : UInt64 → List OutputOnChain) (height' : Nat) (now' : UInt64)
        (batch : List TransactionVerificationData) (j : Nat) (hashes : List Hash)
        (neededs' : List VerificationNeeded) (anyDecoyCheck : Bool),
      reader.outputs = .ofChain outs' → (∀ amount, outs amount <+: outs' amount) → height ≤ height' →
      batch[j]? = some tx' → topHash ∈ hashes →
      verificationNeeded batch hashes hf height' now' = .ok (neededs', anyDecoyCheck) →
      neededs'[j]? = some .none → verifyTransactionsDecoyInfo reader hf [tx'] = .ok ()) ↔
    tx.version = .ringSignatures ∨ hf = .V1 ∨ hasDefaultDecoys (leastDecoys tx.tx.txPrefix.inputs) hf := by
  obtain ⟨ring, hring, hok, hmark⟩ := verifyTransactions_checked hverify htx hneeded hfilter
  obtain rfl := Option.some.inj (htx'.symm.trans hmark)
  constructor
  · intro hpass
    by_contra! hcond
    obtain ⟨hversion, hf₁, hdefault⟩ := hcond
    -- a later chain on which all inputs are mixable
    let outs' amount := outs amount ++ List.replicate (minimumDecoys hf + 1) ⟨0, .none, 0, 0⟩
    have hmixable (amount : UInt64) :
        minimumDecoys hf < (OutputLookup.ofChain outs').numberOutsWithAmount amount := by
      simp only [OutputLookup.ofChain, outs', length_append, length_replicate]
      omega
    have hneededFor := verificationNeededFor_same topHash hok
    rw [decoyCheckNeeded, if_neg hversion] at hneededFor
    have hmap := mapM_eq_ok.mpr (.cons hneededFor .nil)
    have hcheck := hpass ⟨false, fun _ => false, fun _ => [], .ofChain outs'⟩
        outs' height now _ 0 [topHash]
      [.none] false rfl (fun amount => prefix_append _ _) le_rfl rfl (mem_singleton_self _)
      (bind_eq_ok.mpr ⟨_, hmap, rfl⟩) rfl
    obtain ⟨info, hinfo, hok⟩ := (verifyTransactionsDecoyInfo_singleton hf₁).mp hcheck
    obtain ⟨-, rfl⟩ := new_eq_ok.mp hinfo
    exact hdefault (hasDefaultDecoys_of_check (countP_isUnmixable_eq_zero hmixable _) hok)
  · intro hcond reader outs' height' now' batch j hashes neededs' anyDecoyCheck houts hext hle hj hhash
      hneeded' hnone
    have hskipped := needed_eq_decoyCheckNeeded rfl hhash (verificationNeeded_getElem hneeded' hj hnone)
    by_cases hf₁ : hf = .V1
    · exact if_pos hf₁
    rcases hcond with hversion | hfirst | hdefault
    · rw [decoyCheckNeeded, if_pos hversion] at hskipped
      cases hskipped
    · exact absurd hfirst hf₁
    · obtain ⟨info, hinfo, hringInfo⟩ := ringMemberInfo_decoyInfo hf₁ hring
      have hdecoys := checkTransactionContextual_decoys hok hringInfo
      obtain ⟨hrings, rfl⟩ := new_eq_ok.mp hinfo
      exact (verifyTransactionsDecoyInfo_singleton hf₁).mpr
        ⟨_, new_eq_ok.mpr ⟨hrings, rfl⟩, checkDecoyInfo_of_default hdecoys hdefault rfl rfl⟩

def fiveOuts (number : Nat) (amount : UInt64) : List OutputOnChain :=
  if amount = 5 then List.replicate number ⟨10, .none, 1, 1⟩ else []

/-- A transaction of version 2 that spends an output of the amount 5, with a ring of the given
offsets. -/
def spendFive (keyOffsets : List UInt64) (state : CachedVerificationState) :
    TransactionVerificationData where
  tx := .v2 ⟨.none, [.toKey (some 5) keyOffsets 7], [], []⟩ (some ⟨⟨100, [], []⟩, []⟩)
  version := .ringCT
  txBlob := []
  txWeight := 1500
  fee := 100
  txHash := 9
  cachedVerificationState := state

/-- With three outputs of the amount the ring has two decoys, the default of hard fork 5. -/
theorem skippedDecoyCheck_passes_default :
    verifyTransactionsDecoyInfo ⟨false, fun _ => false, fun _ => [], .ofChain (fiveOuts 4)⟩ .V5
      [spendFive [0, 1, 1] (.validAtHashAndHF 3 .V5)] = .ok () := by
  have hverify : verifyTransactions acceptAll [spendFive [0, 1, 1] .notVerified]
      [.semanticAndContextual] 100 3
      1000 .V5 (.ofChain (fiveOuts 3)) = .ok [spendFive [0, 1, 1] (.validAtHashAndHF 3 .V5)] := by decide
  have hext (amount : UInt64) : fiveOuts 3 amount <+: fiveOuts 4 amount := by
    unfold fiveOuts
    split
    · exact ⟨[_], rfl⟩
    · exact prefix_rfl
  have hdefault : hasDefaultDecoys (leastDecoys [.toKey (some 5) [0, 1, 1] 7]) .V5 := by decide
  exact (skippedDecoyCheck_passes_iff (i := 0) hverify rfl rfl rfl rfl).mpr (.inr (.inr hdefault))
    _ (fiveOuts 4)
    101 1000 [spendFive [0, 1, 1] (.validAtHashAndHF 3 .V5)] 0 [3] [.none] false rfl hext (by omega) rfl
    (mem_singleton_self 3) (by decide) rfl

/-- With one output of the amount the input is unmixable and needs no decoys. With three outputs it
does, but the transaction is let through without a decoy check. -/
theorem skippedDecoyCheck_fails_unmixable :
    verifyTransactions acceptAll [spendFive [0] .notVerified] [.semanticAndContextual] 100 3 1000 .V5
      (.ofChain (fiveOuts 1)) = .ok [spendFive [0] (.validAtHashAndHF 3 .V5)] ∧
    (∀ amount, fiveOuts 1 amount <+: fiveOuts 3 amount) ∧
    verificationNeeded [spendFive [0] (.validAtHashAndHF 3 .V5)] [3] .V5 101 1000 = .ok ([.none], false) ∧
    verifyTransactionsDecoyInfo ⟨false, fun _ => false, fun _ => [], .ofChain (fiveOuts 3)⟩ .V5
      [spendFive [0] (.validAtHashAndHF 3 .V5)] = .error .inputDoesNotHaveExpectedNumbDecoys := by
  refine ⟨by decide, ?_, by decide, by decide⟩
  intro amount
  unfold fiveOuts
  split
  · exact ⟨[_, _], rfl⟩
  · exact prefix_rfl

end Cuprate.Consensus
