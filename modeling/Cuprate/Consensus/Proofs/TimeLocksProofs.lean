import Cuprate.Consensus.Transactions

/-!
# The cached time lock of a verified transaction

`verifyTransactions` keeps the earliest time-based lock of a transaction's ring members, and
`verificationNeeded` later asks only that one. But the clock of time locks can go back.
-/

namespace Cuprate.Consensus

open Collections List

variable {height i : Nat} {neededs : List VerificationNeeded} {tx : TransactionVerificationData}
    {hf : HardFork}
  {now : UInt64} {needed : VerificationNeeded} {txs : List TransactionVerificationData}
    {hashes : List Hash}
  {checks : TxChecks} {outputs : OutputLookup} {topHash : Hash} {ring : TxRingMembersInfo}
  {locks : List Timelock}

theorem checkAllTimeLocks_ok_iff : checkAllTimeLocks locks height now hf = .ok () ↔
      ∀ lock ∈ locks, outputUnlocked lock height now hf = true := by
  unfold checkAllTimeLocks
  rw [forM_eq_ok]
  refine forall₂_congr fun lock _ => ?_
  cases outputUnlocked lock height now hf <;> simp

theorem mem_timeBasedLocks {time : UInt64} : time ∈ timeBasedLocks locks ↔ .time time ∈ locks := by
  unfold timeBasedLocks
  rw [mem_filterMap]
  constructor
  · rintro ⟨lock, hmem, hlock⟩
    cases lock with
    | none => cases hlock
    | block height => cases hlock
    | time t =>
      cases hlock
      exact hmem
  · intro hmem
    exact ⟨_, hmem, rfl⟩

theorem outputUnlocked_time {time : UInt64} :
    outputUnlocked (.time time) height now hf = true ↔ time ≤ timeLockClock now hf :=
  decide_eq_true_iff

theorem checkAllTimeLocks_later {height' : Nat} (hle : height ≤ height')
    (h : checkAllTimeLocks locks height now hf = .ok ()) (now' : UInt64) :
    checkAllTimeLocks locks height' now' hf = .ok () ↔
      ∀ time ∈ timeBasedLocks locks, time ≤ timeLockClock now' hf := by
  rw [checkAllTimeLocks_ok_iff] at h ⊢
  constructor
  · intro hall time hmem
    exact outputUnlocked_time.mp (hall _ (mem_timeBasedLocks.mp hmem))
  · intro hall lock hmem
    cases lock with
    | none => rfl
    | time time => exact outputUnlocked_time.mpr (hall time (mem_timeBasedLocks.mpr hmem))
    | block unlockHeight =>
      have hold : unlockHeight ≤ height := decide_eq_true_iff.mp (h _ hmem)
      exact decide_eq_true_iff.mpr (hold.trans hle)

theorem checkTransactionContextual_locks {tx : Transaction}
    (h : checkTransactionContextual checks tx ring height now hf = .ok ()) :
    checkAllTimeLocks ring.timeLockedOuts height now hf = .ok () := by
  obtain ⟨version, -, h⟩ := bind_eq_ok.mp h
  obtain ⟨_, -, h⟩ := bind_eq_ok.mp h
  obtain ⟨_, -, h⟩ := bind_eq_ok.mp h
  obtain ⟨_, hlocks, -⟩ := bind_eq_ok.mp h
  exact hlocks

theorem verifyTransaction_contextual
    {job : (TransactionVerificationData × VerificationNeeded) × TxRingMembersInfo}
    (h : verifyTransaction checks height now hf job = .ok ()) :
    checkTransactionContextual checks job.1.1.tx job.2 height now hf = .ok () := by
  obtain ⟨_, -, h⟩ := bind_eq_ok.mp h
  exact mapError_eq_ok.mp h

theorem ringMemberInfo_locks (h : ringMemberInfo outputs hf tx = .ok ring) :
    ∃ members, getRingMembersForInputs outputs.getOutput tx.tx.txPrefix.inputs = .ok members ∧
      ring.timeLockedOuts = timeLocksOf members := by
  obtain ⟨members, hmembers, h⟩ := bind_eq_ok.mp h
  obtain ⟨decoyInfo, -, h⟩ := bind_eq_ok.mp h
  cases h
  exact ⟨members, hmembers, rfl⟩

theorem getRingMembersForInputs_mono {getOutput getOutput' : UInt64 → UInt64 → Option OutputOnChain}
    {inputs : List Input} {members : List (List OutputOnChain)}
    (hext : ∀ amount index out, getOutput amount index = some out → getOutput' amount index = some out)
    (h : getRingMembersForInputs getOutput inputs = .ok members) :
    getRingMembersForInputs getOutput' inputs = .ok members := by
  refine mapM_ok_mono (fun input _ outs hinput => ?_) h
  obtain ⟨ids, hids, hinput⟩ := bind_eq_ok.mp hinput
  refine bind_eq_ok.mpr ⟨ids, hids, mapM_ok_mono (fun id _ out hid => ?_) hinput⟩
  unfold ringMember at hid ⊢
  rcases hget : getOutput id.1 id.2 with _ | out'
  · rw [hget] at hid
    cases hid
  · rw [hget] at hid
    rw [hext _ _ _ hget]
    exact hid

/-- The transactions a pass of the verifier marks, with the ring it checked each of them with. -/
theorem markVerified_getElem {P : TransactionVerificationData × VerificationNeeded →
    TxRingMembersInfo → Prop}
    {rings : List TxRingMembersInfo}
      (hP : List.Forall₂ P ((txs.zip neededs).filter fun job => txFilter job.2) rings)
    (htx : txs[i]? = some tx) (hneeded : neededs[i]? = some needed) (hfilter : txFilter needed = true) :
    ∃ ring, P (tx, needed) ring ∧ (markVerified topHash hf txs neededs rings)[i]? =
      some { tx with cachedVerificationState := verifiedState topHash hf ring } := by
  induction txs generalizing neededs rings i with
  | nil => cases htx
  | cons tx₀ txs ih =>
    cases neededs with
    | nil => cases hneeded
    | cons needed₀ neededs =>
      rw [zip_cons_cons] at hP
      by_cases hf₀ : txFilter needed₀ = true
      · rw [filter_cons_of_pos (by exact hf₀), forall₂_cons_left_iff] at hP
        obtain ⟨ring, rings, hP₀, hP, rfl⟩ := hP
        rw [markVerified, if_pos hf₀]
        cases i with
        | zero =>
          cases htx
          cases hneeded
          exact ⟨ring, hP₀, rfl⟩
        | succ i => exact ih hP htx hneeded
      · rw [filter_cons_of_neg (by exact hf₀)] at hP
        have hskip : markVerified topHash hf (tx₀ :: txs) (needed₀ :: neededs) rings =
            tx₀ :: markVerified topHash hf txs neededs rings := by
          cases rings <;> simp [markVerified, hf₀]
        rw [hskip]
        cases i with
        | zero =>
          cases hneeded
          exact absurd hfilter hf₀
        | succ i => exact ih hP htx hneeded

section
variable {txs' : List TransactionVerificationData}
    (h : verifyTransactions checks txs neededs height topHash now hf outputs = .ok txs')
include h

theorem verifyTransactions_checked (htx : txs[i]? = some tx)
    (hneeded : neededs[i]? = some needed) (hfilter : txFilter needed = true) :
    ∃ ring, ringMemberInfo outputs hf tx = .ok ring ∧
      checkTransactionContextual checks tx.tx ring height now hf = .ok () ∧
      txs'[i]? = some { tx with cachedVerificationState := verifiedState topHash hf ring } := by
  obtain ⟨rings, hrings, h⟩ := bind_eq_ok.mp h
  obtain ⟨_, hjobs, h⟩ := bind_eq_ok.mp h
  obtain ⟨_, -, hrings⟩ := bind_eq_ok.mp (mapError_eq_ok.mp hrings)
  rw [mapM_eq_ok, forall₂_map_left_iff] at hrings
  rw [forM_eq_ok] at hjobs
  have hall := forall₂_iff_zip.mpr ⟨hrings.length_eq, fun {job ring} hmem =>
    And.intro ((forall₂_iff_zip.mp hrings).2 hmem) (hjobs (job, ring) hmem)⟩
  split at h
  · cases h
    obtain ⟨ring, ⟨hring, hok⟩, hmark⟩ := markVerified_getElem hall htx hneeded hfilter
    exact ⟨ring, hring, verifyTransaction_contextual hok, hmark⟩
  · cases h

theorem verifyTransactions_marks (htx : txs[i]? = some tx)
    (hneeded : neededs[i]? = some needed) (hfilter : txFilter needed = true) :
    ∃ members, getRingMembersForInputs outputs.getOutput tx.tx.txPrefix.inputs = .ok members ∧
      checkAllTimeLocks (timeLocksOf members) height now hf = .ok () ∧
      ∃ ring, ring.timeLockedOuts = timeLocksOf members ∧
        txs'[i]? = some { tx with cachedVerificationState := verifiedState topHash hf ring } := by
  obtain ⟨ring, hring, hok, hmark⟩ := verifyTransactions_checked h htx hneeded hfilter
  obtain ⟨members, hmembers, hlocks⟩ := ringMemberInfo_locks hring
  have hcontextual := checkTransactionContextual_locks hok
  rw [hlocks] at hcontextual
  exact ⟨members, hmembers, hcontextual, ring, hlocks, hmark⟩

end

/-! ## The fast path -/

/-- The clock lies between two time-based locks of the ring members: one is unlocked and another one
is not. -/
def clockBetween (getOutput : UInt64 → UInt64 → Option OutputOnChain) (inputs : List Input) (now : UInt64)
    (hf : HardFork) : Prop :=
  ∃ members, getRingMembersForInputs getOutput inputs = .ok members ∧
    ∃ early ∈ timeBasedLocks (timeLocksOf members), ∃ late ∈ timeBasedLocks (timeLocksOf members),
      early ≤ timeLockClock now hf ∧ timeLockClock now hf < late

theorem verifiedState_eq (topHash : Hash) (hf : HardFork) (ring : TxRingMembersInfo) :
    verifiedState topHash hf ring = match (timeBasedLocks ring.timeLockedOuts).min? with
      | some time => .validAtHashAndHFWithTimeBasedLock topHash hf (.time time)
      | none => .validAtHashAndHF topHash hf := by
  unfold verifiedState
  split
  · next hempty =>
    rw [isEmpty_iff.mp hempty]
    rfl
  · rfl

theorem verificationNeededFor_verified
    (hstate : tx.cachedVerificationState = verifiedState topHash hf ring)
    (hmem : topHash ∈ hashes) (height : Nat) (now : UInt64) :
    verificationNeededFor hashes hf height now tx =
      match (timeBasedLocks ring.timeLockedOuts).min? with
      | some time =>
        if time ≤ timeLockClock now hf then .ok (decoyCheckNeeded tx)
        else .error .oneOrMoreRingMembersLocked
      | none => .ok (decoyCheckNeeded tx) := by
  unfold verificationNeededFor
  rw [hstate, verifiedState_eq]
  rcases (timeBasedLocks ring.timeLockedOuts).min? with _ | time
  · simp [hmem]
  · by_cases hle : time ≤ timeLockClock now hf
    · simp [hmem, outputUnlocked_time.mpr hle, hle]
    · have hlocked : ¬ outputUnlocked (.time time) height now hf = true := mt outputUnlocked_time.mp hle
      simp [hmem, hlocked, hle]

theorem decoyCheckNeeded_cases (tx : TransactionVerificationData) :
    decoyCheckNeeded tx = .none ∨ decoyCheckNeeded tx = .v1DecoyCheck := by
  unfold decoyCheckNeeded
  split
  · exact .inr rfl
  · exact .inl rfl

/-- `verificationNeeded` lets transaction `j` of a batch through without contextual validation. -/
def FastPath (batch : List TransactionVerificationData) (j : Nat) (hashes : List Hash)
    (hf : HardFork) (height : Nat)
    (now : UInt64) : Prop :=
  ∃ neededs anyDecoyCheck needed, verificationNeeded batch hashes hf height now =
    .ok (neededs, anyDecoyCheck) ∧
      neededs[j]? = some needed ∧ (needed = .none ∨ needed = .v1DecoyCheck)

theorem verificationNeeded_getElem {batch : List TransactionVerificationData} {j : Nat}
    {anyDecoyCheck : Bool}
    (h : verificationNeeded batch hashes hf height now = .ok (neededs, anyDecoyCheck))
      (htx : batch[j]? = some tx)
    (hj : neededs[j]? = some needed) :
    verificationNeededFor hashes hf height now tx = .ok needed := by
  obtain ⟨neededs', hmap, heq⟩ := bind_eq_ok.mp h
  cases heq
  rw [mapM_eq_ok] at hmap
  obtain ⟨hlt, htx⟩ := List.getElem?_eq_some_iff.mp htx
  obtain ⟨hlt', hj⟩ := List.getElem?_eq_some_iff.mp hj
  have hget := hmap.get hlt hlt'
  rw [← htx, ← hj]
  exact hget

theorem FastPath.verificationNeededFor_eq {batch : List TransactionVerificationData} {j : Nat}
    (h : FastPath batch j hashes hf height now) (htx : batch[j]? = some tx) :
    ∃ needed, verificationNeededFor hashes hf height now tx = .ok needed := by
  obtain ⟨neededs, anyDecoyCheck, needed, hneeded, hj, -⟩ := h
  exact ⟨needed, verificationNeeded_getElem hneeded htx hj⟩

theorem fastPath_singleton
    (h : verificationNeededFor hashes hf height now tx = .ok (decoyCheckNeeded tx)) :
    FastPath [tx] 0 hashes hf height now := by
  have hmap := mapM_eq_ok.mpr (.cons h .nil)
  exact ⟨_, _, _, bind_eq_ok.mpr ⟨_, hmap, rfl⟩, rfl, decoyCheckNeeded_cases tx⟩

/-- On a longer chain than it was verified on, the fast path lets a transaction through only with
unlocked ring members exactly if the clock is not between two of its time-based locks. -/
theorem fastPath_unlocked_iff {checks : TxChecks} {txs txs' : List TransactionVerificationData}
    {neededs : List VerificationNeeded} {height : Nat} {topHash : Hash} {now : UInt64} {hf : HardFork}
    {outputs : OutputLookup} {i : Nat} {tx tx' : TransactionVerificationData} {needed : VerificationNeeded}
    (hverify : verifyTransactions checks txs neededs height topHash now hf outputs = .ok txs')
    (htx : txs[i]? = some tx) (hneeded : neededs[i]? = some needed) (hfilter : txFilter needed = true)
    (htx' : txs'[i]? = some tx') {outputs' : OutputLookup} {height' : Nat} (now' : UInt64)
    (hext : ∀ amount index out, outputs.getOutput amount index = some out →
      outputs'.getOutput amount index = some out)
    (hheight : height ≤ height') :
    (∀ batch j hashes, batch[j]? = some tx' → topHash ∈ hashes → FastPath batch j hashes hf height' now' →
      ∃ members, getRingMembersForInputs outputs'.getOutput tx'.tx.txPrefix.inputs = .ok members ∧
        checkAllTimeLocks (timeLocksOf members) height' now' hf = .ok ()) ↔
    ¬ clockBetween outputs.getOutput tx.tx.txPrefix.inputs now' hf := by
  obtain ⟨members, hmembers, hlocks, ring, hring, hmark⟩ :=
    verifyTransactions_marks hverify htx hneeded hfilter
  have hstate : tx'.cachedVerificationState = verifiedState topHash hf ring := by
    rw [Option.some.inj (htx'.symm.trans hmark)]
  have hinputs : tx'.tx = tx.tx := by
    rw [Option.some.inj (htx'.symm.trans hmark)]
  have hmembers' := getRingMembersForInputs_mono hext hmembers
  have hlater := checkAllTimeLocks_later hheight hlocks now'
  rw [hinputs]
  constructor
  · rintro hfast ⟨members₂, hmembers₂, early, hearly, late, hlate, hle, hlt⟩
    cases hmembers.symm.trans hmembers₂
    -- the earliest lock is unlocked as well, so the fast path is taken
    obtain ⟨time, htime⟩ : ∃ time, (timeBasedLocks ring.timeLockedOuts).min? = some time := by
      rcases hmin : (timeBasedLocks ring.timeLockedOuts).min? with _ | time
      · rw [min?_eq_none_iff, hring] at hmin
        rw [hmin] at hearly
        cases hearly
      · exact ⟨time, rfl⟩
    have htimeLe : time ≤ timeLockClock now' hf := by
      rw [hring] at htime
      exact UInt64.le_trans ((min?_eq_some_iff.mp htime).2 early hearly) hle
    have hneededFor := verificationNeededFor_verified hstate (mem_singleton_self topHash) height' now'
    simp only [htime, if_pos htimeLe] at hneededFor
    obtain ⟨members₃, hmembers₃, hall⟩ := hfast [tx'] 0 [topHash] rfl (mem_singleton_self topHash)
      (fastPath_singleton hneededFor)
    cases hmembers'.symm.trans hmembers₃
    exact absurd (hlater.mp hall late hlate) (UInt64.not_le.mpr hlt)
  · intro hbetween batch j hashes hj hhash hfast
    refine ⟨members, hmembers', hlater.mpr ?_⟩
    intro late hlate
    obtain ⟨needed', hneededFor⟩ := hfast.verificationNeededFor_eq hj
    rw [verificationNeededFor_verified hstate hhash height' now', hring] at hneededFor
    rcases hmin : (timeBasedLocks (timeLocksOf members)).min? with _ | time
    · rw [min?_eq_none_iff.mp hmin] at hlate
      cases hlate
    · simp only [hmin] at hneededFor
      have htimeLe : time ≤ timeLockClock now' hf := by
        by_contra hlocked
        rw [if_neg hlocked] at hneededFor
        cases hneededFor
      by_contra hlt
      exact hbetween ⟨members, hmembers, time, (min?_eq_some_iff.mp hmin).1, late, hlate, htimeLe,
        UInt64.not_le.mp hlt⟩

/-- Checks that accept everything, with the fee the transaction says. -/
def acceptAll : TxChecks where
  checkTransactionSemantic := fun tx _ => .ok tx.fee
  isTorsionFree := fun _ => true
  checkInputSignatures := fun _ _ => .ok ()
  batchVerify := fun _ => true

/-- Three RingCT outputs: two are locked until different times. -/
def twoTimeLocks : OutputLookup where
  getOutput := fun amount index =>
    if amount = 0 ∧ index = 0 then some ⟨10, .time 1000000000, 1, 1⟩
    else if amount = 0 ∧ index = 1 then some ⟨20, .time 2000000000, 2, 2⟩
    else if amount = 0 ∧ index = 2 then some ⟨30, .none, 3, 3⟩
    else none
  numberOutsWithAmount := fun _ => 3

/-- A RingCT transaction with one input whose ring is these three outputs. -/
def threeRingTx (state : CachedVerificationState) : TransactionVerificationData where
  tx := .v2 ⟨.none, [.toKey none [0, 1, 1] 7], [], []⟩ (some ⟨⟨100, [], []⟩, []⟩)
  version := .ringCT
  txBlob := []
  txWeight := 1500
  fee := 100
  txHash := 9
  cachedVerificationState := state

/-- The state the transaction is left in keeps the earlier of the two locks. -/
def verifiedThreeRingTx : TransactionVerificationData :=
  threeRingTx (.validAtHashAndHFWithTimeBasedLock 5 .V4 (.time 1000000000))

theorem verifyTransactions_threeRingTx :
    verifyTransactions acceptAll [threeRingTx .notVerified] [.semanticAndContextual] 100 5 2000000000
      .V4 twoTimeLocks = .ok [verifiedThreeRingTx] := by
  decide

theorem fastPath_unlocked_after_both : FastPath [verifiedThreeRingTx] 0 [5] .V4 101 2000000000 ∧
      ∃ members, getRingMembersForInputs twoTimeLocks.getOutput
          verifiedThreeRingTx.tx.txPrefix.inputs = .ok members ∧
        checkAllTimeLocks (timeLocksOf members) 101 2000000000 .V4 = .ok () := by
  have hfast : FastPath [verifiedThreeRingTx] 0 [5] .V4 101 2000000000 :=
    ⟨[.none], false, .none, by decide, rfl, .inl rfl⟩
  have hnot : ¬ clockBetween twoTimeLocks.getOutput (threeRingTx .notVerified).tx.txPrefix.inputs
      2000000000 .V4 := by
    rintro ⟨members, hmembers, early, -, late, hlate, -, hlt⟩
    have hlocks : (getRingMembersForInputs twoTimeLocks.getOutput
        (threeRingTx .notVerified).tx.txPrefix.inputs).map (fun m => timeBasedLocks (timeLocksOf m)) =
          .ok [1000000000, 2000000000] := by decide
    rw [hmembers] at hlocks
    have hpair : timeBasedLocks (timeLocksOf members) = [1000000000, 2000000000] := Except.ok.inj hlocks
    rw [hpair, mem_pair] at hlate
    rcases hlate with rfl | rfl
    · exact absurd hlt (by decide)
    · exact absurd hlt (by decide)
  exact ⟨hfast, (fastPath_unlocked_iff (i := 0) verifyTransactions_threeRingTx rfl rfl rfl rfl
    2000000000 (fun _ _ _ h => h) (by decide)).mpr hnot [verifiedThreeRingTx] 0 [5] rfl (by decide)
      hfast⟩

/-- Between the two locks the transaction is let through with a locked ring member. -/
theorem fastPath_locked_between :
    verifyTransactions acceptAll [threeRingTx .notVerified] [.semanticAndContextual] 100 5 2000000000
      .V4 twoTimeLocks = .ok [verifiedThreeRingTx] ∧
    verificationNeeded [verifiedThreeRingTx] [5] .V4 101 1500000000 = .ok ([.none], false) ∧
    (getRingMembersForInputs twoTimeLocks.getOutput verifiedThreeRingTx.tx.txPrefix.inputs).map
      timeLocksOf = .ok [.time 1000000000, .time 2000000000] ∧
    checkAllTimeLocks [.time 1000000000, .time 2000000000] 101 1500000000 .V4 =
      .error .oneOrMoreRingMembersLocked := by
  refine ⟨verifyTransactions_threeRingTx, ?_, ?_, ?_⟩ <;> decide

end Cuprate.Consensus
