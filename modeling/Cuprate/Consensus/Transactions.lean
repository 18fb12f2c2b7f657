import Cuprate.Types.Transaction
import Cuprate.Consensus.Errors

/-!
# Transaction verification

The contextual rules for transactions (`consensus/rules/src/transactions.rs` and
`transactions/contextual_data.rs`), the data they need about ring members
(`consensus/src/transactions/contextual_data.rs`), and the verifier that caches its results
(`consensus/src/transactions.rs`). Semantic checks, signatures and the batch verifier are
parameters: the results hold whatever they accept.
-/

namespace Cuprate.Consensus

open Collections

/-- `current_chain_height` is one more than the top height. -/
def checkBlockTimeLock (unlockHeight currentChainHeight : Nat) : Bool :=
  unlockHeight ≤ currentChainHeight

/-- The clock that time locks are compared with; the sum wraps around. -/
def timeLockClock (currentTimeLockTimestamp : UInt64) (hf : HardFork) : UInt64 :=
  currentTimeLockTimestamp + UInt64.ofNat hf.blockTime

/-- Whether a lock by time has ended. -/
def checkTimestampTimeLock (unlockTimestamp currentTimeLockTimestamp : UInt64) (hf : HardFork) : Bool :=
  unlockTimestamp ≤ timeLockClock currentTimeLockTimestamp hf

/-- Whether an output is unlocked. -/
def outputUnlocked (timeLock : Timelock) (currentChainHeight : Nat) (currentTimeLockTimestamp : UInt64)
    (hf : HardFork) : Bool :=
  match timeLock with
  | .none => true
  | .block unlockHeight => checkBlockTimeLock unlockHeight currentChainHeight
  | .time unlockTime => checkTimestampTimeLock unlockTime currentTimeLockTimestamp hf

/-- Checks that all ring members are unlocked. -/
def checkAllTimeLocks (timeLocks : List Timelock) (currentChainHeight : Nat)
    (currentTimeLockTimestamp : UInt64)
    (hf : HardFork) : Except TransactionError Unit :=
  timeLocks.forM fun timeLock =>
    if outputUnlocked timeLock currentChainHeight currentTimeLockTimestamp hf then .ok ()
    else .error .oneOrMoreRingMembersLocked

/-! ## Ring members -/

/-- The loop of `get_absolute_offsets`: running sums on `u64`. -/
def absoluteOffsetsFrom (last : UInt64) : List UInt64 → List UInt64
  | [] => []
  | offset :: offsets => (last + offset) :: absoluteOffsetsFrom (last + offset) offsets

/-- The sums of the offsets. -/
def getAbsoluteOffsets : List UInt64 → Except TransactionError (List UInt64)
  | [] => .error .inputDoesNotHaveExpectedNumbDecoys
  | first :: offsets => .ok (first :: absoluteOffsetsFrom first offsets)

/-- The amounts and indexes of the ring members of an input. -/
def inputRingMemberIds : Input → Except TransactionError (List (UInt64 × UInt64))
  | .toKey amount keyOffsets _ =>
    (getAbsoluteOffsets keyOffsets).map fun offsets => offsets.map fun o => (amount.getD 0, o)
  | .gen _ => .error .incorrectInputType

/-- The ids of the outputs that are needed to verify the inputs. -/
def insertRingMemberIds (inputs : List Input) : Except TransactionError (List (UInt64 × UInt64)) :=
  if inputs.isEmpty then .error .noInputs
  else (inputs.mapM inputRingMemberIds).map List.flatten

/-- How the outputs of the chain are looked up, through the output cache or the database. -/
structure OutputLookup where
  getOutput : UInt64 → UInt64 → Option OutputOnChain
  numberOutsWithAmount : UInt64 → Nat

def ringMember (getOutput : UInt64 → UInt64 → Option OutputOnChain) (id : UInt64 × UInt64) :
    Except TransactionError OutputOnChain :=
  match getOutput id.1 id.2 with
  | some out => .ok out
  | none => .error .ringMemberNotFoundOrInvalid

/-- The ring members of an input. -/
def inputRingMembers (getOutput : UInt64 → UInt64 → Option OutputOnChain) (input : Input) :
    Except TransactionError (List OutputOnChain) := do
  let ids ← inputRingMemberIds input
  ids.mapM (ringMember getOutput)

/-- The ring members of all inputs. -/
def getRingMembersForInputs (getOutput : UInt64 → UInt64 → Option OutputOnChain) (inputs : List Input) :
    Except TransactionError (List (List OutputOnChain)) :=
  inputs.mapM (inputRingMembers getOutput)

/-- The ring members of all the inputs. -/
inductive Rings where
  | legacy (rings : List (List CompressedPoint))
  | ringCT (rings : List (List (CompressedPoint × CompressedPoint)))
deriving DecidableEq, Repr

/-- What the rules on decoys are about. -/
structure DecoyInfo where
  mixable : Nat
  notMixable : Nat
  minDecoys : Nat
  maxDecoys : Nat
deriving DecidableEq, Repr

/-- The default minimum amount of decoys. The source panics for `V1`, where it is never called. -/
def minimumDecoys : HardFork → Nat
  | .V1 => 0
  | .V2 | .V3 | .V4 | .V5 => 2
  | .V6 => 4
  | .V7 => 6
  | .V8 | .V9 | .V10 | .V11 | .V12 | .V13 | .V14 => 10
  | .V15 | .V16 => 15

/-- Takes an input into account. -/
def DecoyInfo.addInput (outputsWithAmount : UInt64 → Nat) (hf : HardFork) (info : DecoyInfo) :
    Input → Except TransactionError DecoyInfo
  | .toKey amount keyOffsets _ =>
    -- RingCT amounts are always mixable
    let notMixable : Bool := match amount with
      | some amount => outputsWithAmount amount ≤ minimumDecoys hf
      | none => false
    if keyOffsets.isEmpty then .error .inputDoesNotHaveExpectedNumbDecoys
    else
      let numbDecoys := keyOffsets.length - 1
      .ok
        { mixable := if notMixable then info.mixable else info.mixable + 1
          notMixable := if notMixable then info.notMixable + 1 else info.notMixable
          minDecoys := min info.minDecoys numbDecoys
          maxDecoys := max info.maxDecoys numbDecoys }
  | .gen _ => .error .incorrectInputType

/-- The information on the decoys of all inputs. -/
def DecoyInfo.new (inputs : List Input) (outputsWithAmount : UInt64 → Nat) (hf : HardFork) :
    Except TransactionError DecoyInfo :=
  inputs.foldlM (DecoyInfo.addInput outputsWithAmount hf)
    { mixable := 0, notMixable := 0, minDecoys := 2 ^ 64 - 1, maxDecoys := 0 }

/-- Information on the outputs the transaction is referencing for inputs. -/
structure TxRingMembersInfo where
  rings : Rings
  decoyInfo : Option DecoyInfo
  youngestUsedOutHeight : Nat
  timeLockedOuts : List Timelock
deriving DecidableEq, Repr

def timeLocksOf (usedOuts : List (List OutputOnChain)) : List Timelock :=
  usedOuts.flatMap fun outs => outs.filterMap fun out =>
    match out.timeLock with
    | .none => none
    | .block height => some (.block height)
    | .time time => some (.time time)

def newRings (outputs : List (List OutputOnChain)) : TxVersion → Rings
  | .ringSignatures => .legacy (outputs.map fun outs => outs.map (·.key))
  | .ringCT => .ringCT (outputs.map fun outs => outs.map fun out => (out.key, out.commitment))

/-- There is always an input, and each has a ring member, when this is called. -/
def newRingMemberInfo (usedOuts : List (List OutputOnChain)) (decoyInfo : Option DecoyInfo)
    (txVersion : TxVersion) : TxRingMembersInfo where
  rings := newRings usedOuts txVersion
  decoyInfo := decoyInfo
  youngestUsedOutHeight := (usedOuts.filterMap fun outs => outs.getLast?.map (·.height)).foldl max 0
  timeLockedOuts := timeLocksOf usedOuts

def decoyInfoFor (outputs : OutputLookup) (hf : HardFork) (inputs : List Input) :
    Except TransactionError (Option DecoyInfo) :=
  if hf = .V1 then .ok none else (DecoyInfo.new inputs outputs.numberOutsWithAmount hf).map some

def ringMemberInfo (outputs : OutputLookup) (hf : HardFork) (tx : TransactionVerificationData) :
    Except TransactionError TxRingMembersInfo := do
  let ringMembers ← getRingMembersForInputs outputs.getOutput tx.tx.txPrefix.inputs
  let decoyInfo ← decoyInfoFor outputs hf tx.tx.txPrefix.inputs
  pure (newRingMemberInfo ringMembers decoyInfo tx.version)

def batchGetRingMemberInfo (outputs : OutputLookup) (hf : HardFork)
    (txs : List TransactionVerificationData) :
    Except TransactionError (List TxRingMembersInfo) := do
  txs.forM fun tx => (insertRingMemberIds tx.tx.txPrefix.inputs).map fun _ => ()
  txs.mapM (ringMemberInfo outputs hf)

/-! ## Contextual checks -/

/-- The checks that are not modelled, as parameters. -/
structure TxChecks where
  checkTransactionSemantic : TransactionVerificationData → HardFork → Except TransactionError UInt64
  isTorsionFree : CompressedPoint → Bool
  checkInputSignatures : Transaction → Rings → Except TransactionError Unit
  /-- The answer of the batch verifier to the statements of the transactions checked
  semantically. -/
  batchVerify : List TransactionVerificationData → Bool

/-- The decoy rules, apart from those of hard fork 15. -/
def checkDecoyInfoAt (decoyInfo : DecoyInfo) (hf : HardFork) : Except TransactionError Unit := do
  let currentMinimumDecoys := minimumDecoys hf
  if decoyInfo.minDecoys < currentMinimumDecoys then
    if decoyInfo.notMixable = 0 then .error .inputDoesNotHaveExpectedNumbDecoys
    else if decoyInfo.mixable > 1 then .error .moreThanOneMixableInputWithUnmixable
  else if .V8 ≤ hf ∧ decoyInfo.minDecoys ≠ currentMinimumDecoys then
    .error .inputDoesNotHaveExpectedNumbDecoys
  if .V12 ≤ hf ∧ decoyInfo.minDecoys ≠ decoyInfo.maxDecoys then
    .error .inputDoesNotHaveExpectedNumbDecoys

/-- Hard fork 15 allows both the rules of 14 and those of 16. -/
def checkDecoyInfo (decoyInfo : DecoyInfo) (hf : HardFork) : Except TransactionError Unit :=
  if hf = .V15 then
    match checkDecoyInfoAt decoyInfo .V14 with
    | .ok () => .ok ()
    | .error _ => checkDecoyInfoAt decoyInfo .V16
  else checkDecoyInfoAt decoyInfo hf

/-- Checks that no ring member is younger than ten blocks, from hard fork 12 on. -/
def check10BlockLock (youngestUsedOutHeight currentChainHeight : Nat) (hf : HardFork) :
    Except TransactionError Unit :=
  if .V12 ≤ hf ∧ youngestUsedOutHeight + 10 > currentChainHeight then
    .error .oneOrMoreRingMembersLocked
  else .ok ()

/-- Checks that the key image is in the prime subgroup. -/
def checkKeyImages (checks : TxChecks) : Input → Except TransactionError Unit
  | .toKey _ _ keyImage =>
    if checks.isTorsionFree keyImage then .ok () else .error .keyImageIsNotInPrimeSubGroup
  | .gen _ => .error .incorrectInputType

/-- The checks of the inputs against the chain. -/
def checkInputsContextual (checks : TxChecks) (inputs : List Input) (ring : TxRingMembersInfo)
    (currentChainHeight : Nat) (hf : HardFork) : Except TransactionError Unit := do
  check10BlockLock ring.youngestUsedOutHeight currentChainHeight hf
  -- without decoy info the hard fork is `V1`
  match ring.decoyInfo with
  | some decoyInfo => checkDecoyInfo decoyInfo hf
  | none => pure ()
  inputs.forM (checkKeyImages checks)

/-- The latest version a hard fork allows. -/
def maxTxVersion (hf : HardFork) : TxVersion := if hf ≤ .V3 then .ringSignatures else .ringCT

/-- The earliest version a hard fork allows. -/
def minTxVersion (hf : HardFork) : TxVersion := if .V6 ≤ hf then .ringCT else .ringSignatures

/-- Checks the version of a transaction. -/
def checkTxVersion (decoyInfo : Option DecoyInfo) (version : TxVersion) (hf : HardFork) :
    Except TransactionError Unit :=
  match decoyInfo with
  | some decoyInfo =>
    if version = .ringCT ∧ maxTxVersion hf = .ringSignatures then .error .transactionVersionInvalid
    else if version = .ringSignatures ∧ minTxVersion hf = .ringCT ∧ decoyInfo.notMixable = 0 then
      .error .transactionVersionInvalid
    else .ok ()
  | none => if version = .ringSignatures then .ok () else .error .transactionVersionInvalid

def txVersionOf (tx : Transaction) : Except TransactionError TxVersion :=
  match TxVersion.fromRaw tx.version with
  | some version => .ok version
  | none => .error .transactionVersionInvalid

/-- The checks of a transaction against the chain. -/
def checkTransactionContextual (checks : TxChecks) (tx : Transaction) (ring : TxRingMembersInfo)
    (currentChainHeight : Nat) (currentTimeLockTimestamp : UInt64) (hf : HardFork) :
    Except TransactionError Unit := do
  let txVersion ← txVersionOf tx
  checkInputsContextual checks tx.txPrefix.inputs ring currentChainHeight hf
  checkTxVersion ring.decoyInfo txVersion hf
  checkAllTimeLocks ring.timeLockedOuts currentChainHeight currentTimeLockTimestamp hf
  checks.checkInputSignatures tx ring.rings

/-! ## The verifier -/

/-- The type of validation that needs to be completed for a transaction. -/
inductive VerificationNeeded where
  | v1DecoyCheck
  | semanticAndContextual
  | contextual
  | none
deriving DecidableEq, Repr

/-- What a transaction that needs no contextual validation still needs: version 1 transactions can
become invalid with new blocks. -/
def decoyCheckNeeded (tx : TransactionVerificationData) : VerificationNeeded :=
  if tx.version = .ringSignatures then .v1DecoyCheck else .none

/-- One round of the loop of `verification_needed`. -/
def verificationNeededFor (hashesInMainChain : List Hash) (currentHf : HardFork) (currentChainHeight : Nat)
    (timeForTimeLock : UInt64) (tx : TransactionVerificationData) :
    Except TransactionError VerificationNeeded :=
  match tx.cachedVerificationState with
  | .notVerified => .ok .semanticAndContextual
  | .onlySemantic hf => if currentHf ≠ hf then .ok .semanticAndContextual else .ok .contextual
  | .validAtHashAndHF blockHash hf =>
    if currentHf ≠ hf then .ok .semanticAndContextual
    else if blockHash ∉ hashesInMainChain then .ok .contextual
    else .ok (decoyCheckNeeded tx)
  | .validAtHashAndHFWithTimeBasedLock blockHash hf timeLock =>
    if currentHf ≠ hf then .ok .semanticAndContextual
    else if blockHash ∉ hashesInMainChain then .ok .contextual
    -- time is not monotonic, so the lock can become locked again
    else if ¬ outputUnlocked timeLock currentChainHeight timeForTimeLock hf then
      .error .oneOrMoreRingMembersLocked
    else .ok (decoyCheckNeeded tx)

/-- What each transaction needs, and whether any needs a decoy check. -/
def verificationNeeded (txs : List TransactionVerificationData) (hashesInMainChain : List Hash)
    (currentHf : HardFork)
    (currentChainHeight : Nat) (timeForTimeLock : UInt64) :
    Except TransactionError (List VerificationNeeded × Bool) := do
  let needed ← txs.mapM
    (verificationNeededFor hashesInMainChain currentHf currentChainHeight timeForTimeLock)
  pure (needed, needed.any (· = .v1DecoyCheck))

/-- The transactions that `verify_transactions` works on. -/
def txFilter : VerificationNeeded → Bool
  | .contextual | .semanticAndContextual => true
  | _ => false

def timeBasedLocks (locks : List Timelock) : List UInt64 :=
  locks.filterMap fun lock =>
    match lock with
    | .time time => some time
    | .none | .block _ => none

/-- The state of a transaction that was verified on top of `topHash`. -/
def verifiedState (topHash : Hash) (hf : HardFork) (ring : TxRingMembersInfo) : CachedVerificationState :=
  if ring.timeLockedOuts.isEmpty then .validAtHashAndHF topHash hf
  else
    match (timeBasedLocks ring.timeLockedOuts).min? with
    | some time => .validAtHashAndHFWithTimeBasedLock topHash hf (.time time)
    | none => .validAtHashAndHF topHash hf

/-- The last loop of `verify_transactions`: marks the verified transactions. -/
def markVerified (topHash : Hash) (hf : HardFork) :
    List TransactionVerificationData → List VerificationNeeded → List TxRingMembersInfo →
      List TransactionVerificationData
  | [], _, _ => []
  | tx :: txs, [], _ => tx :: txs
  | tx :: txs, needed :: neededs, rings =>
    if txFilter needed then
      match rings with
      | [] => tx :: txs
      | ring :: rings =>
        { tx with cachedVerificationState := verifiedState topHash hf ring } ::
          markVerified topHash hf txs neededs rings
    else tx :: markVerified topHash hf txs neededs rings

/-- The semantic checks of one transaction, if it needs them. -/
def verifySemantic (checks : TxChecks) (hf : HardFork) (tx : TransactionVerificationData)
    (needed : VerificationNeeded) : Except (Fault ExtendedConsensusError) Unit :=
  if needed = .semanticAndContextual then
    match checks.checkTransactionSemantic tx hf with
    -- the source asserts that the fee was calculated right
    | .ok fee => if fee = tx.fee then .ok () else .error .panic
    | .error e => .error (txFault e)
  else .ok ()

/-- The checks of one transaction. They run in parallel, so another error may come first. -/
def verifyTransaction (checks : TxChecks) (currentChainHeight : Nat) (currentTimeLockTimestamp : UInt64)
    (hf : HardFork) (job : (TransactionVerificationData × VerificationNeeded) × TxRingMembersInfo) :
    Except (Fault ExtendedConsensusError) Unit := do
  verifySemantic checks hf job.1.1 job.1.2
  (checkTransactionContextual checks job.1.1.tx job.2 currentChainHeight currentTimeLockTimestamp
    hf).mapError txFault

/-- Verifies what is needed of each transaction. -/
def verifyTransactions (checks : TxChecks) (txs : List TransactionVerificationData)
    (needed : List VerificationNeeded)
    (currentChainHeight : Nat) (topHash : Hash) (currentTimeLockTimestamp : UInt64) (hf : HardFork)
    (outputs : OutputLookup) :
    Except (Fault ExtendedConsensusError) (List TransactionVerificationData) := do
  let jobs := (txs.zip needed).filter fun job => txFilter job.2
  let rings ← (batchGetRingMemberInfo outputs hf (jobs.map Prod.fst)).mapError txFault
  (jobs.zip rings).forM (verifyTransaction checks currentChainHeight currentTimeLockTimestamp hf)
  if checks.batchVerify ((jobs.filter fun job => job.2 = .semanticAndContextual).map Prod.fst) then
    .ok (markVerified topHash hf txs needed rings)
  else .error (.error .oneOrMoreBatchVerificationStatementsInvalid)

end Cuprate.Consensus
