import Cuprate.Consensus.MinerTx
import Cuprate.Consensus.Transactions
import Cuprate.Consensus.Weight

/-!
# Semantic transaction rules

The rules that need no blockchain context (`consensus/rules/src/transactions.rs` and
`transactions/ring_ct.rs`). What depends on the curve is a parameter: which keys are points, the
range proofs and the balance of the commitments.
-/

namespace Cuprate.Consensus

open HardFork

def MAX_BULLETPROOFS_OUTPUTS : Nat := 16

def MAX_TX_BLOB_SIZE : Nat := 1000000

/-- monero-oxide's types of RingCT proofs. -/
inductive RctType where
  | aggregateMlsagBorromean
  | mlsagBorromean
  | mlsagBulletproofs
  | mlsagBulletproofsCompactAmount
  | clsagBulletproof
  | clsagBulletproofPlus
deriving DecidableEq, Repr

/-- The parts of the semantic rules that are not modelled. -/
structure CurveRules where
  /-- Whether the bytes are a canonically encoded point. -/
  decompresses : CompressedPoint → Bool
  rctType : RctProofs → RctType
  checkOutputRangeProofs : RctProofs → Except TransactionError Unit
  simpleTypeBalances : RctProofs → Except TransactionError Unit

/-- Checks that every output key is a valid point. -/
def checkOutputKeys (rules : CurveRules) (outputs : List Output) : Except TransactionError Unit :=
  outputs.forM fun out => if rules.decompresses out.key then .ok () else .error .outputNotValidPoint

/-- Checks an amount of a version 1 transaction. -/
def checkOutputAmountV1 (amount : UInt64) (hf : HardFork) : Except TransactionError Unit :=
  if amount = 0 then .error .zeroOutputForV1
  else if V2 ≤ hf ∧ ¬ isDecomposedAmount amount then .error .amountNotDecomposed
  else .ok ()

/-- Checks an amount of a version 2 transaction. -/
def checkOutputAmountV2 (amount : UInt64) : Except TransactionError Unit :=
  if amount = 0 then .ok () else .error .nonZeroOutputForV2

/-- Checks an amount. -/
def checkOutputAmount (amount : UInt64) (hf : HardFork) : TxVersion → Except TransactionError Unit
  | .ringSignatures => checkOutputAmountV1 amount hf
  | .ringCT => checkOutputAmountV2 amount

/-- `checked_add`, with the error for an overflow. -/
def addAmount (overflow : TransactionError) (sum amount : UInt64) : Except TransactionError UInt64 :=
  if 2 ^ 64 ≤ sum.toNat + amount.toNat then .error overflow else .ok (sum + amount)

/-- One round of the loop of `sum_outputs`. -/
def addTxOutput (hf : HardFork) (txVersion : TxVersion) (sum : UInt64) (out : Output) :
    Except TransactionError UInt64 := do
  checkOutputAmount (out.amount.getD 0) hf txVersion
  addAmount .outputsOverflow sum (out.amount.getD 0)

/-- Sums the outputs of a transaction that is not a miner transaction. -/
def sumTxOutputs (outputs : List Output) (hf : HardFork) (txVersion : TxVersion) :
    Except TransactionError UInt64 :=
  outputs.foldlM (addTxOutput hf txVersion) 0

/-- Checks the number of outputs. -/
def checkNumberOfOutputs (outputs : Nat) (hf : HardFork) (txVersion : TxVersion) (bpOrBpp : Bool) :
    Except TransactionError Unit :=
  if txVersion = .ringSignatures then .ok ()
  else if V12 ≤ hf ∧ outputs < 2 then .error .invalidNumberOfOutputs
  else if bpOrBpp ∧ outputs > MAX_BULLETPROOFS_OUTPUTS then .error .invalidNumberOfOutputs
  else .ok ()

/-- Checks the outputs and sums them up. -/
def checkOutputsSemantics (rules : CurveRules) (outputs : List Output) (hf : HardFork)
    (txVersion : TxVersion)
    (bpOrBpp : Bool) : Except TransactionError UInt64 := do
  checkOutputTypes outputs hf
  checkOutputKeys rules outputs
  checkNumberOfOutputs outputs.length hf txVersion bpOrBpp
  sumTxOutputs outputs hf txVersion

/-! ## Inputs -/

/-- Checks that an input spends an output. -/
def checkInputType : Input → Except TransactionError Unit
  | .toKey .. => .ok ()
  | .gen _ => .error .incorrectInputType

/-- Checks that an input has ring members. -/
def checkInputHasDecoys : Input → Except TransactionError Unit
  | .toKey _ keyOffsets _ =>
    if keyOffsets.isEmpty then .error .inputDoesNotHaveExpectedNumbDecoys else .ok ()
  | .gen _ => .error .incorrectInputType

/-- From hard fork 6 on no relative offset after the first may be 0. -/
def checkRingMembersUnique (input : Input) (hf : HardFork) : Except TransactionError Unit :=
  if V6 ≤ hf then
    match input with
    | .toKey _ keyOffsets _ =>
      (keyOffsets.drop 1).forM fun offset => if offset = 0 then .error .duplicateRingMember else .ok ()
    | .gen _ => .error .incorrectInputType
  else .ok ()

/-- The checks of a single input. -/
def checkInputSemantics (hf : HardFork) (input : Input) : Except TransactionError Unit := do
  checkInputType input
  checkInputHasDecoys input
  checkRingMembersUnique input hf

/-- The key image of an input. -/
def getKi : Input → Except TransactionError CompressedPoint
  | .toKey _ _ keyImage => .ok keyImage
  | .gen _ => .error .incorrectInputType

/-- Checks that the key images decrease. -/
def checkNeighboursSorted : List Input → Except TransactionError Unit
  | first :: second :: inputs => do
    let firstKi ← getKi first
    let secondKi ← getKi second
    if firstKi ≤ secondKi then .error .inputsAreNotOrdered
    else checkNeighboursSorted (second :: inputs)
  | _ => .ok ()

/-- From hard fork 7 on the inputs are sorted by key image. -/
def checkInputsSorted (inputs : List Input) (hf : HardFork) : Except TransactionError Unit :=
  if V7 ≤ hf then checkNeighboursSorted inputs else .ok ()

/-- One round of the loop of `sum_inputs_check_overflow`. -/
def addInput (sum : UInt64) : Input → Except TransactionError UInt64
  | .toKey amount _ _ => addAmount .inputsOverflow sum (amount.getD 0)
  | .gen _ => .error .incorrectInputType

/-- The sum of the inputs. -/
def sumInputsCheckOverflow (inputs : List Input) :
    Except TransactionError UInt64 := inputs.foldlM addInput 0

/-- The checks of the inputs. -/
def checkInputsSemantics (inputs : List Input) (hf : HardFork) : Except TransactionError UInt64 :=
  if inputs.isEmpty then .error .noInputs
  else do
    inputs.forM (checkInputSemantics hf)
    checkInputsSorted inputs hf
    sumInputsCheckOverflow inputs

namespace RingCt

/-- Two transactions that keep their type after the fork that forbids it. -/
def GRANDFATHERED_TRANSACTIONS : List Hash :=
  [0xc5151944f0583097ba0c88cd0f43e7fabb3881278aa2f73b3b0a007c5d34e910,
    0x6f2f117cde6fbcf8d4a6ef8974fcac744726574ac38cf25d3322c996b21edd4c]

/-- Whether a hard fork allows a type of proofs. -/
def typeAllowed (hf : HardFork) (txHash : Hash) : RctType → Bool
  | .aggregateMlsagBorromean | .mlsagBorromean => V4 ≤ hf ∧ hf < V9
  | .mlsagBulletproofs => V8 ≤ hf ∧ hf < V11
  | .mlsagBulletproofsCompactAmount => (V10 ≤ hf ∧ hf < V14) || GRANDFATHERED_TRANSACTIONS.contains txHash
  | .clsagBulletproof => V13 ≤ hf ∧ hf < V16
  | .clsagBulletproofPlus => V15 ≤ hf

/-- Checks the type of the proofs. -/
def checkRctType (ty : RctType) (hf : HardFork) (txHash : Hash) : Except TransactionError Unit :=
  if typeAllowed hf txHash ty then .ok () else .error .ringCTError

/-- The checks of the proofs that need no chain. -/
def ringCtSemanticChecks (rules : CurveRules) (proofs : RctProofs) (txHash : Hash) (hf : HardFork) :
    Except TransactionError Unit := do
  checkRctType (rules.rctType proofs) hf txHash
  rules.checkOutputRangeProofs proofs
  (if rules.rctType proofs = .aggregateMlsagBorromean then .ok () else rules.simpleTypeBalances proofs)

end RingCt

/-- The largest weight of a transaction. -/
def transactionWeightLimit (hf : HardFork) : Nat := penaltyFreeZone hf / 2 - 600

def bpOrBpp (rules : CurveRules) : Transaction → Bool
  | .v2 _ (some proofs) =>
    match rules.rctType proofs with
    | .aggregateMlsagBorromean | .mlsagBorromean => false
    | _ => true
  | .v2 _ none | .v1 .. => false

/-- The fee: for a version 1 transaction what the outputs leave of the inputs. -/
def semanticFee (rules : CurveRules) (txHash : Hash) (hf : HardFork) (outputsSum inputsSum : UInt64) :
    Transaction → Except TransactionError UInt64
  | .v1 .. => if outputsSum ≥ inputsSum then .error .outputsTooHigh else .ok (inputsSum - outputsSum)
  | .v2 _ none => .error .transactionVersionInvalid
  | .v2 _ (some proofs) => (RingCt.ringCtSemanticChecks rules proofs txHash hf).map fun _ =>
      proofs.base.fee

/-- Checks that the transaction is semantically valid, and returns its fee. -/
def checkTransactionSemantic (rules : CurveRules) (tx : Transaction) (txBlobSize txWeight : Nat)
    (txHash : Hash)
    (hf : HardFork) : Except TransactionError UInt64 :=
  if txBlobSize > MAX_TX_BLOB_SIZE ∨ V8 ≤ hf ∧ txWeight > transactionWeightLimit hf then .error .tooBig
  else do
    let txVersion ← txVersionOf tx
    let outputsSum ← checkOutputsSemantics rules tx.txPrefix.outputs hf txVersion (bpOrBpp rules tx)
    let inputsSum ← checkInputsSemantics tx.txPrefix.inputs hf
    semanticFee rules txHash hf outputsSum inputsSum tx

def TxChecks.withSemanticRules (checks : TxChecks) (rules : CurveRules) : TxChecks :=
  { checks with
    checkTransactionSemantic := fun data hf =>
      Consensus.checkTransactionSemantic rules data.tx data.txBlob.length data.txWeight data.txHash hf }

end Cuprate.Consensus
