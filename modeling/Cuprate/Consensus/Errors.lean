import Cuprate.Types.HardFork
import Cuprate.Collections.Result

/-!
# Consensus errors

The errors of the consensus rules (`consensus/rules/src`) and of the services built on them
(`consensus/src/lib.rs`).
-/

namespace Cuprate.Consensus

open Collections

/-- Why a transaction is invalid. -/
inductive TransactionError where
  | transactionVersionInvalid
  | tooBig
  | outputNotValidPoint
  | outputTypeInvalid
  | zeroOutputForV1
  | nonZeroOutputForV2
  | amountNotDecomposed
  | outputsOverflow
  | outputsTooHigh
  | invalidNumberOfOutputs
  | inputDoesNotHaveExpectedNumbDecoys
  | moreThanOneMixableInputWithUnmixable
  | keyImageIsNotInPrimeSubGroup
  | keyImageSpent
  | incorrectInputType
  | duplicateRingMember
  | inputsAreNotOrdered
  | oneOrMoreRingMembersLocked
  | inputsOverflow
  | noInputs
  | ringMemberNotFoundOrInvalid
  | ringSignatureIncorrect
  | ringCTError
deriving DecidableEq, Repr

/-- Why a miner transaction is invalid. -/
inductive MinerTxError where
  | versionInvalid
  | incorrectNumbOfInputs
  | inputsHeightIncorrect
  | inputNotOfTypeGen
  | invalidLockTime
  | outputNotDecomposed
  | outputsOverflow
  | outputAmountIncorrect
  | rctTypeNotNull
  | invalidOutputType
deriving DecidableEq, Repr

/-- Why a block is invalid. -/
inductive BlockError where
  | powInvalid
  | tooLarge
  | tooManyTxs
  | previousIDIncorrect
  | timeStampInvalid
  | duplicateTransaction
  | hardForkError (e : HardForkError)
  | minerTxError (e : MinerTxError)
deriving DecidableEq, Repr

/-- An error of the rules. -/
inductive ConsensusError where
  | block (e : BlockError)
  | transaction (e : TransactionError)
deriving DecidableEq, Repr

/-- An error returned from one of the consensus services. -/
inductive ExtendedConsensusError where
  | conErr (e : ConsensusError)
  | dbErr
  | txsIncludedWithBlockIncorrect
  | oneOrMoreBatchVerificationStatementsInvalid
  | noBlocksToVerify
deriving DecidableEq, Repr

def txFault (e : TransactionError) : Fault ExtendedConsensusError := .error (.conErr (.transaction e))

def blockFault (e : BlockError) : Fault ExtendedConsensusError := .error (.conErr (.block e))

end Cuprate.Consensus
