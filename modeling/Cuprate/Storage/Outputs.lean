import Cuprate.Storage.Consistency
import Cuprate.Types.OutputCache

/-!
# Requesting outputs

The request `Outputs` (`storage/blockchain/src/service/read.rs`) and the functions that make an
output of the tables an output on the chain (`ops/output.rs`). A missing key makes an output a
wanted one; other database errors are not modelled.
-/

namespace Cuprate.Storage

open Collections

/-- A stored number as a time lock. -/
def u64ToTimelock (u : UInt64) : Timelock :=
  if u = 0 then .none else if u < 500000000 then .block u.toNat else .time u

/-- The time lock of an output. -/
def outputTimeLock (nonZeroUnlockTime : Bool) (txIdx : Nat) (t : Tables) : Option Timelock :=
  if nonZeroUnlockTime then (t.txUnlockTime.lookup txIdx).map u64ToTimelock else some .none

/-- A stored output from before RingCT. -/
def outputToOutputOnChain (env : StorageEnv) (output : Output) (amount : UInt64) (t : Tables) :
    Option OutputOnChain :=
  (outputTimeLock output.nonZeroUnlockTime output.txIdx t).map fun timeLock =>
    ⟨output.height, timeLock, output.key, env.computeZeroCommitment amount⟩

/-- A stored RingCT output. -/
def rctOutputToOutputOnChain (output : RctOutput) (t : Tables) : Option OutputOnChain :=
  (outputTimeLock output.nonZeroUnlockTime output.txIdx t).map fun timeLock =>
    ⟨output.height, timeLock, output.key, output.commitment⟩

/-- The output with an id; the amount 0 stands for RingCT outputs. -/
def idToOutputOnChain (env : StorageEnv) (id : PreRctOutputId) (t : Tables) : Option OutputOnChain :=
  if id.1 = 0 then (t.rctOutputs.lookup id.2).bind fun output => rctOutputToOutputOnChain output t
  else (t.outputs.lookup id).bind fun output => outputToOutputOnChain env output id.1 t

/-- The number of outputs with an amount. -/
def amountOfOuts (amount : UInt64) (t : Tables) : Nat :=
  if amount = 0 then t.rctOutputs.len else (t.numOutputs.lookup amount).getD 0

/-- The cache for the outputs that are requested. -/
def outputs (env : StorageEnv) (requested : Table UInt64 (Finset Nat)) (t : Tables) : OutputCache where
  cachedOutputs := requested.mapValues fun amount indices =>
    Finmap.tabulate indices fun index => idToOutputOnChain env (amount, index) t
  numberOfOutputs := requested.mapValues fun amount _ => amountOfOuts amount t
  wantedOutputs := requested.mapValues fun amount indices =>
    indices.filter fun index => idToOutputOnChain env (amount, index) t = none

/-- Outputs of version 1 are not zero, and only the miner transaction has a miner input. -/
structure VerifiedOutputs (env : StorageEnv) (b : VerifiedBlockInformation) : Prop where
  nonZero : ∀ x ∈ storedTxs env b, x.tx.version = 1 → ∀ out ∈ x.tx.txPrefix.outputs, out.amount.getD 0 ≠ 0
  noGen : ∀ tx ∈ b.txs, tx.tx.hasGen = false

/-- Verified blocks that are added to the tables one after another. -/
inductive Extends (env : StorageEnv) : Tables → List VerifiedBlockInformation → Tables → Prop where
  | nil (t : Tables) : Extends env t [] t
  | cons {t t₁ t' : Tables} {b : VerifiedBlockInformation} {bs : List VerifiedBlockInformation}
      (hvalid : ValidToAdd env t b) (houtputs : VerifiedOutputs env b) (hadd : addBlock env b t = some t₁)
      (hrest : Extends env t₁ bs t') : Extends env t (b :: bs) t'

/-- Adds the outputs of blocks to a cache. -/
def addBlocksToCache (env : StorageEnv) (bs : List VerifiedBlockInformation) (cache : OutputCache) :
    Option OutputCache :=
  bs.foldlM (fun cache b => OutputCache.addBlockToCache env.computeZeroCommitment b cache) cache

/-- The RingCT outputs of a transaction with their positions. -/
def rctPositions (x : StoredTx) : List (StoredTx × Cuprate.Output × Nat) :=
  match x.tx with
  | .v1 .. => []
  | .v2 txPrefix _ => txPrefix.outputs.zipIdx.map fun p => (x, p.1, p.2)

/-- If a miner transaction has RingCT proofs, they have the commitment that is computed from the
amount. -/
def CommitsToAmount (env : StorageEnv) (tx : Transaction) (out : Cuprate.Output) (j : Nat) : Prop :=
  match tx with
  | .v1 .. => True
  | .v2 _ none => True
  | .v2 _ (some proofs) =>
    tx.hasGen → proofs.base.commitments[j]? = some (env.computeZeroCommitment (out.amount.getD 0))

/-- Two caches answer all questions about the requested outputs alike. -/
def SameAnswers (requested : Table UInt64 (Finset Nat)) (cache cache' : OutputCache) : Prop :=
  ∀ amount indices, requested.lookup amount = some indices →
    cache.numberOutsWithAmount amount = cache'.numberOutsWithAmount amount ∧
      ∀ index ∈ indices, cache.getOutput amount index = cache'.getOutput amount index

end Cuprate.Storage
