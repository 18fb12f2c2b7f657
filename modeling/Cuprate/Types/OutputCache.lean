import Cuprate.Types.Block
import Cuprate.Collections.Table

/-!
# A cache of outputs

`types/types/src/output_cache.rs`: the requested outputs that are in the database, and those that
may still come with the next blocks. `none` is a panic, for a transaction without the commitment
that is asked for. The transaction ids of the outputs are left out.
-/

namespace Cuprate

open Collections

/-- Outputs that were read for a batch. -/
structure OutputCache where
  cachedOutputs : Table UInt64 (Table Nat OutputOnChain)
  /-- How many outputs the chain has, for each amount that was requested. -/
  numberOfOutputs : Table UInt64 Nat
  /-- The outputs that were requested but are not in the database. -/
  wantedOutputs : Table UInt64 (Finset Nat)

namespace OutputCache

/-- The number of outputs with an amount. -/
def numberOutsWithAmount (cache : OutputCache) (amount : UInt64) : Nat :=
  (cache.numberOfOutputs.lookup amount).getD 0

/-- The output with an amount and an index. -/
def getOutput (cache : OutputCache) (amount : UInt64) (index : Nat) : Option OutputOnChain :=
  (cache.cachedOutputs.lookup amount).bind fun outputs => outputs.lookup index

/-- The commitment to the amount of output `i`. -/
def getOutputCommitment (computeZeroCommitment : UInt64 → CompressedPoint) (tx : Transaction) (i : Nat) :
    Option CompressedPoint :=
  let zeroCommitment := tx.txPrefix.outputs[i]?.map fun out => computeZeroCommitment (out.amount.getD 0)
  match tx with
  | .v1 .. => zeroCommitment
  | .v2 _ none => zeroCommitment
  | .v2 _ (some proofs) => proofs.base.commitments[i]?

def cacheAmount (minerTx : Bool) (tx : Transaction) (out : Output) : UInt64 :=
  if minerTx ∧ tx.version = 2 then 0 else out.amount.getD 0

/-- Counts an output, and caches it if it is wanted. -/
def addOut (amount : UInt64) (output : Option OutputOnChain) (cache : OutputCache) : Option OutputCache :=
  match cache.numberOfOutputs.lookup amount with
  | none => some cache
  | some index =>
    let cache := { cache with numberOfOutputs := cache.numberOfOutputs.insert amount (index + 1) }
    match cache.wantedOutputs.lookup amount with
    | none => some cache
    | some set =>
      if index ∈ set then
        output.map fun output =>
          { cache with
            wantedOutputs := cache.wantedOutputs.insert amount (set.erase index)
            cachedOutputs := cache.cachedOutputs.insert amount
              (((cache.cachedOutputs.lookup amount).getD ∅).insert index output) }
      else some cache

/-- Adds the outputs of a transaction, from output `i` on. -/
def addTxFrom (computeZeroCommitment : UInt64 → CompressedPoint) (minerTx : Bool) (height : Nat)
    (tx : Transaction) : Nat → List Output → OutputCache → Option OutputCache
  | _, [], cache => some cache
  | i, out :: outs, cache => do
    let cache ← addOut (cacheAmount minerTx tx out)
      ((getOutputCommitment computeZeroCommitment tx i).map fun commitment =>
        ⟨height, tx.txPrefix.additionalTimelock, out.key, commitment⟩) cache
    addTxFrom computeZeroCommitment minerTx height tx (i + 1) outs cache

/-- Adds the outputs of a transaction. -/
def addTx (computeZeroCommitment : UInt64 → CompressedPoint) (minerTx : Bool) (height : Nat)
    (tx : Transaction)
    (cache : OutputCache) : Option OutputCache :=
  addTxFrom computeZeroCommitment minerTx height tx 0 tx.txPrefix.outputs cache

/-- Adds the outputs of a block that were requested and are not in the database. -/
def addBlockToCache (computeZeroCommitment : UInt64 → CompressedPoint) (block : VerifiedBlockInformation)
    (cache : OutputCache) : Option OutputCache := do
  let cache ← addTx computeZeroCommitment true block.height block.block.minerTransaction cache
  block.txs.foldlM (fun cache tx => addTx computeZeroCommitment false block.height tx.tx cache) cache

end OutputCache

end Cuprate
