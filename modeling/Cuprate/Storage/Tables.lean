import Cuprate.Types.Block
import Cuprate.Collections.Table

/-!
# The tables of the blockchain database

The tables of the main chain (`storage/blockchain/src/tables.rs` and `types.rs`), and what the
storage uses of monero-oxide. The tables for pruned data are never written and are left out; those
for alternative chains are modelled apart.
-/

namespace Cuprate.Storage

open Collections

/-- An output amount, and the index of the output among those of that amount. -/
abbrev PreRctOutputId := UInt64 × Nat

/-- An output from before RingCT. -/
structure Output where
  key : CompressedPoint
  height : Nat
  nonZeroUnlockTime : Bool
  txIdx : Nat
deriving DecidableEq, Repr

/-- A RingCT output. -/
structure RctOutput where
  key : CompressedPoint
  height : Nat
  nonZeroUnlockTime : Bool
  txIdx : Nat
  commitment : CompressedPoint
deriving DecidableEq, Repr

/-- What is stored of a block, apart from its blobs. -/
structure BlockInfo where
  timestamp : UInt64
  cumulativeGeneratedCoins : UInt64
  weight : Nat
  cumulativeDifficultyLow : Nat
  cumulativeDifficultyHigh : Nat
  blockHash : Hash
  cumulativeRctOuts : Nat
  longTermWeight : Nat
  miningTxIndex : Nat
deriving DecidableEq, Repr

/-- The tables of the main chain. -/
@[ext]
structure Tables where
  blockHeaderBlobs : Table Nat (List UInt8)
  blockTxsHashes : Table Nat (List Hash)
  blockHeights : Table Hash Nat
  blockInfos : Table Nat BlockInfo
  keyImages : Table CompressedPoint Unit
  numOutputs : Table UInt64 Nat
  outputs : Table PreRctOutputId Output
  rctOutputs : Table Nat RctOutput
  txBlobs : Table Nat (List UInt8)
  txIds : Table Hash Nat
  txHeights : Table Nat Nat
  txOutputs : Table Nat (List Nat)
  txUnlockTime : Table Nat UInt64

def Tables.empty : Tables := ⟨∅, ∅, ∅, ∅, ∅, ∅, ∅, ∅, ∅, ∅, ∅, ∅, ∅⟩

/-- The outputs have amounts as the version says: all in version 1, in version 2 only those of a
miner transaction. -/
def AmountsMatchVersion : Transaction → Prop
  | .v1 txPrefix _ => ∀ out ∈ txPrefix.outputs, out.amount.isSome
  | .v2 txPrefix proofs =>
    ∀ out ∈ txPrefix.outputs, out.amount.isSome → (Transaction.v2 txPrefix proofs).hasGen

/-- A height is below the first time, and a lock that is not `none` is not zero. -/
def CanonicalTimelock : Timelock → Prop
  | .none => True
  | .block height => 0 < height ∧ height < 500000000
  | .time timestamp => 500000000 ≤ timestamp

/-- There is a commitment for each output. -/
def CommitmentsMatchOutputs : Transaction → Prop
  | .v2 txPrefix (some proofs) => proofs.base.commitments.length = txPrefix.outputs.length
  | _ => True

/-- A transaction in the form that reading gives. -/
structure Readable (tx : Transaction) : Prop where
  amounts : AmountsMatchVersion tx
  timelock : CanonicalTimelock tx.txPrefix.additionalTimelock
  commitments : CommitmentsMatchOutputs tx

/-- What the storage uses of monero-oxide and of the elliptic curve. -/
structure StorageEnv where
  oxide : MoneroOxide
  serializeHeader : BlockHeader → List UInt8
  readHeader : List UInt8 → Option BlockHeader
  readTx : List UInt8 → Option Transaction
  computeZeroCommitment : UInt64 → CompressedPoint
  /-- The reader sets the amounts that belong to the version, tells heights from times by their
  size, and reads as many commitments as outputs. -/
  readTx_readable : ∀ bytes tx, readTx bytes = some tx → Readable tx

/-- The constructor of monero-oxide's block type: the miner transaction has a miner input only. -/
def Block.new (header : BlockHeader) (minerTransaction : Transaction) (transactions : List Hash) :
    Option Block :=
  match minerTransaction.txPrefix.inputs with
  | [.gen _] => some ⟨header, minerTransaction, transactions⟩
  | _ => none

end Cuprate.Storage
