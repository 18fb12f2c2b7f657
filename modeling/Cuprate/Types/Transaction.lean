import Cuprate.Types.HardFork

/-!
# Transactions

The parts of monero-oxide's transaction type that the modelled code reads, and the records of
`types/types` built around it. Hashes and compressed points are 32 bytes, read as one big-endian
number, so that their order is the byte order.
-/

namespace Cuprate

/-- A hash of 32 bytes. -/
abbrev Hash := BitVec 256

/-- A point of the curve, compressed. -/
abbrev CompressedPoint := BitVec 256

/-- The lock of a transaction's outputs: until a block height or until a time. -/
inductive Timelock where
  | none
  | block (height : Nat)
  | time (timestamp : UInt64)
deriving DecidableEq, Repr

/-- An input: a coinbase input, or one that spends an output. -/
inductive Input where
  | gen (height : Nat)
  | toKey (amount : Option UInt64) (keyOffsets : List UInt64) (keyImage : CompressedPoint)
deriving DecidableEq, Repr

/-- An output of a transaction. -/
structure Output where
  amount : Option UInt64
  key : CompressedPoint
  viewTag : Option UInt8
deriving DecidableEq, Repr

/-- The part of a transaction that is signed. -/
structure TransactionPrefix where
  additionalTimelock : Timelock
  inputs : List Input
  outputs : List Output
  extra : List UInt8
deriving DecidableEq, Repr

/-- The part of the RingCT proofs that is not pruned. The pseudo outputs and encrypted amounts are
kept as their bytes. -/
structure RctBase where
  fee : UInt64
  commitments : List CompressedPoint
  rest : List UInt8
deriving DecidableEq, Repr

/-- The proofs of a RingCT transaction. -/
structure RctProofs where
  base : RctBase
  prunable : List UInt8
deriving DecidableEq, Repr

/-- A transaction; ring signatures are kept as their bytes. A version 2 transaction without proofs
is a miner transaction. -/
inductive Transaction where
  | v1 (txPrefix : TransactionPrefix) (signatures : List UInt8)
  | v2 (txPrefix : TransactionPrefix) (proofs : Option RctProofs)
deriving DecidableEq, Repr

namespace Transaction

def txPrefix : Transaction → TransactionPrefix
  | v1 p _ => p
  | v2 p _ => p

def version : Transaction → Nat
  | v1 .. => 1
  | v2 .. => 2

/-- The key images of the inputs. -/
def keyImages (tx : Transaction) : List CompressedPoint :=
  tx.txPrefix.inputs.filterMap fun input =>
    match input with
    | .toKey _ _ keyImage => some keyImage
    | .gen _ => none

def hasGen (tx : Transaction) : Bool :=
  tx.txPrefix.inputs.any fun input =>
    match input with
    | .toKey .. => false
    | .gen _ => true

end Transaction

/-- All valid transaction versions. -/
inductive TxVersion where
  | ringSignatures
  | ringCT
deriving DecidableEq, Repr

def TxVersion.fromRaw : Nat → Option TxVersion
  | 1 => some .ringSignatures
  | 2 => some .ringCT
  | _ => none

/-- An output that a ring refers to. -/
structure OutputOnChain where
  height : Nat
  timeLock : Timelock
  key : CompressedPoint
  commitment : CompressedPoint
deriving DecidableEq, Repr

/-- Under which conditions a transaction is known to be valid. -/
inductive CachedVerificationState where
  | notVerified
  | onlySemantic (hf : HardFork)
  | validAtHashAndHF (blockHash : Hash) (hf : HardFork)
  | validAtHashAndHFWithTimeBasedLock (blockHash : Hash) (hf : HardFork) (timeLock : Timelock)
deriving DecidableEq, Repr

/-- A transaction with what is known of its validity. -/
structure TransactionVerificationData where
  tx : Transaction
  version : TxVersion
  txBlob : List UInt8
  txWeight : Nat
  fee : UInt64
  txHash : Hash
  cachedVerificationState : CachedVerificationState
deriving DecidableEq, Repr

end Cuprate
