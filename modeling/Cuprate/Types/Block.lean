import Cuprate.Types.Transaction

/-!
# Blocks

monero-oxide's block type. What the library computes from a block or a transaction (its bytes, its
hash, its weight) is a parameter.
-/

namespace Cuprate

/-- The header of a block. -/
structure BlockHeader where
  /-- The raw version field. -/
  hardforkVersion : Nat
  /-- The raw vote field. -/
  hardforkSignal : Nat
  timestamp : UInt64
  previous : Hash
  nonce : UInt32
deriving DecidableEq, Repr

/-- A block: its header, the miner transaction and the hashes of the others. -/
structure Block where
  header : BlockHeader
  minerTransaction : Transaction
  /-- The hashes of the other transactions. -/
  transactions : List Hash
deriving DecidableEq, Repr

/-- The hard fork and the vote in a header. -/
def HardFork.fromBlockHeader (header : BlockHeader) : Except HardForkError (HardFork × HardFork) :=
  (fromVersion header.hardforkVersion).map fun version => (version, fromVote header.hardforkSignal)

/-- A transaction that was verified. -/
structure VerifiedTransactionInformation where
  txBlob : List UInt8
  txWeight : Nat
  fee : UInt64
  txHash : Hash
  tx : Transaction
deriving DecidableEq, Repr

/-- Verified information of a block (`types/types/src/types.rs`). -/
structure VerifiedBlockInformation where
  block : Block
  blockBlob : List UInt8
  /-- All transactions but the miner transaction, in the order of the block. -/
  txs : List VerifiedTransactionInformation
  blockHash : Hash
  powHash : Hash
  height : Nat
  generatedCoins : UInt64
  weight : Nat
  longTermWeight : Nat
  cumulativeDifficulty : Nat
deriving DecidableEq, Repr

/-- What monero-oxide computes from blocks and transactions. -/
structure MoneroOxide where
  serializeBlock : Block → List UInt8
  hashBlock : Block → Hash
  /-- The bytes that the proof of work is computed from. -/
  serializePowHash : Block → List UInt8
  serializeTx : Transaction → List UInt8
  hashTx : Transaction → Hash
  txWeight : Transaction → Nat

end Cuprate
