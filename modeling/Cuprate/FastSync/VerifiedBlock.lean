import Cuprate.Consensus.BlockVerification

/-!
# Blocks that are added without verification

Fast sync calculates from a block what verification would have returned for it
(`consensus/fast-sync/src/fast_sync.rs`). A panic is `none`; the sums of amounts are on `u64`.
-/

namespace Cuprate.FastSync

open Consensus

/-- The hash that stands for the proof of work, which is not calculated. -/
def NO_POW_HASH : Hash := BitVec.allOnes 256

/-- The height in a miner transaction whose first input is a miner input. -/
def firstGenHeight (tx : Transaction) : Option Nat :=
  match tx.txPrefix.inputs with
  | .gen height :: _ => some height
  | _ => none

/-- The transactions, in the order in which the block names them. -/
def verifiedTxs (oxide : MoneroOxide) (block : Block) (txs : List Transaction) :
    Option (List VerifiedTransactionInformation) := do
  let txs ← (txs.mapM (newTxVerificationData oxide)).toOption
  let txs ← (Finmap.fromList (txs.map fun data => (data.txHash, data))).takeAll block.transactions
  some (txs.map verifiedTransaction)

/-- The information on a block that is known to be valid. -/
def verifiedBlockInformation (oxide : MoneroOxide) (block : Block)
    (txs : List VerifiedTransactionInformation)
    (height : Nat) (ctx : BlockchainContext) : VerifiedBlockInformation :=
  let totalFees := (txs.map (·.fee)).foldl (· + ·) 0
  let totalOutputs := (block.minerTransaction.txPrefix.outputs.map (·.amount.getD 0)).foldl (· + ·) 0
  let weight := oxide.txWeight block.minerTransaction + (txs.map (·.txWeight)).sum
  { block := block
    blockBlob := oxide.serializeBlock block
    txs := txs
    blockHash := oxide.hashBlock block
    powHash := NO_POW_HASH
    height := height
    generatedCoins := totalOutputs - totalFees
    weight := weight
    longTermWeight := ctx.nextBlockLongTermWeight weight
    cumulativeDifficulty :=
      (ctx.cumulativeDifficulty + ctx.contextToVerifyBlock.nextDifficulty) % 2 ^ 128 }

/-- The information on a block that is not verified again. -/
def blockToVerifiedBlockInformation (oxide : MoneroOxide) (block : Block) (txs : List Transaction)
    (ctx : BlockchainContext) : Option VerifiedBlockInformation := do
  let height ← firstGenHeight block.minerTransaction
  let txs ← (if height = ctx.contextToVerifyBlock.chainHeight then verifiedTxs oxide block txs else none)
  some (verifiedBlockInformation oxide block txs height ctx)

end Cuprate.FastSync
