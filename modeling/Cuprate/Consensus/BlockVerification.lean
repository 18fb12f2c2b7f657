import Cuprate.Consensus.Context
import Cuprate.Consensus.Transactions

/-!
# Block verification

Blocks are verified one by one on top of the blockchain context (`consensus/src/block.rs`), or
prepared as a batch before that (`consensus/src/block/batch_prepare.rs`). The output cache that the
batch preparation returns is modelled apart; here a reader of the chain says where transactions get
their data from.
-/

namespace Cuprate.Consensus

open Collections HardFork

/-- The parts of block verification that are not modelled. -/
structure BlockEnv where
  oxide : MoneroOxide
  pow : PowFunctions
  checks : TxChecks

/-- What transaction verification reads of the chain: from the database, or from the cache of a
prepared batch. -/
structure ChainReader where
  /-- The key images were checked when the blocks were prepared. -/
  keyImagesSpentChecked : Bool
  keyImageSpent : CompressedPoint → Bool
  knownHashes : List Hash → List Hash
  outputs : OutputLookup

/-- Checks that each key image is unique in the whole chain. -/
def checkKisUnique (reader : ChainReader) (txs : List TransactionVerificationData) :
    Except TransactionError Unit :=
  let spentKis := txs.flatMap fun tx => tx.tx.keyImages
  if ¬ spentKis.Nodup then .error .keyImageSpent
  else if spentKis.any reader.keyImageSpent then .error .keyImageSpent
  else .ok ()

/-- The top block at which a transaction was verified. -/
def verifiedAtBlockHash : CachedVerificationState → Option Hash
  | .validAtHashAndHF blockHash _ | .validAtHashAndHFWithTimeBasedLock blockHash _ _ => some blockHash
  | .notVerified | .onlySemantic _ => none

/-- The hashes the transactions were verified at that are still on the main chain. -/
def hashesReferencedInMainChain (reader : ChainReader) (txs : List TransactionVerificationData) :
    List Hash :=
  reader.knownHashes (txs.filterMap fun tx => verifiedAtBlockHash tx.cachedVerificationState)

/-- Checks the decoys of a transaction. -/
def verifyDecoyInfo (reader : ChainReader) (hf : HardFork) (tx : TransactionVerificationData) :
    Except TransactionError Unit := do
  let decoyInfo ← DecoyInfo.new tx.tx.txPrefix.inputs reader.outputs.numberOutsWithAmount hf
  checkDecoyInfo decoyInfo hf

/-- Checks the decoys of transactions, from the second hard fork on. -/
def verifyTransactionsDecoyInfo (reader : ChainReader) (hf : HardFork)
    (txs : List TransactionVerificationData) : Except TransactionError Unit :=
  if hf = V1 then .ok () else txs.forM (verifyDecoyInfo reader hf)

/-- The checks that come before the contextual ones: what each transaction still needs. -/
def neededVerification (reader : ChainReader) (txs : List TransactionVerificationData)
    (currentChainHeight : Nat)
    (timeForTimeLock : UInt64) (hf : HardFork) :
    Except TransactionError (List VerificationNeeded) := do
  (if reader.keyImagesSpentChecked then .ok () else checkKisUnique reader txs)
  let needed ← verificationNeeded txs (hashesReferencedInMainChain reader txs) hf currentChainHeight
    timeForTimeLock
  (if needed.2 then
      verifyTransactionsDecoyInfo reader hf
        (((txs.zip needed.1).filter fun job => job.2 = .v1DecoyCheck).map Prod.fst)
    else .ok ())
  pure needed.1

/-- Fully verifies the transactions. -/
def fullVerification (checks : TxChecks) (reader : ChainReader) (txs : List TransactionVerificationData)
    (currentChainHeight : Nat) (topHash : Hash) (timeForTimeLock : UInt64) (hf : HardFork) :
    Except (Fault ExtendedConsensusError) (List TransactionVerificationData) := do
  let needed ← (neededVerification reader txs currentChainHeight timeForTimeLock hf).mapError txFault
  verifyTransactions checks txs needed currentChainHeight topHash timeForTimeLock hf reader.outputs

/-- A block with all data needed to verify it, except its proof of work. -/
structure PreparedBlockExPow where
  block : Block
  blockBlob : List UInt8
  hfVote : HardFork
  hfVersion : HardFork
  blockHash : Hash
  height : Nat
  minerTxWeight : Nat
deriving DecidableEq, Repr

/-- A block with what can be computed without the chain. -/
structure PreparedBlock where
  block : Block
  blockBlob : List UInt8
  hfVote : HardFork
  hfVersion : HardFork
  blockHash : Hash
  powHash : Hash
  minerTxWeight : Nat
deriving DecidableEq, Repr

/-- The hard fork and the vote of a block. -/
def preparedVersionVote (block : Block) : Except BlockError (HardFork × HardFork) :=
  (fromBlockHeader block.header).mapError fun _ => .hardForkError .hardForkUnknown

/-- Prepares a block without its proof of work. -/
def PreparedBlockExPow.new (oxide : MoneroOxide) (block : Block) :
    Except BlockError PreparedBlockExPow := do
  let versionVote ← preparedVersionVote block
  match block.minerTransaction.txPrefix.inputs with
  | .gen height :: _ =>
    .ok
      { block := block
        blockBlob := oxide.serializeBlock block
        hfVote := versionVote.2
        hfVersion := versionVote.1
        blockHash := oxide.hashBlock block
        height := height
        minerTxWeight := oxide.txWeight block.minerTransaction }
  | _ => .error (.minerTxError .inputNotOfTypeGen)

/-- The height in a miner transaction whose only input is a miner input. -/
def genHeight (tx : Transaction) : Except BlockError Nat :=
  match tx.txPrefix.inputs with
  | [.gen height] => .ok height
  | _ => .error (.minerTxError .inputNotOfTypeGen)

/-- Prepares a block with its proof of work. -/
def PreparedBlock.new (env : BlockEnv) (block : Block) (randomxVm : Option (RandomXVm Hash)) :
    Except (Fault BlockError) PreparedBlock := do
  let versionVote ← (preparedVersionVote block).mapError .error
  let height ← (genHeight block.minerTransaction).mapError .error
  let powHash ← calculatePowHash env.pow randomxVm (env.oxide.serializePowHash block) height
    versionVote.1
  pure
    { block := block
      blockBlob := env.oxide.serializeBlock block
      hfVote := versionVote.2
      hfVersion := versionVote.1
      blockHash := env.oxide.hashBlock block
      powHash := powHash
      minerTxWeight := env.oxide.txWeight block.minerTransaction }

/-- Adds the proof of work hash to a prepared block. -/
def PreparedBlock.newPrepped (env : BlockEnv) (block : PreparedBlockExPow)
    (randomxVm : Option (RandomXVm Hash)) : Except (Fault BlockError) PreparedBlock := do
  let powHash ← calculatePowHash env.pow randomxVm (env.oxide.serializePowHash block.block)
    block.height block.hfVersion
  pure
    { block := block.block
      blockBlob := block.blockBlob
      hfVote := block.hfVote
      hfVersion := block.hfVersion
      blockHash := block.blockHash
      powHash := powHash
      minerTxWeight := env.oxide.txWeight block.block.minerTransaction }

/-- The verified transactions of a block, which must be the ones it names. -/
def verifyBlockTransactions (env : BlockEnv) (reader : ChainReader) (now : UInt64)
    (context : BlockchainContext)
    (block : Block) (txs : List TransactionVerificationData) :
    Except (Fault ExtendedConsensusError) (List TransactionVerificationData) :=
  if block.transactions.length ≠ txs.length then .error (.error .txsIncludedWithBlockIncorrect)
  else if block.transactions.isEmpty then .ok txs
  else if block.transactions ≠ txs.map (·.txHash) then .error (.error .txsIncludedWithBlockIncorrect)
  else do
    let time ← orPanic (context.currentAdjustedTimestampForTimeLock now)
    fullVerification env.checks reader txs context.contextToVerifyBlock.chainHeight
      context.contextToVerifyBlock.topHash time context.contextToVerifyBlock.currentHf

def verifiedTransaction (tx : TransactionVerificationData) : VerifiedTransactionInformation :=
  { txBlob := tx.txBlob, txWeight := tx.txWeight, fee := tx.fee, txHash := tx.txHash, tx := tx.tx }

/-- Fully verifies a prepared block. -/
def verifyPreppedMainChainBlock (env : BlockEnv) (reader : ChainReader) (now : UInt64)
    (context : BlockchainContext)
    (preppedBlock : PreparedBlock) (txs : List TransactionVerificationData) :
    Except (Fault ExtendedConsensusError) VerifiedBlockInformation := do
  (checkBlockPow preppedBlock.powHash context.contextToVerifyBlock.nextDifficulty).mapError blockFault
  let txs ← verifyBlockTransactions env reader now context preppedBlock.block txs
  let blockWeight := preppedBlock.minerTxWeight + (txs.map (·.txWeight)).sum
  let totalFees := (txs.map (·.fee)).foldl (· + ·) 0
  let checked ← (checkBlock preppedBlock.block totalFees blockWeight preppedBlock.blockBlob.length
    context.contextToVerifyBlock now).mapError (Fault.map fun e => .conErr (.block e))
  pure
    { block := preppedBlock.block
      blockBlob := preppedBlock.blockBlob
      txs := txs.map verifiedTransaction
      blockHash := preppedBlock.blockHash
      powHash := preppedBlock.powHash
      height := context.contextToVerifyBlock.chainHeight
      generatedCoins := checked.2
      weight := blockWeight
      longTermWeight := context.nextBlockLongTermWeight blockWeight
      cumulativeDifficulty :=
        (context.cumulativeDifficulty + context.contextToVerifyBlock.nextDifficulty) % 2 ^ 128 }

/-- What the context is told about a verified block
(`binaries/cuprated/src/blockchain/manager/handler.rs`). -/
def newBlockData (block : VerifiedBlockInformation) : NewBlockData where
  blockHash := block.blockHash
  height := block.height
  timestamp := block.block.header.timestamp
  weight := block.weight
  longTermWeight := block.longTermWeight
  generatedCoins := block.generatedCoins
  vote := fromVote block.block.header.hardforkSignal
  cumulativeDifficulty := block.cumulativeDifficulty

/-- A block and what it is verified with: the VM for its proof of work, its transactions, the time
and the chain. -/
structure IncomingBlock where
  block : Block
  randomxVm : Option (RandomXVm Hash)
  txs : List TransactionVerificationData
  now : UInt64
  reader : ChainReader

def verifyAndUpdate (env : BlockEnv) (s : ContextTask) (b : IncomingBlock) :
    Except (Fault ExtendedConsensusError) ContextTask := do
  let prepped ← (PreparedBlock.new env b.block b.randomxVm).mapError
    (Fault.map fun e => .conErr (.block e))
  let verified ← verifyPreppedMainChainBlock env b.reader b.now s.contextCache prepped b.txs
  orPanic (s.update (newBlockData verified))

/-- Verifies blocks one after another. Returns the states of the context task at which each of them
was verified. -/
def verifySequentially (env : BlockEnv) (s : ContextTask) :
    List IncomingBlock → Except (Fault ExtendedConsensusError) (List ContextTask)
  | [] => .ok []
  | b :: bs => do
    let s' ← verifyAndUpdate env s b
    let states ← verifySequentially env s' bs
    pure (s :: states)

/-! ## A batch of blocks -/

/-- The checks on two blocks that follow each other in a batch. -/
def checkFollows (topHfInBatch : HardFork) (blocks : PreparedBlockExPow × PreparedBlockExPow) :
    Except BlockError Unit :=
  if topHfInBatch < blocks.1.hfVersion then .error (.hardForkError .versionIncorrect)
  else if blocks.1.blockHash ≠ blocks.2.block.header.previous ∨
      blocks.1.height ≠ (blocks.2.height + 2 ^ 64 - 1) % 2 ^ 64 then .error .previousIDIncorrect
  else .ok ()

/-- What the difficulties of a batch are calculated from: the timestamps and hard forks of all
blocks but the last. -/
def timestampsHfs (blocks : List PreparedBlockExPow) : List (UInt64 × HardFork) :=
  blocks.dropLast.map fun b => (b.block.header.timestamp, b.hfVersion)

/-- The first half of `batch_prepare_main_chain_blocks`: prepares the blocks, checks that they
follow each other, and calculates their difficulties. -/
def batchDifficulties (env : BlockEnv) (s : ContextTask) (blocks : List Block) :
    Except (Fault ExtendedConsensusError) (List PreparedBlockExPow × List Nat) := do
  let blocks ← (blocks.mapM (PreparedBlockExPow.new env.oxide)).mapError blockFault
  match blocks.getLast? with
  | none => .error (.error .noBlocksToVerify)
  | some lastBlock => do
    ((blocks.zip blocks.tail).forM (checkFollows lastBlock.hfVersion)).mapError blockFault
    let difficulties ← orPanic (s.batchGetDifficulties (timestampsHfs blocks))
    pure (blocks, difficulties)

def addInputAmount (fee : UInt64) : Input → Except TransactionError UInt64
  | .toKey amount _ _ =>
    if 2 ^ 64 ≤ fee.toNat + (amount.getD 0).toNat then .error .inputsOverflow
    else .ok (fee + amount.getD 0)
  | .gen _ => .ok fee

def subOutputAmount (fee : UInt64) (out : Output) : Except TransactionError UInt64 :=
  if fee < out.amount.getD 0 then .error .outputsTooHigh else .ok (fee - out.amount.getD 0)

/-- The fee of a transaction. -/
def txFee : Transaction → Except TransactionError UInt64
  | .v1 txPrefix _ => do
    let fee ← txPrefix.inputs.foldlM addInputAmount 0
    txPrefix.outputs.foldlM subOutputAmount fee
  | .v2 _ (some proofs) => .ok proofs.base.fee
  | .v2 _ none => .error .transactionVersionInvalid

/-- A transaction that is to be verified. Its weight is that of `monero-oxide`. -/
def newTxVerificationData (oxide : MoneroOxide) (tx : Transaction) :
    Except TransactionError TransactionVerificationData := do
  let fee ← txFee tx
  let version ← txVersionOf tx
  pure
    { tx := tx
      version := version
      txBlob := oxide.serializeTx tx
      txWeight := oxide.txWeight tx
      fee := fee
      txHash := oxide.hashTx tx
      cachedVerificationState := .notVerified }

def swapFirst {α : Type} (l : List α) (i : Nat) : List α :=
  match l, l[i]? with
  | first :: _, some other => other :: (l.set i first).tail
  | _, _ => l

/-- The loop of `order_transactions`, over the part of the list that is not yet in order. -/
def orderTransactionsLoop :
    List Hash → List TransactionVerificationData → Option (List TransactionVerificationData)
  | [], txs => some txs
  | txHash :: txHashes, txs => do
    let atIndex ← txs.findIdx? (·.txHash == txHash)
    match swapFirst txs atIndex with
    | tx :: rest => (orderTransactionsLoop txHashes rest).map (tx :: ·)
    | [] => none

/-- Orders the transactions the same as they appear in the block. -/
def orderTransactions (block : Block) (txs : List TransactionVerificationData) :
    Option (List TransactionVerificationData) :=
  if block.transactions.length ≠ txs.length then none else orderTransactionsLoop block.transactions txs

end Cuprate.Consensus
