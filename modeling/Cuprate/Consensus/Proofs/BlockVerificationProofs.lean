import Cuprate.Consensus.BlockVerification

/-!
# What an accepted block says

A block that is verified on top of the context has the version of the current hard fork, names the
top block as its parent and carries the chain height. `Accepted` collects this for runs of blocks.
-/

namespace Cuprate.Consensus

open Collections HardFork Option List Except

variable {chainHeight blockWeight : Nat} {txs : List TransactionVerificationData} {totalFees now : UInt64}
  {reader : ChainReader} {block : Block} {env : BlockEnv} {hf : HardFork} {s s' : ContextTask}

namespace HardForkState

theorem lt_of_nextFork {hf' : HardFork} (h : hf.nextFork = some hf') : hf < hf' := by
  cases hf <;> first | (cases h; decide) | cases h

theorem le_currentForkLoop (v : HFVotes) (height window : Nat) (info : HFsInfo) (fuel : Nat)
    (hf : HardFork) : hf ≤ v.currentForkLoop height window info fuel hf := by
  induction fuel generalizing hf with
  | zero => exact Nat.le_refl _
  | succ fuel ih =>
    unfold HFVotes.currentForkLoop
    split
    · exact Nat.le_refl _
    · next nextHf hnext =>
      split
      · have hlt : hf.asU8 < nextHf.asU8 := lt_of_nextFork hnext
        exact Nat.le_trans (Nat.le_of_lt hlt) (ih nextHf)
      · exact Nat.le_refl _

theorem le_newBlock {s s' : HardForkState} {vote : HardFork} {height : Nat}
    (h : s.newBlock vote height = some s') : s.currentHardfork ≤ s'.currentHardfork := by
  unfold newBlock at h
  split at h
  · cases h
    exact le_currentForkLoop ..
  · cases h

end HardForkState

theorem checkInputs_eq_ok {inputs : List Input} (h : checkInputs inputs chainHeight = .ok ()) :
    inputs = [.gen chainHeight] := by
  unfold checkInputs at h
  split at h
  · split at h
    · next heq => rw [heq]
    · cases h
  · cases h
  · cases h

theorem checkTimeLock_eq_ok {timeLock : Timelock} (h : checkTimeLock timeLock chainHeight = .ok ()) :
    chainHeight < MAX_BLOCK_HEIGHT := by
  unfold checkTimeLock at h
  split at h
  · split at h
    · cases h
    · split at h
      · next heq =>
        unfold MINER_TX_TIME_LOCKED_BLOCKS at heq
        omega
      · cases h
  · cases h
  · cases h

theorem checkMinerTx_eq_ok {tx : Transaction} {coins : UInt64} {medianBw : Nat} {generated : UInt64}
    (h : checkMinerTx tx totalFees chainHeight blockWeight medianBw coins hf = .ok generated) :
    tx.txPrefix.inputs = [.gen chainHeight] ∧ chainHeight < MAX_BLOCK_HEIGHT := by
  obtain ⟨version, hshape, -⟩ := bind_eq_ok.mp h
  obtain ⟨version', -, hshape⟩ := bind_eq_ok.mp (mapError_eq_ok.mp hshape)
  obtain ⟨-, -, hshape⟩ := bind_eq_ok.mp hshape
  obtain ⟨-, -, hshape⟩ := bind_eq_ok.mp hshape
  obtain ⟨_, hlock, hshape⟩ := bind_eq_ok.mp hshape
  obtain ⟨_, hinputs, -⟩ := bind_eq_ok.mp hshape
  exact ⟨checkInputs_eq_ok hinputs, checkTimeLock_eq_ok hlock⟩

theorem checkBlockVersionVote_eq_ok {version vote : HardFork}
    (h : checkBlockVersionVote hf version vote = .ok ()) : hf = version := by
  unfold checkBlockVersionVote at h
  split at h
  · cases h
  · next heq => exact not_not.mp heq

theorem fromBlockHeader_eq_ok {header : BlockHeader} {versionVote : HardFork × HardFork}
    (h : fromBlockHeader header = .ok versionVote) :
    fromVersion header.hardforkVersion = .ok versionVote.1 := by
  unfold fromBlockHeader at h
  cases hv : fromVersion header.hardforkVersion with
  | error e =>
    rw [hv] at h
    cases h
  | ok version =>
    rw [hv] at h
    cases h
    rfl

theorem checkBlock_eq_ok {blobLen : Nat} {ctx : ContextToVerifyBlock} {checked : HardFork × UInt64}
    (h : checkBlock block totalFees blockWeight blobLen ctx now = .ok checked) :
    fromVersion block.header.hardforkVersion = .ok ctx.currentHf ∧ block.header.previous = ctx.topHash ∧
      block.minerTransaction.txPrefix.inputs = [.gen ctx.chainHeight] ∧
      ctx.chainHeight < MAX_BLOCK_HEIGHT := by
  obtain ⟨vote, hheader, h⟩ := bind_eq_ok.mp h
  obtain ⟨generated, hminer, -⟩ := bind_eq_ok.mp h
  obtain ⟨versionVote, hversion, hheader⟩ := bind_eq_ok.mp (mapError_eq_ok.mp hheader)
  obtain ⟨-, -, hheader⟩ := bind_eq_ok.mp hheader
  obtain ⟨_, hprev, -⟩ := bind_eq_ok.mp hheader
  obtain ⟨versionVote', hfrom, hversion⟩ := bind_eq_ok.mp hversion
  obtain ⟨_, hvote, -⟩ := bind_eq_ok.mp hversion
  have hcurrent := checkBlockVersionVote_eq_ok (mapError_eq_ok.mp hvote)
  refine ⟨?_, ?_, checkMinerTx_eq_ok (mapError_eq_ok.mp hminer)⟩
  · rw [hcurrent]
    exact fromBlockHeader_eq_ok (mapError_eq_ok.mp hfrom)
  · unfold checkPrevId at hprev
    split at hprev
    · assumption
    · cases hprev

/-! ## The context -/

theorem blockchainContext_eq_some {weights : BlockWeightsCache} {difficulties : DifficultyCache}
    {topHash : Hash}
    {coins : UInt64} {ctx : BlockchainContext}
    (h : blockchainContext weights difficulties hf topHash chainHeight coins = some ctx) :
    difficulties.nextDifficulty hf = some ctx.contextToVerifyBlock.nextDifficulty ∧
      ctx.cumulativeDifficulty = difficulties.cumulativeDifficulty ∧
      ctx.contextToVerifyBlock.currentHf = hf ∧ ctx.contextToVerifyBlock.topHash = topHash ∧
      ctx.contextToVerifyBlock.chainHeight = chainHeight := by
  obtain ⟨medianForBlockReward, -, h⟩ := bind_eq_some_iff.mp h
  obtain ⟨effectiveMedianWeight, -, h⟩ := bind_eq_some_iff.mp h
  obtain ⟨next, hnext, h⟩ := bind_eq_some_iff.mp h
  obtain ⟨medianLongTermWeight, -, h⟩ := bind_eq_some_iff.mp h
  cases h
  exact ⟨hnext, rfl, rfl, rfl, rfl⟩

namespace ContextTask

def difficulty (s : ContextTask) : Nat := s.contextCache.contextToVerifyBlock.nextDifficulty

def hardfork (s : ContextTask) : HardFork := s.hardforkState.currentHardfork

theorem Synced.nextDifficulty (hs : s.Synced) :
    s.difficultyCache.nextDifficulty s.hardfork = some s.difficulty :=
  (blockchainContext_eq_some hs).1

theorem synced_updateBlockchainContext (h : s.updateBlockchainContext = some s') : s'.Synced := by
  obtain ⟨context, hcontext, rfl⟩ := map_eq_some_iff.mp h
  exact hcontext

theorem synced_initContext {cfg : ContextConfig} {db : List ChainRecord}
    (h : initContext cfg db = some s) : s.Synced := by
  obtain ⟨top, -, h⟩ := bind_eq_some_iff.mp h
  obtain ⟨hardforkState, -, h⟩ := bind_eq_some_iff.mp h
  obtain ⟨difficultyCache, -, h⟩ := bind_eq_some_iff.mp h
  obtain ⟨weightCache, -, h⟩ := bind_eq_some_iff.mp h
  obtain ⟨rxVmCache, -, h⟩ := bind_eq_some_iff.mp h
  obtain ⟨context, hcontext, h⟩ := bind_eq_some_iff.mp h
  cases h
  exact hcontext

theorem update_eq_some {new : NewBlockData} (h : s.update new = some s') : s'.Synced ∧
      s.difficultyCache.newBlock new.height new.timestamp new.cumulativeDifficulty =
        some s'.difficultyCache ∧ s.hardfork ≤ s'.hardfork ∧ s'.chainHeight = new.height + 1 ∧
      s'.topBlockHash = new.blockHash := by
  obtain ⟨difficultyCache, hdifficulty, h⟩ := bind_eq_some_iff.mp h
  obtain ⟨weightCache, -, h⟩ := bind_eq_some_iff.mp h
  obtain ⟨hardforkState, hhardfork, h⟩ := bind_eq_some_iff.mp h
  have hsynced := synced_updateBlockchainContext h
  obtain ⟨context, -, rfl⟩ := map_eq_some_iff.mp h
  exact ⟨hsynced, hdifficulty, HardForkState.le_newBlock hhardfork, rfl, rfl⟩

end ContextTask

/-- What holds when block `b` was verified in state `s` of the context task, and `s'` is the state
after the update with it. -/
structure Accepted (env : BlockEnv) (s : ContextTask) (b : IncomingBlock) (s' : ContextTask) : Prop where
  synced : s'.Synced
  version : fromVersion b.block.header.hardforkVersion = .ok s.hardfork
  previous : b.block.header.previous = s.topBlockHash
  inputs : b.block.minerTransaction.txPrefix.inputs = [.gen s.chainHeight]
  height_lt : s.chainHeight < MAX_BLOCK_HEIGHT
  difficultyCache : s.difficultyCache.newBlock s.chainHeight b.block.header.timestamp
    ((s.difficultyCache.cumulativeDifficulty + s.difficulty) % 2 ^ 128) = some s'.difficultyCache
  hardfork_le : s.hardfork ≤ s'.hardfork
  chainHeight : s'.chainHeight = s.chainHeight + 1
  topBlockHash : s'.topBlockHash = env.oxide.hashBlock b.block

theorem preparedBlock_new_eq_ok {randomxVm : Option (RandomXVm Hash)} {prepped : PreparedBlock}
    (h : PreparedBlock.new env block randomxVm = .ok prepped) :
    prepped.block = block ∧ prepped.blockHash = env.oxide.hashBlock block := by
  obtain ⟨versionVote, -, h⟩ := bind_eq_ok.mp h
  obtain ⟨height, -, h⟩ := bind_eq_ok.mp h
  obtain ⟨powHash, -, h⟩ := bind_eq_ok.mp h
  cases h
  exact ⟨rfl, rfl⟩

theorem accepted_of_verifyAndUpdate {b : IncomingBlock} (hs : s.Synced)
    (h : verifyAndUpdate env s b = .ok s') : Accepted env s b s' := by
  obtain ⟨-, hcum, hhf, htop, hheight⟩ := blockchainContext_eq_some hs
  obtain ⟨prepped, hprepped, h⟩ := bind_eq_ok.mp h
  obtain ⟨hblock, hhash⟩ := preparedBlock_new_eq_ok (mapError_eq_ok.mp hprepped)
  obtain ⟨verified, hverified, h⟩ := bind_eq_ok.mp h
  have hupdate := orPanic_eq_ok.mp h
  obtain ⟨_, -, hverified⟩ := bind_eq_ok.mp hverified
  obtain ⟨txs, -, hverified⟩ := bind_eq_ok.mp hverified
  obtain ⟨checked, hchecked, hverified⟩ := bind_eq_ok.mp hverified
  cases hverified
  obtain ⟨hversion, hprevious, hinputs, hlt⟩ := checkBlock_eq_ok (mapError_eq_ok.mp hchecked)
  obtain ⟨hsynced, hdifficulty, hle, hchain, htop'⟩ := ContextTask.update_eq_some hupdate
  rw [hblock] at hversion hprevious hinputs
  rw [hheight] at hinputs hlt
  simp only [newBlockData, hheight, hcum, hblock] at hdifficulty hchain
  exact
    { synced := hsynced
      version := hversion.trans (congrArg Except.ok hhf)
      previous := hprevious.trans htop
      inputs := hinputs
      height_lt := hlt
      difficultyCache := hdifficulty
      hardfork_le := hle
      chainHeight := hchain
      topBlockHash := htop'.trans hhash }

theorem map_verifiedTransaction_markVerified (topHash : Hash) (hf : HardFork)
    (txs : List TransactionVerificationData)
    (neededs : List VerificationNeeded) (rings : List TxRingMembersInfo) :
    (markVerified topHash hf txs neededs rings).map verifiedTransaction = txs.map verifiedTransaction := by
  induction txs generalizing neededs rings with
  | nil => rfl
  | cons tx txs ih =>
    cases neededs with
    | nil => rfl
    | cons needed neededs =>
      unfold markVerified
      split
      · cases rings with
        | nil => rfl
        | cons ring rings => exact congrArg (verifiedTransaction tx :: ·) (ih neededs rings)
      · exact congrArg (verifiedTransaction tx :: ·) (ih neededs rings)

theorem fullVerification_eq_ok {checks : TxChecks} {txs' : List TransactionVerificationData} {height : Nat}
    {topHash : Hash} {time : UInt64}
      (h : fullVerification checks reader txs height topHash time hf = .ok txs') :
    txs'.map verifiedTransaction = txs.map verifiedTransaction := by
  obtain ⟨needed, -, h⟩ := bind_eq_ok.mp h
  obtain ⟨rings, -, h⟩ := bind_eq_ok.mp h
  obtain ⟨_, -, h⟩ := bind_eq_ok.mp h
  split at h
  · cases h
    exact map_verifiedTransaction_markVerified topHash hf txs needed rings
  · cases h

theorem verifyBlockTransactions_eq_ok {context : BlockchainContext}
    {txs' : List TransactionVerificationData}
    (h : verifyBlockTransactions env reader now context block txs = .ok txs') :
    block.transactions = txs.map (·.txHash) ∧
      txs'.map verifiedTransaction = txs.map verifiedTransaction := by
  unfold verifyBlockTransactions at h
  split at h
  · cases h
  · next hlength =>
    rw [not_not] at hlength
    split at h
    · next hempty =>
      cases h
      rw [List.isEmpty_iff] at hempty
      rw [hempty, length_nil, eq_comm, length_eq_zero_iff] at hlength
      rw [hempty, hlength]
      exact ⟨rfl, rfl⟩
    · split at h
      · cases h
      · next hhashes =>
        obtain ⟨time, -, h⟩ := bind_eq_ok.mp h
        exact ⟨not_not.mp hhashes, fullVerification_eq_ok h⟩

theorem checkTxsUnique_eq_ok {txs : List Hash} (h : checkTxsUnique txs = .ok ()) : txs.Nodup := by
  unfold checkTxsUnique at h
  split at h
  · next hlength =>
    rw [← (dedup_sublist txs).eq_of_length hlength]
    exact nodup_dedup txs
  · cases h

theorem checkBlock_eq_ok_coins {blobLen : Nat} {ctx : ContextToVerifyBlock} {checked : HardFork × UInt64}
    (h : checkBlock block totalFees blockWeight blobLen ctx now = .ok checked) :
    block.transactions.Nodup ∧ checkMinerTx block.minerTransaction totalFees ctx.chainHeight blockWeight
      ctx.medianWeightForBlockReward ctx.alreadyGeneratedCoins ctx.currentHf = .ok checked.2 := by
  obtain ⟨vote, hheader, h⟩ := bind_eq_ok.mp h
  obtain ⟨generated, hminer, h⟩ := bind_eq_ok.mp h
  cases h
  obtain ⟨_, -, hheader⟩ := bind_eq_ok.mp (mapError_eq_ok.mp hheader)
  obtain ⟨_, -, hheader⟩ := bind_eq_ok.mp hheader
  obtain ⟨_, -, hheader⟩ := bind_eq_ok.mp hheader
  obtain ⟨_, -, hheader⟩ := bind_eq_ok.mp hheader
  obtain ⟨_, -, hheader⟩ := bind_eq_ok.mp hheader
  obtain ⟨_, -, hheader⟩ := bind_eq_ok.mp hheader
  obtain ⟨_, hunique, -⟩ := bind_eq_ok.mp hheader
  exact ⟨checkTxsUnique_eq_ok hunique, mapError_eq_ok.mp hminer⟩

theorem map_fee_verifiedTransaction (txs : List TransactionVerificationData) :
    (txs.map verifiedTransaction).map (·.fee) = txs.map (·.fee) :=
  map_map

theorem map_txWeight_verifiedTransaction (txs : List TransactionVerificationData) :
    (txs.map verifiedTransaction).map (·.txWeight) = txs.map (·.txWeight) :=
  map_map

/-- The information on a block, from its transactions as they were given and the coins that it
generates. -/
def acceptedInformation (context : BlockchainContext) (prepped : PreparedBlock)
    (txs : List TransactionVerificationData) (coins : UInt64) : VerifiedBlockInformation :=
  let weight := prepped.minerTxWeight + (txs.map (·.txWeight)).sum
  { block := prepped.block
    blockBlob := prepped.blockBlob
    txs := txs.map verifiedTransaction
    blockHash := prepped.blockHash
    powHash := prepped.powHash
    height := context.contextToVerifyBlock.chainHeight
    generatedCoins := coins
    weight := weight
    longTermWeight := context.nextBlockLongTermWeight weight
    cumulativeDifficulty :=
      (context.cumulativeDifficulty + context.contextToVerifyBlock.nextDifficulty) % 2 ^ 128 }

theorem verifyPreppedMainChainBlock_eq_ok {context : BlockchainContext} {prepped : PreparedBlock}
    {verified : VerifiedBlockInformation}
    (h : verifyPreppedMainChainBlock env reader now context prepped txs = .ok verified) :
    prepped.block.transactions = txs.map (·.txHash) ∧ prepped.block.transactions.Nodup ∧
      verified = acceptedInformation context prepped txs verified.generatedCoins ∧
      checkMinerTx prepped.block.minerTransaction ((txs.map (·.fee)).foldl (· + ·) 0)
        context.contextToVerifyBlock.chainHeight verified.weight
        context.contextToVerifyBlock.medianWeightForBlockReward
        context.contextToVerifyBlock.alreadyGeneratedCoins context.contextToVerifyBlock.currentHf =
          .ok verified.generatedCoins := by
  obtain ⟨_, -, h⟩ := bind_eq_ok.mp h
  obtain ⟨txs', htxs, h⟩ := bind_eq_ok.mp h
  obtain ⟨checked, hchecked, h⟩ := bind_eq_ok.mp h
  cases h
  obtain ⟨hhashes, hsame⟩ := verifyBlockTransactions_eq_ok htxs
  obtain ⟨hnodup, hminer⟩ := checkBlock_eq_ok_coins (mapError_eq_ok.mp hchecked)
  have hfees : txs'.map (·.fee) = txs.map (·.fee) := by
    rw [← map_fee_verifiedTransaction, hsame, map_fee_verifiedTransaction]
  have hweights : txs'.map (·.txWeight) = txs.map (·.txWeight) := by
    rw [← map_txWeight_verifiedTransaction, hsame, map_txWeight_verifiedTransaction]
  refine ⟨hhashes, hnodup, ?_, ?_⟩
  · rw [acceptedInformation, hweights, hsame]
  · rw [← hfees]
    exact hminer

end Cuprate.Consensus
