import Cuprate.Consensus.Proofs.BlockVerificationProofs
import Cuprate.FastSync.VerifiedBlock
import Cuprate.Storage.Ops

/-!
# Fast sync and full verification agree

For a block that full verification accepts, fast sync calculates the same information, in whatever
order its transactions come. Only the proof of work hash, which it does not calculate, differs.
-/

namespace Cuprate.FastSync

open Collections Consensus List

variable {block : Block} {hf : HardFork}

theorem addOutput_eq_ok {version : TxVersion} {sum sum' : UInt64} {out : Output}
    (h : addOutput hf version sum out = .ok sum') :
    sum' = sum + out.amount.getD 0 ∧ sum'.toNat = sum.toNat + (out.amount.getD 0).toNat := by
  unfold addOutput at h
  dsimp only at h
  split at h
  · cases h
  · split at h
    · cases h
    · split at h
      · cases h
      · next hlt =>
        cases h
        refine ⟨rfl, ?_⟩
        rw [UInt64.toNat_add, Nat.mod_eq_of_lt (not_le.mp hlt)]

theorem foldlM_addOutput_eq_ok {version : TxVersion} {outputs : List Output} {sum total : UInt64}
    (h : outputs.foldlM (addOutput hf version) sum = .ok total) :
    total = (outputs.map (·.amount.getD 0)).foldl (· + ·) sum ∧
      total.toNat = sum.toNat + (outputs.map fun out => (out.amount.getD 0).toNat).sum := by
  induction outputs generalizing sum with
  | nil =>
    cases h
    exact ⟨rfl, rfl⟩
  | cons out outputs ih =>
    obtain ⟨sum', hout, h⟩ := bind_eq_ok.mp h
    obtain ⟨rfl, hnat⟩ := addOutput_eq_ok hout
    obtain ⟨htotal, htotalNat⟩ := ih h
    refine ⟨htotal, ?_⟩
    rw [htotalNat, hnat, map_cons, sum_cons, add_assoc]

theorem checkTotalOutputAmt_eq_ok {total reward fees coins : UInt64}
    (hlt : reward.toNat + fees.toNat < 2 ^ 64)
    (h : checkTotalOutputAmt total reward fees hf = .ok coins) :
    coins = total - fees ∧ coins.toNat + fees.toNat = total.toNat := by
  have hsum : (reward + fees).toNat = reward.toNat + fees.toNat :=
      by rw [UInt64.toNat_add, Nat.mod_eq_of_lt hlt]
  unfold checkTotalOutputAmt at h
  split at h
  · split at h
    · cases h
    · next htotal =>
      cases h
      rw [not_not] at htotal
      subst htotal
      refine ⟨?_, hsum.symm⟩
      rw [UInt64.add_sub_cancel]
  · split at h
    · cases h
    · next hle =>
      cases h
      refine ⟨rfl, ?_⟩
      have hreward : (total - fees).toNat ≤ reward.toNat := UInt64.not_lt.mp fun hlt => hle (.inl hlt)
      have htotal := total.toNat_lt
      -- if the fees were more than the outputs, the difference would wrap around to more than the reward
      rw [UInt64.toNat_sub] at hreward ⊢
      omega

theorem checkMinerTx_coins {tx : Transaction} {fees generated coins : UInt64}
    {height weight medianBw : Nat}
    (h : checkMinerTx tx fees height weight medianBw generated hf = .ok coins) :
    ∃ reward, calculateBlockReward weight medianBw generated hf = some reward ∧
      (reward.toNat + fees.toNat < 2 ^ 64 →
        coins = (tx.txPrefix.outputs.map (·.amount.getD 0)).foldl (· + ·) 0 - fees ∧
          coins.toNat + fees.toNat = (tx.txPrefix.outputs.map fun out =>
            (out.amount.getD 0).toNat).sum) := by
  obtain ⟨version, -, h⟩ := bind_eq_ok.mp h
  obtain ⟨reward, hreward, h⟩ := bind_eq_ok.mp h
  obtain ⟨total, htotal, h⟩ := bind_eq_ok.mp h
  obtain ⟨rfl, hnat⟩ := foldlM_addOutput_eq_ok (mapError_eq_ok.mp htotal)
  refine ⟨reward, orPanic_eq_ok.mp hreward, fun hlt => ?_⟩
  obtain ⟨hcoins, hsum⟩ := checkTotalOutputAmt_eq_ok hlt (mapError_eq_ok.mp h)
  refine ⟨hcoins, ?_⟩
  rw [hsum, hnat]
  exact zero_add _

/-- The data of a transaction that has not been verified. -/
def unverified (data : TransactionVerificationData) : TransactionVerificationData :=
  { data with cachedVerificationState := .notVerified }

/-- The data is the one that is calculated for its transaction, verified or not. -/
def IsDataOf (oxide : MoneroOxide) (data : TransactionVerificationData) : Prop :=
  newTxVerificationData oxide data.tx = .ok (unverified data)

section
variable {datas : List TransactionVerificationData} {oxide : MoneroOxide}
    (hdata : ∀ data ∈ datas, IsDataOf oxide data)
include hdata

section
variable {txs : List Transaction} (hperm : txs.Perm (datas.map (·.tx)))
include hperm

theorem mapM_newTxVerificationData :
    ∃ datas' : List TransactionVerificationData,
      txs.mapM (newTxVerificationData oxide) = .ok datas' ∧ datas'.Perm (datas.map unverified) := by
  refine mapM_eq_ok_of_perm hperm (mapM_eq_ok.mpr ?_)
  rw [forall₂_map_left_iff, forall₂_map_right_iff, forall₂_same]
  exact hdata

theorem verifiedTxs_of_perm
    (hhashes : block.transactions = datas.map (·.txHash)) (hnodup : block.transactions.Nodup) :
    verifiedTxs oxide block txs = some (datas.map verifiedTransaction) := by
  obtain ⟨datas', hmapM, hperm'⟩ := mapM_newTxVerificationData hdata hperm
  have hkeys : ((datas'.map fun data => (data.txHash, data)).map Prod.fst).Perm block.transactions := by
    rw [map_map, hhashes]
    exact (hperm'.map _).trans (List.Perm.of_eq map_map)
  have htake : (Finmap.fromList (datas'.map fun data => (data.txHash, data))).takeAll block.transactions =
      some (datas.map unverified) := by
    refine Finmap.takeAll_eq_some hnodup ?_
    rw [hhashes, forall₂_map_left_iff, forall₂_map_right_iff, forall₂_same]
    intro data hmem
    refine Finmap.lookup_fromList_of_mem (hkeys.nodup_iff.mpr hnodup)
      (mem_map.mpr ⟨unverified data, ?_, rfl⟩)
    exact hperm'.mem_iff.mpr (mem_map_of_mem hmem)
  rw [verifiedTxs, hmapM]
  show (Finmap.takeAll _ _).bind _ = _
  rw [htake, Option.bind_some, map_map]
  rfl

end

end

/-- The fields of a prepared block are those of its block. -/
structure WellPrepared (oxide : MoneroOxide) (prepped : PreparedBlock) : Prop where
  blockBlob : prepped.blockBlob = oxide.serializeBlock prepped.block
  blockHash : prepped.blockHash = oxide.hashBlock prepped.block
  minerTxWeight : prepped.minerTxWeight = oxide.txWeight prepped.block.minerTransaction

theorem wellPrepared_new {env : BlockEnv} {randomxVm : Option (RandomXVm Hash)} {prepped : PreparedBlock}
    (h : PreparedBlock.new env block randomxVm = .ok prepped) : WellPrepared env.oxide prepped := by
  obtain ⟨versionVote, -, h⟩ := bind_eq_ok.mp h
  obtain ⟨height, -, h⟩ := bind_eq_ok.mp h
  obtain ⟨powHash, -, h⟩ := bind_eq_ok.mp h
  cases h
  exact ⟨rfl, rfl, rfl⟩

theorem wellPrepared_newPrepped {env : BlockEnv} {exPow : PreparedBlockExPow}
    {randomxVm : Option (RandomXVm Hash)}
    {prepped : PreparedBlock} (hexPow : PreparedBlockExPow.new env.oxide block = .ok exPow)
    (h : PreparedBlock.newPrepped env exPow randomxVm = .ok prepped) : WellPrepared env.oxide prepped := by
  obtain ⟨versionVote, -, hexPow⟩ := bind_eq_ok.mp hexPow
  obtain ⟨powHash, -, h⟩ := bind_eq_ok.mp h
  cases h
  split at hexPow
  · cases hexPow
    exact ⟨rfl, rfl, rfl⟩
  · cases hexPow

theorem toNat_foldl_add {l : List UInt64} {a : UInt64} (h : a.toNat + (l.map (·.toNat)).sum < 2 ^ 64) :
    (l.foldl (· + ·) a).toNat = a.toNat + (l.map (·.toNat)).sum := by
  induction l generalizing a with
  | nil => rfl
  | cons b l ih =>
    rw [map_cons, sum_cons, ← add_assoc] at h ⊢
    have hadd : (a + b).toNat = a.toNat + b.toNat := by
      rw [UInt64.toNat_add, Nat.mod_eq_of_lt (lt_of_le_of_lt (Nat.le_add_right _ _) h)]
    rw [← hadd] at h ⊢
    exact ih h

/-- Fast sync gives the information of full verification, apart from the proof of work hash, and
with it the same context and tables. Its coins are those of the outputs without the fees. -/
theorem same_information_of_verified {env : BlockEnv} {reader : ChainReader} {now : UInt64}
    {context : BlockchainContext} {prepped : PreparedBlock} {datas : List TransactionVerificationData}
    {txs : List Transaction} {verified : VerifiedBlockInformation}
      (hprepped : WellPrepared env.oxide prepped)
    (hdata : ∀ data ∈ datas, IsDataOf env.oxide data) (hperm : txs.Perm (datas.map (·.tx)))
    (hlt : ∀ reward, calculateBlockReward verified.weight
      context.contextToVerifyBlock.medianWeightForBlockReward
      context.contextToVerifyBlock.alreadyGeneratedCoins context.contextToVerifyBlock.currentHf =
        some reward → reward.toNat + (datas.map (·.fee.toNat)).sum < 2 ^ 64)
    (hverified : verifyPreppedMainChainBlock env reader now context prepped datas = .ok verified) :
    ∃ info, blockToVerifiedBlockInformation env.oxide prepped.block txs context = some info ∧
      info = { verified with powHash := NO_POW_HASH } ∧ newBlockData info = newBlockData verified ∧
      (∀ storage tables, Storage.addBlock storage info tables = Storage.addBlock storage verified tables) ∧
      info.generatedCoins.toNat + (info.txs.map (·.fee.toNat)).sum =
        (info.block.minerTransaction.txPrefix.outputs.map fun out => (out.amount.getD 0).toNat).sum := by
  obtain ⟨hhashes, hnodup, hinfo, hminer⟩ := verifyPreppedMainChainBlock_eq_ok hverified
  have htxs := verifiedTxs_of_perm hdata hperm hhashes hnodup
  have hheight : firstGenHeight prepped.block.minerTransaction =
      some context.contextToVerifyBlock.chainHeight := by
    rw [firstGenHeight, (checkMinerTx_eq_ok hminer).1]
  obtain ⟨reward, hreward, hcoins⟩ := checkMinerTx_coins hminer
  have hsum := hlt reward hreward
  have hfees : UInt64.toNat ((datas.map (·.fee)).foldl (· + ·) 0) = (datas.map (·.fee.toNat)).sum := by
    have hlt : (0 : UInt64).toNat + ((datas.map (·.fee)).map (·.toNat)).sum < 2 ^ 64 := by
      rw [map_map, UInt64.toNat_zero, zero_add]
      exact lt_of_le_of_lt (Nat.le_add_left _ _) hsum
    rw [toNat_foldl_add hlt, map_map, UInt64.toNat_zero, zero_add]
    rfl
  rw [hfees] at hcoins
  obtain ⟨hcoins, houtputs⟩ := hcoins hsum
  have hsame : verifiedBlockInformation env.oxide prepped.block (datas.map verifiedTransaction)
      context.contextToVerifyBlock.chainHeight context = { verified with powHash := NO_POW_HASH } := by
    rw [hinfo, hcoins, acceptedInformation, verifiedBlockInformation, map_fee_verifiedTransaction,
      map_txWeight_verifiedTransaction, hprepped.blockBlob, hprepped.blockHash, hprepped.minerTxWeight]
  refine ⟨_, ?_, hsame, ?_, fun storage tables => ?_, ?_⟩
  · rw [blockToVerifiedBlockInformation, hheight, Option.bind_eq_bind, Option.bind_some, if_pos rfl, htxs]
    rfl
  · rw [hsame]
    rfl
  · rw [hsame]
    rfl
  · have hgenerated := congrArg VerifiedBlockInformation.generatedCoins hsame
    show UInt64.toNat _ + ((datas.map verifiedTransaction).map fun tx => tx.fee.toNat).sum = _
    rw [hgenerated, map_map]
    exact houtputs

/-! ## A block with a transaction -/

def spentOutput : OutputOnChain where
  height := 1
  timeLock := .none
  key := 3
  commitment := 0

/-- All checks that are not modelled pass, and each output exists. -/
def lenientEnv : BlockEnv where
  oxide :=
    { serializeBlock := fun _ => []
      hashBlock := fun _ => 9
      serializePowHash := fun _ => []
      serializeTx := fun _ => []
      hashTx := fun tx => BitVec.ofNat 256 tx.txPrefix.inputs.length
      txWeight := fun _ => 100 }
  pow :=
    { cryptonightHashV0 := fun _ => 0
      cryptonightHashV1 := fun _ => some 0
      cryptonightHashV2 := fun _ => 0
      cryptonightHashR := fun _ _ => 0
      randomX := fun _ _ => some 0 }
  checks :=
    { checkTransactionSemantic := fun tx _ => .ok tx.fee
      isTorsionFree := fun _ => true
      checkInputSignatures := fun _ _ => .ok ()
      batchVerify := fun _ => true }

def lenientReader : ChainReader where
  keyImagesSpentChecked := false
  keyImageSpent := fun _ => false
  knownHashes := fun _ => []
  outputs := { getOutput := fun _ _ => some spentOutput, numberOutsWithAmount := fun _ => 0 }

def fifthContext : BlockchainContext where
  cumulativeDifficulty := 10
  contextToVerifyBlock :=
    { medianWeightForBlockReward := 20000
      effectiveMedianWeight := 20000
      topHash := 4
      medianBlockTimestamp := none
      chainHeight := 5
      currentHf := .V1
      nextDifficulty := 2
      alreadyGeneratedCoins := 0 }
  medianLongTermWeight := 20000
  topBlockTimestamp := none

def payingTx : Transaction :=
  .v1
    { additionalTimelock := .none
      inputs := [.toKey (some 10) [0] 7]
      outputs := [{ amount := some 8, key := 1, viewTag := none }]
      extra := [] } []

def payingData : TransactionVerificationData where
  tx := payingTx
  version := .ringSignatures
  txBlob := []
  txWeight := 100
  fee := 2
  txHash := 1
  cachedVerificationState := .notVerified

/-- A block with the transaction, whose miner takes the reward and the fee. -/
def payingBlock : Block where
  header := { hardforkVersion := 1, hardforkSignal := 1, timestamp := 0, previous := 4, nonce := 0 }
  minerTransaction :=
    .v1
      { additionalTimelock := .block 65
        inputs := [.gen 5]
        outputs := [{ amount := some 17592186044417, key := 2, viewTag := none }]
        extra := [] } []
  transactions := [1]

def payingPrepped : PreparedBlock where
  block := payingBlock
  blockBlob := []
  hfVote := .V1
  hfVersion := .V1
  blockHash := 9
  powHash := 0
  minerTxWeight := 100

def payingInformation : VerifiedBlockInformation :=
  acceptedInformation fifthContext payingPrepped [payingData] 17592186044415

theorem verify_payingPrepped :
    verifyPreppedMainChainBlock lenientEnv lenientReader 0 fifthContext payingPrepped [payingData] =
      .ok payingInformation := by
  decide +kernel

/-- The block is accepted, and fast sync gives the same information. -/
theorem same_information_of_verified_payingBlock :
    ∃ info, blockToVerifiedBlockInformation lenientEnv.oxide payingBlock [payingTx] fifthContext =
      some info ∧ info = { payingInformation with powHash := NO_POW_HASH } := by
  have hdata : ∀ data ∈ [payingData], IsDataOf lenientEnv.oxide data := forall_mem_singleton.mpr rfl
  obtain ⟨info, hinfo, hsame, -⟩ :=
    same_information_of_verified ⟨rfl, rfl, rfl⟩ hdata (List.Perm.refl [payingTx])
    (fun reward hreward => by cases hreward; decide) verify_payingPrepped
  exact ⟨info, hinfo, hsame⟩

end Cuprate.FastSync
