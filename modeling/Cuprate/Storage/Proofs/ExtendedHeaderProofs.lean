import Cuprate.Storage.Reads
import Cuprate.Storage.Proofs.StoredBlocksProofs

/-!
# The extended headers of one block on both kinds of chains

The tables of the main chain and those of the alternative chains keep the same weights and
difficulties of a block. The vote of an alternative block is read from the wrong field of its
header.
-/

namespace Cuprate.Storage.Database

open Collections Finmap Option Database

variable {env : StorageEnv} {b : VerifiedBlockInformation} {altBlock : AltBlockInformation} {t t' : Tables}
  {db db' : Database}

theorem lookup_addBlock (hadd : addBlock env b t = some t') : ∃ coins rctOuts minerTxId,
    t'.blockInfos.lookup b.height = some (blockInfoOf b coins rctOuts minerTxId) ∧
    t'.blockHeaderBlobs.lookup b.height = some (env.serializeHeader b.block.header) := by
  unfold addBlock at hadd
  split at hadd
  · obtain ⟨added, -, hadd⟩ := bind_eq_some_iff.mp hadd
    obtain ⟨coins, -, hadd⟩ := bind_eq_some_iff.mp hadd
    cases hadd
    exact ⟨coins, _, _, lookup_insert _, lookup_insert _⟩
  · cases hadd

theorem lookup_addAltBlock (hadd : db.addAltBlock altBlock = some db') :
    db'.altBlocksInfo.lookup (altBlock.chainId, altBlock.height) = some (compactAltBlockInfo altBlock) ∧
      db'.altBlockBlobs.lookup (altBlock.chainId, altBlock.height) = some altBlock.blockBlob := by
  obtain ⟨infos, -, -, rfl⟩ := addAltBlock_eq_some hadd
  obtain ⟨txInfos, blobs, heq⟩ := foldl_addAltTransactionBlob altBlock.txs (db.withAltBlock altBlock infos)
  rw [heq]
  exact ⟨lookup_insert _, lookup_insert _⟩

/-- A block has the same extended header on both kinds of chains exactly when it votes for its own
version. A header with an unknown version makes both functions panic. -/
theorem getAltBlockExtendedHeader_eq_iff (hadd : addBlock env b t = some t')
    (halt : db.addAltBlock altBlock = some db') (hblock : altBlock.block = b.block)
      (hweight : altBlock.weight = b.weight)
    (hlongTerm : altBlock.longTermWeight = b.longTermWeight)
    (hdifficulty : altBlock.cumulativeDifficulty = b.cumulativeDifficulty)
    (hheader : env.readHeader (env.serializeHeader b.block.header) = some b.block.header)
    (hblob : env.readHeader altBlock.blockBlob = some altBlock.block.header) :
    getAltBlockExtendedHeaderFromHeight env db' (altBlock.chainId, altBlock.height) =
        getBlockExtendedHeaderFromHeight env t' b.height ↔
      ∀ version, HardFork.fromVersion b.block.header.hardforkVersion = .ok version →
        b.block.header.hardforkSignal = b.block.header.hardforkVersion := by
  obtain ⟨coins, rctOuts, minerTxId, hinfo, hheaderBlob⟩ := lookup_addBlock hadd
  obtain ⟨hinfo', hblob'⟩ := lookup_addAltBlock halt
  rw [hblock] at hblob
  unfold getAltBlockExtendedHeaderFromHeight getBlockExtendedHeaderFromHeight
  simp only [hinfo, hheaderBlob, hinfo', hblob', hheader, hblob, bind_eq_bind, bind_some]
  cases hversion : HardFork.fromVersion b.block.header.hardforkVersion with
  | error e => exact iff_of_true rfl fun version h => by cases h
  | ok version =>
    simp only [Except.toOption, bind_some, compactAltBlockInfo, blockInfoOf, hweight, hlongTerm,
      hdifficulty]
    constructor
    · intro heq _ _
      exact (ExtendedBlockHeader.mk.inj (some.inj heq)).2.1.symm
    · intro hvote
      rw [hvote version rfl]

/-- A block of the first version at height 1 with a given vote. -/
def votingBlock (vote : Nat) : VerifiedBlockInformation :=
  { sampleSecond with block := ⟨⟨1, vote, 0, 30, 0⟩, sampleMinerTx 1, [42]⟩ }

def votingEnv (vote : Nat) : StorageEnv :=
  { sampleEnv.toStorageEnv with
    readHeader := fun bytes => some (if bytes = [0] then sampleGenesis.header else ⟨1, vote, 0, 30, 0⟩) }

theorem votingBlock_validToAdd {vote : Nat} (h : Built sampleEnv [sampleFirst] t) :
    ValidToAdd (votingEnv vote) t (votingBlock vote) := by
  have hvalid := (sampleSecond_verified h).toValidToAdd
  have hwf := hvalid.wellFormed
  refine ⟨⟨?_, hwf.readTx, hwf.minerInput, hwf.transactions, hwf.commitments⟩, hvalid.height_eq,
    hvalid.height_lt,
    hvalid.hashes_nodup, hvalid.hashes_new, hvalid.keyImages_nodup, hvalid.keyImages_new,
      hvalid.blockHash_new⟩
  show some (if (if (⟨1, vote, 0, 30, 0⟩ : BlockHeader) =
    sampleGenesis.header then ([0] : List UInt8) else [1]) = [0]
    then sampleGenesis.header else ⟨1, vote, 0, 30, 0⟩) = some ⟨1, vote, 0, 30, 0⟩
  rw [if_neg (by simp [sampleGenesis])]

theorem votingBlock_added (vote : Nat) : ∃ t t' db',
    Run (votingEnv vote) [sampleFirst] t ∧ ValidToAdd (votingEnv vote) t (votingBlock vote) ∧
    addBlock (votingEnv vote) (votingBlock vote) t = some t' ∧
    addAltBlock (altBlockOf 7 (votingBlock vote)) { empty with tables := t } = some db' := by
  have hvalid := sampleFirst_verified.toValidToAdd
  have hwf := hvalid.wellFormed
  obtain ⟨t, hbuilt, hwrite⟩ := Built.writeBlock empty .empty sampleFirst_verified
  obtain ⟨t₁, hadd, heq⟩ := map_eq_some_iff.mp hwrite
  obtain rfl : t₁ = t := congrArg tables heq
  have hrun : Run (votingEnv vote) [sampleFirst] t₁ := by
    refine .add .empty ⟨⟨rfl, hwf.readTx, hwf.minerInput, hwf.transactions, hwf.commitments⟩,
      hvalid.height_eq,
      hvalid.height_lt, hvalid.hashes_nodup, hvalid.hashes_new, hvalid.keyImages_nodup,
        hvalid.keyImages_new, hvalid.blockHash_new⟩ hadd
  obtain ⟨c, -, hrep⟩ := hrun.contents
  obtain ⟨-, t', -, hadd', -⟩ := addBlock_spec hrep (votingBlock_validToAdd hbuilt)
  obtain ⟨db', halt⟩ := @addAltBlock_isSome (altBlockOf 7 (votingBlock vote)) (Nat.succ_ne_zero 0) rfl
    { empty with tables := t₁ }
  exact ⟨t₁, t', db', hrun, votingBlock_validToAdd hbuilt, hadd', halt⟩

theorem getAltBlockExtendedHeader_eq_ownVersion :
    ∃ t t' db', addBlock (votingEnv 1) (votingBlock 1) t = some t' ∧
    addAltBlock (altBlockOf 7 (votingBlock 1)) { empty with tables := t } = some db' ∧
    getAltBlockExtendedHeaderFromHeight (votingEnv 1) db' (7, 1) =
      getBlockExtendedHeaderFromHeight (votingEnv 1) t' 1 := by
  obtain ⟨t, t', db', -, hvalid, hadd, halt⟩ := votingBlock_added 1
  exact ⟨t, t', db', hadd, halt, (getAltBlockExtendedHeader_eq_iff hadd halt rfl rfl rfl rfl
    hvalid.wellFormed.readHeader rfl).mpr fun _ _ => rfl⟩

/-- A block of version 1 that votes for version 2 has the vote 2 on the main chain and 1 on an
alternative chain. -/
theorem getAltBlockExtendedHeader_loses_vote : ∃ t t' db',
    Run (votingEnv 2) [sampleFirst] t ∧ ValidToAdd (votingEnv 2) t (votingBlock 2) ∧
    addBlock (votingEnv 2) (votingBlock 2) t = some t' ∧
    addAltBlock (altBlockOf 7 (votingBlock 2)) { empty with tables := t } = some db' ∧
    (getBlockExtendedHeaderFromHeight (votingEnv 2) t' 1).map (·.vote) = some 2 ∧
    (getAltBlockExtendedHeaderFromHeight (votingEnv 2) db' (7, 1)).map (·.vote) = some 1 := by
  obtain ⟨t, t', db', hrun, hvalid, hadd, halt⟩ := votingBlock_added 2
  refine ⟨t, t', db', hrun, hvalid, hadd, halt, ?_, ?_⟩
  · obtain ⟨coins, rctOuts, minerTxId, hinfo, hblob⟩ := lookup_addBlock hadd
    unfold getBlockExtendedHeaderFromHeight
    rw [show t'.blockInfos.lookup 1 = _ from hinfo, show t'.blockHeaderBlobs.lookup 1 = _ from hblob]
    rfl
  · obtain ⟨hinfo, hblob⟩ := lookup_addAltBlock halt
    unfold getAltBlockExtendedHeaderFromHeight
    rw [show db'.altBlocksInfo.lookup (7, 1) = _ from hinfo, show db'.altBlockBlobs.lookup (7, 1) =
      _ from hblob]
    rfl

end Cuprate.Storage.Database
