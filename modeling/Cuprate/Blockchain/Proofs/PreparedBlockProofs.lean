import Cuprate.Consensus.AltBlock

/-!
# The three ways to prepare a block

A block is prepared alone, in a batch after its first half, or from the information on an
alternative block during a re-org, which takes the version for the vote and the vote for the
version.
-/

namespace Cuprate.Blockchain

open Collections Consensus Except PreparedBlock HardFork PreparedBlockExPow

/-- The data that the ways to prepare a block should agree on. -/
structure SameData (a b : PreparedBlock) : Prop where
  block : a.block = b.block
  blockBlob : a.blockBlob = b.blockBlob
  blockHash : a.blockHash = b.blockHash
  hfVersion : a.hfVersion = b.hfVersion
  hfVote : a.hfVote = b.hfVote

/-- A prepared block has the bytes and the hash of its block, and the version and vote of its
header. -/
structure PreparedFrom (oxide : MoneroOxide) (source : Block) (prepped : PreparedBlock) : Prop where
  block : prepped.block = source
  blockBlob : prepped.blockBlob = oxide.serializeBlock source
  blockHash : prepped.blockHash = oxide.hashBlock source
  hfVersion : fromVersion source.header.hardforkVersion = .ok prepped.hfVersion
  hfVote : fromVote source.header.hardforkSignal = prepped.hfVote

variable {env : BlockEnv} {oxide : MoneroOxide} {block : Block} {single prepped : PreparedBlock}

theorem PreparedFrom.sameData (ha : PreparedFrom oxide block single)
    (hb : PreparedFrom oxide block prepped) : SameData single prepped where
  block := ha.block.trans hb.block.symm
  blockBlob := ha.blockBlob.trans hb.blockBlob.symm
  blockHash := ha.blockHash.trans hb.blockHash.symm
  hfVersion := ok.inj (ha.hfVersion.symm.trans hb.hfVersion)
  hfVote := ha.hfVote.symm.trans hb.hfVote

theorem preparedVersionVote_eq_ok {versionVote : HardFork × HardFork}
    (h : preparedVersionVote block = .ok versionVote) :
    fromVersion block.header.hardforkVersion = .ok versionVote.1 ∧
      fromVote block.header.hardforkSignal = versionVote.2 := by
  obtain ⟨version, hversion, rfl⟩ := map_eq_ok.mp (mapError_eq_ok.mp h)
  exact ⟨hversion, rfl⟩

theorem preparedFrom_new {randomxVm : Option (RandomXVm Hash)}
    (h : new env block randomxVm = .ok prepped) : PreparedFrom env.oxide block prepped := by
  obtain ⟨versionVote, hversionVote, h⟩ := bind_eq_ok.mp h
  obtain ⟨height, -, h⟩ := bind_eq_ok.mp h
  obtain ⟨powHash, -, h⟩ := bind_eq_ok.mp h
  cases h
  obtain ⟨hversion, hvote⟩ := preparedVersionVote_eq_ok (mapError_eq_ok.mp hversionVote)
  exact ⟨rfl, rfl, rfl, hversion, hvote⟩

theorem preparedFrom_newPrepped {exPow : PreparedBlockExPow} {randomxVm : Option (RandomXVm Hash)}
    (hexPow : new env.oxide block = .ok exPow)
    (h : newPrepped env exPow randomxVm = .ok prepped) : PreparedFrom env.oxide block prepped := by
  obtain ⟨versionVote, hversionVote, hexPow⟩ := bind_eq_ok.mp hexPow
  obtain ⟨powHash, -, h⟩ := bind_eq_ok.mp h
  cases h
  obtain ⟨hversion, hvote⟩ := preparedVersionVote_eq_ok hversionVote
  split at hexPow
  · cases hexPow
    exact ⟨rfl, rfl, rfl, hversion, hvote⟩
  · cases hexPow

variable {nodeEnv : NodeEnv} {now : UInt64} {newChainId : ChainId}
  {txs : Table Hash TransactionVerificationData} {db : Storage.Database} {s : ContextService}
  {info : Storage.Database.AltBlockInformation}

theorem checkAltBlock_eq_ok {context next : AltChainContext}
    (h : checkAltBlock nodeEnv now newChainId block txs context db s = .ok (info, next)) :
    info.block = block ∧ info.blockBlob = nodeEnv.oxide.serializeBlock block ∧
      info.blockHash = nodeEnv.oxide.hashBlock block ∧
      ∃ ordered, pullOrderedTransactions block txs = .ok ordered ∧
        info.txs = ordered.map verifiedTransaction := by
  obtain ⟨vm, -, h⟩ := bind_eq_ok.mp h
  obtain ⟨preppedBlock, hprepped, h⟩ := bind_eq_ok.mp h
  obtain ⟨difficultyCache, -, h⟩ := bind_eq_ok.mp h
  obtain ⟨cumulativeDifficulty, -, h⟩ := bind_eq_ok.mp h
  obtain ⟨orderedTxs, hordered, h⟩ := bind_eq_ok.mp h
  obtain ⟨weightCache, -, h⟩ := bind_eq_ok.mp h
  obtain ⟨longTermWeight, -, h⟩ := bind_eq_ok.mp h
  obtain ⟨added, -, h⟩ := bind_eq_ok.mp h
  cases h
  have hfrom := preparedFrom_new (mapError_eq_ok.mp hprepped)
  exact ⟨hfrom.block, hfrom.blockBlob, hfrom.blockHash, orderedTxs, hordered, rfl⟩

theorem sanityCheckAltBlock_eq_ok
    (h : (sanityCheckAltBlock nodeEnv now newChainId block txs db s).1 = .ok info) :
    ∃ context taken next, s.getAltChainContext block.header.previous db = some (context, taken) ∧
      checkAltBlock nodeEnv now newChainId block txs context db taken = .ok (info, next) := by
  rw [sanityCheckAltBlock] at h
  split at h
  · cases h
  · next context taken hcontext =>
    split at h
    · cases h
    · next checked next hchecked =>
      cases h
      exact ⟨context, taken, next, hcontext, hchecked⟩

theorem newAltBlock_eq_ok (h : PreparedBlock.newAltBlock oxide info = .ok prepped) :
    prepped.block = info.block ∧ prepped.blockBlob = info.blockBlob ∧ prepped.blockHash = info.blockHash ∧
      fromVersion info.block.header.hardforkVersion = .ok prepped.hfVote ∧
      prepped.hfVersion = fromVote info.block.header.hardforkSignal := by
  obtain ⟨hfVote, hhfVote, rfl⟩ := map_eq_ok.mp h
  exact ⟨rfl, rfl, rfl, mapError_eq_ok.mp hhfVote, rfl⟩

/-- All three ways to prepare a block give the same data exactly if its version and its vote are the
same fork. -/
theorem sameData_iff_version_eq_vote {vm vm' : Option (RandomXVm Hash)} {exPow : PreparedBlockExPow}
    {alt : PreparedBlock} (hsingle : new nodeEnv.blockEnv block vm = .ok single)
    (hexPow : new nodeEnv.oxide block = .ok exPow)
    (hprepped : newPrepped nodeEnv.blockEnv exPow vm' = .ok prepped)
    (hinfo : (sanityCheckAltBlock nodeEnv now newChainId block txs db s).1 = .ok info)
    (halt : PreparedBlock.newAltBlock nodeEnv.oxide info = .ok alt) :
    SameData single prepped ∧ SameData single alt ↔ fromVersion block.header.hardforkVersion =
        .ok (fromVote block.header.hardforkSignal) := by
  have hsingle := preparedFrom_new hsingle
  have hprepped := preparedFrom_newPrepped hexPow hprepped
  obtain ⟨context, taken, next, -, hchecked⟩ := sanityCheckAltBlock_eq_ok hinfo
  obtain ⟨rfl, hblob, hhash, -⟩ := checkAltBlock_eq_ok hchecked
  obtain ⟨hblock, hblob', hhash', hvote, hversion⟩ := newAltBlock_eq_ok halt
  constructor
  · rintro ⟨-, hsame⟩
    rw [hsingle.hfVersion, hsame.hfVersion, hversion]
  · intro hfork
    have hversion' : single.hfVersion = alt.hfVersion :=
      (ok.inj (hsingle.hfVersion.symm.trans hfork)).trans hversion.symm
    have hvote' : single.hfVote = alt.hfVote :=
      hsingle.hfVote.symm.trans (ok.inj (hfork.symm.trans hvote))
    refine ⟨hsingle.sameData hprepped, ?_, ?_, ?_, hversion', hvote'⟩
    · exact hsingle.block.trans hblock.symm
    · exact hsingle.blockBlob.trans (hblob'.trans hblob).symm
    · exact hsingle.blockHash.trans (hhash'.trans hhash).symm

/-! ## A vote for the next fork -/

/-- The hash of a block is 12, and its proof of work is always good enough. -/
def easyEnv : NodeEnv where
  oxide :=
    { serializeBlock := fun _ => []
      hashBlock := fun _ => 12
      serializePowHash := fun _ => []
      serializeTx := fun _ => []
      hashTx := fun _ => 0
      txWeight := fun _ => 80 }
  serializeHeader := fun _ => []
  readHeader := fun _ => none
  readTx := fun _ => none
  computeZeroCommitment := fun _ => 0
  readTx_readable := fun _ _ h => absurd h (Option.some_ne_none _).symm
  readBlock := fun _ => none
  pow := ⟨fun _ => 0, fun _ => some 0, fun _ => 0, fun _ _ => 0, fun _ _ => some 0⟩
  checks := ⟨fun _ _ => .error .tooBig, fun _ => true, fun _ _ => .ok (), fun _ => true⟩

def secondDifficulties : DifficultyCache := ⟨[100], [2], 1, .mainNet⟩

def secondWeights : BlockWeightsCache :=
    ⟨⟨[80, 80], [80, 80], 100⟩, ⟨[80, 80], [80, 80], 100000⟩, 1, .mainNet⟩

/-- The context after the first block of an alternative chain. -/
def secondContext : AltChainContext where
  cachedRxVm := none
  chainHeight := 2
  topHash := 11
  chainId := some 5
  parentChain := .main
  weightCache := some secondWeights
  difficultyCache := some secondDifficulties

/-- The context service of a node with a main chain of two blocks and an alternative one. -/
def secondService : ContextService where
  contextCache := ⟨2, ⟨20000, 20000, 21, none, 2, .V1, 1, 7⟩, 80, some 100⟩
  difficultyCache := secondDifficulties
  weightCache := secondWeights
  rxVmCache := ⟨[], ∅, none⟩
  hardforkState := ⟨.V1, ⟨fun _ => ⟨1000, 0⟩, 10080⟩, .new 10080, 1⟩
  chainHeight := 2
  topBlockHash := 21
  alreadyGeneratedCoins := 7
  altChainCacheMap := Finmap.singleton 11 secondContext

/-- A block of version 1 on top of the alternative chain. -/
def votingBlock (hardforkSignal : Nat) : Block where
  header :=
    { hardforkVersion := 1, hardforkSignal := hardforkSignal, timestamp := 200, previous :=
      11, nonce := 0 }
  minerTransaction := .v1 ⟨.block 62, [.gen 2], [⟨some 7, 0, none⟩], []⟩ []
  transactions := []

def votingPrepped (hardforkSignal : Nat) (hfVersion hfVote : HardFork) : PreparedBlock where
  block := votingBlock hardforkSignal
  blockBlob := []
  hfVote := hfVote
  hfVersion := hfVersion
  blockHash := 12
  powHash := 0
  minerTxWeight := 80

def votingInformation (hardforkSignal : Nat) : Storage.Database.AltBlockInformation where
  block := votingBlock hardforkSignal
  blockBlob := []
  txs := []
  blockHash := 12
  powHash := 0
  height := 2
  weight := 80
  longTermWeight := 80
  cumulativeDifficulty := 3
  chainId := 5

def emptyDb : Storage.Database := ⟨.empty, ∅, ∅, ∅, ∅, ∅, ∅⟩

theorem votingBlock_checked :
    ∀ signal ∈ [1, 2], (sanityCheckAltBlock easyEnv 300 0 (votingBlock signal) ∅ emptyDb secondService).1 =
      .ok (votingInformation signal) := by
  decide +kernel

def votingExPow (hardforkSignal : Nat) (hfVersion hfVote : HardFork) : PreparedBlockExPow where
  block := votingBlock hardforkSignal
  blockBlob := []
  hfVote := hfVote
  hfVersion := hfVersion
  blockHash := 12
  height := 2
  minerTxWeight := 80

/-- A block that votes for its own version. -/
theorem sameData_of_own_vote :
    ∃ single prepped alt, new easyEnv.blockEnv (votingBlock 1) none = .ok single ∧
      newPrepped easyEnv.blockEnv (votingExPow 1 .V1 .V1) none = .ok prepped ∧
      PreparedBlock.newAltBlock easyEnv.oxide (votingInformation 1) = .ok alt ∧
      SameData single prepped ∧ SameData single alt := by
  have hsingle : new easyEnv.blockEnv (votingBlock 1) none = .ok (votingPrepped 1 .V1 .V1) := by decide
  have hexPow : new easyEnv.oxide (votingBlock 1) = .ok (votingExPow 1 .V1 .V1) := by decide
  have hprepped : newPrepped easyEnv.blockEnv (votingExPow 1 .V1 .V1) none =
      .ok (votingPrepped 1 .V1 .V1) := by decide
  have hinfo := votingBlock_checked 1 (by decide)
  have halt : PreparedBlock.newAltBlock easyEnv.oxide (votingInformation 1) =
      .ok (votingPrepped 1 .V1 .V1) := by decide
  have hsame := (sameData_iff_version_eq_vote hsingle hexPow hprepped hinfo halt).mpr (by decide)
  exact ⟨_, _, _, hsingle, hprepped, halt, hsame⟩

/-- A block of version 1 that votes for version 2 has version 2 and vote 1 in a re-org. -/
theorem newAltBlock_swaps_vote :
    (sanityCheckAltBlock easyEnv 300 0 (votingBlock 2) ∅ emptyDb secondService).1 =
      .ok (votingInformation 2) ∧
      new easyEnv.blockEnv (votingBlock 2) none = .ok (votingPrepped 2 .V1 .V2) ∧
      PreparedBlock.newAltBlock easyEnv.oxide (votingInformation 2) = .ok (votingPrepped 2 .V2 .V1) ∧
      ¬ SameData (votingPrepped 2 .V1 .V2) (votingPrepped 2 .V2 .V1) := by
  refine ⟨votingBlock_checked 2 (by decide), by decide, by decide, fun hsame => ?_⟩
  exact absurd hsame.hfVersion (by decide)

end Cuprate.Blockchain
