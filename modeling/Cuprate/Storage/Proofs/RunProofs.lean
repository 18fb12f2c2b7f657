import Cuprate.Storage.Proofs.PopProofs

/-!
# Runs of added and popped blocks

The tables that a run leads to hold the content of the blocks that were added and not popped, and
nothing else.
-/

namespace Cuprate.Storage

open Collections Finmap Option

variable {env : StorageEnv} {t : Tables}

theorem ValidToAdd.validOn {c : Contents} {b : VerifiedBlockInformation} (hvalid : ValidToAdd env t b)
    (h : Represents t c) :
    ValidOn env c b where
  wellFormed := hvalid.wellFormed
  height_eq := by rw [hvalid.height_eq, chainHeight, h.blockHeights.len, List.length_map]
  keyImages_new := by
    intro x hx k hk hmem
    have hnone := hvalid.keyImages_new x hx k hk
    rw [(h.keyImages k).mpr hmem] at hnone
    exact some_ne_none _ hnone

theorem ValidToAdd.first {b : VerifiedBlockInformation} (hwf : WellFormed env b) (hheight : b.height = 0)
    (hhashes : ((storedTxs env b).map (·.hash)).Nodup)
    (hkeyImages : ((storedTxs env b).flatMap fun x => x.tx.keyImages).Nodup) :
      ValidToAdd env .empty b where
  wellFormed := hwf
  height_eq := hheight
  height_lt := hheight ▸ Nat.two_pow_pos 32
  hashes_nodup := hhashes
  hashes_new := fun _ _ => lookup_empty _
  keyImages_nodup := hkeyImages
  keyImages_new := fun _ _ _ _ => lookup_empty _
  blockHash_new := lookup_empty _

theorem popBlock_empty_content (h : Represents t .empty) : popBlock env t = none := by
  have hlast : lastEntry t.blockInfos = none := by
    show (t.blockInfos.lookup (t.blockInfos.keys.sup id)).map _ = none
    rw [h.blockInfos]
    rfl
  unfold popBlock
  rw [hlast]
  rfl

theorem Run.contents {chain : List VerifiedBlockInformation} (hrun : Run env chain t) :
    ∃ c, ChainContents env chain c ∧ Represents t c := by
  induction hrun with
  | empty => exact ⟨.empty, .empty, represents_empty⟩
  | add hrun hvalid hadd ih =>
    obtain ⟨c, hchain, h⟩ := ih
    obtain ⟨c', t', hc', hadd', h'⟩ := addBlock_spec h hvalid
    obtain rfl := some.inj (hadd'.symm.trans hadd)
    exact ⟨c', .add hchain (hvalid.validOn h) hc', h'⟩
  | pop hrun hpop ih =>
    obtain ⟨c, hchain, h⟩ := ih
    cases hchain with
    | empty =>
      rw [popBlock_empty_content h] at hpop
      cases hpop
    | add hchain hvalid hc =>
      obtain ⟨coins, rctOuts, txId, t', h', hpop'⟩ := popBlock_spec h hvalid hc
      obtain ⟨-, rfl⟩ := Prod.mk.inj (some.inj (hpop'.symm.trans hpop))
      rw [List.dropLast_concat]
      exact ⟨_, hchain, h'⟩

/-- A block that is valid to add on top of the tables of a run is added, and popping it again
returns it and leaves every table as it was. -/
theorem popBlock_addBlock (env : StorageEnv) (chain : List VerifiedBlockInformation) (t : Tables)
    (hrun : Run env chain t) (b : VerifiedBlockInformation) (hvalid : ValidToAdd env t b) :
    ∃ t' popped, addBlock env b t = some t' ∧ popBlock env t' = some (popped, t) ∧
      popped.height = b.height ∧ popped.info.blockHash = b.blockHash ∧ popped.block = b.block := by
  obtain ⟨c, -, h⟩ := hrun.contents
  obtain ⟨c', t', hc', hadd, h'⟩ := addBlock_spec h hvalid
  obtain ⟨coins, rctOuts, txId, t'', h'', hpop⟩ := popBlock_spec h' (hvalid.validOn h) hc'
  obtain rfl := Represents.unique h'' h
  exact ⟨t', _, hadd, hpop, rfl, rfl, rfl⟩

/-! ## A block with transactions of both versions -/

def mixedMinerTx : Transaction := .v2 ⟨.block 60, [.gen 0], [⟨some 7, 10, none⟩], []⟩ none

def mixedTxV1 : Transaction :=
  .v1 ⟨.none, [.toKey (some 9) [0] 5], [⟨some 3, 11, none⟩, ⟨some 4, 12, none⟩, ⟨some 3, 13, none⟩], []⟩ []

def mixedTxV2 : Transaction :=
  .v2 ⟨.none, [.toKey none [0] 6], [⟨none, 14, none⟩, ⟨none, 15, none⟩], []⟩ (some ⟨⟨1, [20, 21], []⟩, []⟩)

def mixedReadTx : List UInt8 → Option Transaction
  | [0] => some mixedMinerTx
  | [1] => some mixedTxV1
  | [2] => some mixedTxV2
  | _ => none

theorem mixedReadTx_readable (bytes : List UInt8) (tx : Transaction) (h : mixedReadTx bytes = some tx) :
    Readable tx := by
  unfold mixedReadTx at h
  split at h
  · cases h
    exact ⟨fun out _ _ => rfl, ⟨by decide, by decide⟩, trivial⟩
  · cases h
    refine ⟨?_, trivial, trivial⟩
    show ∀ out ∈ mixedTxV1.txPrefix.outputs, out.amount.isSome
    decide
  · cases h
    refine ⟨?_, trivial, rfl⟩
    show ∀ out ∈ mixedTxV2.txPrefix.outputs, out.amount.isSome → mixedTxV2.hasGen
    decide
  · cases h

def mixedHeader : BlockHeader := ⟨1, 1, 0, 0, 0⟩

def mixedEnv : StorageEnv where
  oxide :=
    { serializeBlock := fun _ => []
      hashBlock := fun _ => 30
      serializePowHash := fun _ => []
      serializeTx := fun _ => [0]
      hashTx := fun _ => 40
      txWeight := fun _ => 80 }
  serializeHeader := fun _ => []
  readHeader := fun _ => some mixedHeader
  readTx := mixedReadTx
  computeZeroCommitment := fun amount => BitVec.ofNat 256 amount.toNat
  readTx_readable := mixedReadTx_readable

def mixedBlock : VerifiedBlockInformation where
  block := ⟨mixedHeader, mixedMinerTx, [41, 42]⟩
  blockBlob := []
  txs := [⟨[1], 80, 1, 41, mixedTxV1⟩, ⟨[2], 80, 1, 42, mixedTxV2⟩]
  blockHash := 30
  powHash := 0
  height := 0
  generatedCoins := 7
  weight := 80
  longTermWeight := 80
  cumulativeDifficulty := 1

theorem mixedBlock_wellFormed : WellFormed mixedEnv mixedBlock where
  readHeader := rfl
  readTx := by decide
  minerInput := ⟨0, rfl⟩
  transactions := rfl
  commitments := by
    intro tx hmem
    rcases List.mem_cons.mp hmem with rfl | hmem
    · trivial
    · obtain rfl := List.mem_singleton.mp hmem
      exact .inr ⟨_, rfl, by decide⟩

theorem mixedBlock_validToAdd : ValidToAdd mixedEnv .empty mixedBlock :=
  .first mixedBlock_wellFormed rfl (by decide) (by decide)

theorem popBlock_addBlock_mixedBlock : ∃ t' popped, addBlock mixedEnv mixedBlock .empty = some t' ∧
      popBlock mixedEnv t' = some (popped, .empty) ∧ popped.height = 0 ∧
      popped.info.blockHash = 30 ∧ popped.block = mixedBlock.block :=
  popBlock_addBlock mixedEnv [] .empty .empty mixedBlock mixedBlock_validToAdd

end Cuprate.Storage
