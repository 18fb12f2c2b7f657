import Cuprate.Storage.ChainSearch
import Cuprate.Storage.Proofs.CompactHistoryProofs
import Cuprate.Storage.Proofs.StoredBlocksProofs

/-!
# The answers to peers

What the requests for the first unknown block, for the next chain entry and for transactions of a
block return, over all databases that hold a chain.
-/

namespace Cuprate.Storage.Database

open Collections Finmap List Option UInt8

variable {db : Database}

theorem findSplitPoint_known {known unknown : List Hash} (hknown : ∀ id ∈ known, (db.findBlock id).isSome)
    (hunknown : ∀ id ∈ unknown, db.findBlock id = none) :
    findSplitPoint (known ++ unknown) true true db = known.length := by
  have hexists (id : Hash) : (((db.tables.blockHeights.lookup id).isSome ||
      true && (db.altBlockHeights.lookup id).isSome) == true) = (db.findBlock id).isSome := by
    unfold findBlock
    cases db.tables.blockHeights.lookup id with
    | none => simp
    | some height => simp
  refine partitionPoint_append (fun id hid => ?_) fun id hid => ?_
  · rw [hexists]
    exact hknown id hid
  · rw [hexists, hunknown id hid]
    rfl

/-- The first unknown block is found with its height exactly if none or all blocks are known or the
last known block is on the main chain. -/
theorem findFirstUnknown_eq_iff {known unknown : List Hash}
    (hknown : ∀ id ∈ known, (db.findBlock id).isSome)
    (hunknown : ∀ id ∈ unknown, db.findBlock id = none) :
    db.findFirstUnknown (known ++ unknown) = some (
        if unknown = [] then none
        else if known = [] then some (0, 0)
        else (known.getLast?.bind db.findBlock).map fun block => (known.length, block.2 + 1)) ↔
      (unknown ≠ [] → ∀ id, known.getLast? = some id → (db.tables.blockHeights.lookup id).isSome) := by
  unfold findFirstUnknown
  rw [findSplitPoint_known hknown hunknown]
  by_cases hnil : unknown = []
  · simp [hnil]
  have hpos := length_pos_iff.mpr hnil
  have hlen : known.length ≠ (known ++ unknown).length := by
    rw [length_append]
    omega
  by_cases hknil : known = []
  · simp [hknil, hnil, hpos.ne]
  have hkpos := length_pos_iff.mpr hknil
  have hlast : known.getLast? = some (known.getLast hknil) := getLast?_eq_getLast_of_ne_nil hknil
  have hget : (known ++ unknown)[known.length - 1]? = some (known.getLast hknil) := by
    rw [getElem?_append_left (by omega), ← getLast?_eq_getElem?, hlast]
  have hsome := hknown _ (getLast_mem hknil)
  simp only [if_neg hlen, if_neg hkpos.ne', if_neg hknil, hget, hlast, bind_some,
    bind_eq_bind, some.injEq, forall_eq', ne_eq, hnil, not_false_eq_true, forall_const]
  unfold findBlock at hsome ⊢
  cases hheight : db.tables.blockHeights.lookup (known.getLast hknil) with
  | some height => simp
  | none =>
    rw [hheight] at hsome
    simp

/-- The chain has the first two ids. -/
theorem findFirstUnknown_eq_sample :
    ∃ db : Database, Built sampleEnv [sampleFirst, sampleSecond] db.tables ∧
    db.findFirstUnknown ([30, 31] ++ [99]) = some (some (2, 2)) := by
  obtain ⟨t₁, hbuilt₁, -⟩ := Built.writeBlock Database.empty .empty sampleFirst_verified
  obtain ⟨t, hbuilt, -⟩ :=
    Built.writeBlock { empty with tables := t₁ } hbuilt₁ (sampleSecond_verified hbuilt₁)
  obtain ⟨c, hcontents, hrep⟩ := hbuilt.contents
  let db : Database := { empty with tables := t }
  have h30 : t.blockHeights.lookup 30 = some 0 := by
    rw [hrep.blockHeights, hcontents.blockHashes]
    rfl
  have h31 : t.blockHeights.lookup 31 = some 1 := by
    rw [hrep.blockHeights, hcontents.blockHashes]
    rfl
  have h99 : t.blockHeights.lookup 99 = none := hbuilt.lookup_blockHeights (by decide)
  have hfind : db.findBlock 30 = some (.main, 0) ∧ db.findBlock 31 = some (.main, 1) ∧
      db.findBlock 99 = none := by
    simp only [findBlock, db, h30, h31, h99, true_and]
    rfl
  have h := (@findFirstUnknown_eq_iff db [30, 31] [99]
    (forall_mem_cons.mpr ⟨by rw [hfind.1]; rfl, forall_mem_singleton.mpr (by rw [hfind.2.1]; rfl)⟩)
    (forall_mem_singleton.mpr hfind.2.2)).mpr ?_
  · refine ⟨db, hbuilt, h.trans ?_⟩
    rw [if_neg (by simp), if_neg (by simp)]
    show some (((some 31).bind db.findBlock).map _) = _
    rw [bind_some, hfind.2.1]
    rfl
  · rintro - id ⟨⟩
    show (t.blockHeights.lookup 31).isSome
    rw [h31]
    rfl

/-- The last known block is on an alternative chain: the request fails. -/
theorem findFirstUnknown_fails_after_alt_block :
    ∃ (Tx : Transaction → Prop) (Alt : AltBlockInformation → Prop) (added : Placed) (db : Database),
      Reachable sampleEnv Tx Alt [sampleFirst] added db ∧ db.findBlock 30 = some (.main, 0) ∧
      db.findBlock 32 = some (.alt 7, 1) ∧ db.findBlock 99 = none ∧
        db.findFirstUnknown [30, 32, 99] = none := by
  obtain ⟨t, hbuilt, hwrite⟩ := Built.writeBlock Database.empty .empty sampleFirst_verified
  obtain ⟨db', hadd⟩ : ∃ db', { empty with tables := t }.addAltBlock sampleAltBlock = some db' :=
    addAltBlock_isSome (by decide) rfl _
  have hreach : Reachable sampleEnv (fun _ => True) (fun _ => True) [sampleFirst] _ _ :=
    .writeAltBlock (.writeBlock .empty sampleFirst_verified (fun _ _ => trivial) hwrite) trivial hadd
  obtain ⟨infos, -, -, heq⟩ := addAltBlock_eq_some hadd
  obtain ⟨infos', blobs, hfold⟩ := foldl_addAltTransactionBlob sampleAltBlock.txs
    ({ empty with tables := t }.withAltBlock sampleAltBlock infos)
  rw [hfold] at heq
  have htables : db'.tables = t := by rw [heq]; rfl
  have halt32 : db'.altBlockHeights.lookup 32 = some (7, 1) := by
    rw [heq]
    exact lookup_insert _
  have halt99 : db'.altBlockHeights.lookup 99 = none := by
    rw [heq]
    exact (lookup_insert_of_ne _ (by decide)).trans (lookup_empty _)
  have h32 : t.blockHeights.lookup 32 = none := hbuilt.lookup_blockHeights (by decide)
  have h99 : t.blockHeights.lookup 99 = none := hbuilt.lookup_blockHeights (by decide)
  have h30 : t.blockHeights.lookup 30 = some 0 := by
    obtain ⟨c, hcontents, hrep⟩ := hbuilt.contents
    rw [hrep.blockHeights, hcontents.blockHashes]
    rfl
  have hfind : db'.findBlock 30 = some (.main, 0) ∧ db'.findBlock 32 = some (.alt 7, 1) ∧
      db'.findBlock 99 = none := by
    unfold findBlock
    rw [htables, h30, h32, h99, halt32, halt99]
    exact ⟨rfl, rfl, rfl⟩
  refine ⟨_, _, _, db', hreach, hfind.1, hfind.2.1, hfind.2.2, ?_⟩
  have hsplit : findSplitPoint [30, 32, 99] true true db' = 2 :=
    @findSplitPoint_known db' [30, 32] [99]
      (forall_mem_cons.mpr ⟨by rw [hfind.1]; rfl, forall_mem_singleton.mpr (by rw [hfind.2.1]; rfl)⟩)
      (forall_mem_singleton.mpr hfind.2.2)
  unfold findFirstUnknown
  rw [hsplit, htables]
  show (t.blockHeights.lookup 32).bind _ = none
  rw [h32]
  rfl

section

variable {env : StorageEnv} {chain : List VerifiedBlockInformation} {b : VerifiedBlockInformation}
    {height : Nat}
  {writeVarInt : Nat → List UInt8} {hashBytes : Hash → List UInt8}

theorem lookup_blockHeights_eq_some {c : Contents} (hchain : ChainContents env chain c)
    (hrep : Represents db.tables c) {hash : Hash} :
    db.tables.blockHeights.lookup hash = some height ↔ ∃ b, chain[height]? = some b ∧
      b.blockHash = hash := by
  rw [hrep.blockHeights, hchain.contentsOf.blockHashes, getElem?_map, map_eq_some_iff]

/-- The transactions of a block at some indexes are returned, or refused, as they should be exactly
if there are too many indexes when, and only when, one is too large: only their number is
checked. -/
theorem run_txsInBlock_eq_iff (hserialize : SerializesBlocks writeVarInt hashBytes env)
    (hrun : Run env chain db.tables) (htotal : (chainTxs env chain).length < 2 ^ 64)
      (hb : chain[height]? = some b)
    (missingTxs : List UInt64) :
    db.txsInBlock writeVarInt hashBytes b.blockHash missingTxs = some (
        if missingTxs.all fun index => index.toNat < b.txs.length then
          some (env.oxide.serializeBlock b.block,
            missingTxs.filterMap fun index => b.txs[index.toNat]?.map (·.txBlob))
        else none) ↔
      ((∀ index ∈ missingTxs, index.toNat < b.txs.length) ↔ missingTxs.length ≤ b.txs.length) := by
  obtain ⟨c, hchain, hrep⟩ := hrun.contents
  obtain ⟨blob, hblob, hserialized⟩ := getBlockBlobWithTxIndexes_eq hchain hrep hb writeVarInt hashBytes
  have hheight := (lookup_blockHeights_eq_some hchain hrep).mpr ⟨b, hb, rfl⟩
  have htxs (h : ∀ index ∈ missingTxs, index.toNat < b.txs.length) :
      (missingTxs.mapM fun index => db.tables.txBlobs.lookup
        (((chainTxs env (chain.take height)).length + 1 + index.toNat) % 2 ^ 64)) =
        some (missingTxs.filterMap fun index => b.txs[index.toNat]?.map (·.txBlob)) := by
    induction missingTxs with
    | nil => rfl
    | cons index rest ih =>
      have hindex := getElem?_eq_getElem (h index mem_cons_self)
      have hlookup := lookup_txBlobs_of_txs hchain hrep hb hindex
      have hlt : (chainTxs env (chain.take height)).length + (index.toNat + 1) <
          (chainTxs env chain).length :=
        (List.getElem?_eq_some_iff.mp (getElem?_chainTxs hb (getElem?_storedTxs_succ hindex))).1
      rw [mapM_cons, Nat.mod_eq_of_lt (by omega), hlookup, ih fun i hi => h i (.tail _ hi),
        filterMap_cons_some (by rw [hindex]; rfl)]
      rfl
  have hiff : missingTxs.all (fun index => index.toNat < b.txs.length) ↔
      ∀ index ∈ missingTxs, index.toNat < b.txs.length := by
    simp only [List.all_eq_true, decide_eq_true_eq]
  unfold txsInBlock
  rw [hheight]
  simp only [bind_eq_bind, bind_some, hblob, hserialized hserialize]
  by_cases hlen : b.txs.length < missingTxs.length
  · simp only [if_pos hlen, not_le.mpr hlen, iff_false]
    split <;> simp_all
  · simp only [if_neg hlen, not_lt.mp hlen, iff_true]
    by_cases hall : ∀ index ∈ missingTxs, index.toNat < b.txs.length
    · rw [if_pos (hiff.mpr hall), htxs hall]
      exact iff_of_true rfl hall
    · rw [if_neg (mt hiff.mp hall)]
      refine iff_of_false (fun h => ?_) hall
      obtain ⟨txs, -, h⟩ := bind_eq_some_iff.mp h
      cases h

theorem run_txsInBlock_laidOutBlock : ∃ db : Database, Run laidOutEnv [laidOutBlock] db.tables ∧
    db.txsInBlock (fun n => [ofNat n]) (fun hash => [ofNat hash.toNat]) 30 [1, 0] =
      some (some ([0, 2, 41, 42], [[2], [1]])) := by
  obtain ⟨t, hrun⟩ := laidOutBlock_run
  refine ⟨{ empty with tables := t }, hrun, ?_⟩
  have hall : ∀ index ∈ ([1, 0] : List UInt64), index.toNat < laidOutBlock.txs.length :=
    forall_mem_cons.mpr ⟨by decide, forall_mem_singleton.mpr (by decide)⟩
  refine ((@run_txsInBlock_eq_iff { empty with tables := t } laidOutEnv [laidOutBlock] laidOutBlock 0
    (fun n => [ofNat n]) (fun hash => [ofNat hash.toNat]) (fun _ => rfl) hrun (by decide) rfl [1, 0]).mpr
    (iff_of_true hall (by decide))).trans ?_
  rfl

/-- The second block has one transaction. An index that is too large leads to another block's miner
transaction or to none, and the index of the transaction must not be asked for twice. -/
theorem txsInBlock_sampleSecond :
    ∃ (Tx : Transaction → Prop) (Alt : AltBlockInformation → Prop) (added : Placed) (db : Database),
      Reachable sampleEnv Tx Alt [sampleFirst, sampleSecond] added db ∧
      (storedTxs sampleEnv.toStorageEnv sampleFirst).map (·.blob) = [[0]] ∧ ∀ writeVarInt hashBytes,
      (∃ blob, db.txsInBlock writeVarInt hashBytes 31 [0xFFFFFFFFFFFFFFFE] = some (some (blob, [[0]]))) ∧
      db.txsInBlock writeVarInt hashBytes 31 [1] = none ∧
      db.txsInBlock writeVarInt hashBytes 31 [0, 0] = some none := by
  obtain ⟨db, hreach, -⟩ := sample_reachable (fun _ => True) (fun _ => True) fun _ _ => trivial
  obtain ⟨c, hchain, hrep⟩ := hreach.built.1.run.contents
  have hb : [sampleFirst, sampleSecond][1]? = some sampleSecond := rfl
  refine ⟨_, _, _, db, hreach, rfl, fun writeVarInt hashBytes => ?_⟩
  obtain ⟨blob, hblob, -⟩ := getBlockBlobWithTxIndexes_eq hchain hrep hb writeVarInt hashBytes
  have hheight := (lookup_blockHeights_eq_some hchain hrep).mpr ⟨sampleSecond, hb, rfl⟩
  have hlookup (i : Nat) : db.tables.txBlobs.lookup i = ([[0], [1], [2]] : List (List UInt8))[i]? := by
    rw [hrep.txBlobs, hchain.contentsOf.txs]
    rfl
  have hasked (missingTxs : List UInt64) : db.txsInBlock writeVarInt hashBytes 31 missingTxs =
      if 1 < missingTxs.length then some none
      else (missingTxs.mapM fun index =>
        ([[0], [1], [2]] : List (List UInt8))[(2 + index.toNat) % 2 ^ 64]?).map
        fun txs => some (blob, txs) := by
    unfold txsInBlock
    rw [show (31 : Hash) = sampleSecond.blockHash from rfl, hheight]
    simp only [bind_eq_bind, bind_some, hblob, hlookup]
    rw [Option.map_eq_bind]
    rfl
  refine ⟨⟨blob, ?_⟩, ?_, ?_⟩
  · rw [hasked]
    rfl
  · rw [hasked]
    rfl
  · rw [hasked]
    rfl

theorem isSome_lookup_blockHeights {c : Contents} (hchain : ChainContents env chain c)
    (hrep : Represents db.tables c)
    {hash : Hash} : (db.tables.blockHeights.lookup hash).isSome ↔ hash ∈ chain.map (·.blockHash) := by
  rw [isSome_iff_exists, List.mem_map]
  constructor
  · rintro ⟨i, hi⟩
    obtain ⟨b, hb, heq⟩ := (lookup_blockHeights_eq_some hchain hrep).mp hi
    exact ⟨b, mem_of_getElem? hb, heq⟩
  · rintro ⟨b, hb, heq⟩
    obtain ⟨i, hi⟩ := mem_iff_getElem?.mp hb
    exact ⟨i, (lookup_blockHeights_eq_some hchain hrep).mpr ⟨b, hi, heq⟩⟩

theorem map_weight_blocks {c : Contents} (hchain : ChainContents env chain c) :
    c.blocks.map (·.info.weight) = chain.map (·.weight) := by
  refine ext_getElem? fun height => ?_
  rw [getElem?_map, getElem?_map]
  cases hb : chain[height]? with
  | none =>
    rw [getElem?_eq_none_iff, ← hchain.contentsOf.blocks_length, ← getElem?_eq_none_iff] at hb
    rw [hb]
    rfl
  | some b =>
    obtain ⟨-, -, coins, rctOuts, hblock⟩ := hchain.block_at hb
    rw [hblock]
    rfl

theorem map_drop_take {α β γ : Type} {f : α → γ} {g : β → γ} {xs : List α} {ys : List β} {i j : Nat}
    (h : xs.map f = ys.map g) : ((xs.take j).drop i).map f = ((ys.take j).drop i).map g := by
  rw [map_drop, map_take, h, ← map_take, ← map_drop]

/-- The blocks after the first block that both sides know, as long as the end of the entry is a
64-bit number. -/
theorem run_nextChainEntry (hserialize : SerializesBlocks writeVarInt hashBytes env)
    (hrun : Run env chain db.tables)
    {n : Nat} (hsize : chain.length + n ≤ 2 ^ 64) {unknown known : List Hash}
    (hunknown : ∀ id ∈ unknown, id ∉ chain.map (·.blockHash))
      (hknown : ∀ id ∈ known, id ∈ chain.map (·.blockHash)) :
    ∃ entry, db.nextChainEntry writeVarInt hashBytes (unknown ++ known) n = some entry ∧
      (entry.startHeight = none ↔ known = []) ∧
      ∀ first, known.head? = some first →
        ∃ start blocks, (∃ b, chain[start]? = some b ∧ b.blockHash = first) ∧
        blocks = (chain.take (min (start + n) chain.length)).drop start ∧ entry.startHeight = some start ∧
        entry.blockIds = blocks.map (·.blockHash) ∧ entry.blockWeights = blocks.map (·.weight) ∧
        entry.firstBlockBlob = blocks[1]?.map fun b => env.oxide.serializeBlock b.block := by
  obtain ⟨c, hchain, hrep⟩ := hrun.contents
  have hlength : chainHeight db.tables = chain.length := by
    rw [chainHeight, hrep.blockHeights.len, length_map, hchain.contentsOf.blocks_length]
  have hsplit : findSplitPoint (unknown ++ known) false false db = unknown.length := by
    refine partitionPoint_append (fun id hid => ?_) fun id hid => ?_
    · simpa using mt (isSome_lookup_blockHeights hchain hrep).mp (hunknown id hid)
    · simpa using (isSome_lookup_blockHeights hchain hrep).mpr (hknown id hid)
  unfold nextChainEntry
  simp only [hsplit, getElem?_append_right le_rfl, Nat.sub_self, ← head?_eq_getElem?]
  cases known with
  | nil => exact ⟨_, rfl, by simp, by simp⟩
  | cons first rest =>
    obtain ⟨start, hstart⟩ := isSome_iff_exists.mp
      ((isSome_lookup_blockHeights hchain hrep).mpr (hknown first mem_cons_self))
    obtain ⟨b, hb, hhash⟩ := (lookup_blockHeights_eq_some hchain hrep).mp hstart
    have hlt := (List.getElem?_eq_some_iff.mp hb).1
    have hstop : min ((start + n) % 2 ^ 64) chain.length = min (start + n) chain.length := by
      rw [Nat.mod_eq_of_lt (by omega)]
    have hinfos : (range' start (min (start + n) chain.length - start)).mapM
        (fun height => db.tables.blockInfos.lookup height) =
          some (((c.blocks.take (min (start + n) chain.length)).drop start).map (·.info)) := by
      have hlen : min (start + n) chain.length - start =
          (((c.blocks.take (min (start + n) chain.length)).drop start).map (·.info)).length := by
        rw [length_map, length_drop, length_take, hchain.contentsOf.blocks_length]
        omega
      nth_rewrite 1 [hlen]
      refine mapM_range' fun k info hk => ?_
      rw [getElem?_map, getElem?_drop] at hk
      obtain ⟨block, hblock, rfl⟩ := map_eq_some_iff.mp hk
      rw [getElem?_take] at hblock
      split at hblock
      · rw [hrep.blockInfos, getElem?_map, hblock]
        rfl
      · cases hblock
    obtain ⟨coins, rctOuts, htop, -⟩ := lookup_block hchain hrep
      (getElem?_eq_getElem (show chainHeight db.tables - 1 < chain.length by omega))
    have hblob : (if (((c.blocks.take (min (start + n) chain.length)).drop start).map
        (·.info)).length ≥ 2 then
        (getBlockBlobWithTxIndexes writeVarInt hashBytes (start + 1) db.tables).map fun b => some b.1
      else some none) = some ((((chain.take (min (start + n) chain.length)).drop start)[1]?).map fun b =>
        env.oxide.serializeBlock b.block) := by
      rw [length_map, length_drop, length_take, hchain.contentsOf.blocks_length, getElem?_drop]
      split
      · have hnext := getElem?_eq_getElem (show start + 1 < chain.length by omega)
        obtain ⟨blob, hblob, hserialized⟩ :=
          getBlockBlobWithTxIndexes_eq hchain hrep hnext writeVarInt hashBytes
        rw [hblob, hserialized hserialize, getElem?_take_of_lt (by omega), hnext]
        rfl
      · rw [getElem?_eq_none (by rw [length_take]; omega)]
        rfl
    simp only [head?_cons, hstart, hlength, hstop, bind_eq_bind, bind_some, hinfos, htop, hblob]
    refine ⟨_, rfl, by simp, ?_⟩
    rintro _ ⟨⟩
    refine ⟨start, _, ⟨b, hb, hhash⟩, rfl, rfl, ?_, ?_, rfl⟩
    · exact map_map.trans (map_drop_take hchain.contentsOf.blockHashes)
    · exact map_map.trans (map_drop_take (map_weight_blocks hchain))

theorem run_nextChainEntry_laidOutBlock : ∃ (db : Database) (entry : NextChainEntry),
    Run laidOutEnv [laidOutBlock] db.tables ∧
    db.nextChainEntry (fun n => [ofNat n]) (fun hash => [ofNat hash.toNat]) ([99] ++ [30]) 10 =
      some entry ∧ entry.startHeight ≠ none := by
  obtain ⟨t, hrun⟩ := laidOutBlock_run
  obtain ⟨entry, hentry, hstart, -⟩ :=
    @run_nextChainEntry { empty with tables := t } laidOutEnv [laidOutBlock]
    (fun n => [ofNat n]) (fun hash => [ofNat hash.toNat]) (fun _ => rfl) hrun 10
    (show 1 + 10 ≤ 2 ^ 64 by norm_num) [99] [30] (by simp [laidOutBlock, mixedBlock])
    (by simp [laidOutBlock, mixedBlock])
  exact ⟨_, entry, hrun, hentry, mt hstart.mp (cons_ne_nil _ _)⟩

/-- The end of an entry of the largest size wraps around, and the entry is empty. -/
theorem nextChainEntry_empty_of_max_size :
    ∃ (Tx : Transaction → Prop) (Alt : AltBlockInformation → Prop) (added : Placed) (db : Database)
      (entry : NextChainEntry), Reachable sampleEnv Tx Alt [sampleFirst, sampleSecond] added db ∧
      (∀ writeVarInt hashBytes, db.nextChainEntry writeVarInt hashBytes [31] (2 ^ 64 - 1) = some entry) ∧
      entry.startHeight = some 1 ∧ entry.blockIds = [] := by
  obtain ⟨db, hreach, -⟩ := sample_reachable (fun _ => True) (fun _ => True) fun _ _ => trivial
  obtain ⟨c, hchain, hrep⟩ := hreach.built.1.run.contents
  have hheight : db.tables.blockHeights.lookup 31 = some 1 :=
    (lookup_blockHeights_eq_some hchain hrep).mpr ⟨sampleSecond, rfl, rfl⟩
  have hsplit : findSplitPoint [31] false false db = 0 := by
    refine @partitionPoint_append Hash _ [] [31] (nofun) (forall_mem_singleton.mpr ?_)
    rw [hheight]
    rfl
  have hlength := hreach.built.1.chainHeight_eq
  obtain ⟨info, htop⟩ : ∃ info, db.tables.blockInfos.lookup (chainHeight db.tables - 1) = some info := by
    have hb : [sampleFirst, sampleSecond][chainHeight db.tables - 1]? = some sampleSecond := by
      rw [hlength]
      rfl
    obtain ⟨_, _, htop, -⟩ := lookup_block hchain hrep hb
    exact ⟨_, htop⟩
  have hstop : (1 + (2 ^ 64 - 1)) % 2 ^ 64 = 0 := by norm_num
  refine ⟨_, _, _, db, ⟨some 1, chainHeight db.tables, [], [],
    info.cumulativeDifficultyHigh * 2 ^ 64 + info.cumulativeDifficultyLow, none⟩, hreach, fun _ _ =>
      ?_, rfl, rfl⟩
  unfold nextChainEntry
  simp only [hsplit, getElem?_cons_zero, hheight, bind_eq_bind, bind_some, htop, hstop, Nat.zero_min,
    Nat.zero_sub, range'_zero, mapM_nil, pure]
  rfl

end

end Cuprate.Storage.Database
