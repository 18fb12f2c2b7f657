import Cuprate.Storage.Proofs.StoredBlocksProofs

/-!
# Popped blocks

The request `PopBlocks` moves blocks to a new alternative chain. The request `AltBlocksInChain`
reads them back, and writing them again restores the main chain.
-/

namespace Cuprate.Storage.Database

open Collections Finmap List Option

variable {env : DatabaseEnv} {chain : List VerifiedBlockInformation} {t : Tables} {db db' : Database}
  {b : VerifiedBlockInformation} {id : ChainId} {numbBlocks : Nat}

theorem Built.heights_eq (h : Built env chain t) : chain.map (·.height) = List.range chain.length := by
  refine ext_getElem (by rw [length_map, length_range]) fun i hi hi' => ?_
  rw [getElem_map, getElem_range]
  exact (h.verified (getElem?_eq_getElem (by simpa using hi))).1

theorem Built.length_le (h : Built env chain t) : chain.length ≤ 2 ^ 32 := by
  by_contra hlt
  obtain ⟨hheight, t', hverified⟩ := h.verified (getElem?_eq_getElem (i := 2 ^ 32) (by omega))
  have hsmall := hverified.height_lt
  omega

theorem popBlock_isSome (h : Built env (chain ++ [b]) db.tables) (hne : chain ≠ []) (id : ChainId) :
    ∃ db', db.popBlock env (some id) = some db' := by
  obtain ⟨t, hbuilt, hverified, heq⟩ := popBlock_eq h id
  rw [heq]
  refine addAltBlock_isSome ?_ ?_ _
  · show b.height ≠ 0
    rw [hverified.height_eq, hbuilt.chainHeight_eq]
    exact fun hzero => hne (length_eq_zero_iff.mp hzero)
  · show b.txs.length = b.block.transactions.length
    rw [hverified.wellFormed.transactions, length_map]

theorem chains_popBlock (h : Built env (chain ++ [b]) db.tables) (hne : chain ≠ [])
    (hpop : db.popBlock env (some id) = some db') :
    Built env chain db'.tables ∧ db.chains.popBlock id = some db'.chains := by
  obtain ⟨t, hbuilt, hverified, heq⟩ := popBlock_eq h id
  rw [heq] at hpop
  refine ⟨by rwa [tables_addAltBlock hpop], ?_⟩
  have hadd := chains_addAltBlock hpop
  have hmain : db.chains.mainChain = chain.map (·.blockHash) ++ [b.blockHash] := by
    show mainChain db.tables = _
    rw [h.mainChain_eq, map_append, map_singleton]
  have hmain' : mainChain t = chain.map (·.blockHash) := hbuilt.mainChain_eq
  have hsummary : (altBlockOf id b).summary =
      ⟨(chain.map (·.blockHash)).getLast?.getD 0, b.blockHash, (chain.map (·.blockHash)).length, id⟩ := by
    have htop := getLast?_eq_some_getLast hne
    have hprevious := hverified.previous _ htop
    have hheight : b.height = chain.length := by rw [hverified.height_eq, hbuilt.chainHeight_eq]
    unfold AltBlockInformation.summary altBlockOf
    simp only [getLast?_map, htop, map_some, getD_some, length_map, hprevious, hheight]
  rw [hsummary] at hadd
  unfold ChainDb.popBlock
  simp only [hmain, getLast?_concat, dropLast_concat, bind_eq_bind, bind_some]
  rw [← hadd]
  unfold chains
  rw [hmain']

theorem popBlocksLoop_chains (h : Built env chain db.tables) (hlt : numbBlocks < chain.length)
    (id : ChainId) :
    ∃ db', db.popBlocksLoop env id numbBlocks = some db' ∧
      db.chains.popBlocksLoop id numbBlocks = some db'.chains := by
  induction numbBlocks generalizing chain db with
  | zero => exact ⟨db, rfl, rfl⟩
  | succ numbBlocks ih =>
    rcases eq_nil_or_concat chain with rfl | ⟨chain, b, rfl⟩
    · cases hlt
    · rw [concat_eq_append] at h hlt
      rw [length_append, length_singleton] at hlt
      have hne : chain ≠ [] := length_pos_iff.mp (by omega)
      obtain ⟨db₁, hpop⟩ := popBlock_isSome h hne id
      obtain ⟨hbuilt, hchains⟩ := chains_popBlock h hne hpop
      obtain ⟨db', hloop, hloop'⟩ := ih hbuilt (by omega)
      refine ⟨db', bind_eq_some_iff.mpr ⟨db₁, hpop, hloop⟩, ?_⟩
      exact bind_eq_some_iff.mpr ⟨db₁.chains, hchains, hloop'⟩

/-- Blocks below the whole chain are popped. They are the only alternative chain, and it leaves the
rest of the main chain at its top. -/
theorem popBlocks_spec (h : Built env chain db.tables) (hpos : 1 ≤ numbBlocks)
    (hlt : numbBlocks < chain.length)
    (id : ChainId) :
    ∃ db', db.popBlocks env numbBlocks id = some db' ∧
      Moved env (chainKnown chain) chain id (chain.length - numbBlocks) db' ∧
      (∀ key, (db'.altBlocksInfo.lookup key).isSome → key.1 = id) ∧
      db'.altChainInfos =
        Finmap.insert id ⟨.main, chain.length - numbBlocks - 1, chain.length⟩
          (∅ : Table ChainId AltChainInfo) := by
  have hflush : Built env chain db.flushAltBlocks.tables := h
  obtain ⟨db', hloop, hchains⟩ := popBlocksLoop_chains hflush hlt id
  have hmoved := (moved_flushAltBlocks h h.agrees_chainKnown id).popBlocksLoop (le_rfl)
    h.agrees_chainKnown (fun b hb tx htx => h.chainKnown_eq hb htx) hloop
  refine ⟨db', hloop, hmoved, ?_⟩
  have hnodup := h.blockHashes_nodup
  rw [← h.mainChain_eq] at hnodup
  have hlen : (mainChain db.tables).length = chain.length := by rw [h.mainChain_eq, length_map]
  have hpopped : ChainDb.Popped (mainChain db.tables) id ((mainChain db.tables).length - numbBlocks)
      db'.chains :=
    ChainDb.popBlocksLoop_popped (Ancestry.isBranch_ofNodup hnodup)
      (ChainDb.popped_flushAltBlocks db.chains id) hchains
  constructor
  · rintro ⟨id', height⟩ hsome
    have hblock := hpopped.blocks id' height
    by_contra hne
    rw [if_neg fun hcond => hne hcond.1] at hblock
    unfold chains at hblock
    rw [lookup_mapValues, Option.map_eq_none_iff] at hblock
    rw [hblock] at hsome
    exact Bool.false_ne_true hsome
  · refine ext_lookup fun id' => (hpopped.infos id').trans ?_
    rw [lookup_insert_ite, hlen]
    by_cases hid : id' = id
    · rw [if_pos ⟨hid, by omega⟩, if_pos hid]
    · rw [if_neg fun hcond => hid hcond.1, if_neg hid, lookup_empty]

variable {blocks : List VerifiedBlockInformation}

theorem Placed.ofPopped_eq {start i : Nat} (hheights : ∀ i b, blocks[i]? = some b → b.height = start + i)
    (hb : blocks[i]? = some b) : Placed.ofPopped id blocks (id, start + i) = some (altBlockOf id b) := by
  induction blocks generalizing start i with
  | nil => cases hb
  | cons c blocks ih =>
    have hc : c.height = start := hheights 0 c rfl
    show Function.update (Placed.ofPopped id blocks) (id, c.height) (some (altBlockOf id c)) _ = _
    cases i with
    | zero =>
      cases hb
      rw [hc, add_zero, Function.update_self]
    | succ i =>
      have hne : (id, start + (i + 1)) ≠ (id, c.height) := by
        intro heq
        have := (Prod.mk.inj heq).2
        omega
      rw [Function.update_of_ne hne, ← add_assoc, add_right_comm]
      refine ih (fun j d hd => ?_) hb
      rw [hheights (j + 1) d hd]
      omega

theorem getAltChainHistoryRanges_single {height top : Nat} (htop : top ≤ USIZE_MAX) :
    getAltChainHistoryRanges (0, USIZE_MAX) id (Finmap.insert id ⟨.main, height, top⟩
      (∅ : Table ChainId AltChainInfo)) =
      some [(.alt id, height + 1, top), (.main, 0, height + 1)] := by
  have hlen : (Finmap.insert id ⟨.main, height, top⟩ (∅ : Table ChainId AltChainInfo)).len = 1 := by
    rw [len_insert _ _ (lookup_empty _), len_empty]
  have hpos : 0 < USIZE_MAX := by decide
  unfold getAltChainHistoryRanges
  rw [hlen]
  unfold historyRanges
  simp only [if_pos hpos, lookup_insert, bind_eq_bind, bind_some, Nat.zero_max, min_eq_right htop]

theorem Stored.altBlocksInChain_eq {known : Known} {k : Nat}
    (h : Stored env known (.ofPopped id (chain.drop k)) db)
    (hbuilt : Built env chain t) (hpos : 0 < k)
    (hinfos : db.altChainInfos = Finmap.insert id ⟨.main, k - 1, chain.length⟩
      (∅ : Table ChainId AltChainInfo)) :
    db.altBlocksInChain env id = some ((chain.drop k).map (altBlockOf id)) := by
  have hheights : ∀ i b, (chain.drop k)[i]? = some b → b.height = k + i := by
    intro i b hb
    rw [getElem?_drop] at hb
    exact (hbuilt.verified hb).1
  have hrange : range' k (chain.length - k) = (chain.drop k).map (·.height) := by
    rw [map_drop, hbuilt.heights_eq, range_eq_range', drop_range', mul_one, zero_add]
  have hblocks : altBlocksInRange env db (.alt id, k, chain.length) =
      some ((chain.drop k).map (altBlockOf id)) := by
    show (range' k (chain.length - k)).mapM (fun height => db.getAltBlock env (id, height)) = _
    rw [hrange, mapM_map]
    refine mapM_eq_some_map fun b hb => ?_
    obtain ⟨i, hi⟩ := mem_iff_getElem?.mp hb
    show db.getAltBlock env (id, b.height) = _
    rw [h.getAltBlock_eq, hheights i b hi, Placed.ofPopped_eq hheights hi]
  have htop : chain.length ≤ USIZE_MAX := hbuilt.length_le.trans (by decide)
  unfold altBlocksInChain
  rw [hinfos, getAltChainHistoryRanges_single htop, Nat.sub_add_cancel hpos]
  show ((altBlocksInRange env db (.alt id, k, chain.length)).bind fun blocks => some [blocks]).bind _ = _
  rw [hblocks]
  exact congrArg some (append_nil _)

theorem writeBlocks_eq (h : blocks.foldlM (fun t b => addBlock env.toStorageEnv b t) db.tables = some t) :
    db.writeBlocks env blocks = some { db with tables := t } := by
  induction blocks generalizing db with
  | nil =>
    cases h
    rfl
  | cons b blocks ih =>
    rw [foldlM_cons] at h
    obtain ⟨t₁, hadd, hblocks⟩ := bind_eq_some_iff.mp h
    have hwrite : db.writeBlock env b = some { db with tables := t₁ } :=
        map_eq_some_iff.mpr ⟨t₁, hadd, rfl⟩
    unfold writeBlocks
    rw [foldlM_cons, hwrite]
    have hrest : writeBlocks env blocks { db with tables := t₁ } = some { db with tables := t } :=
        ih hblocks
    exact hrest

theorem addBlock_congr {b b' : VerifiedBlockInformation} (h : altBlockOf id b = altBlockOf id b')
    (hcoins : b.generatedCoins = b'.generatedCoins) (env : StorageEnv) (t : Tables) :
    addBlock env b t = addBlock env b' t := by
  have heq : b' = { b with powHash := b'.powHash } := by
    obtain ⟨block, blockBlob, txs, blockHash, powHash, height, generatedCoins, weight, longTermWeight,
      cumulativeDifficulty⟩ := b
    obtain ⟨block', blockBlob', txs', blockHash', powHash', height', generatedCoins', weight',
      longTermWeight', cumulativeDifficulty'⟩ := b'
    obtain rfl : generatedCoins = generatedCoins' := hcoins
    cases h
    rfl
  rw [heq]
  rfl

theorem foldlM_addBlock_congr {blocks' : List VerifiedBlockInformation}
    (h : blocks.map (altBlockOf id) = blocks'.map (altBlockOf id))
    (hcoins : blocks.map (·.generatedCoins) = blocks'.map (·.generatedCoins)) (env : StorageEnv)
      (t : Tables) :
    blocks.foldlM (fun t b => addBlock env b t) t = blocks'.foldlM (fun t b => addBlock env b t) t := by
  induction blocks generalizing blocks' t with
  | nil =>
    obtain rfl := map_eq_nil_iff.mp h.symm
    rfl
  | cons b blocks ih =>
    cases blocks' with
    | nil => cases h
    | cons b' blocks' =>
      obtain ⟨hb, h⟩ := List.cons.inj h
      obtain ⟨hcoin, hcoins⟩ := List.cons.inj hcoins
      rw [foldlM_cons, foldlM_cons, addBlock_congr hb hcoin]
      exact congrArg _ (funext fun t => ih h hcoins t)

/-- Popped blocks are moved to a new alternative chain, which is then the only one. Reading it
returns the blocks with all their data, the lowest first. Writing blocks with this data and the same
generated coins gives the main chain its tables back. -/
theorem Reachable.popBlocks_altBlocksInChain {Tx : Transaction → Prop} {Alt : AltBlockInformation → Prop}
    {added : Placed} (h : Reachable env Tx Alt chain added db) (hpos : 1 ≤ numbBlocks)
    (hlt : numbBlocks < chainHeight db.tables) (id : ChainId) :
    ∃ db' popped, popped = chain.drop (chain.length - numbBlocks) ∧
      handleBlockchainRequest env id db (.popBlocks numbBlocks) = some (.popBlocks id, db') ∧
      db'.altBlocksInChain env id = some (popped.map (altBlockOf id)) ∧
      popped.map (·.height) = List.range' (chainHeight db.tables - numbBlocks) numbBlocks ∧
      (∀ id', (db'.altChainInfos.lookup id').isSome ↔ id' = id) ∧
      (∀ key, (db'.altBlocksInfo.lookup key).isSome → key.1 = id) ∧
      ∀ blocks : List VerifiedBlockInformation, blocks.map (altBlockOf id) = popped.map (altBlockOf id) →
        blocks.map (·.generatedCoins) = popped.map (·.generatedCoins) →
        ∃ db'', handleBlockchainRequest env id db' (.batchWriteBlocks blocks) = some (.ok, db'') ∧
          db''.tables = db.tables := by
  have hbuilt := h.built.1
  rw [hbuilt.chainHeight_eq] at hlt ⊢
  obtain ⟨db', hpop, hmoved, hblocks, hinfos⟩ := popBlocks_spec hbuilt hpos hlt id
  refine ⟨db', _, rfl, map_eq_some_iff.mpr ⟨db', hpop, rfl⟩,
    hmoved.stored.altBlocksInChain_eq hbuilt (by omega) hinfos, ?_, fun id' => ?_, hblocks, ?_⟩
  · rw [map_drop, hbuilt.heights_eq, range_eq_range', drop_range', mul_one, zero_add,
      Nat.sub_sub_self hlt.le]
  · rw [hinfos, lookup_insert_ite]
    split
    · next hid => exact ⟨fun _ => hid, fun _ => rfl⟩
    · next hid => exact ⟨fun hsome => absurd hsome (by simp), fun hid' => absurd hid' hid⟩
  · intro blocks hsame hcoins
    have hsplit := hbuilt
    rw [← take_append_drop (chain.length - numbBlocks) chain] at hsplit
    obtain ⟨t, hbuilt', hfold⟩ := hsplit.split
    obtain rfl := hbuilt'.unique hmoved.built
    rw [← foldlM_addBlock_congr hsame hcoins] at hfold
    exact ⟨_, map_eq_some_iff.mpr ⟨_, writeBlocks_eq hfold, rfl⟩, rfl⟩

theorem popBlocks_altBlocksInChain_sample : ∃ db db' : Database, 1 < chainHeight db.tables ∧
      handleBlockchainRequest sampleEnv 7 db (.popBlocks 1) = some (.popBlocks 7, db') ∧
      db'.altBlocksInChain sampleEnv 7 = some [altBlockOf 7 sampleSecond] := by
  obtain ⟨db, hreach, -, -⟩ := sample_reachable (fun _ => True) (fun _ => True) fun _ _ => trivial
  have hheight : chainHeight db.tables = 2 := hreach.built.1.chainHeight_eq
  have hlt : 1 < chainHeight db.tables := by omega
  obtain ⟨db', popped, rfl, hpop, hread, -⟩ := hreach.popBlocks_altBlocksInChain (le_refl 1) hlt 7
  exact ⟨db, db', hlt, hpop, hread⟩

end Cuprate.Storage.Database
