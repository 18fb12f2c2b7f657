import Cuprate.Storage.Proofs.DatabaseProofs

/-!
# Stored alternative blocks

What `get_alt_block` needs of the tables: the information and the blob of each block, and for each
of its transactions the information, and the blob on an alternative or on the main chain.
-/

namespace Cuprate.Storage.Database

open Collections Finmap List Option Function Database Placed

abbrev Known := Hash → Option VerifiedTransactionInformation

variable {env : DatabaseEnv} {known : Known} {added : Placed} {db db' : Database}
  {chain : List VerifiedBlockInformation} {t : Tables} {tx tx' : VerifiedTransactionInformation}

/-! ## Transactions -/

/-- The main chain has the blobs of the known transactions. -/
def MainBlobs (known : Known) (t : Tables) : Prop :=
  ∀ tx, known tx.txHash = some tx → ∀ i, t.txIds.lookup tx.txHash = some i →
    t.txBlobs.lookup i = some tx.txBlob

/-- The alternative chains have the blobs of the known transactions. -/
def AltBlobs (known : Known) (db : Database) : Prop :=
  ∀ tx, known tx.txHash = some tx → ∀ blob, db.altTransactionBlobs.lookup tx.txHash = some blob →
    blob = tx.txBlob

/-- The transaction is a known one and can be read. -/
structure Available (known : Known) (db : Database) (tx : VerifiedTransactionInformation) : Prop where
  known : known tx.txHash = some tx
  info : db.altTransactionInfos.lookup tx.txHash = some (altTransactionInfo tx)
  stored : (db.altTransactionBlobs.lookup tx.txHash).isSome ∨ (db.tables.txIds.lookup tx.txHash).isSome

theorem Available.getAltTransaction_eq (h : Available known db tx) (hmain : MainBlobs known db.tables)
    (halt : AltBlobs known db) (hread : env.readTx tx.txBlob = some tx.tx) :
    db.getAltTransaction env tx.txHash = some tx := by
  have hblob : (db.altTransactionBlobs.lookup tx.txHash).or
      ((db.tables.txIds.lookup tx.txHash).bind db.tables.txBlobs.lookup) = some tx.txBlob := by
    cases hlookup : db.altTransactionBlobs.lookup tx.txHash with
    | some blob => rw [halt tx h.known blob hlookup, Option.some_or]
    | none =>
      have hsome := h.stored.resolve_left (by simp [hlookup])
      obtain ⟨i, hi⟩ := isSome_iff_exists.mp hsome
      rw [hi, Option.none_or, bind_some, hmain tx h.known i hi]
  unfold getAltTransaction
  simp only [h.info, hblob, hread, bind_eq_bind, bind_some, altTransactionInfo]

theorem eq_of_known (h : known tx.txHash = some tx) (h' : known tx'.txHash = some tx')
    (heq : tx.txHash = tx'.txHash) : tx = tx' := by
  rw [heq, h'] at h
  exact (some.inj h).symm

theorem AltBlobs.addAltTransactionBlob (h : AltBlobs known db) (hknown : known tx.txHash = some tx) :
    AltBlobs known (db.addAltTransactionBlob tx) := by
  intro tx' hknown' blob hlookup
  unfold Database.addAltTransactionBlob at hlookup
  split at hlookup
  · exact h tx' hknown' blob hlookup
  · rw [lookup_insert_ite] at hlookup
    split at hlookup
    · next heq =>
      rw [eq_of_known hknown' hknown heq]
      exact (some.inj hlookup).symm
    · exact h tx' hknown' blob hlookup

theorem available_addAltTransactionBlob (hknown : known tx.txHash = some tx) :
    Available known (db.addAltTransactionBlob tx) tx := by
  refine ⟨hknown, lookup_insert _, ?_⟩
  unfold addAltTransactionBlob
  simp only
  split
  · next hstored => exact hstored.symm
  · exact .inl (by rw [lookup_insert]; rfl)

variable {b : VerifiedBlockInformation} {hash : Hash}

theorem isSome_lookup_addAltTransactionBlob (db : Database) (tx : VerifiedTransactionInformation)
    (h : (db.altTransactionBlobs.lookup hash).isSome) :
    ((db.addAltTransactionBlob tx).altTransactionBlobs.lookup hash).isSome := by
  unfold addAltTransactionBlob
  simp only
  split
  · exact h
  · rw [lookup_insert_ite]
    split
    · rfl
    · exact h

theorem Available.addAltTransactionBlob (h : Available known db tx') (hknown : known tx.txHash = some tx) :
    Available known (db.addAltTransactionBlob tx) tx' := by
  refine ⟨h.known, ?_, h.stored.imp_left (isSome_lookup_addAltTransactionBlob db tx)⟩
  show (db.altTransactionInfos.insert tx.txHash (altTransactionInfo tx)).lookup tx'.txHash = _
  rw [lookup_insert_ite]
  split
  · next heq => rw [eq_of_known h.known hknown heq]
  · exact h.info

theorem foldl_addAltTransactionBlob_spec (db : Database) (txs : List VerifiedTransactionInformation)
    (hknown : ∀ tx ∈ txs, known tx.txHash = some tx) (halt : AltBlobs known db) :
    AltBlobs known (txs.foldl addAltTransactionBlob db) ∧
      (∀ tx, Available known db tx → Available known (txs.foldl addAltTransactionBlob db) tx) ∧
      ∀ tx ∈ txs, Available known (txs.foldl addAltTransactionBlob db) tx := by
  induction txs generalizing db with
  | nil => exact ⟨halt, fun tx h => h, fun tx hmem => absurd hmem not_mem_nil⟩
  | cons tx txs ih =>
    have hhead := hknown tx (.head _)
    obtain ⟨halt', hkept, hadded⟩ := ih _ (fun tx hmem => hknown tx (.tail _ hmem))
      (halt.addAltTransactionBlob hhead)
    refine ⟨halt', fun tx' h => hkept tx' (h.addAltTransactionBlob hhead), fun tx' hmem => ?_⟩
    rcases mem_cons.mp hmem with rfl | hmem
    · exact hkept tx' (available_addAltTransactionBlob hhead)
    · exact hadded tx' hmem

/-- The tables hold the alternative blocks that were added. -/
structure Stored (env : DatabaseEnv) (known : Known) (added : Placed) (db : Database) : Prop where
  infos : ∀ key, db.altBlocksInfo.lookup key = (added key).map compactAltBlockInfo
  blobs : ∀ key, db.altBlockBlobs.lookup key = (added key).map (·.blockBlob)
  place : ∀ key altBlock, added key = some altBlock → key = (altBlock.chainId, altBlock.height)
  fields : ∀ key altBlock, added key = some altBlock → AltBlockFields env altBlock
  txs : ∀ key altBlock, added key = some altBlock → ∀ tx ∈ altBlock.txs, Available known db tx
  mainBlobs : MainBlobs known db.tables
  altBlobs : AltBlobs known db

theorem Stored.getAltBlock_eq (h : Stored env known added db) (key : AltBlockHeight) :
    db.getAltBlock env key = added key := by
  cases hadded : added key with
  | none =>
    unfold getAltBlock
    rw [h.infos, hadded]
    rfl
  | some altBlock =>
    obtain rfl := h.place key altBlock hadded
    have hfields := h.fields _ altBlock hadded
    have hread : env.readBlock altBlock.blockBlob = some altBlock.block := by
      rw [hfields.blockBlob, hfields.readBlock]
    have htxs : altBlock.block.transactions.mapM (fun txHash => db.getAltTransaction env txHash) =
        some altBlock.txs := by
      rw [hfields.transactions, mapM_map]
      refine (mapM_eq_some_map (g := id) fun tx hmem => ?_).trans (by rw [List.map_id])
      exact (h.txs _ altBlock hadded tx hmem).getAltTransaction_eq h.mainBlobs h.altBlobs
        (hfields.readTx tx hmem)
    have hdiff : altBlock.cumulativeDifficulty / 2 ^ 64 * 2 ^ 64 + altBlock.cumulativeDifficulty % 2 ^ 64 =
        altBlock.cumulativeDifficulty := Nat.div_add_mod' _ _
    unfold getAltBlock
    simp only [h.infos, h.blobs, hadded, map_some, bind_eq_bind, bind_some, hread, htxs,
      compactAltBlockInfo, hdiff]

theorem stored_flushAltBlocks (hmain : MainBlobs known db.tables) :
    Stored env known (fun _ => none) db.flushAltBlocks where
  infos _ := rfl
  blobs _ := rfl
  place _ _ h := absurd h (some_ne_none _).symm
  fields _ _ h := absurd h (some_ne_none _).symm
  txs _ _ h := absurd h (some_ne_none _).symm
  mainBlobs := hmain
  altBlobs := by
    intro tx hknown blob hlookup
    exact absurd hlookup (by simp [flushAltBlocks])

theorem Stored.withTables (h : Stored env known added db) (hmain : MainBlobs known t)
    (hstored : ∀ key altBlock, added key = some altBlock → ∀ tx ∈ altBlock.txs,
      (db.altTransactionBlobs.lookup tx.txHash).isSome ∨ (t.txIds.lookup tx.txHash).isSome) :
    Stored env known added { db with tables := t } :=
  { h with
    txs := fun key altBlock hadded tx hmem =>
      have hold := h.txs key altBlock hadded tx hmem
      ⟨hold.known, hold.info, hstored key altBlock hadded tx hmem⟩
    mainBlobs := hmain }

theorem Stored.addAltBlock (h : Stored env known added db) {altBlock : AltBlockInformation}
    (hfields : AltBlockFields env altBlock) (hknown : ∀ tx ∈ altBlock.txs, known tx.txHash = some tx)
    (hadd : db.addAltBlock altBlock = some db') : Stored env known (added.add altBlock) db' := by
  obtain ⟨infos, -, -, rfl⟩ := addAltBlock_eq_some hadd
  obtain ⟨halt, hkept, hnew⟩ := foldl_addAltTransactionBlob_spec (db.withAltBlock altBlock infos)
    altBlock.txs hknown h.altBlobs
  obtain ⟨txInfos, blobs, heq⟩ := foldl_addAltTransactionBlob altBlock.txs (db.withAltBlock altBlock infos)
  rw [heq] at halt hkept hnew ⊢
  -- what is at a place is the new block or what was there before
  have hcases : ∀ key altBlock', added.add altBlock key = some altBlock' →
      (key = (altBlock.chainId, altBlock.height) ∧ altBlock' = altBlock) ∨ added key = some altBlock' := by
    intro key altBlock' hkey
    unfold add at hkey
    by_cases hplace : key = (altBlock.chainId, altBlock.height)
    · rw [hplace, update_self] at hkey
      exact .inl ⟨hplace, (some.inj hkey).symm⟩
    · rw [update_of_ne hplace] at hkey
      exact .inr hkey
  have hlookup : ∀ {V : Type} (u : Table AltBlockHeight V) (f : AltBlockInformation → V),
      (∀ key, u.lookup key = (added key).map f) → ∀ key,
      (u.insert (altBlock.chainId, altBlock.height) (f altBlock)).lookup key =
        (added.add altBlock key).map f := by
    intro V u f hu key
    rw [lookup_insert_ite, hu]
    unfold add
    split
    · next hplace => rw [hplace, update_self, map_some]
    · next hplace => rw [update_of_ne hplace]
  refine ⟨hlookup db.altBlocksInfo compactAltBlockInfo h.infos, hlookup db.altBlockBlobs _ h.blobs,
    fun key altBlock' hkey => ?_, fun key altBlock' hkey => ?_, fun key altBlock' hkey tx hmem => ?_,
    h.mainBlobs, halt⟩
  · rcases hcases key altBlock' hkey with ⟨rfl, rfl⟩ | hold
    · rfl
    · exact h.place key altBlock' hold
  · rcases hcases key altBlock' hkey with ⟨-, rfl⟩ | hold
    · exact hfields
    · exact h.fields key altBlock' hold
  · rcases hcases key altBlock' hkey with ⟨-, rfl⟩ | hold
    · exact hnew tx hmem
    · have hbefore := h.txs key altBlock' hold tx hmem
      exact hkept tx ⟨hbefore.known, hbefore.info, hbefore.stored⟩

/-! ## Popped blocks -/

/-- The stored blobs are those of the known transactions. -/
def Agrees (env : DatabaseEnv) (known : Known) (chain : List VerifiedBlockInformation) : Prop :=
  ∀ x ∈ chainTxs env.toStorageEnv chain, ∀ tx, known tx.txHash = some tx → tx.txHash = x.hash →
    x.blob = tx.txBlob

theorem Agrees.take (h : Agrees env known chain) (k : Nat) : Agrees env known (chain.take k) := by
  intro x hx
  obtain ⟨b, hb, hx⟩ := mem_flatMap.mp hx
  exact h x (mem_flatMap.mpr ⟨b, mem_of_mem_take hb, hx⟩)

theorem Built.mainBlobs (h : Built env chain t) (hagrees : Agrees env known chain) :
    MainBlobs known t := by
  intro tx hknown i hi
  obtain ⟨c, hcontents, hrep⟩ := h.contents
  have hhash := (hrep.txIds _ _).mp hi
  rw [getElem?_map, hcontents.txs] at hhash
  obtain ⟨x, hx, hhash⟩ := map_eq_some_iff.mp hhash
  rw [hrep.txBlobs, getElem?_map, hcontents.txs, hx, map_some,
    hagrees x (mem_of_getElem? hx) tx hknown hhash.symm]

theorem altBlockFields_of_verified (h : VerifiedBlock env chain t b) (id : ChainId) :
    AltBlockFields env (altBlockOf id b) where
  blockBlob := h.blockBlob
  readBlock := h.readBlock
  transactions := h.wellFormed.transactions
  txFields := h.txFields
  readTx _ hmem := h.wellFormed.readTx _ (.tail _ (mem_map_of_mem hmem))

/-- The blocks of a chain from a height on have been moved to an alternative chain, with the blobs
of their transactions. -/
structure Moved (env : DatabaseEnv) (known : Known) (chain : List VerifiedBlockInformation) (id : ChainId)
    (k : Nat) (db : Database) : Prop where
  built : Built env (chain.take k) db.tables
  stored : Stored env known (.ofPopped id (chain.drop k)) db
  inAlt : ∀ key altBlock, ofPopped id (chain.drop k) key = some altBlock →
    ∀ tx ∈ altBlock.txs, (db.altTransactionBlobs.lookup tx.txHash).isSome

theorem moved_flushAltBlocks (hbuilt : Built env chain db.tables) (hagrees : Agrees env known chain)
    (id : ChainId) : Moved env known chain id chain.length db.flushAltBlocks where
  built := by rwa [take_length]
  stored := by
    rw [drop_length]
    exact stored_flushAltBlocks (hbuilt.mainBlobs hagrees)
  inAlt := by
    intro key altBlock hadded
    rw [drop_length] at hadded
    cases hadded

theorem isSome_lookup_addAltBlock {altBlock : AltBlockInformation}
    (hadd : db.addAltBlock altBlock = some db')
    (h : (db.altTransactionBlobs.lookup hash).isSome) : (db'.altTransactionBlobs.lookup hash).isSome := by
  obtain ⟨infos, -, -, rfl⟩ := addAltBlock_eq_some hadd
  have hfold : ∀ (txs : List VerifiedTransactionInformation) (db : Database),
      (db.altTransactionBlobs.lookup hash).isSome →
      ((txs.foldl addAltTransactionBlob db).altTransactionBlobs.lookup hash).isSome := by
    intro txs
    induction txs with
    | nil => exact fun db h => h
    | cons tx txs ih => exact fun db h => ih _ (isSome_lookup_addAltTransactionBlob db tx h)
  exact hfold _ _ h

/-- Popping one more block. Its transactions are no longer in the main chain, so their blobs are
stored. -/
theorem Moved.popBlock {id : ChainId} {k : Nat} (h : Moved env known chain id (k + 1) db)
    (hlt : k < chain.length)
    (hagrees : Agrees env known chain) (hknown : ∀ b ∈ chain, ∀ tx ∈ b.txs, known tx.txHash = some tx)
    (hpop : db.popBlock env (some id) = some db') : Moved env known chain id k db' := by
  have htake : chain.take (k + 1) = chain.take k ++ [chain[k]] := (take_append_getElem hlt).symm
  have hdrop : chain.drop k = chain[k] :: chain.drop (k + 1) := drop_eq_getElem_cons hlt
  have hbuilt := h.built
  rw [htake] at hbuilt
  obtain ⟨t, hbuilt', hverified, heq⟩ := popBlock_eq hbuilt id
  rw [heq] at hpop
  have hstored := (h.stored.withTables (hbuilt'.mainBlobs (hagrees.take k))
      fun key altBlock hadded tx hmem =>
    .inl (h.inAlt key altBlock hadded tx hmem)).addAltBlock (altBlockFields_of_verified hverified id)
    (hknown _ (getElem_mem hlt)) hpop
  have htables := tables_addAltBlock hpop
  have hplaced : ofPopped id (chain.drop k) =
      (ofPopped id (chain.drop (k + 1))).add (altBlockOf id chain[k]) := by rw [hdrop]; rfl
  refine ⟨by rwa [htables], by rwa [hplaced], fun key altBlock hadded tx hmem => ?_⟩
  have havailable := hstored.txs key altBlock (hplaced ▸ hadded) tx hmem
  rw [hplaced] at hadded
  unfold add at hadded
  by_cases hplace : key = ((altBlockOf id chain[k]).chainId, (altBlockOf id chain[k]).height)
  · rw [hplace, update_self] at hadded
    cases hadded
    refine havailable.stored.resolve_right ?_
    have hnew := hverified.hashes_new _ (.tail _ (mem_map_of_mem hmem))
    rw [htables]
    rw [hnew]
    exact Bool.false_ne_true
  · rw [update_of_ne hplace] at hadded
    exact isSome_lookup_addAltBlock hpop (h.inAlt key altBlock hadded tx hmem)

theorem Moved.popBlocksLoop {id : ChainId} {k numbBlocks : Nat} (h : Moved env known chain id k db)
    (hle : k ≤ chain.length) (hagrees : Agrees env known chain)
    (hknown : ∀ b ∈ chain, ∀ tx ∈ b.txs, known tx.txHash = some tx)
    (hpop : db.popBlocksLoop env id numbBlocks = some db') :
      Moved env known chain id (k - numbBlocks) db' := by
  induction numbBlocks generalizing k db with
  | zero =>
    cases hpop
    exact h
  | succ numbBlocks ih =>
    obtain ⟨db₁, hpop₁, hloop⟩ := bind_eq_some_iff.mp hpop
    cases k with
    | zero =>
      have hnone := popBlock_of_built_nil h.built
      unfold Database.popBlock at hpop₁
      rw [hnone] at hpop₁
      cases hpop₁
    | succ k =>
      rw [Nat.add_sub_add_right]
      exact ih (h.popBlock hle hagrees hknown hpop₁) (Nat.le_of_succ_le hle) hloop

def chainKnown (chain : List VerifiedBlockInformation) : Known := fun hash =>
  (chain.flatMap (·.txs)).find? fun tx => tx.txHash = hash

theorem txHashes_sublist (env : StorageEnv) (chain : List VerifiedBlockInformation) :
    ((chain.flatMap (·.txs)).map (·.txHash)).Sublist ((chainTxs env chain).map (·.hash)) := by
  induction chain with
  | nil => exact List.Sublist.refl _
  | cons b chain ih =>
    have hblock : (b.txs.map (·.txHash)).Sublist ((storedTxs env b).map (·.hash)) := by
      unfold storedTxs
      rw [map_cons, List.map_map]
      exact sublist_cons_self ..
    unfold chainTxs at ih ⊢
    rw [flatMap_cons, flatMap_cons, map_append, map_append]
    exact hblock.append ih

theorem Built.chainKnown_eq (h : Built env chain t) (hb : b ∈ chain) (htx : tx ∈ b.txs) :
    chainKnown chain tx.txHash = some tx := by
  have hnodup := h.txHashes_nodup.sublist (txHashes_sublist env.toStorageEnv chain)
  exact find?_eq_some_of_nodup hnodup (mem_flatMap.mpr ⟨b, hb, htx⟩)

theorem Built.agrees_chainKnown (h : Built env chain t) : Agrees env (chainKnown chain) chain := by
  intro x hx tx hknown hhash
  obtain ⟨b, hb, htx⟩ := mem_flatMap.mp (mem_of_find?_eq_some hknown)
  have hstored : (⟨tx.tx, tx.txBlob, tx.txHash, b.height⟩ : StoredTx) ∈ chainTxs env.toStorageEnv chain :=
    mem_flatMap.mpr ⟨b, hb, mem_cons_of_mem _ (mem_map_of_mem htx)⟩
  rw [← inj_on_of_nodup_map h.txHashes_nodup hstored hx hhash]

section Reachable

variable {Tx : Transaction → Prop} {Alt : AltBlockInformation → Prop}

theorem Reachable.built (h : Reachable env Tx Alt chain added db) :
    Built env chain db.tables ∧ ∀ x ∈ chainTxs env.toStorageEnv chain, Tx x.tx := by
  induction h with
  | empty => exact ⟨.empty, fun x hx => absurd hx not_mem_nil⟩
  | writeBlock hreach hverified htxs hwrite ih =>
    obtain ⟨t, hadd, rfl⟩ := map_eq_some_iff.mp hwrite
    refine ⟨.add ih.1 hverified hadd, fun x hx => ?_⟩
    rw [chainTxs_concat] at hx
    exact (mem_append.mp hx).elim (ih.2 x) (htxs x)
  | writeAltBlock hreach halt hwrite ih => exact ⟨by rw [tables_addAltBlock hwrite]; exact ih.1, ih.2⟩
  | popBlocks hreach hpop ih =>
    have hmoved := (moved_flushAltBlocks ih.1 ih.1.agrees_chainKnown _).popBlocksLoop (le_rfl)
      ih.1.agrees_chainKnown (fun b hb tx htx => ih.1.chainKnown_eq hb htx) hpop
    refine ⟨hmoved.built, fun x hx => ?_⟩
    obtain ⟨b, hb, hx⟩ := mem_flatMap.mp hx
    exact ih.2 x (mem_flatMap.mpr ⟨b, mem_of_mem_take hb, hx⟩)
  | flushAltBlocks hreach ih => exact ih

/-! ## Reachable databases -/

theorem TxFields.eq_of_tx_eq (h : TxFields env tx) (h' : TxFields env tx') (heq : tx.tx = tx'.tx) :
    tx = tx' := by
  obtain ⟨txBlob, txWeight, fee, txHash, inner⟩ := tx
  obtain ⟨txBlob', txWeight', fee', txHash', inner'⟩ := tx'
  obtain rfl : inner = inner' := heq
  have hfee : fee = fee' := Except.ok.inj (h.fee.symm.trans h'.fee)
  have hblob : txBlob = txBlob' := h.txBlob.trans h'.txBlob.symm
  have hweight : txWeight = txWeight' := h.txWeight.trans h'.txWeight.symm
  have hhash : txHash = txHash' := h.txHash.trans h'.txHash.symm
  rw [hfee, hblob, hweight, hhash]

open Classical in
noncomputable def knownOf (env : DatabaseEnv) (Tx : Transaction → Prop) : Known := fun hash =>
  if h : ∃ tx, TxFields env tx ∧ Tx tx.tx ∧ tx.txHash = hash then some h.choose else none

theorem knownOf_spec (h : knownOf env Tx hash = some tx) : TxFields env tx ∧ Tx tx.tx := by
  unfold knownOf at h
  split at h
  · next hex =>
    cases h
    exact ⟨hex.choose_spec.1, hex.choose_spec.2.1⟩
  · cases h

def HashesDiffer (env : DatabaseEnv) (Tx : Transaction → Prop) : Prop :=
  ∀ tx tx', Tx tx → Tx tx' → env.oxide.hashTx tx = env.oxide.hashTx tx' → tx = tx'

theorem knownOf_eq (hinj : HashesDiffer env Tx) (hfields : TxFields env tx) (htx : Tx tx.tx) :
    knownOf env Tx tx.txHash = some tx := by
  have hex : ∃ tx', TxFields env tx' ∧ Tx tx'.tx ∧ tx'.txHash = tx.txHash := ⟨tx, hfields, htx, rfl⟩
  obtain ⟨hfields', htx', hhash⟩ := hex.choose_spec
  have heq := hinj _ _ htx' htx (hfields'.txHash.symm.trans (hhash.trans hfields.txHash))
  unfold knownOf
  rw [dif_pos hex, hfields'.eq_of_tx_eq hfields heq]

section
variable (h : Built env chain t)
include h

theorem Built.storedTx_fields {x : StoredTx} (hx : x ∈ chainTxs env.toStorageEnv chain) :
    x.hash = env.oxide.hashTx x.tx ∧ x.blob = env.oxide.serializeTx x.tx := by
  obtain ⟨b, hb, hx⟩ := mem_flatMap.mp hx
  obtain ⟨i, hi⟩ := mem_iff_getElem?.mp hb
  obtain ⟨-, t', hverified⟩ := h.verified hi
  rcases mem_cons.mp hx with rfl | hx
  · exact ⟨rfl, rfl⟩
  · obtain ⟨tx, htx, rfl⟩ := mem_map.mp hx
    exact ⟨(hverified.txFields tx htx).txHash, (hverified.txFields tx htx).txBlob⟩

theorem Built.agrees_knownOf (hinj : HashesDiffer env Tx)
    (htxs : ∀ x ∈ chainTxs env.toStorageEnv chain, Tx x.tx) : Agrees env (knownOf env Tx) chain := by
  intro x hx tx hknown hhash
  obtain ⟨hxhash, hxblob⟩ := h.storedTx_fields hx
  obtain ⟨hfields, htx⟩ := knownOf_spec hknown
  rw [hfields.txHash, hxhash] at hhash
  rw [hxblob, hfields.txBlob, hinj _ _ htx (htxs x hx) hhash]

theorem Built.knownOf_eq (hinj : HashesDiffer env Tx)
    (htxs : ∀ x ∈ chainTxs env.toStorageEnv chain, Tx x.tx) (hb : b ∈ chain) (htx : tx ∈ b.txs) :
    knownOf env Tx tx.txHash = some tx := by
  obtain ⟨i, hi⟩ := mem_iff_getElem?.mp hb
  obtain ⟨-, t', hverified⟩ := h.verified hi
  refine Database.knownOf_eq hinj (hverified.txFields tx htx) ?_
  exact htxs ⟨tx.tx, tx.txBlob, tx.txHash, b.height⟩
    (mem_flatMap.mpr ⟨b, hb, mem_cons_of_mem _ (mem_map_of_mem htx)⟩)

theorem Built.isSome_lookup_txIds {t' : Tables} (h' : Built env (chain ++ [b]) t')
    (hsome : (t.txIds.lookup hash).isSome) : (t'.txIds.lookup hash).isSome := by
  rw [← Option.ne_none_iff_isSome] at hsome ⊢
  intro hnone
  refine hsome (h.lookup_txIds fun hmem => ?_)
  obtain ⟨c, hcontents, hrep⟩ := h'.contents
  refine hrep.txIds.lookup_eq_none.mp hnone ?_
  rw [hcontents.txs, chainTxs_concat, map_append]
  exact mem_append_left _ hmem

end

theorem Reachable.stored (hinj : HashesDiffer env Tx)
    (h : Reachable env Tx (fun a => AltBlockFields env a ∧ ∀ tx ∈ a.txs, Tx tx.tx) chain added db) :
    Stored env (knownOf env Tx) added db := by
  induction h with
  | empty =>
    have hbuilt : Built env [] Database.empty.tables := .empty
    exact stored_flushAltBlocks (hbuilt.mainBlobs (hbuilt.agrees_knownOf hinj (by simp [chainTxs])))
  | @writeBlock chain added db db' b hreach hverified htxs hwrite ih =>
    obtain ⟨hbuilt', htxs'⟩ := (Reachable.writeBlock hreach hverified htxs hwrite).built
    obtain ⟨t, hadd, rfl⟩ := map_eq_some_iff.mp hwrite
    refine ih.withTables (hbuilt'.mainBlobs (hbuilt'.agrees_knownOf hinj htxs')) ?_
    intro key altBlock hadded tx hmem
    exact (ih.txs key altBlock hadded tx hmem).stored.imp_right
      (hreach.built.1.isSome_lookup_txIds hbuilt')
  | writeAltBlock hreach halt hwrite ih =>
    exact ih.addAltBlock halt.1
      (fun tx hmem => Database.knownOf_eq hinj (halt.1.txFields tx hmem) (halt.2 tx hmem)) hwrite
  | popBlocks hreach hpop ih =>
    obtain ⟨hbuilt, htxs⟩ := hreach.built
    have hagrees := hbuilt.agrees_knownOf hinj htxs
    exact ((moved_flushAltBlocks hbuilt hagrees _).popBlocksLoop (le_rfl) hagrees
      (fun b hb tx htx => hbuilt.knownOf_eq hinj htxs hb htx) hpop).stored
  | flushAltBlocks hreach ih => exact stored_flushAltBlocks ih.mainBlobs

/-- In every reachable database the places of the stored alternative blocks are those where one was
added, and `get_alt_block` returns it with all its data. -/
theorem Reachable.getAltBlock_eq_added (hinj : HashesDiffer env Tx)
    (h : Reachable env Tx (fun a => AltBlockFields env a ∧ ∀ tx ∈ a.txs, Tx tx.tx) chain added db)
    (key : AltBlockHeight) :
    ((db.altBlocksInfo.lookup key).isSome ↔ (added key).isSome) ∧ db.getAltBlock env key = added key := by
  have hstored := h.stored hinj
  refine ⟨?_, hstored.getAltBlock_eq key⟩
  rw [hstored.infos, Option.isSome_map]

end Reachable

/-! ## A transaction that is stored for the main chain only -/

def sampleMinerTx (height : Nat) :
    Transaction := .v2 ⟨.block 60, [.gen height], [⟨some 7, 10, none⟩], []⟩ none

def sampleTx : Transaction := .v1 ⟨.none, [.toKey (some 9) [0] 5], [⟨some 3, 11, none⟩], []⟩ []

def sampleBlock (nonce : UInt32) : Block := ⟨⟨1, 1, 0, 30, nonce⟩, sampleMinerTx 1, [42]⟩

def sampleGenesis : Block := ⟨⟨1, 1, 0, 0, 0⟩, sampleMinerTx 0, []⟩

def sampleReadTx : List UInt8 → Option Transaction
  | [0] => some (sampleMinerTx 0)
  | [1] => some (sampleMinerTx 1)
  | [2] => some sampleTx
  | _ => none

theorem sampleReadTx_readable (bytes : List UInt8) (tx : Transaction) (h : sampleReadTx bytes = some tx) :
    Readable tx := by
  unfold sampleReadTx at h
  split at h
  · cases h
    exact ⟨fun out _ _ => rfl, ⟨by decide, by decide⟩, trivial⟩
  · cases h
    exact ⟨fun out _ _ => rfl, ⟨by decide, by decide⟩, trivial⟩
  · cases h
    refine ⟨?_, trivial, trivial⟩
    show ∀ out ∈ sampleTx.txPrefix.outputs, out.amount.isSome
    decide
  · cases h

def sampleEnv : DatabaseEnv where
  oxide :=
    { serializeBlock := fun b => if b = sampleGenesis then [0] else if b = sampleBlock 0 then [1] else [2]
      hashBlock := fun b => if b = sampleGenesis then 30 else if b = sampleBlock 0 then 31 else 32
      serializePowHash := fun _ => []
      serializeTx := fun tx =>
        if tx = sampleMinerTx 0 then [0] else if tx = sampleMinerTx 1 then [1] else [2]
      hashTx := fun tx => if tx = sampleMinerTx 0 then 40 else if tx = sampleMinerTx 1 then 41 else 42
      txWeight := fun _ => 80 }
  serializeHeader := fun header => if header = sampleGenesis.header then [0] else [1]
  readHeader := fun bytes =>
    some (if bytes = [0] then sampleGenesis.header else (sampleBlock 0).header)
  readTx := sampleReadTx
  computeZeroCommitment := fun amount => BitVec.ofNat 256 amount.toNat
  readTx_readable := sampleReadTx_readable
  readBlock := fun bytes =>
    some (if bytes = [0] then sampleGenesis else if bytes = [1] then sampleBlock 0 else sampleBlock 1)

def sampleTxInformation : VerifiedTransactionInformation := ⟨[2], 80, 6, 42, sampleTx⟩

def sampleFirst : VerifiedBlockInformation where
  block := sampleGenesis
  blockBlob := [0]
  txs := []
  blockHash := 30
  powHash := 0
  height := 0
  generatedCoins := 7
  weight := 80
  longTermWeight := 80
  cumulativeDifficulty := 1

def sampleSecond : VerifiedBlockInformation where
  block := sampleBlock 0
  blockBlob := [1]
  txs := [sampleTxInformation]
  blockHash := 31
  powHash := 0
  height := 1
  generatedCoins := 7
  weight := 160
  longTermWeight := 160
  cumulativeDifficulty := 2

def sampleAltBlock : AltBlockInformation where
  block := sampleBlock 1
  blockBlob := [2]
  txs := [sampleTxInformation]
  blockHash := 32
  powHash := 0
  height := 1
  weight := 160
  longTermWeight := 160
  cumulativeDifficulty := 2
  chainId := 7

theorem sampleTxInformation_fields : TxFields sampleEnv sampleTxInformation where
  txBlob := by decide
  txWeight := rfl
  txHash := by decide
  fee := by decide

theorem sampleFirst_verified : VerifiedBlock sampleEnv [] .empty sampleFirst where
  toValidToAdd := .first ⟨by decide, by decide, ⟨0, rfl⟩, rfl, nofun⟩ rfl (by decide) (by decide)
  blockBlob := by decide
  readBlock := by decide
  previous := fun _ h => absurd h (by simp)
  txFields := nofun
  keyInputs := nofun

theorem sampleSecond_verified (h : Built sampleEnv [sampleFirst] t) :
    VerifiedBlock sampleEnv [sampleFirst] t sampleSecond where
  wellFormed :=
    { readHeader := by decide
      readTx := by decide
      minerInput := ⟨1, rfl⟩
      transactions := rfl
      commitments := by
        intro tx hmem
        obtain rfl := mem_singleton.mp hmem
        trivial }
  height_eq := h.chainHeight_eq.symm
  height_lt := by decide
  hashes_nodup := by decide
  hashes_new := by
    have hnew : ∀ x ∈ storedTxs sampleEnv.toStorageEnv sampleSecond,
        x.hash ∉ (chainTxs sampleEnv.toStorageEnv [sampleFirst]).map (·.hash) := by decide
    exact fun x hx => h.lookup_txIds (hnew x hx)
  keyImages_nodup := by decide
  keyImages_new := by
    have hnone : ((chainTxs sampleEnv.toStorageEnv [sampleFirst]).flatMap fun x => x.tx.keyImages) =
        [] := rfl
    exact fun _ _ k _ => h.lookup_keyImages (by rw [hnone]; exact not_mem_nil)
  blockHash_new := h.lookup_blockHeights (by decide)
  blockBlob := by decide
  readBlock := by decide
  previous := by
    intro top htop
    obtain rfl : sampleFirst = top := by simpa using htop
    rfl
  txFields := by
    intro tx hmem
    obtain rfl := mem_singleton.mp hmem
    exact sampleTxInformation_fields
  keyInputs := by
    intro tx hmem
    obtain rfl := mem_singleton.mp hmem
    rfl

theorem sampleAltBlock_fields : AltBlockFields sampleEnv sampleAltBlock where
  blockBlob := by decide
  readBlock := by decide
  transactions := rfl
  txFields := by
    intro tx hmem
    obtain rfl := mem_singleton.mp hmem
    exact sampleTxInformation_fields
  readTx := by decide

theorem sample_reachable (Tx : Transaction → Prop) (Alt : AltBlockInformation → Prop)
    (htxs : ∀ tx ∈ [sampleMinerTx 0, sampleMinerTx 1, sampleTx], Tx tx) :
    ∃ db, Reachable sampleEnv Tx Alt [sampleFirst, sampleSecond] (fun _ => none) db ∧
      db.altTransactionBlobs = ∅ ∧ (db.tables.txIds.lookup sampleTxInformation.txHash).isSome := by
  obtain ⟨t, hbuilt, hwrite⟩ := Built.writeBlock empty .empty sampleFirst_verified
  have hfirst : ∀ x ∈ storedTxs sampleEnv.toStorageEnv sampleFirst, x.tx ∈ [sampleMinerTx 0] := by decide
  have hreach : Reachable sampleEnv Tx Alt [sampleFirst] _ _ :=
    .writeBlock .empty sampleFirst_verified
      (fun x hx => htxs _ (mem_of_mem_take (i := 1) (hfirst x hx))) hwrite
  obtain ⟨t', hbuilt', hwrite'⟩ := Built.writeBlock { empty with tables := t } hbuilt
    (sampleSecond_verified hbuilt)
  have hsecond : ∀ x ∈ storedTxs sampleEnv.toStorageEnv sampleSecond,
      x.tx ∈ [sampleMinerTx 1, sampleTx] := by decide
  refine ⟨_, .writeBlock hreach (sampleSecond_verified hbuilt)
    (fun x hx => htxs _ (.tail _ (hsecond x hx))) hwrite', rfl, ?_⟩
  obtain ⟨c, hcontents, hrep⟩ := hbuilt'.contents
  refine isSome_iff_exists.mpr ⟨2, (hrep.txIds _ _).mpr ?_⟩
  rw [hcontents.txs]
  rfl

def sampleTxs : List Transaction := [sampleMinerTx 0, sampleMinerTx 1, sampleTx]

/-- The block of the alternative chain is read although no blob is stored for the alternative
chains. -/
theorem getAltBlock_sampleAltBlock :
    ∃ db : Database, db.altTransactionBlobs = ∅ ∧ (db.altBlocksInfo.lookup (7, 1)).isSome ∧
      db.getAltBlock sampleEnv (7, 1) = some sampleAltBlock := by
  have hinj : HashesDiffer sampleEnv (· ∈ sampleTxs) := by
    have hdec : ∀ tx ∈ sampleTxs, ∀ tx' ∈ sampleTxs,
        sampleEnv.oxide.hashTx tx = sampleEnv.oxide.hashTx tx' → tx = tx' := by decide
    exact fun tx tx' htx htx' => hdec tx htx tx' htx'
  obtain ⟨db, hreach, hblobs, hstored⟩ := sample_reachable (· ∈ sampleTxs)
    (fun a => AltBlockFields sampleEnv a ∧ ∀ tx ∈ a.txs, tx.tx ∈ sampleTxs) fun tx h => h
  obtain ⟨db', hadd⟩ : ∃ db', db.addAltBlock sampleAltBlock = some db' :=
    addAltBlock_isSome (by decide) rfl db
  have hreach' := Reachable.writeAltBlock hreach ⟨sampleAltBlock_fields, by decide⟩ hadd
  obtain ⟨hsome, hget⟩ := hreach'.getAltBlock_eq_added hinj (7, 1)
  have hadded : add sampleAltBlock (fun _ => none) (7, 1) = some sampleAltBlock :=
    update_self ..
  rw [hadded] at hsome hget
  refine ⟨db', ?_, hsome.mpr rfl, hget⟩
  obtain ⟨infos, -, -, rfl⟩ := addAltBlock_eq_some hadd
  show ((db.withAltBlock sampleAltBlock infos).addAltTransactionBlob
    sampleTxInformation).altTransactionBlobs = ∅
  unfold addAltTransactionBlob
  simp only
  rw [if_pos (.inl hstored)]
  exact hblobs

/-- The tables of the main chain depend on the chain alone, not on the requests that led to it. -/
theorem Reachable.flushAltBlocks_eq {Tx Tx' : Transaction → Prop} {Alt Alt' : AltBlockInformation → Prop}
    {added' : Placed} (h : Reachable env Tx Alt chain added db)
      (h' : Reachable env Tx' Alt' chain added' db') : db.flushAltBlocks = db'.flushAltBlocks := by
  have htables : db.tables = db'.tables := h.built.1.unique h'.built.1
  simp only [Database.flushAltBlocks, htables]

/-- With an alternative block and without it. -/
theorem flushAltBlocks_eq_sampleAltBlock : ∃ db db' : Database, db.addAltBlock sampleAltBlock = some db' ∧
    db.flushAltBlocks = db'.flushAltBlocks := by
  obtain ⟨db, hreach, -⟩ := sample_reachable (fun _ => True) (fun _ => True) fun _ _ => trivial
  obtain ⟨db', hadd⟩ : ∃ db', db.addAltBlock sampleAltBlock = some db' :=
    addAltBlock_isSome (by decide) rfl db
  exact ⟨db, db', hadd, hreach.flushAltBlocks_eq (.writeAltBlock hreach trivial hadd)⟩

end Cuprate.Storage.Database
