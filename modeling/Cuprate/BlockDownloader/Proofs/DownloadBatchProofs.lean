import Cuprate.BlockDownloader.DownloadBatch
import Cuprate.Collections.Numbered
import Cuprate.Consensus.BlockVerification

/-!
# The checks on a downloaded batch

A block of an answer passes if it is the one asked for, at the height expected, with its
transactions. The link to the block before is only checked for the first block.
-/

namespace Cuprate.BlockDownloader

open Collections List Option Except Consensus

variable {H : Type} {reader : BlockReader} {start i : Nat} {ids : List Hash} {prev : Hash} {block : Block}
  {entry : BlockCompleteEntry} {r : (Block × List Transaction) × Nat} {response : List BlockCompleteEntry}

variable {peerHandle : H} {blobs : List (List UInt8)} {txs : List Transaction} {e : BlockDownloadError}

theorem removeExpected_eq_nil {expected : List Hash} :
    removeExpected reader expected txs = some [] ↔ (txs.map reader.hashTx).Perm expected := by
  induction txs generalizing expected with
  | nil =>
    rw [map_nil, nil_perm]
    exact Option.some_inj
  | cons tx txs ih =>
    show (if reader.hashTx tx ∈ expected then _ else none) = some [] ↔ _
    rw [map_cons, cons_perm_iff_perm_erase]
    split
    · next hmem => rw [ih, and_iff_right hmem]
    · next hmem => exact iff_of_false (some_ne_none _).symm fun h => hmem h.1

/-- The blobs of an entry are those of the transactions of the block. -/
structure HasTxs (reader : BlockReader) (block : Block) (entry : BlockCompleteEntry)
    (blobs : List (List UInt8))
    (txs : List Transaction) : Prop where
  normal : entry.txs.takeNormal = some blobs
  small : ∀ blob ∈ blobs, blob.length ≤ MAX_TRANSACTION_BLOB_SIZE
  read : blobs.mapM reader.readTx = some txs
  perm : (txs.map reader.hashTx).Perm block.transactions
  nodup : block.transactions.Nodup

/-- An entry passes the checks as the block at position `i`. -/
structure EntryOk (reader : BlockReader) (start : Nat) (ids : List Hash) (prev : Hash)
    (entry : BlockCompleteEntry)
    (i : Nat) (r : (Block × List Transaction) × Nat) : Prop where
  read : reader.readBlock entry.block = some r.1.1
  id : ids[i]? = some (reader.hashBlock r.1.1)
  previous : i = 0 → r.1.1.header.previous = prev
  number : reader.number r.1.1 = start + i
  txs : ∃ blobs, HasTxs reader r.1.1 entry blobs r.1.2 ∧
    r.2 = entry.block.length + (blobs.map List.length).sum

theorem TransactionBlobs.length_takeNormal {txs : TransactionBlobs} (h : txs.takeNormal = some blobs) :
    blobs.length = txs.len := by
  cases txs with
  | pruned txs => cases h
  | normal txs =>
    cases h
    rfl
  | none =>
    cases h
    rfl

theorem mapM_readTx_eq_some :
    (blobs.mapM fun blob =>
      if blob.length > MAX_TRANSACTION_BLOB_SIZE then none else reader.readTx blob) = some txs ↔
      (∀ blob ∈ blobs, blob.length ≤ MAX_TRANSACTION_BLOB_SIZE) ∧ blobs.mapM reader.readTx = some txs := by
  rw [mapM_eq_some, mapM_eq_some]
  constructor
  · intro h
    induction h with
    | nil => exact ⟨forall_mem_nil _, .nil⟩
    | cons hblob h ih =>
      split at hblob
      · cases hblob
      · next hsmall => exact ⟨forall_mem_cons.mpr ⟨not_lt.mp hsmall, ih.1⟩, .cons hblob ih.2⟩
  · rintro ⟨hsmall, h⟩
    induction h with
    | nil => exact .nil
    | cons hblob h ih =>
      obtain ⟨hle, hsmall⟩ := forall_mem_cons.mp hsmall
      refine .cons ?_ (ih hsmall)
      rw [if_neg (not_lt.mpr hle), hblob]

theorem hasTxs_iff (hnormal : entry.txs.takeNormal = some blobs)
    (hread : blobs.mapM reader.readTx = some txs)
    (hsmall : ∀ blob ∈ blobs, blob.length ≤ MAX_TRANSACTION_BLOB_SIZE) :
    HasTxs reader block entry blobs txs ↔ block.transactions.length = entry.txs.len ∧
      removeExpected reader block.transactions.dedup txs = some [] := by
  have hlength : txs.length = entry.txs.len := by
    rw [← TransactionBlobs.length_takeNormal hnormal, (mapM_eq_some.mp hread).length_eq]
  rw [removeExpected_eq_nil]
  constructor
  · rintro ⟨-, -, -, hperm, hnodup⟩
    rw [hnodup.dedup]
    exact ⟨by rw [← hperm.length_eq, length_map, hlength], hperm⟩
  · rintro ⟨hlen, hperm⟩
    have heq : block.transactions.dedup = block.transactions := by
      refine (dedup_sublist _).eq_of_length ?_
      rw [← hperm.length_eq, length_map, hlength, hlen]
    rw [heq] at hperm
    exact ⟨hnormal, hsmall, hread, hperm, heq ▸ nodup_dedup _⟩

theorem deserializeEntry_eq_ok_iff :
    deserializeEntry reader start ids prev (entry, i) = .ok r ↔
      EntryOk reader start ids prev entry i r := by
  unfold deserializeEntry
  constructor
  · intro h
    split at h
    · cases h
    next block hblock =>
    split at h
    · cases h
    next hid =>
    obtain ⟨hid, hlength⟩ := not_or.mp hid
    split at h
    · cases h
    next hprevious =>
    split at h
    · cases h
    next hnumber =>
    split at h
    · cases h
    next blobs hnormal =>
    split at h
    · cases h
    next txs hread =>
    split at h
    · next hexpected =>
      cases h
      obtain ⟨hsmall, hread⟩ := mapM_readTx_eq_some.mp hread
      refine ⟨hblock, not_not.mp hid, fun hzero => ?_, ?_, blobs, ?_, rfl⟩
      · exact not_not.mp fun hne => hprevious ⟨hzero, hne⟩
      · rw [not_not.mp hnumber, add_comm]
      · exact (hasTxs_iff hnormal hread hsmall).mpr ⟨not_not.mp hlength, hexpected⟩
    · cases h
  · obtain ⟨⟨block, txs⟩, size⟩ := r
    rintro ⟨hblock, hid, hprevious, hnumber, blobs, htxs, hsize⟩
    obtain ⟨hlength, hexpected⟩ := (hasTxs_iff htxs.normal htxs.read htxs.small).mp htxs
    dsimp only at hblock hid hprevious hnumber hsize
    simp only [hblock, htxs.normal, mapM_readTx_eq_some.mpr ⟨htxs.small, htxs.read⟩]
    rw [if_neg (not_or.mpr ⟨not_not.mpr hid, not_not.mpr hlength⟩),
      if_neg fun h => h.2 (hprevious h.1), if_neg (not_not.mpr (by omega)), if_pos hexpected, hsize]

theorem deserializeEntry_eq_chainInvalid
    (h : deserializeEntry reader start ids prev (entry, i) = .error .chainInvalid) :
    ∃ block, reader.readBlock entry.block = some block ∧ ids[i]? = some (reader.hashBlock block) := by
  unfold deserializeEntry at h
  split at h
  · cases h
  next block hblock =>
  split at h
  · cases h
  next hid => exact ⟨block, hblock, not_not.mp (not_or.mp hid).1⟩

/-- The errors of the blocks. Those that are checked in parallel may return any of them. -/
def batchErrors (reader : BlockReader) (blocksResponse : List BlockCompleteEntry)
    (expectedStartHeight : Nat)
    (requestedIds : List Hash) (previousId : Hash) : List BlockDownloadError :=
  blocksResponse.zipIdx.filterMap fun entry =>
    match deserializeEntry reader expectedStartHeight requestedIds previousId entry with
    | .error e => some e
    | .ok _ => none

theorem mem_batchErrors : e ∈ batchErrors reader response start ids prev ↔
    ∃ i entry, response[i]? = some entry ∧
      deserializeEntry reader start ids prev (entry, i) = .error e := by
  unfold batchErrors
  rw [mem_filterMap]
  constructor
  · rintro ⟨⟨entry, i⟩, hmem, h⟩
    refine ⟨i, entry, mk_mem_zipIdx_iff_getElem?.mp hmem, ?_⟩
    split at h
    · next e' he =>
      cases h
      exact he
    · cases h
  · rintro ⟨i, entry, hget, h⟩
    exact ⟨(entry, i), mk_mem_zipIdx_iff_getElem?.mpr hget, by rw [h]⟩

/-- The length of the blobs of an entry that has no pruned transactions. -/
def BlockCompleteEntry.size (entry : BlockCompleteEntry) : Nat :=
  entry.block.length + ((entry.txs.takeNormal.getD []).map List.length).sum

theorem EntryOk.size_eq (h : EntryOk reader start ids prev entry i r) : r.2 = entry.size := by
  obtain ⟨blobs, htxs, hsize⟩ := h.txs
  rw [hsize, BlockCompleteEntry.size, htxs.normal]
  rfl

theorem deserializeBatch_eq_ok {batch : BlockBatch H}
    (h : deserializeBatch reader response start ids prev peerHandle = .ok batch) :
    ∃ rs, List.Forall₂ (fun entry r => EntryOk reader start ids prev entry.1 entry.2 r)
      response.zipIdx rs ∧ batch = ⟨rs.map (·.1), (rs.map (·.2)).sum, peerHandle⟩ := by
  obtain ⟨rs, hrs, hbatch⟩ := bind_eq_ok.mp h
  exact ⟨rs, (mapM_eq_ok.mp hrs).imp fun _ _ => deserializeEntry_eq_ok_iff.mp, (ok.inj hbatch).symm⟩

theorem deserializeBatch_eq_error
    (h : deserializeBatch reader response start ids prev peerHandle = .error e) :
    e ∈ batchErrors reader response start ids prev := by
  unfold deserializeBatch at h
  cases hrs : response.zipIdx.mapM (deserializeEntry reader start ids prev) with
  | error e' =>
    rw [hrs] at h
    obtain ⟨⟨entry, i⟩, hmem, he⟩ := exists_of_mapM_error hrs
    exact mem_batchErrors.mpr ⟨i, entry, mk_mem_zipIdx_iff_getElem?.mp hmem, error.inj h ▸ he⟩
  | ok rs =>
    rw [hrs] at h
    cases h

theorem exists_deserializeBatch_eq_ok_iff :
    (∃ batch, deserializeBatch reader response start ids prev peerHandle = .ok batch) ↔
      ∀ i entry, response[i]? = some entry → ∃ r, EntryOk reader start ids prev entry i r := by
  constructor
  · rintro ⟨batch, h⟩ i entry hget
    obtain ⟨rs, hrs, -⟩ := deserializeBatch_eq_ok h
    obtain ⟨r, -, hr⟩ := exists_of_mem_forall₂ hrs.flip (mk_mem_zipIdx_iff_getElem?.mpr hget)
    exact ⟨r, hr⟩
  · intro hok
    cases h : deserializeBatch reader response start ids prev peerHandle with
    | ok batch => exact ⟨batch, rfl⟩
    | error e =>
      obtain ⟨i, entry, hget, he⟩ := mem_batchErrors.mp (deserializeBatch_eq_error h)
      obtain ⟨r, hr⟩ := hok i entry hget
      rw [deserializeEntry_eq_ok_iff.mpr hr] at he
      cases he

/-- An answer with as many blocks as ids passes exactly when each block is the one asked for, at its
height and with its transactions, and the first follows the previous id. The chain is blamed only if
some block has the id that was requested for it. -/
theorem deserializeBatch_spec (reader : BlockReader) (response : List BlockCompleteEntry) (start : Nat)
    (ids : List Hash) (prev : Hash) (peerHandle : H) (hlength : response.length = ids.length) :
    ((∃ batch, deserializeBatch reader response start ids prev peerHandle = .ok batch) ↔
      ∀ i entry id, response[i]? = some entry → ids[i]? = some id → ∃ block,
        reader.readBlock entry.block = some block ∧ reader.hashBlock block = id ∧
        reader.number block = start + i ∧ (i = 0 → block.header.previous = prev) ∧
        ∃ blobs txs, HasTxs reader block entry blobs txs) ∧
    (∀ batch, deserializeBatch reader response start ids prev peerHandle = .ok batch →
      batch.size = (response.map BlockCompleteEntry.size).sum) ∧
    (∀ e, deserializeBatch reader response start ids prev peerHandle = .error e →
      e ∈ batchErrors reader response start ids prev) ∧
    (BlockDownloadError.chainInvalid ∈ batchErrors reader response start ids prev →
      ∃ (i : Nat) (entry : BlockCompleteEntry) (block : Block), response[i]? = some entry ∧
        reader.readBlock entry.block = some block ∧ ids[i]? = some (reader.hashBlock block)) := by
  refine ⟨?_, fun batch h => ?_, fun e => deserializeBatch_eq_error, fun h => ?_⟩
  · rw [exists_deserializeBatch_eq_ok_iff]
    constructor
    · intro hok i entry id hget hid
      obtain ⟨r, hr⟩ := hok i entry hget
      obtain ⟨blobs, htxs, -⟩ := hr.txs
      exact ⟨r.1.1, hr.read, some.inj (hr.id.symm.trans hid), hr.number, hr.previous, blobs, r.1.2, htxs⟩
    · intro hgood i entry hget
      have hlt : i < ids.length := hlength ▸ (List.getElem?_eq_some_iff.mp hget).1
      obtain ⟨block, hread, hid, hnumber, hprevious, blobs, txs, htxs⟩ :=
        hgood i entry ids[i] hget (List.getElem?_eq_getElem hlt)
      refine ⟨((block, txs), _), hread, ?_, hprevious, hnumber, blobs, htxs, rfl⟩
      rw [List.getElem?_eq_getElem hlt, hid]
  · obtain ⟨rs, hrs, rfl⟩ := deserializeBatch_eq_ok h
    have hsizes : rs.map (·.2) = response.zipIdx.map fun entry => entry.1.size := by
      rw [← forall₂_eq_eq_eq, forall₂_map_left_iff, forall₂_map_right_iff]
      exact hrs.flip.imp fun _ _ => EntryOk.size_eq
    rw [hsizes, map_zipIdx_fst]
  · obtain ⟨i, entry, hget, he⟩ := mem_batchErrors.mp h
    obtain ⟨block, hread, hid⟩ := deserializeEntry_eq_chainInvalid he
    exact ⟨i, entry, block, hget, hread, hid⟩

/-! ## Batches that do not follow each other -/

/-- The first block follows the previous id, and each later block follows the one before. -/
def Follow (reader : BlockReader) (prev : Hash) (blocks : List Block) : Prop :=
  (∀ first, blocks[0]? = some first → first.header.previous = prev) ∧
    ∀ i block next, blocks[i]? = some block → blocks[i + 1]? = some next →
      next.header.previous = reader.hashBlock block

/-- A peer answers with the blocks that have the requested ids and with their transactions. -/
structure HonestAnswer (reader : BlockReader) (ids : List Hash) (response : List BlockCompleteEntry)
    (blocks : List Block) : Prop where
  length_eq : response.length = blocks.length
  ids_eq : ids = blocks.map reader.hashBlock
  entries : ∀ (i : Nat) entry block, response[i]? = some entry → blocks[i]? = some block →
    reader.readBlock entry.block = some block ∧ ∃ blobs txs, HasTxs reader block entry blobs txs

namespace HonestAnswer

variable {blocks : List Block}

section
variable (h : HonestAnswer reader ids response blocks)
include h

theorem entryOk_iff (hentry : response[i]? = some entry)
    (hblock : blocks[i]? = some block) : (∃ r, EntryOk reader start ids prev entry i r) ↔
      (i = 0 → block.header.previous = prev) ∧ reader.number block = start + i := by
  obtain ⟨hread, blobs, txs, htxs⟩ := h.entries i entry block hentry hblock
  constructor
  · rintro ⟨r, hr⟩
    obtain rfl := some.inj (hr.read.symm.trans hread)
    exact ⟨hr.previous, hr.number⟩
  · rintro ⟨hprevious, hnumber⟩
    refine ⟨((block, txs), _), hread, ?_, hprevious, hnumber, blobs, htxs, rfl⟩
    rw [h.ids_eq, getElem?_map, hblock]
    rfl

theorem eq_chainInvalid (he : e ∈ batchErrors reader response start ids prev) : e = .chainInvalid := by
  obtain ⟨i, entry, hentry, he⟩ := mem_batchErrors.mp he
  have hlt : i < blocks.length := h.length_eq ▸ (List.getElem?_eq_some_iff.mp hentry).1
  have hblock := List.getElem?_eq_getElem hlt
  obtain ⟨hread, blobs, txs, htxs⟩ := h.entries i entry blocks[i] hentry hblock
  obtain ⟨hlength, hexpected⟩ := (hasTxs_iff htxs.normal htxs.read htxs.small).mp htxs
  have hid : ids[i]? = some (reader.hashBlock blocks[i]) := by
    rw [h.ids_eq, getElem?_map, hblock]
    rfl
  unfold deserializeEntry at he
  simp only [hread, htxs.normal, mapM_readTx_eq_some.mpr ⟨htxs.small, htxs.read⟩] at he
  rw [if_neg (not_or.mpr ⟨not_not.mpr hid, not_not.mpr hlength⟩)] at he
  split at he
  · exact (error.inj he).symm
  split at he
  · exact (error.inj he).symm
  cases he

theorem blocks_eq {batch : BlockBatch H}
    (hok : deserializeBatch reader response start ids prev peerHandle = .ok batch) :
    batch.blocks.map Prod.fst = blocks := by
  obtain ⟨rs, hrs, rfl⟩ := deserializeBatch_eq_ok hok
  obtain ⟨hlength, hget⟩ := forall₂_iff_get.mp hrs
  rw [length_zipIdx] at hlength
  refine ext_getElem (by simp [← hlength, h.length_eq]) fun i hi hi' => ?_
  have hr := hget i (by rw [length_zipIdx, h.length_eq]; exact hi') (by simpa using hi)
  simp only [get_eq_getElem, getElem_zipIdx] at hr
  have hread := (h.entries i _ _ (List.getElem?_eq_getElem (h.length_eq ▸ hi'))
      (List.getElem?_eq_getElem hi')).1
  rw [getElem_map, getElem_map]
  exact some.inj (hr.read.symm.trans hread)

end

/-- The answer of an honest peer is a batch of blocks that follow each other, or the chain is
blamed, exactly when heights and a first block that are as expected only come with blocks that
follow each other. -/
theorem follow_or_chainInvalid_iff (h : HonestAnswer reader ids response blocks) (start : Nat)
    (prev : Hash)
    (peerHandle : H) :
    ((∃ batch, deserializeBatch reader response start ids prev peerHandle = .ok batch ∧
        Follow reader prev (batch.blocks.map Prod.fst)) ∨
      deserializeBatch reader response start ids prev peerHandle = .error .chainInvalid) ↔
    ((∀ first, blocks[0]? = some first → first.header.previous = prev) →
      (∀ i block, blocks[i]? = some block → reader.number block = start + i) →
      ∀ i block next, blocks[i]? = some block → blocks[i + 1]? = some next →
        next.header.previous = reader.hashBlock block) := by
  have hok : (∃ batch, deserializeBatch reader response start ids prev peerHandle = .ok batch) ↔
      (∀ first, blocks[0]? = some first → first.header.previous = prev) ∧
        ∀ i block, blocks[i]? = some block → reader.number block = start + i := by
    rw [exists_deserializeBatch_eq_ok_iff]
    constructor
    · intro hok
      have hboth : ∀ i block, blocks[i]? = some block →
          (i = 0 → block.header.previous = prev) ∧ reader.number block = start + i := by
        intro i block hblock
        have hlt : i < response.length := h.length_eq ▸ (List.getElem?_eq_some_iff.mp hblock).1
        have hentry := List.getElem?_eq_getElem hlt
        exact (h.entryOk_iff hentry hblock).mp (hok i _ hentry)
      exact ⟨fun first hfirst => (hboth 0 first hfirst).1 rfl, fun i block hblock =>
        (hboth i block hblock).2⟩
    · rintro ⟨hfirst, hnumber⟩ i entry hentry
      have hlt : i < blocks.length := h.length_eq ▸ (List.getElem?_eq_some_iff.mp hentry).1
      have hblock := List.getElem?_eq_getElem hlt
      refine (h.entryOk_iff hentry hblock).mpr ⟨?_, hnumber i _ hblock⟩
      rintro rfl
      exact hfirst _ hblock
  cases hresult : deserializeBatch reader response start ids prev peerHandle with
  | ok batch =>
    obtain ⟨hfirst, hnumber⟩ := hok.mp ⟨batch, hresult⟩
    rw [hresult] at hok
    constructor
    · rintro (⟨batch', heq, hfollow⟩ | heq)
      · cases heq
        rw [h.blocks_eq hresult] at hfollow
        exact fun _ _ => hfollow.2
      · cases heq
    · intro hlinked
      refine .inl ⟨batch, rfl, ?_⟩
      rw [h.blocks_eq hresult]
      exact ⟨hfirst, hlinked hfirst hnumber⟩
  | error e =>
    refine iff_of_true (.inr (by rw [h.eq_chainInvalid (deserializeBatch_eq_error hresult)]))
      fun hfirst hnumber => ?_
    obtain ⟨batch, hbatch⟩ := hok.mpr ⟨hfirst, hnumber⟩
    rw [hresult] at hbatch
    cases hbatch

end HonestAnswer

def emptyBlock (height : Nat) (previous : Hash) (nonce : UInt32) : Block :=
  ⟨⟨1, 1, 0, previous, nonce⟩, .v2 ⟨.none, [.gen height], [], []⟩ none, []⟩

/-- The nonce of a block is its blob and its hash. -/
def nonceReader : BlockReader where
  serializeBlock b := [UInt8.ofNat b.header.nonce.toNat]
  hashBlock b := BitVec.ofNat 256 b.header.nonce.toNat
  serializePowHash _ := []
  serializeTx _ := []
  hashTx _ := 0
  txWeight _ := 0
  readBlock
    | [11] => some (emptyBlock 5 10 11)
    | [12] => some (emptyBlock 6 11 12)
    | [13] => some (emptyBlock 6 99 13)
    | _ => none
  readTx _ := none
  number b := match b.minerTransaction.txPrefix.inputs with
    | [.gen height] => height
    | _ => 0

theorem deserializeBatch_spec_emptyBlock :
    ∃ batch, deserializeBatch nonceReader [⟨[11], .none⟩] 5 [11] 10 () = .ok batch := by
  refine (deserializeBatch_spec nonceReader [⟨[11], .none⟩] 5 [11] 10 () rfl).1.mpr
    fun i entry id hentry hid => ?_
  obtain rfl : i = 0 := by
    have := (List.getElem?_eq_some_iff.mp hentry).1
    simpa using this
  cases hentry
  cases hid
  exact ⟨emptyBlock 5 10 11, rfl, rfl, rfl, fun _ => rfl, [], [], rfl, forall_mem_nil _, rfl, .nil, .nil⟩

theorem honestAnswer_emptyBlocks (nonce : UInt8)
    {next : Block} (hnext : nonceReader.readBlock [nonce] = some next)
    (htxs : next.transactions = []) :
    HonestAnswer nonceReader [11, nonceReader.hashBlock next] [⟨[11], .none⟩, ⟨[nonce], .none⟩]
      [emptyBlock 5 10 11, next] where
  length_eq := rfl
  ids_eq := rfl
  entries := by
    have hempty {block : Block} {bytes : List UInt8} (h : block.transactions = []) :
        HasTxs nonceReader block ⟨bytes, .none⟩ [] [] :=
      ⟨rfl, forall_mem_nil _, rfl, h ▸ .nil, h ▸ .nil⟩
    intro i entry block hentry hblock
    match i with
    | 0 =>
      cases hentry
      cases hblock
      exact ⟨rfl, [], [], hempty rfl⟩
    | 1 =>
      cases hentry
      cases hblock
      exact ⟨hnext, [], [], hempty htxs⟩
    | i + 2 => cases hblock

theorem follow_or_chainInvalid_emptyBlocks :
    (∃ batch, deserializeBatch nonceReader [⟨[11], .none⟩, ⟨[12], .none⟩] 5 [11, 12] 10 () = .ok batch ∧
        Follow nonceReader 10 (batch.blocks.map Prod.fst)) ∨
      deserializeBatch nonceReader [⟨[11], .none⟩, ⟨[12], .none⟩] 5 [11, 12] 10 () =
        .error .chainInvalid := by
  refine ((honestAnswer_emptyBlocks 12 rfl rfl).follow_or_chainInvalid_iff 5 10 ()).mpr fun _ _ => ?_
  intro i block next hblock hnext
  match i with
  | 0 =>
    cases hblock
    cases hnext
    rfl
  | i + 1 => cases hnext

/-- An honest peer answers with the two blocks that were asked for. The second one does not follow
the first, but the batch is accepted. Preparing it then fails, for which the peer is banned. -/
theorem deserializeBatch_accepts_fork :
    HonestAnswer nonceReader [11, 13] [⟨[11], .none⟩, ⟨[13], .none⟩]
      [emptyBlock 5 10 11, emptyBlock 6 99 13] ∧
      deserializeBatch nonceReader [⟨[11], .none⟩, ⟨[13], .none⟩] 5 [11, 13] 10 () =
        .ok ⟨[(emptyBlock 5 10 11, []), (emptyBlock 6 99 13, [])], 2, ()⟩ ∧
      ¬ Follow nonceReader 10 [emptyBlock 5 10 11, emptyBlock 6 99 13] ∧
      ∀ (env : BlockEnv) s, env.oxide = nonceReader.toMoneroOxide →
        batchDifficulties env s [emptyBlock 5 10 11, emptyBlock 6 99 13] =
          .error (blockFault .previousIDIncorrect) := by
  refine ⟨honestAnswer_emptyBlocks 13 rfl rfl, by decide, fun hfollow => ?_, fun env s henv => ?_⟩
  · exact absurd (hfollow.2 0 _ _ rfl rfl) (by decide)
  · unfold batchDifficulties
    rw [henv]
    rfl

end Cuprate.BlockDownloader
