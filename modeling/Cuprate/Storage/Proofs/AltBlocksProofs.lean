import Cuprate.Storage.AltBlocks
import Cuprate.Collections.Ancestry

/-!
# The alternative chains of the database

Each alternative chain is a branch of the block tree that leaves its parent chain at the common
ancestor. So `get_alt_block_hash` finds the ancestors of its tip, on whichever chain they are
stored.
-/

namespace Cuprate.Storage

open Collections Finmap List Option Function

namespace ChainDb

variable {A : Ancestry Hash} {db : ChainDb} {rank : ChainId → Nat}

/-- The top block of an alternative chain. -/
def altTip (db : ChainDb) (id : ChainId) : Option Hash :=
  (db.altChainInfos.lookup id).bind fun info => db.altBlocksInfo.lookup (id, info.chainHeight - 1)

/-- The hashes from the genesis block to the top of a chain. -/
def branchOf (A : Ancestry Hash) (db : ChainDb) : Chain → List Hash
  | .main => db.mainChain
  | .alt id => (db.altTip id).elim [] A.chain

variable {id : ChainId}

theorem branchOf_alt {tip : Hash} (h : db.altTip id = some tip) :
    db.branchOf A (.alt id) = A.chain tip := by
  show (db.altTip id).elim [] A.chain = _
  rw [h]
  rfl

/-- The information on an alternative chain fits its blocks. -/
structure ChainOk (A : Ancestry Hash) (db : ChainDb) (rank : ChainId → Nat) (id : ChainId)
    (info : AltChainInfo) : Prop where
  lt : info.commonAncestorHeight + 1 < info.chainHeight
  length_eq : (db.branchOf A (.alt id)).length = info.chainHeight
  blocks : ∀ h, info.commonAncestorHeight < h → h < info.chainHeight →
    db.altBlocksInfo.lookup (id, h) = (db.branchOf A (.alt id))[h]?
  parent_lt : info.commonAncestorHeight < (db.branchOf A info.parentChain).length
  parent_take : (db.branchOf A info.parentChain).take (info.commonAncestorHeight + 1) =
    (db.branchOf A (.alt id)).take (info.commonAncestorHeight + 1)
  parent_rank : ∀ parent, info.parentChain = .alt parent →
    (db.altChainInfos.lookup parent).isSome ∧ rank parent < rank id

/-- The tables hold branches of the block tree. The chains are ranked such that parents come
first. -/
structure Inv (A : Ancestry Hash) (db : ChainDb) (rank : ChainId → Nat) : Prop where
  main : A.IsBranch db.mainChain
  chains : ∀ id info, db.altChainInfos.lookup id = some info → ChainOk A db rank id info
  rank_lt : ∀ id info, db.altChainInfos.lookup id = some info → rank id < db.altChainInfos.len
  blocks_only : ∀ id h hash, db.altBlocksInfo.lookup (id, h) = some hash →
    ∃ info, db.altChainInfos.lookup id = some info ∧ info.commonAncestorHeight < h ∧ h < info.chainHeight
  heights : ∀ hash height, db.altBlockHeights.lookup hash = some height →
    db.altBlocksInfo.lookup height = some hash

theorem Inv.isBranch (h : Inv A db rank) (chain : Chain) : A.IsBranch (db.branchOf A chain) := by
  cases chain with
  | main => exact h.main
  | alt id =>
    show A.IsBranch ((db.altTip id).elim [] A.chain)
    cases db.altTip id with
    | none => exact A.isBranch_nil
    | some tip => exact A.isBranch_chain tip

theorem getElem?_eq_of_take_eq {α : Type} {l l' : List α} {n i : Nat} (h : l.take n = l'.take n)
    (hi : i < n) : l[i]? = l'[i]? := by
  have := congrArg (·[i]?) h
  simpa only [getElem?_take, if_pos hi] using this

/-- The block that is stored for a height, on the chain that it is stored under. -/
def storedBlock (db : ChainDb) (height : Nat) : Chain → Option Hash
  | .main => db.mainChain[height]?
  | .alt id => db.altBlocksInfo.lookup (id, height)

variable {info : AltChainInfo}

theorem Inv.originalChain_spec (h : Inv A db rank) (height : Nat) {rounds : Nat}
    (hid : db.altChainInfos.lookup id = some info) (hrounds : rank id < rounds) :
    ∃ chain, originalChain db.altChainInfos height rounds id = some chain ∧
      db.storedBlock height chain = (db.branchOf A (.alt id))[height]? := by
  induction rounds generalizing id info with
  | zero => cases hrounds
  | succ rounds ih =>
    have hok := h.chains id info hid
    unfold originalChain
    rw [hid]
    simp only [bind_eq_bind, bind_some]
    by_cases hlt : info.commonAncestorHeight < height
    · rw [if_pos hlt]
      refine ⟨.alt id, rfl, ?_⟩
      by_cases htop : height < info.chainHeight
      · exact hok.blocks height hlt htop
      · rw [getElem?_eq_none (by rw [hok.length_eq]; omega)]
        show db.altBlocksInfo.lookup (id, height) = none
        cases hstored : db.altBlocksInfo.lookup (id, height) with
        | none => rfl
        | some hash =>
          obtain ⟨info', hid', -, hlt'⟩ := h.blocks_only id height hash hstored
          obtain rfl := some.inj (hid.symm.trans hid')
          exact absurd hlt' htop
    · rw [if_neg hlt]
      have hparent := getElem?_eq_of_take_eq hok.parent_take (Nat.lt_succ_of_le (not_lt.mp hlt))
      cases hchain : info.parentChain with
      | main =>
        rw [hchain] at hparent
        exact ⟨.main, rfl, hparent⟩
      | alt parent =>
        rw [hchain] at hparent
        obtain ⟨hsome, hrank⟩ := hok.parent_rank parent hchain
        obtain ⟨info', hid'⟩ := isSome_iff_exists.mp hsome
        obtain ⟨chain, horiginal, hstored⟩ := ih hid' (by omega)
        exact ⟨chain, horiginal, hstored.trans hparent⟩

theorem Inv.getAltBlockHash_eq (h : Inv A db rank) (height : Nat)
    (hid : db.altChainInfos.lookup id = some info) :
    db.getAltBlockHash height id = (db.branchOf A (.alt id))[height]? := by
  obtain ⟨chain, horiginal, hstored⟩ := h.originalChain_spec height hid (h.rank_lt id info hid)
  unfold getAltBlockHash
  rw [horiginal, ← hstored]
  cases chain <;> rfl

/-- The chain is the main chain, or it is stored. -/
def Known (db : ChainDb) : Chain → Prop
  | .main => True
  | .alt id => (db.altChainInfos.lookup id).isSome

variable {chain : Chain}

theorem Inv.blockHash_eq (h : Inv A db rank) (height : Nat) (hknown : db.Known chain) :
    db.blockHash height chain = (db.branchOf A chain)[height]? := by
  cases chain with
  | main => rfl
  | alt id =>
    obtain ⟨info, hid⟩ := isSome_iff_exists.mp hknown
    exact h.getAltBlockHash_eq height hid

theorem Inv.findBlock_spec (h : Inv A db rank) {hash : Hash} {height : Nat}
    (hfind : db.findBlock hash = some (chain, height)) :
    db.Known chain ∧ (db.branchOf A chain)[height]? = some hash := by
  unfold findBlock at hfind
  split at hfind
  · next i hi =>
    cases hfind
    refine ⟨trivial, ?_⟩
    obtain ⟨hlt, heq, -⟩ := idxOf?_eq_some_iff.mp hi
    exact List.getElem?_eq_some_iff.mpr ⟨hlt, heq⟩
  · obtain ⟨altHeight, hheight, heq⟩ := map_eq_some_iff.mp hfind
    cases heq
    have hstored := h.heights hash altHeight hheight
    obtain ⟨info, hid, hlt, htop⟩ := h.blocks_only altHeight.1 altHeight.2 hash hstored
    refine ⟨isSome_iff_exists.mpr ⟨info, hid⟩, ?_⟩
    rw [← (h.chains _ info hid).blocks _ hlt htop]
    exact hstored

/-- The chains of one database are those of another, as far as they go. -/
def Grows (A : Ancestry Hash) (db db' : ChainDb) : Prop :=
  ∀ chain, db.Known chain → db'.Known chain ∧ db.branchOf A chain <+: db'.branchOf A chain

theorem Grows.refl (A : Ancestry Hash) (db : ChainDb) :
    Grows A db db := fun _ hknown => ⟨hknown, prefix_rfl⟩

variable {db' : ChainDb}

theorem Grows.getElem? (h : Grows A db db') (hknown : db.Known chain) {i : Nat}
    {hash : Hash} (hget : (db.branchOf A chain)[i]? = some hash) :
      (db'.branchOf A chain)[i]? = some hash := by
  obtain ⟨suffix, hsuffix⟩ := (h chain hknown).2
  obtain ⟨hlt, -⟩ := List.getElem?_eq_some_iff.mp hget
  rw [← hsuffix, List.getElem?_append_left hlt, hget]

theorem Inv.known_parent (h : Inv A db rank)
    (hid : db.altChainInfos.lookup id = some info) : db.Known info.parentChain := by
  cases hparent : info.parentChain with
  | main => trivial
  | alt parent => exact ((h.chains id info hid).parent_rank parent hparent).1

theorem ChainOk.mono {rank' : ChainId → Nat}
    (hok : ChainOk A db rank id info) (hgrows : Grows A db db') (hparent : db.Known info.parentChain)
    (hbranch : db'.branchOf A (.alt id) = db.branchOf A (.alt id))
    (hblocks : ∀ h, db'.altBlocksInfo.lookup (id, h) = db.altBlocksInfo.lookup (id, h))
    (hrank : ∀ parent, info.parentChain = .alt parent → rank' parent < rank' id) :
    ChainOk A db' rank' id info := by
  obtain ⟨hknown', suffix, hsuffix⟩ := hgrows info.parentChain hparent
  have hlt := hok.parent_lt
  refine ⟨hok.lt, by rw [hbranch, hok.length_eq], fun h hlo hhi => ?_, ?_, ?_, fun parent heq => ?_⟩
  · rw [hblocks, hbranch, hok.blocks h hlo hhi]
  · rw [← hsuffix, length_append]
    exact Nat.lt_add_right _ hlt
  · rw [← hsuffix, take_append_of_le_length hlt, hbranch, hok.parent_take]
  · rw [heq] at hknown'
    exact ⟨hknown', hrank parent heq⟩

theorem inv_empty {mainChain : List Hash} (hmain : A.IsBranch mainChain) (rank : ChainId → Nat) :
    Inv A ⟨mainChain, ∅, ∅, ∅⟩ rank where
  main := hmain
  chains id info hid := absurd hid (by simp)
  rank_lt id info hid := absurd hid (by simp)
  blocks_only id h hash hstored := absurd hstored (by simp)
  heights hash height hheight := absurd hheight (by simp)

theorem Inv.flushAltBlocks (h : Inv A db rank) : Inv A db.flushAltBlocks rank := inv_empty h.main rank

theorem grows_addMain (A : Ancestry Hash) (db : ChainDb) (hash : Hash) :
    Grows A db { db with mainChain := db.mainChain ++ [hash] } := by
  intro chain hknown
  cases chain with
  | main => exact ⟨trivial, prefix_append _ _⟩
  | alt id => exact ⟨hknown, prefix_rfl⟩

theorem Inv.addMain (h : Inv A db rank) {hash : Hash} (hhash : A.chain hash = db.mainChain ++ [hash]) :
    Inv A { db with mainChain := db.mainChain ++ [hash] } rank where
  main := Ancestry.isBranch_of_chain_eq hhash
  chains id info hid := (h.chains id info hid).mono (grows_addMain A db hash) (h.known_parent hid) rfl
    (fun _ => rfl) fun parent hparent => ((h.chains id info hid).parent_rank parent hparent).2
  rank_lt := h.rank_lt
  blocks_only := h.blocks_only
  heights := h.heights

/-! ## Adding an alternative block -/

/-- The tables with a block on top of an alternative chain. -/
def withAltBlock (db : ChainDb) (id : ChainId) (info : AltChainInfo) (height : Nat) (hash : Hash) :
    ChainDb :=
  { db with
    altChainInfos := db.altChainInfos.insert id info
    altBlockHeights := db.altBlockHeights.insert hash (id, height)
    altBlocksInfo := db.altBlocksInfo.insert (id, height) hash }

/-- A block fits on top of an alternative chain with the information `info`, which may be a new
chain. -/
structure FitsOn (A : Ancestry Hash) (db : ChainDb) (rank : ChainId → Nat) (id : ChainId)
    (info : AltChainInfo) (height : Nat) (hash : Hash) : Prop where
  length_eq : (A.chain hash).length = height + 1
  chainHeight_eq : info.chainHeight = height + 1
  lt : info.commonAncestorHeight < height
  grows : db.branchOf A (.alt id) <+: A.chain hash
  blocks : ∀ h, info.commonAncestorHeight < h → h < height →
    db.altBlocksInfo.lookup (id, h) = (A.chain hash)[h]?
  blocks_only : ∀ h x, db.altBlocksInfo.lookup (id, h) = some x → info.commonAncestorHeight < h ∧
    h < height
  hash_eq : (A.chain hash)[height]? = some hash
  parent_known : db.Known info.parentChain
  parent_lt : info.commonAncestorHeight < (db.branchOf A info.parentChain).length
  parent_take : (db.branchOf A info.parentChain).take (info.commonAncestorHeight + 1) =
    (A.chain hash).take (info.commonAncestorHeight + 1)
  parent_rank : ∀ parent, info.parentChain = .alt parent → rank parent < rank id
  rank_lt : rank id < (db.altChainInfos.insert id info).len
  len_le : db.altChainInfos.len ≤ (db.altChainInfos.insert id info).len

variable {id : ChainId} {info : AltChainInfo} {height : Nat} {hash : Hash} {id' : ChainId}

theorem lookup_infos_of_ne (db : ChainDb) (hne : id' ≠ id) :
    (db.withAltBlock id info height hash).altChainInfos.lookup id' = db.altChainInfos.lookup id' :=
  lookup_insert_of_ne _ hne

theorem lookup_blocks_of_ne (db : ChainDb) (hne : id' ≠ id) (h : Nat) :
    (db.withAltBlock id info height hash).altBlocksInfo.lookup (id', h) = db.altBlocksInfo.lookup
      (id', h) :=
  lookup_insert_of_ne _ fun heq => hne (Prod.mk.inj heq).1

theorem altTip_of_ne (db : ChainDb) (hne : id' ≠ id) :
    (db.withAltBlock id info height hash).altTip id' = db.altTip id' := by
  unfold altTip
  rw [lookup_infos_of_ne db hne]
  exact congrArg _ (funext fun info' => lookup_blocks_of_ne db hne _)

theorem branchOf_of_ne (db : ChainDb) (hne : id' ≠ id) :
    (db.withAltBlock id info height hash).branchOf A (.alt id') = db.branchOf A (.alt id') := by
  show Option.elim _ _ _ = Option.elim _ _ _
  rw [altTip_of_ne db hne]

section
variable (h : FitsOn A db rank id info height hash)
include h

theorem FitsOn.altTip_eq : (db.withAltBlock id info height hash).altTip id = some hash := by
  show ((db.altChainInfos.insert id info).lookup id).bind _ = _
  rw [lookup_insert]
  show (db.altBlocksInfo.insert (id, height) hash).lookup (id, info.chainHeight - 1) = _
  rw [h.chainHeight_eq, Nat.add_sub_cancel, lookup_insert]

theorem FitsOn.branchOf_eq : (db.withAltBlock id info height hash).branchOf A (.alt id) = A.chain hash :=
  branchOf_alt h.altTip_eq

theorem FitsOn.grows_withAltBlock : Grows A db (db.withAltBlock id info height hash) := by
  intro chain hknown
  cases chain with
  | main => exact ⟨trivial, prefix_rfl⟩
  | alt id' =>
    by_cases heq : id' = id
    · subst heq
      refine ⟨?_, by rw [h.branchOf_eq]; exact h.grows⟩
      show ((db.altChainInfos.insert id' info).lookup id').isSome
      rw [lookup_insert]
      rfl
    · refine ⟨?_, by rw [branchOf_of_ne db heq]⟩
      show (_ : Option AltChainInfo).isSome
      rw [lookup_infos_of_ne db heq]
      exact hknown

end

theorem Inv.withAltBlock (hinv : Inv A db rank) (h : FitsOn A db rank id info height hash) :
    Inv A (db.withAltBlock id info height hash) rank := by
  have hgrows := h.grows_withAltBlock
  refine ⟨hinv.main, fun id' info' hid' => ?_, fun id' info' hid' => ?_, fun id' h' x hx => ?_,
    fun x height' hx => ?_⟩
  · by_cases heq : id' = id
    · subst heq
      obtain rfl : info = info' := some.inj ((lookup_insert _).symm.trans hid')
      obtain ⟨hknown, suffix, hsuffix⟩ := hgrows info.parentChain h.parent_known
      refine ⟨?_, ?_, fun h' hlo hhi => ?_, ?_, ?_, fun parent hparent => ?_⟩
      · rw [h.chainHeight_eq]
        exact Nat.succ_lt_succ h.lt
      · rw [h.branchOf_eq, h.length_eq, h.chainHeight_eq]
      · rw [h.branchOf_eq]
        show (db.altBlocksInfo.insert (id', height) hash).lookup (id', h') = _
        rw [lookup_insert_ite]
        by_cases hh : h' = height
        · rw [if_pos (by rw [hh]), hh, h.hash_eq]
        · rw [if_neg fun he => hh (Prod.mk.inj he).2]
          exact h.blocks h' hlo (by have := h.chainHeight_eq; omega)
      · rw [← hsuffix, length_append]
        exact Nat.lt_add_right _ h.parent_lt
      · rw [← hsuffix, take_append_of_le_length h.parent_lt, h.branchOf_eq, h.parent_take]
      · rw [hparent] at hknown
        exact ⟨hknown, h.parent_rank parent hparent⟩
    · have hold : db.altChainInfos.lookup id' = some info' := by
        rwa [← lookup_infos_of_ne db heq]
      exact (hinv.chains id' info' hold).mono hgrows (hinv.known_parent hold) (branchOf_of_ne db heq)
        (lookup_blocks_of_ne db heq)
        fun parent hparent => ((hinv.chains id' info' hold).parent_rank parent hparent).2
  · by_cases heq : id' = id
    · exact heq ▸ h.rank_lt
    · have hold : db.altChainInfos.lookup id' = some info' := by
        rwa [← lookup_infos_of_ne db heq]
      exact lt_of_lt_of_le (hinv.rank_lt id' info' hold) h.len_le
  · by_cases heq : id' = id
    · subst heq
      refine ⟨info, lookup_insert _, ?_⟩
      have hx : (db.altBlocksInfo.insert (id', height) hash).lookup (id', h') = some x := hx
      rw [lookup_insert_ite] at hx
      have hheight := h.chainHeight_eq
      split at hx
      · next he =>
        obtain rfl := (Prod.mk.inj he).2
        exact ⟨h.lt, by omega⟩
      · obtain ⟨hlo, hhi⟩ := h.blocks_only h' x hx
        exact ⟨hlo, by omega⟩
    · rw [lookup_blocks_of_ne db heq] at hx
      obtain ⟨info', hid', hlo, hhi⟩ := hinv.blocks_only id' h' x hx
      exact ⟨info', (lookup_infos_of_ne db heq).trans hid', hlo, hhi⟩
  · have hx : (db.altBlockHeights.insert hash (id, height)).lookup x = some height' := hx
    show (db.altBlocksInfo.insert (id, height) hash).lookup height' = some x
    rw [lookup_insert_ite] at hx ⊢
    split at hx
    · next he =>
      cases hx
      rw [if_pos rfl, he]
    · have hstored := hinv.heights x height' hx
      have hne : height' ≠ (id, height) := by
        rintro rfl
        exact absurd (h.blocks_only height x hstored).2 (lt_irrefl _)
      rw [if_neg hne, hstored]

variable {prev : Hash}

theorem updateAltChainInfo_eq {altHeight : AltBlockHeight}
    (h : updateAltChainInfo altHeight prev db = some db') :
    db' = { db with altChainInfos := db'.altChainInfos } := by
  unfold updateAltChainInfo at h
  split at h
  · split_ifs at h
    · cases h
      rfl
    · cases h
      rfl
  · split_ifs at h
    cases h
    rfl

theorem addAltBlock_extend (hid : db.altChainInfos.lookup id = some info) :
    db.addAltBlock ⟨prev, hash, info.chainHeight, id⟩ =
      some (db.withAltBlock id { info with chainHeight :=
        info.chainHeight + 1 } info.chainHeight hash) := by
  unfold addAltBlock updateAltChainInfo
  simp only [hid, if_pos (Nat.lt_succ_self _)]
  rfl

theorem addAltBlock_new (hid : db.altChainInfos.lookup id = none) (hne : prev ≠ hash) :
    db.addAltBlock ⟨prev, hash, height + 1, id⟩ =
      some (db.withAltBlock id ⟨db.parentOf prev, height, height + 2⟩ (height + 1) hash) := by
  have hparent (db' : ChainDb)
      (hdb' : db'.altBlockHeights = db.altBlockHeights.insert hash (id, height + 1)) :
      parentOf prev db' = parentOf prev db := by
    unfold parentOf
    rw [hdb', lookup_insert_of_ne _ hne]
  unfold addAltBlock updateAltChainInfo
  simp only [hid, if_neg (Nat.succ_ne_zero _)]
  rw [hparent _ rfl]
  rfl

section
variable (hinv : Inv A db rank)
include hinv

/-- A block on the tip of an alternative chain fits. -/
theorem Inv.fitsOn_extend (hid : db.altChainInfos.lookup id = some info)
    (htip : db.altTip id = some prev) (hchain : A.chain hash = A.chain prev ++ [hash]) :
    FitsOn A db rank id { info with chainHeight := info.chainHeight + 1 } info.chainHeight hash := by
  have hok := hinv.chains id info hid
  have hbranch := branchOf_alt (A := A) htip
  have hlen : (A.chain prev).length = info.chainHeight := by rw [← hbranch, hok.length_eq]
  have hlt := hok.lt
  have hknown := hinv.known_parent hid
  have hlen_insert (info' : AltChainInfo) :
      (db.altChainInfos.insert id info').len = db.altChainInfos.len :=
    len_insert_of_lookup _ _ (by rw [hid]; rfl)
  refine ⟨?_, rfl, ?_, ?_, fun h hlo hhi => ?_, fun h x hx => ?_, ?_, hknown,
    hok.parent_lt, ?_, fun parent hparent => (hok.parent_rank parent hparent).2, ?_, ?_⟩
  · rw [hchain, length_append, hlen, length_singleton]
  · exact Nat.lt_of_succ_lt hlt
  · rw [hbranch, hchain]
    exact prefix_append _ _
  · rw [hok.blocks h hlo hhi, hbranch, hchain, List.getElem?_append_left (by rw [hlen]; exact hhi)]
  · obtain ⟨info', hid', hlo, hhi⟩ := hinv.blocks_only id h x hx
    obtain rfl := some.inj (hid.symm.trans hid')
    exact ⟨hlo, hhi⟩
  · rw [hchain, ← hlen, getElem?_concat_length]
  · rw [hchain, take_append_of_le_length (by rw [hlen]; exact Nat.le_of_lt hlt), ← hbranch]
    exact hok.parent_take
  · rw [hlen_insert]
    exact hinv.rank_lt id info hid
  · rw [hlen_insert]

theorem Inv.update_rank (hid : db.altChainInfos.lookup id = none) (r : Nat) :
    Inv A db (Function.update rank id r) := by
  have hrank {id' : ChainId} (hid' : (db.altChainInfos.lookup id').isSome) :
      Function.update rank id r id' = rank id' := by
    refine update_of_ne ?_ _ _
    rintro rfl
    rw [hid] at hid'
    exact absurd hid' Bool.false_ne_true
  refine ⟨hinv.main, fun id' info' hid' => ?_, fun id' info' hid' => ?_, hinv.blocks_only, hinv.heights⟩
  · refine (hinv.chains id' info' hid').mono (Grows.refl A db) (hinv.known_parent hid') rfl
      (fun _ => rfl) fun parent hparent => ?_
    obtain ⟨hsome, hlt⟩ := (hinv.chains id' info' hid').parent_rank parent hparent
    rwa [hrank hsome, hrank (Option.isSome_of_eq_some hid')]
  · rw [hrank (Option.isSome_of_eq_some hid')]
    exact hinv.rank_lt id' info' hid'

theorem Inv.parentOf_spec (hfind : db.findBlock prev = some (chain, height)) :
    db.Known (db.parentOf prev) ∧ (db.branchOf A (db.parentOf prev))[height]? = some prev := by
  obtain ⟨hknown, hget⟩ := hinv.findBlock_spec hfind
  unfold parentOf
  cases hheight : db.altBlockHeights.lookup prev with
  | none =>
    unfold findBlock at hfind
    rw [hheight] at hfind
    split at hfind
    · cases hfind
      exact ⟨trivial, hget⟩
    · cases hfind
  | some altHeight =>
    have hstored := hinv.heights prev altHeight hheight
    obtain ⟨info, hid, hlo, hhi⟩ := hinv.blocks_only altHeight.1 altHeight.2 prev hstored
    have hget' := ((hinv.chains _ info hid).blocks _ hlo hhi).symm.trans hstored
    obtain rfl := (hinv.isBranch _).index_unique (hinv.isBranch _) hget' hget
    exact ⟨Option.isSome_of_eq_some hid, hget'⟩

/-- A block on top of a known block fits on a new chain. -/
theorem Inv.fitsOn_new (hid : db.altChainInfos.lookup id = none)
    (hfind : db.findBlock prev = some (chain, height)) (hchain : A.chain hash = A.chain prev ++ [hash]) :
    FitsOn A db (Function.update rank id db.altChainInfos.len) id
      ⟨db.parentOf prev, height, height + 2⟩ (height + 1) hash := by
  obtain ⟨hknown, hget⟩ := hinv.parentOf_spec hfind
  obtain ⟨hlt, -⟩ := List.getElem?_eq_some_iff.mp hget
  have hprev := hinv.isBranch _ height prev hget
  have hlen : (A.chain prev).length = height + 1 := by rw [hprev, length_take, min_eq_left hlt]
  have hlen_insert (info' : AltChainInfo) :
      (db.altChainInfos.insert id info').len = db.altChainInfos.len + 1 := len_insert _ _ hid
  have hnone (h : Nat) : db.altBlocksInfo.lookup (id, h) = none := by
    cases hstored : db.altBlocksInfo.lookup (id, h) with
    | none => rfl
    | some x =>
      obtain ⟨info, hid', -⟩ := hinv.blocks_only id h x hstored
      exact absurd (hid.symm.trans hid') (some_ne_none _).symm
  refine ⟨?_, rfl, Nat.lt_succ_self _, ?_, fun h hlo hhi => ?_, fun h x hx => ?_, ?_, hknown, hlt, ?_,
    fun parent hparent => ?_, ?_, ?_⟩
  · rw [hchain, length_append, hlen, length_singleton]
  · have htip : db.altTip id = none := by
      unfold altTip
      rw [hid]
      rfl
    show (db.altTip id).elim [] A.chain <+: _
    rw [htip]
    exact nil_prefix
  · exact absurd hlo (not_lt.mpr (Nat.le_of_lt_succ hhi))
  · exact absurd ((hnone h).symm.trans hx) (some_ne_none _).symm
  · rw [hchain, ← hlen, getElem?_concat_length]
  · rw [hchain, take_append_of_le_length (le_of_eq hlen.symm), ← hprev, take_of_length_le (le_of_eq hlen)]
  · have hparent : db.parentOf prev = .alt parent := hparent
    rw [hparent] at hknown
    obtain ⟨info', hid'⟩ := isSome_iff_exists.mp hknown
    rw [update_self, update_of_ne]
    · exact hinv.rank_lt parent info' hid'
    · rintro rfl
      exact absurd (hid.symm.trans hid') (some_ne_none _).symm
  · rw [update_self, hlen_insert]
    exact Nat.lt_succ_self _
  · rw [hlen_insert]
    exact Nat.le_succ _

end

/-! ## Forests of alternative chains -/

/-- A forest of alternative chains over a main chain. Each block follows one that is there, on its
chain or as the first of a new one. -/
inductive Forest (A : Ancestry Hash) (mainChain : List Hash) : ChainDb → Prop where
  | main : Forest A mainChain ⟨mainChain, ∅, ∅, ∅⟩
  | add {db db' : ChainDb} {altBlock : AltBlockInformation} {chain : Chain} {height : Nat}
      (h : Forest A mainChain db) (hprev : db.findBlock altBlock.previous = some (chain, height))
      (hheight : altBlock.height = height + 1)
      (hchain : A.chain altBlock.blockHash = A.chain altBlock.previous ++ [altBlock.blockHash])
      (hid : db.altChainInfos.lookup altBlock.chainId = none ∨
        db.altTip altBlock.chainId = some altBlock.previous)
      (hadd : db.addAltBlock altBlock = some db') : Forest A mainChain db'

theorem Inv.chainHeight_eq (hinv : Inv A db rank)
    (hid : db.altChainInfos.lookup id = some info) (htip : db.altTip id = some prev)
    (hfind : db.findBlock prev = some (chain, height)) : info.chainHeight = height + 1 := by
  have hok := hinv.chains id info hid
  have hlt := hok.lt
  have htop : (db.branchOf A (.alt id))[info.chainHeight - 1]? = some prev := by
    rw [← hok.blocks _ (by omega) (by omega)]
    simpa only [altTip, hid, bind_some] using htip
  have heq := (hinv.isBranch _).index_unique (hinv.isBranch _) htop (hinv.findBlock_spec hfind).2
  omega

/-- The block starts a new chain on top of a block at `height`. -/
def StartsChain (db db' : ChainDb) (prev hash : Hash) (id : ChainId) (height : Nat) : Prop :=
  db.altChainInfos.lookup id = none ∧
    db' = db.withAltBlock id ⟨db.parentOf prev, height, height + 2⟩ (height + 1) hash

/-- The block extends the chain that has the block before it on top. -/
def ExtendsChain (db db' : ChainDb) (prev hash : Hash) (id : ChainId) : Prop :=
  ∃ info, db.altChainInfos.lookup id = some info ∧ db.altTip id = some prev ∧
    db' = db.withAltBlock id { info with chainHeight := info.chainHeight + 1 } info.chainHeight hash

theorem Inv.addAltBlock_cases (hinv : Inv A db rank) {altBlock : AltBlockInformation}
    (hprev : db.findBlock altBlock.previous = some (chain, height))
      (hheight : altBlock.height = height + 1)
    (hchain : A.chain altBlock.blockHash = A.chain altBlock.previous ++ [altBlock.blockHash])
    (hid : db.altChainInfos.lookup altBlock.chainId = none ∨
      db.altTip altBlock.chainId = some altBlock.previous)
    (hadd : db.addAltBlock altBlock = some db') :
    StartsChain db db' altBlock.previous altBlock.blockHash altBlock.chainId height ∨
      ExtendsChain db db' altBlock.previous altBlock.blockHash altBlock.chainId := by
  obtain ⟨prev, hash, blockHeight, id⟩ := altBlock
  obtain rfl : blockHeight = height + 1 := hheight
  cases hlookup : db.altChainInfos.lookup id with
  | none =>
    have hne : prev ≠ hash := by
      rintro rfl
      exact absurd (congrArg List.length hchain) (by simp)
    rw [addAltBlock_new hlookup hne] at hadd
    exact .inl ⟨hlookup, (some.inj hadd).symm⟩
  | some info =>
    have htip : db.altTip id = some prev := hid.resolve_left (by simp [hlookup])
    rw [← hinv.chainHeight_eq hlookup htip hprev, addAltBlock_extend hlookup] at hadd
    exact .inr ⟨info, hlookup, htip, (some.inj hadd).symm⟩

theorem Inv.addAltBlock (hinv : Inv A db rank)
    (hprev : db.findBlock prev = some (chain, height)) (hchain : A.chain hash = A.chain prev ++ [hash])
    (hcases : StartsChain db db' prev hash id height ∨ ExtendsChain db db' prev hash id) :
    ∃ rank', Inv A db' rank' := by
  rcases hcases with ⟨hid, rfl⟩ | ⟨info, hid, htip, rfl⟩
  · exact ⟨_, (hinv.update_rank hid _).withAltBlock (hinv.fitsOn_new hid hprev hchain)⟩
  · exact ⟨rank, hinv.withAltBlock (hinv.fitsOn_extend hid htip hchain)⟩

theorem Forest.inv {mainChain : List Hash} (hmain : A.IsBranch mainChain) (h : Forest A mainChain db) :
    ∃ rank, Inv A db rank := by
  induction h with
  | main => exact ⟨fun _ => 0, inv_empty hmain _⟩
  | add h hprev hheight hchain hid hadd ih =>
    obtain ⟨rank, hinv⟩ := ih
    exact hinv.addAltBlock hprev hchain (hinv.addAltBlock_cases hprev hheight hchain hid hadd)

/-- In every forest `get_alt_block_hash` ends, and at each height up to the top of the chain it
returns the block on the path from the genesis block to the top. -/
theorem Forest.getAltBlockHash_eq_ancestor {A : Ancestry Hash} {mainChain : List Hash} {db : ChainDb}
    (hmain : A.IsBranch mainChain) (h : Forest A mainChain db) {id : ChainId} {info : AltChainInfo}
    (hid : db.altChainInfos.lookup id = some info) :
    ∃ top, db.altTip id = some top ∧ (A.chain top).length = info.chainHeight ∧
      ∀ height < info.chainHeight, ∃ hash, db.getAltBlockHash height id = some hash ∧
        (A.chain top)[height]? = some hash := by
  obtain ⟨rank, hinv⟩ := h.inv hmain
  have hok := hinv.chains id info hid
  have hlt := hok.lt
  have hlast : info.chainHeight - 1 < (db.branchOf A (.alt id)).length := by
    rw [hok.length_eq]
    omega
  have htip : db.altTip id = some (db.branchOf A (.alt id))[info.chainHeight - 1] := by
    simp only [altTip, hid, bind_some]
    rw [hok.blocks _ (by omega) (by omega), getElem?_eq_getElem hlast]
  have hbranch := branchOf_alt (A := A) htip
  refine ⟨_, htip, ?_, ?_⟩
  · rw [← hbranch, hok.length_eq]
  · intro height hheight
    have hget := hinv.getAltBlockHash_eq height hid
    rw [getElem?_eq_getElem (by rw [hok.length_eq]; exact hheight)] at hget
    refine ⟨_, hget, ?_⟩
    rw [← hbranch, getElem?_eq_getElem]

/-- A main chain 0, 1; a chain 2, 3 on top of 0; a chain with the block 4 on top of 2. -/
def smallTree : Ancestry Hash where
  chain x :=
    if x = 0 then [0] else if x = 1 then [0, 1] else if x = 2 then [0, 2] else if x = 3 then [0, 2, 3]
    else if x = 4 then [0, 2, 4] else []
  chain_eq x i y h := by
    split_ifs at h with h₀ h₁ h₂ h₃ h₄
    all_goals rcases i with _ | _ | _ | i <;> simp at h <;> subst h <;> simp [*]

/-- The chain of the block 4 goes through the chain of the block 3 to the main chain. -/
theorem Forest.getAltBlockHash_smallTree :
    ∃ db info, Forest smallTree [0, 1] db ∧ db.altChainInfos.lookup 8 = some info ∧ info.chainHeight = 3 ∧
      ∀ height < 3, ∃ hash, db.getAltBlockHash height 8 = some hash ∧ [0, 2, 4][height]? = some hash := by
  have hmain : smallTree.IsBranch [0, 1] := smallTree.isBranch_chain 1
  have htwo := @Forest.add smallTree [0, 1] _ _ ⟨0, 2, 1, 7⟩ .main 0 .main rfl rfl rfl (.inl rfl)
    (addAltBlock_new rfl (by decide))
  have hthree := @Forest.add smallTree [0, 1] _ _ ⟨2, 3, 2, 7⟩ (.alt 7) 1 htwo rfl rfl rfl (.inr rfl)
    (@addAltBlock_extend _ 7 ⟨.main, 0, 2⟩ 3 2 (lookup_insert _))
  have hfour := @Forest.add smallTree [0, 1] _ _ ⟨2, 4, 2, 8⟩ (.alt 7) 1 hthree rfl rfl rfl (.inl rfl)
    (addAltBlock_new rfl (by decide))
  obtain ⟨top, htop, -, hancestors⟩ := hfour.getAltBlockHash_eq_ancestor hmain (lookup_insert _)
  obtain rfl : top = 4 := some.inj (htop.symm.trans rfl)
  exact ⟨_, _, hfour, lookup_insert _, rfl, hancestors⟩

/-! ## Popping blocks -/

/-- The tables when the blocks of a main chain from a height on have been moved to an alternative
chain. -/
structure Popped (chain : List Hash) (id : ChainId) (height : Nat) (db : ChainDb) : Prop where
  main : db.mainChain = chain.take height
  le : height ≤ chain.length
  pos : height < chain.length → 0 < height
  infos : ∀ id', db.altChainInfos.lookup id' =
    if id' = id ∧ height < chain.length then some ⟨.main, height - 1, chain.length⟩ else none
  blocks : ∀ id' h, db.altBlocksInfo.lookup (id', h) = if id' = id ∧ height ≤ h then chain[h]? else none
  heights : ∀ hash altHeight, db.altBlockHeights.lookup hash = some altHeight →
    db.altBlocksInfo.lookup altHeight = some hash

variable {chain : List Hash} {height : Nat}

theorem popped_flushAltBlocks (db : ChainDb) (id : ChainId) :
    Popped db.mainChain id db.mainChain.length db.flushAltBlocks := by
  refine ⟨take_length.symm, le_rfl, fun h => absurd h (lt_irrefl _), fun id' => ?_,
    fun id' h => ?_, fun hash altHeight h => absurd h (by simp [flushAltBlocks])⟩
  · rw [if_neg fun h => absurd h.2 (lt_irrefl _)]
    rfl
  · show none = _
    split
    · next h => rw [getElem?_eq_none h.2]
    · rfl

theorem updateAltChainInfo_popped (hupdate : updateAltChainInfo (id, height + 1) prev db = some db')
    (hinfos : ∀ id', db.altChainInfos.lookup id' =
      if id' = id ∧ height + 2 < chain.length then some ⟨.main, height + 1, chain.length⟩ else none)
    (hlt : height + 1 < chain.length) (hparent : parentOf prev db = .main) :
    db' = { db with altChainInfos := db.altChainInfos.insert id ⟨.main, height, chain.length⟩ } := by
  unfold updateAltChainInfo at hupdate
  simp only [hinfos, true_and, hparent] at hupdate
  by_cases hpopped : height + 2 < chain.length
  · simp only [if_pos hpopped, if_neg (not_lt.mpr hpopped.le),
      if_neg (Nat.succ_ne_zero height)] at hupdate
    exact (some.inj hupdate).symm
  · simp only [if_neg hpopped, if_neg (Nat.succ_ne_zero height)] at hupdate
    have hlen : height + 1 + 1 = chain.length := by omega
    rw [← some.inj hupdate, hlen]
    rfl

theorem updateAltChainInfo_zero (hinfos : ∀ info, db.altChainInfos.lookup id = some info →
    0 < info.chainHeight) (prev : Hash) : updateAltChainInfo (id, 0) prev db = none := by
  unfold updateAltChainInfo
  cases hid : db.altChainInfos.lookup id with
  | none => rfl
  | some info =>
    have hpos := hinfos info hid
    show (if info.chainHeight < 1 then _ else _) = _
    rw [if_neg (by omega)]
    rfl

section
variable (h : Popped chain id (height + 1) db)
include h

theorem Popped.getLast? : db.mainChain.getLast? = chain[height]? := by
  have hle := h.le
  rw [h.main, getLast?_take, if_neg (Nat.succ_ne_zero _), Nat.add_sub_cancel]
  rw [getElem?_eq_getElem hle]
  rfl

theorem Popped.dropLast : db.mainChain.dropLast = chain.take height := by
  rw [h.main, dropLast_eq_take, length_take, min_eq_left h.le, Nat.add_sub_cancel,
    take_take, min_eq_left (Nat.le_succ _)]

theorem Popped.heights_insert (hhash : chain[height]? = some hash) (x : Hash)
    (altHeight : AltBlockHeight)
      (hx : (db.altBlockHeights.insert hash (id, height)).lookup x = some altHeight) :
    altHeight.1 = id ∧ height ≤ altHeight.2 ∧ chain[altHeight.2]? = some x := by
  rw [lookup_insert_ite] at hx
  split at hx
  · next hxhash =>
    cases hx
    exact ⟨rfl, le_rfl, hxhash ▸ hhash⟩
  · have hstored := h.heights x altHeight hx
    rw [h.blocks] at hstored
    split at hstored
    · next hpopped => exact ⟨hpopped.1, Nat.le_of_succ_le hpopped.2, hstored⟩
    · cases hstored

theorem Popped.blocks_insert (hhash : chain[height]? = some hash) (id' : ChainId) (h' : Nat) :
    (db.altBlocksInfo.insert (id, height) hash).lookup (id', h') =
      if id' = id ∧ height ≤ h' then chain[h']? else none := by
  rw [lookup_insert_ite, h.blocks]
  by_cases heq : (id', h') = (id, height)
  · cases heq
    rw [if_pos rfl, if_pos ⟨rfl, le_rfl⟩, hhash]
  · rw [if_neg heq]
    refine if_congr (and_congr_right fun hid => ?_) rfl rfl
    have hne : h' ≠ height := fun hh => heq (by rw [hid, hh])
    omega

end

section
variable (hbranch : A.IsBranch chain)
include hbranch

/-- The tables after the block on top of a block other than the genesis block is popped. -/
theorem Popped.updated (h : Popped chain id (height + 2) db)
    (hlt : height + 1 < chain.length) (hhash : chain[height + 1]? = some hash)
    (hadd : addAltBlock ⟨chain[height], hash, height + 1, id⟩
      { db with mainChain := chain.take (height + 1) } = some db') :
    Popped chain id (height + 1) db' := by
  obtain ⟨db₁, hupdate, heq⟩ := bind_eq_some_iff.mp hadd
  cases heq
  have hheights := h.heights_insert hhash
  have hblocks := h.blocks_insert hhash
  -- the block below is on the main chain only
  have hparent : parentOf chain[height] { db with
      mainChain := chain.take (height + 1)
      altBlockHeights := db.altBlockHeights.insert hash (id, height + 1) } = .main := by
    unfold parentOf
    cases hheight : (db.altBlockHeights.insert hash (id, height + 1)).lookup chain[height] with
    | none => rfl
    | some altHeight =>
      obtain ⟨-, hle, hget⟩ := hheights _ _ hheight
      have := hbranch.index_unique hbranch hget (getElem?_eq_getElem _)
      omega
  obtain rfl := updateAltChainInfo_popped hupdate h.infos hlt hparent
  refine ⟨rfl, Nat.le_of_lt hlt, fun _ => Nat.succ_pos _, fun id' => ?_, hblocks,
    fun x altHeight hx => ?_⟩
  · show (db.altChainInfos.insert id _).lookup id' = _
    rw [lookup_insert_ite, h.infos]
    by_cases hid : id' = id
    · rw [if_pos hid, if_pos ⟨hid, hlt⟩]
      rfl
    · rw [if_neg hid, if_neg fun h => hid h.1, if_neg fun h => hid h.1]
  · obtain ⟨hid, hle, hget⟩ := hheights x altHeight hx
    exact (hblocks altHeight.1 altHeight.2).trans ((if_pos ⟨hid, hle⟩).trans hget)

section
variable (h : Popped chain id height db)
include h

theorem popBlock_popped (hpop : popBlock id db = some db') :
    ∃ k, height = k + 1 ∧ Popped chain id k db' := by
  obtain ⟨hash, hhash, hadd⟩ := bind_eq_some_iff.mp hpop
  obtain ⟨k, rfl⟩ : ∃ k, height = k + 1 := by
    refine Nat.exists_eq_succ_of_ne_zero ?_
    rintro rfl
    rw [h.main] at hhash
    cases hhash
  have hlt : k < chain.length := h.le
  have hlen : (chain.take k).length = k := by rw [length_take, min_eq_left hlt.le]
  rw [h.getLast?] at hhash
  simp only [h.dropLast, hlen] at hadd
  refine ⟨k, rfl, ?_⟩
  cases k with
  | zero =>
    obtain ⟨db₁, hupdate, -⟩ := bind_eq_some_iff.mp hadd
    refine absurd (hupdate.symm.trans (updateAltChainInfo_zero (fun info hid => ?_) _))
      (some_ne_none _)
    have hid : db.altChainInfos.lookup id = some info := hid
    rw [h.infos] at hid
    split at hid
    · rw [← some.inj hid]
      exact hlt
    · cases hid
  | succ k =>
    have hprev : (chain.take (k + 1)).getLast?.getD 0 = chain[k] := by
      rw [getLast?_take, if_neg (Nat.succ_ne_zero _), Nat.add_sub_cancel,
        getElem?_eq_getElem (Nat.lt_of_succ_lt hlt)]
      rfl
    rw [hprev] at hadd
    exact h.updated hbranch hlt hhash hadd

theorem popBlocksLoop_popped {numbBlocks : Nat} (hpop : popBlocksLoop id numbBlocks db = some db') :
    Popped chain id (height - numbBlocks) db' := by
  induction numbBlocks generalizing height db with
  | zero =>
    cases hpop
    exact h
  | succ numbBlocks ih =>
    obtain ⟨db₁, hpop₁, hloop⟩ := bind_eq_some_iff.mp hpop
    obtain ⟨k, rfl, h₁⟩ := popBlock_popped hbranch h hpop₁
    rw [Nat.add_sub_add_right]
    exact ih h₁ hloop

/-- The popped blocks are a branch that leaves the rest of the main chain at its top. -/
theorem Popped.inv : Inv A db fun _ => 0 := by
  have hinfo {id' : ChainId} {info : AltChainInfo} (hid : db.altChainInfos.lookup id' = some info) :
      id' = id ∧ height < chain.length ∧ info = ⟨.main, height - 1, chain.length⟩ := by
    rw [h.infos] at hid
    split at hid
    · next hcond => exact ⟨hcond.1, hcond.2, (some.inj hid).symm⟩
    · cases hid
  refine ⟨?_, fun id' info hid => ?_, fun id' info hid => ?_, fun id' h' x hx => ?_, h.heights⟩
  · rw [h.main]
    exact hbranch.take height
  · obtain ⟨rfl, hlt, rfl⟩ := hinfo hid
    have hpos := h.pos hlt
    have hlen : (chain.take height).length = height := by rw [length_take, min_eq_left hlt.le]
    have hlast := getElem?_eq_getElem (l := chain) (i := chain.length - 1) (by omega)
    have hbranchOf : db.branchOf A (.alt id') = chain := by
      have htip : db.altTip id' = chain[chain.length - 1]? := by
        unfold altTip
        rw [hid]
        show db.altBlocksInfo.lookup (id', chain.length - 1) = _
        rw [h.blocks, if_pos ⟨rfl, by omega⟩]
      rw [branchOf_alt (htip.trans hlast), hbranch _ _ hlast]
      exact take_of_length_le (by omega)
    refine ⟨?_, by rw [hbranchOf], fun h' hlo hhi => ?_, ?_, ?_, fun parent hparent => nomatch hparent⟩
    · show height - 1 + 1 < chain.length
      omega
    · have hlo : height - 1 < h' := hlo
      rw [hbranchOf, h.blocks, if_pos ⟨rfl, by omega⟩]
    · show height - 1 < db.mainChain.length
      rw [h.main, hlen]
      omega
    · show db.mainChain.take (height - 1 + 1) = _
      rw [hbranchOf, h.main, Nat.sub_add_cancel hpos, take_take, min_self]
  · refine Finset.card_pos.mpr ⟨id', mem_keys.mpr ?_⟩
    exact lookup_isSome.mp (Option.isSome_of_eq_some hid)
  · rw [h.blocks] at hx
    split at hx
    · next hcond =>
      obtain ⟨hlt, -⟩ := List.getElem?_eq_some_iff.mp hx
      have hheight : height < chain.length := lt_of_le_of_lt hcond.2 hlt
      have hpos := h.pos hheight
      refine ⟨_, (h.infos id').trans (if_pos ⟨hcond.1, hheight⟩), ?_, hlt⟩
      show height - 1 < h'
      omega
    · cases hx

end

end

theorem Inv.popBlocks (hinv : Inv A db rank) {numbBlocks : Nat} (hne : db.mainChain ≠ [])
    (hpop : db.popBlocks numbBlocks id = some db') :
    Inv A db' (fun _ => 0) ∧ 0 < db.mainChain.length - numbBlocks ∧
      db'.mainChain = db.mainChain.take (db.mainChain.length - numbBlocks) := by
  have hpopped := popBlocksLoop_popped hinv.main (popped_flushAltBlocks db id) hpop
  refine ⟨hpopped.inv hinv.main, ?_, hpopped.main⟩
  have hpos := length_pos_iff.mpr hne
  by_contra hzero
  exact hzero (hpopped.pos (by omega))

end ChainDb

end Cuprate.Storage
