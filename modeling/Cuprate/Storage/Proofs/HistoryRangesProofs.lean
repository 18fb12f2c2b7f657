import Cuprate.Storage.Database
import Cuprate.Storage.Proofs.AltBlocksProofs

/-!
# The history of an alternative chain

`get_alt_chain_history_ranges` goes from an alternative chain to its parents until it reaches the
main chain. A range that ends below the first split is not cut at its end.
-/

namespace Cuprate.Storage

open Collections Finmap List Database

namespace ChainDb

variable {A : Ancestry Hash} {db db' : ChainDb} {rank : ChainId → Nat}

/-- The databases that a node comes to: the main chain grows and is popped, and an alternative block
follows one that is there, on its chain or on a new one. -/
inductive Reachable (A : Ancestry Hash) : ChainDb → Prop where
  | start {mainChain : List Hash} (hne : mainChain ≠ []) (hmain : A.IsBranch mainChain) :
      Reachable A ⟨mainChain, ∅, ∅, ∅⟩
  | addMain {db : ChainDb} {hash : Hash} (h : Reachable A db)
      (hhash : A.chain hash = db.mainChain ++ [hash]) :
      Reachable A { db with mainChain := db.mainChain ++ [hash] }
  | popBlocks {db db' : ChainDb} {numbBlocks : Nat} {id : ChainId} (h : Reachable A db)
      (hpop : db.popBlocks numbBlocks id = some db') : Reachable A db'
  | flushAltBlocks {db : ChainDb} (h : Reachable A db) : Reachable A db.flushAltBlocks
  | addAltBlock {db db' : ChainDb} {altBlock : AltBlockInformation} {chain : Chain} {height : Nat}
      (h : Reachable A db) (hprev : db.findBlock altBlock.previous = some (chain, height))
      (hheight : altBlock.height = height + 1)
      (hchain : A.chain altBlock.blockHash = A.chain altBlock.previous ++ [altBlock.blockHash])
      (hid : db.altChainInfos.lookup altBlock.chainId = none ∨
        db.altTip altBlock.chainId = some altBlock.previous)
      (hadd : db.addAltBlock altBlock = some db') : Reachable A db'

/-- Each chain splits from its parent above the split of the parent. -/
def SplitsAbove (db : ChainDb) : Prop :=
  ∀ id info parent info', db.altChainInfos.lookup id = some info → info.parentChain = .alt parent →
    db.altChainInfos.lookup parent = some info' → info'.commonAncestorHeight < info.commonAncestorHeight

theorem splitsAbove_of_main (h : ∀ id info, db.altChainInfos.lookup id = some info →
    info.parentChain = .main) : SplitsAbove db := by
  intro id info parent info' hid hparent
  rw [h id info hid] at hparent
  cases hparent

variable {info : AltChainInfo} {id : ChainId}

theorem SplitsAbove.insert (h : SplitsAbove db)
    (hinfos : db'.altChainInfos = db.altChainInfos.insert id info)
    (hself : info.parentChain ≠ .alt id)
    (hold : ∀ old, db.altChainInfos.lookup id = some old →
      old.commonAncestorHeight = info.commonAncestorHeight)
    (hnew : db.altChainInfos.lookup id = none → ∀ id' info', db.altChainInfos.lookup id' = some info' →
      info'.parentChain ≠ .alt id)
    (hparent : ∀ parent info', info.parentChain = .alt parent →
      db.altChainInfos.lookup parent = some info' →
      info'.commonAncestorHeight < info.commonAncestorHeight) : SplitsAbove db' := by
  intro id₁ info₁ parent info₂ hid₁ hparent₁ hid₂
  rw [hinfos, lookup_insert_ite] at hid₁ hid₂
  by_cases heq₁ : id₁ = id
  · rw [if_pos heq₁] at hid₁
    cases hid₁
    rw [if_neg (by rintro rfl; exact hself hparent₁)] at hid₂
    exact hparent parent info₂ hparent₁ hid₂
  · rw [if_neg heq₁] at hid₁
    by_cases heq₂ : parent = id
    · rw [if_pos heq₂] at hid₂
      cases hid₂
      subst heq₂
      cases hlookup : db.altChainInfos.lookup parent with
      | none => exact absurd hparent₁ (hnew hlookup id₁ info₁ hid₁)
      | some old =>
        rw [← hold old hlookup]
        exact h id₁ info₁ parent old hid₁ hparent₁ hlookup
    · rw [if_neg heq₂] at hid₂
      exact h id₁ info₁ parent info₂ hid₁ hparent₁ hid₂

theorem Inv.parentOf_splits (hinv : Inv A db rank) {prev : Hash} {chain : Chain} {height : Nat}
    (hfind : db.findBlock prev = some (chain, height))
      {parent : ChainId} (hparent : db.parentOf prev = .alt parent)
    (hid : db.altChainInfos.lookup parent = some info) :
    info.commonAncestorHeight < height := by
  unfold parentOf at hparent
  cases hheight : db.altBlockHeights.lookup prev with
  | none =>
    rw [hheight] at hparent
    cases hparent
  | some altHeight =>
    rw [hheight] at hparent
    obtain rfl : altHeight.1 = parent := Chain.alt.inj hparent
    have hstored := hinv.heights prev altHeight hheight
    obtain ⟨info', hid', hlo, hhi⟩ := hinv.blocks_only altHeight.1 altHeight.2 prev hstored
    obtain rfl := Option.some.inj (hid.symm.trans hid')
    have hget := ((hinv.chains _ info hid).blocks _ hlo hhi).symm.trans hstored
    rw [← (hinv.isBranch _).index_unique (hinv.isBranch _) hget (hinv.findBlock_spec hfind).2]
    exact hlo

theorem SplitsAbove.addAltBlock (h : SplitsAbove db) (hinv : Inv A db rank)
    {prev hash : Hash} {chain : Chain}
    {height : Nat} (hprev : db.findBlock prev = some (chain, height))
    (hcases : StartsChain db db' prev hash id height ∨ ExtendsChain db db' prev hash id) :
      SplitsAbove db' := by
  rcases hcases with ⟨hnone, rfl⟩ | ⟨info, hinfo, -, rfl⟩
  · have hknown {parent : ChainId} (hknown : db.Known (.alt parent)) : parent ≠ id := by
      rintro rfl
      exact absurd hknown (by simp [Known, hnone])
    refine h.insert rfl (fun hself => ?_) (fun old hold => absurd (hnone.symm.trans hold) (by simp))
      (fun _ id' info' hid' heq => ?_) fun parent info' hparent hid' =>
        hinv.parentOf_splits hprev hparent hid'
    · have hparent := (hinv.parentOf_spec hprev).1
      rw [show db.parentOf prev = .alt id from hself] at hparent
      exact hknown hparent rfl
    · exact hknown (heq ▸ hinv.known_parent hid') rfl
  · refine h.insert rfl (fun hself => ?_) (fun old hold => ?_)
      (fun hnone => absurd (hinfo.symm.trans hnone) (by simp))
      fun parent info' hparent hid' => h id info parent info' hinfo hparent hid'
    · exact absurd ((hinv.chains id info hinfo).parent_rank id hself).2 (lt_irrefl _)
    · obtain rfl := Option.some.inj (hinfo.symm.trans hold)
      rfl

/-- What a node keeps: the tables fit, and each chain splits above the split of its parent. -/
theorem Reachable.inv (h : Reachable A db) :
    db.mainChain ≠ [] ∧ (∃ rank, Inv A db rank) ∧ SplitsAbove db := by
  induction h with
  | start hne hmain =>
    exact ⟨hne, ⟨fun _ => 0, inv_empty hmain _⟩, splitsAbove_of_main fun id info hid =>
      absurd hid (by simp)⟩
  | addMain h hhash ih =>
    obtain ⟨-, ⟨rank, hinv⟩, hsplits⟩ := ih
    exact ⟨by simp, ⟨rank, hinv.addMain hhash⟩, hsplits⟩
  | @popBlocks db db' numbBlocks id h hpop ih =>
    obtain ⟨hne, ⟨rank, hinv⟩, -⟩ := ih
    obtain ⟨hinv', hpos, hmain⟩ := hinv.popBlocks hne hpop
    refine ⟨fun hnil => ?_, ⟨_, hinv'⟩, splitsAbove_of_main fun id' info hid => ?_⟩
    · rw [hmain, take_eq_nil_iff] at hnil
      exact hnil.elim hpos.ne' hne
    · rw [(popBlocksLoop_popped hinv.main (popped_flushAltBlocks db id) hpop).infos] at hid
      split at hid
      · rw [← Option.some.inj hid]
      · cases hid
  | flushAltBlocks h ih =>
    obtain ⟨hne, ⟨rank, hinv⟩, -⟩ := ih
    exact ⟨hne, ⟨rank, hinv.flushAltBlocks⟩, splitsAbove_of_main fun id info hid =>
      absurd hid (by simp [ChainDb.flushAltBlocks])⟩
  | addAltBlock h hprev hheight hchain hid hadd ih =>
    obtain ⟨hne, ⟨rank, hinv⟩, hsplits⟩ := ih
    have hcases := hinv.addAltBlock_cases hprev hheight hchain hid hadd
    refine ⟨?_, hinv.addAltBlock hprev hchain hcases, hsplits.addAltBlock hinv hprev hcases⟩
    obtain ⟨db₁, hupdate, heq⟩ := Option.bind_eq_some_iff.mp hadd
    cases heq
    rw [updateAltChainInfo_eq hupdate]
    exact hne

/-! ## The ranges -/

/-- The heights of the ranges from the lowest range up, each with the chain that the range names. -/
def listed (ranges : List (Chain × Nat × Nat)) : List (Chain × Nat) :=
  ranges.reverse.flatMap fun range => (List.range' range.2.1 (range.2.2 - range.2.1)).map (range.1, ·)

theorem listed_cons (range : Chain × Nat × Nat) (ranges : List (Chain × Nat × Nat)) :
    listed (range :: ranges) =
      listed ranges ++ (List.range' range.2.1 (range.2.2 - range.2.1)).map (range.1, ·) := by
  simp [listed]

theorem range'_append_range' (start mid stop : Nat) :
    List.range' start (mid - start) ++ List.range' (max start mid) (stop - max start mid) =
      List.range' start (max stop mid - start) := by
  by_cases hle : start ≤ mid
  · obtain ⟨k, rfl⟩ := Nat.exists_eq_add_of_le hle
    rw [max_eq_right hle, Nat.add_sub_cancel_left, range'_append_1]
    congr 1
    omega
  · rw [max_eq_left (by omega), Nat.sub_eq_zero_of_le (by omega), range'_zero, nil_append]
    congr 1
    omega

theorem listed_round {start i : Nat} (hinv : Inv A db rank) (hid : db.altChainInfos.lookup id = some info)
    (hi : i ≤ info.chainHeight) {rest : List (Chain × Nat × Nat)}
    (hheights : (listed rest).map Prod.snd = List.range' start (info.commonAncestorHeight + 1 - start))
    (hstored : ∀ p ∈ listed rest, db.storedBlock p.2 p.1 = (db.branchOf A info.parentChain)[p.2]?) :
    let ranges := (.alt id, max start (info.commonAncestorHeight + 1), min i info.chainHeight) :: rest
    (listed ranges).map Prod.snd = range' start (max i (info.commonAncestorHeight + 1) - start) ∧
      ∀ p ∈ listed ranges, db.storedBlock p.2 p.1 = (db.branchOf A (.alt id))[p.2]? := by
  have hok := hinv.chains id info hid
  rw [min_eq_left hi]
  refine ⟨?_, fun p hp => ?_⟩
  · rw [listed_cons, map_append, hheights, map_map, Function.comp_def, map_id', range'_append_range']
  · rw [listed_cons, mem_append] at hp
    rcases hp with hp | hp
    · have hmem : p.2 ∈ (listed rest).map Prod.snd := mem_map_of_mem hp
      rw [hheights, mem_range'_1] at hmem
      rw [hstored p hp]
      exact getElem?_eq_of_take_eq hok.parent_take (by omega)
    · obtain ⟨height, hheight, rfl⟩ := mem_map.mp hp
      obtain ⟨hlo, hhi⟩ := mem_range'_1.mp hheight
      dsimp only at hlo hhi
      exact hok.blocks height (by omega) (by omega)

/-- The ranges from a height down list every height below it, and also those up to the split of the
chain. -/
theorem historyRanges_spec {start : Nat} (hinv : Inv A db rank) (hsplits : SplitsAbove db) {i rounds : Nat}
    (hid : db.altChainInfos.lookup id = some info) (hlt : start < i) (hi : i ≤ info.chainHeight)
    (hrounds : rank id < rounds) :
    ∃ ranges, historyRanges db.altChainInfos start rounds i id = some ranges ∧
      (listed ranges).map Prod.snd = List.range' start (max i (info.commonAncestorHeight + 1) - start) ∧
      ∀ p ∈ listed ranges, db.storedBlock p.2 p.1 = (db.branchOf A (.alt id))[p.2]? := by
  induction rounds generalizing id info i with
  | zero => omega
  | succ rounds ih =>
    have hok := hinv.chains id info hid
    unfold historyRanges
    simp only [if_pos hlt, hid, Option.bind_eq_bind, Option.bind_some]
    cases hparent : info.parentChain with
    | main =>
      refine ⟨_, rfl, listed_round hinv hid hi ?_ fun p hp => ?_⟩
      · simp [listed]
      · obtain ⟨height, -, rfl⟩ : ∃ height, _ ∧ (Chain.main, height) = p := by simpa [listed] using hp
        rw [hparent]
        rfl
    | alt parent =>
      obtain ⟨hsome, hrank⟩ := hok.parent_rank parent hparent
      obtain ⟨info', hid'⟩ := Option.isSome_iff_exists.mp hsome
      have habove := hsplits id info parent info' hid hparent hid'
      have hne : parent ≠ id := by
        rintro rfl
        exact lt_irrefl _ hrank
      have hlen := hok.parent_lt
      rw [hparent, (hinv.chains parent info' hid').length_eq] at hlen
      by_cases hgo : start < info.commonAncestorHeight + 1
      · obtain ⟨rest, hrest, hheights, hstored⟩ := ih hid' hgo hlen (by omega)
        rw [max_eq_left (by omega)] at hheights
        refine ⟨_, ?_, listed_round hinv hid hi hheights (hparent ▸ hstored)⟩
        simp only [if_neg hne, hrest]
        rfl
      · refine ⟨[_], ?_, listed_round hinv hid hi ?_ (forall_mem_nil _)⟩
        · have hrest : historyRanges db.altChainInfos start rounds (info.commonAncestorHeight + 1) parent =
              some [] := by
            cases rounds <;> simp only [historyRanges, if_neg hgo]
          simp only [if_neg hne, hrest]
          rfl
        · rw [Nat.sub_eq_zero_of_le (by omega)]
          rfl

/-- The ranges list every height of `start..stop` once, from the lowest up, each with the chain that
the block at that height is stored under. -/
def Covers (A : Ancestry Hash) (db : ChainDb) (id : ChainId) (start stop : Nat)
    (ranges : List (Chain × Nat × Nat)) : Prop :=
  (listed ranges).map Prod.snd = List.range' start (stop - start) ∧
    ∀ p ∈ listed ranges, ∃ hash, db.storedBlock p.2 p.1 = some hash ∧
      (db.branchOf A (.alt id))[p.2]? = some hash

/-- `get_alt_chain_history_ranges` ends for every range of an alternative chain. The ranges are
those of the heights asked for exactly when some of these heights are above the split of the
chain. -/
theorem Reachable.covers_getAltChainHistoryRanges_iff (h : Reachable A db)
    {id : ChainId} {info : AltChainInfo}
    (hid : db.altChainInfos.lookup id = some info) {start stop : Nat} (hlt : start < stop)
    (hstop : stop ≤ info.chainHeight) :
    ∃ ranges, getAltChainHistoryRanges (start, stop) id db.altChainInfos = some ranges ∧
      (Covers A db id start stop ranges ↔ info.commonAncestorHeight < stop) := by
  obtain ⟨-, ⟨rank, hinv⟩, hsplits⟩ := h.inv
  obtain ⟨ranges, hranges, hheights, hstored⟩ :=
    historyRanges_spec hinv hsplits hid hlt hstop (hinv.rank_lt id info hid)
  have hok := hinv.chains id info hid
  have hsplit := hok.lt
  refine ⟨ranges, hranges, fun hcovers => ?_, fun habove => ⟨?_, fun p hp => ?_⟩⟩
  · have hlength := congrArg List.length (hheights.symm.trans hcovers.1)
    simp only [length_range'] at hlength
    omega
  · rw [hheights, max_eq_left habove]
  · have hmem : p.2 ∈ (listed ranges).map Prod.snd := mem_map_of_mem hp
    rw [hheights, mem_range'_1] at hmem
    have hlength : p.2 < (db.branchOf A (.alt id)).length := by
      rw [hok.length_eq]
      omega
    exact ⟨_, (hstored p hp).trans (getElem?_eq_getElem hlength), getElem?_eq_getElem hlength⟩

/-- The tables with block 4 as an alternative block next to the top of a main chain of three
blocks. -/
def splitAtOne : ChainDb := withAltBlock ⟨[0, 2, 3], ∅, ∅, ∅⟩ 8 ⟨.main, 1, 3⟩ 2 4

theorem reachable_splitAtOne : Reachable smallTree splitAtOne := by
  have hstart : Reachable smallTree ⟨[0, 2, 3], ∅, ∅, ∅⟩ :=
      .start (cons_ne_nil _ _) (smallTree.isBranch_chain 3)
  exact @Reachable.addAltBlock smallTree _ _ ⟨2, 4, 2, 8⟩ .main 1 hstart rfl rfl rfl (.inl rfl)
    (addAltBlock_new rfl (by decide))

theorem Reachable.covers_splitAtOne :
    ∃ ranges, getAltChainHistoryRanges (1, 3) 8 splitAtOne.altChainInfos = some ranges ∧
      (Covers smallTree splitAtOne 8 1 3 ranges ↔ 1 < 3) :=
  @Reachable.covers_getAltChainHistoryRanges_iff _ _ reachable_splitAtOne 8 ⟨.main, 1, 3⟩ rfl 1 3
    (by decide)
    (by decide)

/-- The range of the genesis block alone also lists the common ancestor. -/
theorem Reachable.getAltChainHistoryRanges_below_split :
    Reachable smallTree splitAtOne ∧ splitAtOne.altChainInfos.lookup 8 = some ⟨.main, 1, 3⟩ ∧
      getAltChainHistoryRanges (0, 1) 8 splitAtOne.altChainInfos = some [(.alt 8, 2, 1), (.main, 0, 2)] ∧
      ¬ Covers smallTree splitAtOne 8 0 1 [(.alt 8, 2, 1), (.main, 0, 2)] := by
  refine ⟨reachable_splitAtOne, rfl, rfl, fun hcovers => ?_⟩
  exact absurd hcovers.1 (by decide)

end ChainDb

end Cuprate.Storage
