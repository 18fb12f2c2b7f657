import Cuprate.Storage.CompactHistory
import Cuprate.Storage.Proofs.CompleteEntryProofs

/-!
# The shape of the compact history

The heights go down by one, then by 2, 4, 8 and so on, until they would pass the genesis block,
which comes last.
-/

namespace Cuprate.Storage

open Collections Finmap List Option

variable {initialBlocks top i : Nat}

/-- The distance from position `i` of the history to the next one. -/
def historyGap (initialBlocks i : Nat) : Nat :=
  if i < initialBlocks then 1 else 2 ^ (i - initialBlocks + 1)

theorem historyGap_pos (initialBlocks i : Nat) : 0 < historyGap initialBlocks i := by
  unfold historyGap
  split
  · exact Nat.one_pos
  · exact Nat.two_pow_pos _

theorem compactHistoryIndexToHeightOffset_add {k : Nat} (hk : k < 63) :
    compactHistoryIndexToHeightOffset initialBlocks (initialBlocks + k) = initialBlocks +
      2 ^ (k + 1) - 2 := by
  unfold compactHistoryIndexToHeightOffset
  cases k with
  | zero =>
    rw [if_pos (by omega)]
    omega
  | succ k =>
    have hlt : 2 * 2 ^ (k + 1) < 2 ^ 64 := by
      rw [← Nat.pow_succ']
      exact Nat.pow_lt_pow_right (by decide) (by omega)
    rw [if_neg (by omega), Nat.add_sub_cancel_left, Nat.shiftLeft_eq, Nat.mod_eq_of_lt hlt,
      Nat.pow_succ' (n := k + 1)]

theorem compactHistoryIndexToHeightOffset_succ (hi : i < initialBlocks + 62) :
    compactHistoryIndexToHeightOffset initialBlocks (i + 1) =
      compactHistoryIndexToHeightOffset initialBlocks i + historyGap initialBlocks i := by
  unfold historyGap
  split
  · unfold compactHistoryIndexToHeightOffset
    rw [if_pos (by omega), if_pos (by omega)]
  · obtain ⟨k, rfl⟩ := Nat.exists_eq_add_of_le (not_lt.mp ‹_›)
    rw [add_assoc, compactHistoryIndexToHeightOffset_add (by omega),
      compactHistoryIndexToHeightOffset_add (by omega), Nat.add_sub_cancel_left]
    have hpow : 2 ^ (k + 1 + 1) = 2 ^ (k + 1) + 2 ^ (k + 1) := by rw [pow_succ, Nat.mul_two]
    have hpos : 2 ≤ 2 ^ (k + 1) := Nat.le_self_pow (by omega) 2
    omega

theorem lt_compactHistoryIndexToHeightOffset (htop : top < 2 ^ 32) :
    top < compactHistoryIndexToHeightOffset initialBlocks (initialBlocks + 32) := by
  rw [compactHistoryIndexToHeightOffset_add (by decide)]
  omega

/-- The check for the genesis block is right for the last position that is not below it. -/
theorem compactHistoryGenesisNotIncluded_eq (hi : i < initialBlocks + 62)
    (hle : compactHistoryIndexToHeightOffset initialBlocks i ≤ top)
    (hlt : top < compactHistoryIndexToHeightOffset initialBlocks (i + 1)) :
    compactHistoryGenesisNotIncluded initialBlocks top =
      decide (compactHistoryIndexToHeightOffset initialBlocks i ≠ top) := by
  unfold compactHistoryGenesisNotIncluded
  by_cases hinitial : i < initialBlocks
  · -- the offsets are the positions
    unfold compactHistoryIndexToHeightOffset at hle hlt ⊢
    rw [if_pos (by omega)] at hle hlt
    rw [if_pos (by omega), decide_eq_false (by omega), decide_eq_false (by omega), Bool.false_and]
  · obtain ⟨k, rfl⟩ := Nat.exists_eq_add_of_le (not_lt.mp hinitial)
    rw [add_assoc, compactHistoryIndexToHeightOffset_add (by omega)] at hlt
    rw [compactHistoryIndexToHeightOffset_add (by omega)] at hle ⊢
    have hpow : 2 ^ (k + 1 + 1) = 2 ^ (k + 1) + 2 ^ (k + 1) := by rw [pow_succ, Nat.mul_two]
    have hpos : 2 ≤ 2 ^ (k + 1) := Nat.le_self_pow (by omega) 2
    have hlog : (top - initialBlocks + 2).log2 = k + 1 := by
      rw [Nat.log2_eq_iff (by omega)]
      omega
    simp only [hlog]
    by_cases heq : initialBlocks + 2 ^ (k + 1) - 2 = top
    · rw [decide_eq_false (not_not.mpr heq), Bool.and_eq_false_iff]
      exact .inr (decide_eq_false (not_not.mpr (by omega)))
    · rw [decide_eq_true heq, Bool.and_eq_true]
      exact ⟨decide_eq_true (by omega), decide_eq_true (by omega)⟩

/-- Heights that go down by the gaps from position `i` on, as far as the genesis block. -/
inductive HistoryFrom (initialBlocks : Nat) : Nat → List Nat → Prop where
  | genesis {i : Nat} : HistoryFrom initialBlocks i [0]
  | next {i height : Nat} {heights : List Nat} (hpos : 0 < height)
      (h : HistoryFrom initialBlocks (i + 1) ((height - historyGap initialBlocks i) :: heights)) :
      HistoryFrom initialBlocks i (height :: (height - historyGap initialBlocks i) :: heights)

namespace HistoryFrom

variable {heights : List Nat}

theorem last {height : Nat} (hpos : 0 < height) (hle : height ≤ historyGap initialBlocks i) :
    HistoryFrom initialBlocks i [height, 0] := by
  rw [← Nat.sub_eq_zero_of_le hle]
  refine .next hpos ?_
  rw [Nat.sub_eq_zero_of_le hle]
  exact .genesis

section
variable (h : HistoryFrom initialBlocks i heights)
include h

theorem gaps {k height height' : Nat} (hk : heights[k]? = some height)
    (hk' : heights[k + 1]? = some height') : height' = height - historyGap initialBlocks (i + k) := by
  induction h generalizing k with
  | genesis => cases hk'
  | next hpos h ih =>
    cases k with
    | zero =>
      cases hk
      exact (some.inj hk').symm
    | succ k =>
      rw [Nat.add_succ, ← Nat.succ_add]
      exact ih hk hk'

theorem getLast? : heights.getLast? = some 0 := by
  induction h with
  | genesis => rfl
  | next hpos h ih => rw [getLast?_cons_cons, ih]

theorem pairwise : heights.Pairwise (· > ·) := by
  rw [← isChain_iff_pairwise]
  induction h with
  | genesis => exact .singleton 0
  | @next i height heights hpos h ih =>
    have hgap := historyGap_pos initialBlocks i
    exact .cons_cons (by omega) ih

end

end HistoryFrom

/-- The heights with the genesis block, if it was missed, are a history. -/
theorem compactHistoryHeights_spec (htop : top < 2 ^ 32) {rounds : Nat}
    (hle : compactHistoryIndexToHeightOffset initialBlocks i ≤ top)
      (hrounds : initialBlocks + 34 ≤ i + rounds)
    (hi : i < initialBlocks + 32) :
    ∃ heights, compactHistoryHeights initialBlocks top rounds i = some heights ∧
      ∃ rest, heights ++ (if compactHistoryGenesisNotIncluded initialBlocks top then [0] else []) =
        (top - compactHistoryIndexToHeightOffset initialBlocks i) :: rest ∧
      HistoryFrom initialBlocks i ((top - compactHistoryIndexToHeightOffset initialBlocks i) :: rest) := by
  induction rounds generalizing i with
  | zero => omega
  | succ rounds ih =>
    have hsucc := @compactHistoryIndexToHeightOffset_succ initialBlocks i (by omega)
    have hgap := historyGap_pos initialBlocks i
    have hnext : top - compactHistoryIndexToHeightOffset initialBlocks (i + 1) =
        top - compactHistoryIndexToHeightOffset initialBlocks i - historyGap initialBlocks i := by omega
    unfold compactHistoryHeights
    simp only [if_pos hle]
    by_cases hle' : compactHistoryIndexToHeightOffset initialBlocks (i + 1) ≤ top
    · have hi' : i + 1 < initialBlocks + 32 := by
        by_contra hge
        rw [show i + 1 = initialBlocks + 32 by omega] at hle'
        exact absurd hle' (not_le.mpr (lt_compactHistoryIndexToHeightOffset htop))
      obtain ⟨heights, hheights, rest, heq, hfrom⟩ := ih hle' (by omega) hi'
      refine ⟨_, by rw [hheights]; rfl, _, by rw [cons_append, heq], ?_⟩
      rw [hnext] at hfrom ⊢
      exact .next (by omega) hfrom
    · refine ⟨[top - compactHistoryIndexToHeightOffset initialBlocks i], ?_, _, rfl, ?_⟩
      · cases rounds with
        | zero => omega
        | succ rounds =>
          unfold compactHistoryHeights
          rw [if_neg hle']
          rfl
      · rw [compactHistoryGenesisNotIncluded_eq (by omega) hle (by omega)]
        by_cases heq : compactHistoryIndexToHeightOffset initialBlocks i = top
        · rw [heq, Nat.sub_self]
          simpa using .genesis
        · rw [if_pos (decide_eq_true heq)]
          exact .last (by omega) (by omega)

theorem Run.height_lt {env : StorageEnv} {chain : List VerifiedBlockInformation} {t : Tables}
    (hrun : Run env chain t) : ∀ b ∈ chain, b.height < 2 ^ 32 := by
  induction hrun with
  | empty => exact forall_mem_nil _
  | add hrun hvalid hadd ih =>
    intro b hb
    rcases mem_append.mp hb with hb | hb
    · exact ih b hb
    · obtain rfl := mem_singleton.mp hb
      exact hvalid.height_lt
  | pop hrun hpop ih => exact fun b hb => ih b (mem_of_mem_dropLast hb)

theorem compactChainHistory_eq {t : Tables} {info : BlockInfo} {heights : List Nat} (hashAt : Nat → Hash)
    (htop : topBlockHeight t = some top) (hinfo : t.blockInfos.lookup top = some info)
    (hheights : compactHistoryHeights INITIAL_BLOCKS top (INITIAL_BLOCKS + 64) 0 = some heights)
    (hhash : ∀ height ≤ top, (t.blockInfos.lookup height).map (·.blockHash) = some (hashAt height))
    (hle : ∀ height ∈ heights, height ≤ top) :
    ∃ difficulty, compactChainHistory t = some (difficulty,
      (heights ++ (if compactHistoryGenesisNotIncluded INITIAL_BLOCKS top then [0] else [])).map
        hashAt) := by
  have hids := mapM_eq_some_map fun height hheight => hhash height (hle height hheight)
  have hgenesis : (t.blockInfos.lookup 0).map (fun info => [info.blockHash]) = some [hashAt 0] := by
    obtain ⟨info₀, hinfo₀, heq⟩ := map_eq_some_iff.mp (hhash 0 (Nat.zero_le _))
    rw [hinfo₀, map_some, heq]
  unfold compactChainHistory
  simp only [htop, hinfo, hheights, hids, hgenesis, bind_eq_bind, bind_some, map_append]
  split
  · exact ⟨_, rfl⟩
  · exact ⟨_, rfl⟩

section
variable {env : StorageEnv} {chain : List VerifiedBlockInformation} {t : Tables} (hrun : Run env chain t)
  (hne : chain ≠ [])
include hrun hne

theorem Run.compactChainHistory_eq {heights : List Nat}
    (hheights : compactHistoryHeights INITIAL_BLOCKS (chain.length - 1)
      (INITIAL_BLOCKS + 64) 0 = some heights)
    (hle : ∀ height ∈ heights, height ≤ chain.length - 1) :
    ∃ difficulty, compactChainHistory t = some (difficulty,
      (heights ++ (if compactHistoryGenesisNotIncluded INITIAL_BLOCKS (chain.length - 1) then [0]
        else [])).map
        fun height => (chain[height]?.map VerifiedBlockInformation.blockHash).getD 0) := by
  obtain ⟨c, hchain, hrep⟩ := hrun.contents
  have hpos := length_pos_iff.mpr hne
  have hlength : chainHeight t = chain.length := by
    rw [chainHeight, hrep.blockHeights.len, length_map, hchain.contentsOf.blocks_length]
  have hget {height : Nat} (hle : height ≤ chain.length - 1) : ∃ b, chain[height]? = some b :=
    ⟨_, getElem?_eq_getElem (show height < chain.length by omega)⟩
  obtain ⟨top, htop⟩ := hget (Nat.le_refl _)
  obtain ⟨coins, rctOuts, hinfo, -⟩ := lookup_block hchain hrep htop
  refine Storage.compactChainHistory_eq (fun height => (chain[height]?.map (·.blockHash)).getD 0)
    (by rw [topBlockHeight, hlength, if_neg hpos.ne']) hinfo hheights (fun height hheight => ?_) hle
  obtain ⟨b, hb⟩ := hget hheight
  obtain ⟨coins, rctOuts, hinfo, -⟩ := lookup_block hchain hrep hb
  rw [hinfo, hb]
  rfl

/-- The compact history of every chain has the ids of blocks at heights that go down from the top:
one by one at first, then by gaps that double, the last of which is cut at the genesis block. -/
theorem run_compactChainHistory :
    ∃ difficulty blockIds, ∃ heights : List Nat, compactChainHistory t = some (difficulty, blockIds) ∧
      blockIds.map some = heights.map (fun height => chain[height]?.map (·.blockHash)) ∧
      heights.head? = some (chain.length - 1) ∧ heights.Pairwise (· > ·) ∧
      (∀ i height height', heights[i]? = some height → heights[i + 1]? = some height' →
        height' = height - historyGap INITIAL_BLOCKS i) ∧
      heights.getLast? = some 0 ∧ heights.count 0 = 1 := by
  obtain ⟨c, hchain, hrep⟩ := hrun.contents
  have hpos := length_pos_iff.mpr hne
  have htop : chain.length - 1 < 2 ^ 32 := by
    have hb := getElem?_eq_getElem (show chain.length - 1 < chain.length by omega)
    rw [← (hchain.block_at hb).2.1]
    exact hrun.height_lt _ (mem_of_getElem? hb)
  obtain ⟨heights, hheights, rest, heq, hfrom⟩ := @compactHistoryHeights_spec INITIAL_BLOCKS _ 0 htop
    (INITIAL_BLOCKS + 64) (Nat.zero_le _) (by decide) (by decide)
  have hpairwise := hfrom.pairwise
  have hle : ∀ height ∈ (chain.length - 1 -
      compactHistoryIndexToHeightOffset INITIAL_BLOCKS 0) :: rest, height ≤ chain.length - 1 := by
    intro height hheight
    rcases mem_cons.mp hheight with rfl | hheight
    · exact Nat.sub_le _ _
    · have := (pairwise_cons.mp hpairwise).1 height hheight
      omega
  obtain ⟨difficulty, hhistory⟩ := hrun.compactChainHistory_eq hne hheights
    fun height hheight => hle height (heq ▸ mem_append_left _ hheight)
  rw [heq] at hhistory
  refine ⟨difficulty, _, _, hhistory, ?_, rfl, hpairwise, fun k a b ha hb => ?_, hfrom.getLast?, ?_⟩
  · rw [List.map_map]
    refine map_congr_left fun height hheight => ?_
    have hlt : height < chain.length := by
      have := hle height hheight
      omega
    simp [hlt]
  · exact Nat.zero_add k ▸ hfrom.gaps ha hb
  · refine count_eq_one_of_mem (hpairwise.imp fun h => (Nat.ne_of_gt h)) ?_
    exact mem_of_getLast? hfrom.getLast?

end

/-! ## A chain of empty blocks -/

def emptyMinerTx (height : Nat) : Transaction := .v1 ⟨.none, [.gen height], [], []⟩ []

def minerHeight (tx : Transaction) : Nat :=
  match tx.txPrefix.inputs with
  | [.gen height] => height
  | _ => 0

/-- The bytes of a miner transaction are as many as its height, and its height is its hash. -/
def emptyEnv : StorageEnv where
  oxide := { mixedEnv.oxide with
    serializeTx := fun tx => replicate (minerHeight tx) 0
    hashTx := fun tx => BitVec.ofNat 256 (minerHeight tx) }
  serializeHeader := mixedEnv.serializeHeader
  readHeader := mixedEnv.readHeader
  readTx := fun bytes => some (emptyMinerTx bytes.length)
  computeZeroCommitment := mixedEnv.computeZeroCommitment
  readTx_readable := by
    rintro bytes tx ⟨⟩
    exact ⟨nofun, trivial, trivial⟩

def emptyBlock (height : Nat) : VerifiedBlockInformation :=
  { mixedBlock with
    block := ⟨mixedHeader, emptyMinerTx height, []⟩, txs := [], blockHash :=
      BitVec.ofNat 256 height, height }

theorem emptyBlocks_run {n : Nat} (hlt : n < 2 ^ 32) : ∃ t, Run emptyEnv ((range n).map emptyBlock) t := by
  induction n with
  | zero => exact ⟨_, .empty⟩
  | succ n ih =>
    obtain ⟨t, hrun⟩ := ih (by omega)
    obtain ⟨c, hchain, hrep⟩ := hrun.contents
    have hcontents := hchain.contentsOf
    -- the hashes are the heights
    have hnew : BitVec.ofNat 256 n ∉ (range n).map (BitVec.ofNat 256) := by
      intro hmem
      obtain ⟨height, hheight, heq⟩ := mem_map.mp hmem
      have heq := congrArg BitVec.toNat heq
      have := mem_range.mp hheight
      rw [BitVec.toNat_ofNat, BitVec.toNat_ofNat, Nat.mod_eq_of_lt (by omega),
        Nat.mod_eq_of_lt (by omega)] at heq
      omega
    have htxs : c.txs.map (·.hash) = (range n).map (BitVec.ofNat 256) := by
      rw [hcontents.txs, chainTxs, flatMap_map, map_flatMap, map_eq_flatMap]
      rfl
    have hblocks : c.blocks.map (·.info.blockHash) = (range n).map (BitVec.ofNat 256) := by
      rw [hcontents.blockHashes, List.map_map]
      rfl
    have hvalid : ValidToAdd emptyEnv t (emptyBlock n) :=
      { wellFormed := ⟨rfl,
        forall_mem_singleton.mpr (by simp [emptyEnv, emptyBlock, minerHeight, emptyMinerTx,
          Transaction.txPrefix]), ⟨n, rfl⟩, rfl, forall_mem_nil _⟩
        height_eq := by
          rw [chainHeight, hrep.blockHeights.len, hblocks, length_map, length_range]
          rfl
        height_lt := by
          show n < 2 ^ 32
          omega
        hashes_nodup := nodup_singleton _
        hashes_new := forall_mem_singleton.mpr (hrep.txIds.lookup_eq_none.mpr (htxs ▸ hnew))
        keyImages_nodup := nodup_nil
        keyImages_new := forall_mem_singleton.mpr (forall_mem_nil _)
        blockHash_new := hrep.blockHeights.lookup_eq_none.mpr (hblocks ▸ hnew) }
    obtain ⟨-, t', -, hadd, -⟩ := addBlock_spec hrep hvalid
    refine ⟨t', ?_⟩
    rw [range_succ, map_append]
    exact .add hrun hvalid hadd

/-- The history of 21 blocks: twelve consecutive heights, gaps of two and four, and the genesis
block. -/
theorem run_compactChainHistory_emptyBlocks : ∃ t difficulty, ∃ heights : List Nat,
    Run emptyEnv ((range 21).map emptyBlock) t ∧
    compactChainHistory t = some (difficulty, [20, 19, 18, 17, 16, 15, 14, 13, 12, 11, 10, 9, 7, 3, 0]) ∧
    heights.head? = some 20 ∧ heights.length = 15 ∧
    (∀ i height height', heights[i]? = some height → heights[i + 1]? = some height' →
      height' = height - historyGap INITIAL_BLOCKS i) := by
  obtain ⟨t, hrun⟩ := emptyBlocks_run (show 21 < 2 ^ 32 by decide)
  obtain ⟨difficulty, blockIds, heights, hhistory, hids, hhead, -, hgaps, -⟩ :=
    run_compactChainHistory hrun (by decide)
  obtain ⟨difficulty', heq⟩ := hrun.compactChainHistory_eq (by decide)
    (show _ = some [20, 19, 18, 17, 16, 15, 14, 13, 12, 11, 10, 9, 7, 3] by decide +kernel) (by decide)
  have hlength : blockIds.length = heights.length := by simpa using congrArg List.length hids
  cases hhistory.symm.trans heq
  refine ⟨t, difficulty, heights, hrun, hhistory.trans ?_, hhead, hlength.symm, hgaps⟩
  exact congrArg (fun ids => some (difficulty, ids)) (by decide +kernel)

end Cuprate.Storage
