import Cuprate.Collections.Follower
import Cuprate.Consensus.Difficulty

/-!
# The difficulty cache follows the main chain

After any number of new blocks and of pops the cache holds the timestamps and cumulative
difficulties of the last blocks of the chain, except the genesis block.
-/

namespace Cuprate.Consensus

open Collections List

namespace DifficultyCache

def ofHeaders (config : DifficultyCacheConfig) (chainHeight : Nat) (headers : List ExtendedBlockHeader) :
    DifficultyCache where
  timestamps := headers.map (·.timestamp)
  cumulativeDifficulties := headers.map (·.cumulativeDifficulty)
  lastAccountedHeight := chainHeight - 1
  config := config

section Fields

variable (config : DifficultyCacheConfig) (chainHeight : Nat) (headers : List ExtendedBlockHeader)

@[simp] theorem ofHeaders_timestamps :
    (ofHeaders config chainHeight headers).timestamps = headers.map (·.timestamp) := rfl

@[simp] theorem ofHeaders_cumulativeDifficulties :
    (ofHeaders config chainHeight headers).cumulativeDifficulties =
      headers.map (·.cumulativeDifficulty) := rfl

@[simp] theorem ofHeaders_lastAccountedHeight :
    (ofHeaders config chainHeight headers).lastAccountedHeight = chainHeight - 1 := rfl

@[simp] theorem ofHeaders_config : (ofHeaders config chainHeight headers).config = config := rfl

end Fields

/-- The height of the first block in the cache of a chain. -/
def firstHeight (config : DifficultyCacheConfig) (chainHeight : Nat) : Nat :=
  max 1 (chainHeight - config.totalBlockCount)

theorem skipGenesis_eq (config : DifficultyCacheConfig) (chainHeight : Nat) :
    skipGenesis (chainHeight - config.totalBlockCount) = firstHeight config chainHeight := by
  unfold skipGenesis firstHeight
  split <;> omega

variable {db : List ExtendedBlockHeader}

theorem getBlocksInPowInfo_eq {start stop : Nat} (hstop : stop ≤ db.length) :
    getBlocksInPowInfo db start stop = some ((((db.take stop).drop start).map (·.timestamp)),
        ((db.take stop).drop start).map (·.cumulativeDifficulty)) := by
  rw [getBlocksInPowInfo, blockExtendedHeaderInRange_eq start hstop]
  rfl

theorem initFromChainHeight_eq {chainHeight : Nat} (config : DifficultyCacheConfig)
    (hle : chainHeight ≤ db.length) : initFromChainHeight chainHeight config db =
      some (ofHeaders config chainHeight
        ((db.take chainHeight).drop (firstHeight config chainHeight))) := by
  show (getBlocksInPowInfo db (skipGenesis (chainHeight - config.totalBlockCount)) chainHeight).map _ = _
  rw [skipGenesis_eq, getBlocksInPowInfo_eq hle]
  rfl

variable {config : DifficultyCacheConfig} {chain : List ExtendedBlockHeader}

theorem initFromChainHeight_length (config : DifficultyCacheConfig) (chain : List ExtendedBlockHeader) :
    initFromChainHeight chain.length config chain =
      some (ofHeaders config chain.length (chain.drop (firstHeight config chain.length))) := by
  rw [initFromChainHeight_eq config le_rfl, take_length]

theorem drop_firstHeight (config : DifficultyCacheConfig) (hne : chain ≠ []) :
    chain.drop (firstHeight config chain.length) = (chain.drop 1).rtake config.totalBlockCount := by
  have hpos := length_pos_iff.mpr hne
  rw [List.rtake, drop_drop, length_drop]
  congr 1
  unfold firstHeight
  omega

theorem push_ofHeaders (chainHeight : Nat) (headers : List ExtendedBlockHeader)
    (header : ExtendedBlockHeader) :
    (ofHeaders config chainHeight headers).push header.timestamp header.cumulativeDifficulty =
      ofHeaders config chainHeight (pushWindow config.totalBlockCount headers header) := by
  unfold push pushWindow ofHeaders
  simp only [length_append, length_map, length_singleton, gt_iff_lt]
  split <;> simp [map_tail]

theorem newBlock_ofHeaders (header : ExtendedBlockHeader) (hne : chain ≠ []) :
    (ofHeaders config chain.length (chain.drop (firstHeight config chain.length))).newBlock chain.length
        header.timestamp header.cumulativeDifficulty =
      some (ofHeaders config (chain ++ [header]).length
        ((chain ++ [header]).drop (firstHeight config (chain ++ [header]).length))) := by
  have hpos := length_pos_iff.mpr hne
  have hheight : (ofHeaders config chain.length
      (chain.drop (firstHeight config chain.length))).lastAccountedHeight + 1 = chain.length := by
    rw [ofHeaders_lastAccountedHeight]
    omega
  have hwindow : pushWindow config.totalBlockCount (chain.drop (firstHeight config chain.length)) header =
      (chain ++ [header]).drop (firstHeight config (chain ++ [header]).length) := by
    rw [drop_firstHeight config hne, drop_firstHeight config (by simp), pushWindow_rtake,
      drop_append_of_le_length hpos]
  unfold newBlock
  rw [if_pos hheight, push_ofHeaders, hwindow, length_append]
  rfl

theorem popBlocksMainChain_ofHeaders {n : Nat} (hn : n < chain.length)
    (hdb : db.take (chain.length - n) = chain.take (chain.length - n)) :
    (ofHeaders config chain.length
      (chain.drop (firstHeight config chain.length))).popBlocksMainChain n db =
      some (ofHeaders config (chain.length - n)
        ((chain.take (chain.length - n)).drop (firstHeight config (chain.length - n)))) := by
  obtain ⟨height, hheight⟩ : ∃ height, height = chain.length - n := ⟨_, rfl⟩
  rw [← hheight] at hdb ⊢
  have hdbLen : height ≤ db.length := by
    have hlen := congrArg List.length hdb
    rw [length_take, length_take] at hlen
    omega
  -- the first block in the cache, before and after
  obtain ⟨first, hfirst⟩ : ∃ first, first = firstHeight config chain.length := ⟨_, rfl⟩
  obtain ⟨first', hfirst'⟩ : ∃ first', first' = firstHeight config height := ⟨_, rfl⟩
  have hstart : skipGenesis (chain.length - 1 + 1 - config.totalBlockCount - n) = first' := by
    rw [hfirst', ← skipGenesis_eq]
    congr 1
    omega
  have hle : first' ≤ first := by
    rw [hfirst, hfirst']
    unfold firstHeight
    omega
  have hlt : first ≤ chain.length := by
    rw [hfirst]
    unfold firstHeight
    omega
  rw [← hfirst, ← hfirst']
  unfold popBlocksMainChain
  simp only [ofHeaders_timestamps, ofHeaders_cumulativeDifficulties, ofHeaders_lastAccountedHeight,
    ofHeaders_config, length_map, length_drop]
  by_cases hmany : chain.length - first < n
  · rw [if_pos hmany, show chain.length - 1 - n + 1 = height by omega,
      initFromChainHeight_eq config hdbLen, hdb, ← hfirst']
  · have hkept : (chain.drop first).take (chain.length - first - n) = (chain.take height).drop first := by
      rw [drop_take]
      congr 1
      omega
    have hstop : chain.length - 1 + 1 - (chain.length - first) = first := by omega
    have hdbFirst : db.take first = chain.take first := by
      have htake := congrArg (List.take first) hdb
      rwa [take_take, take_take, Nat.min_eq_left (by omega)] at htake
    have hrefill : (chain.take first).drop first' ++ (chain.take height).drop first =
        (chain.take height).drop first' := take_drop_append chain hle (by omega)
    rw [if_neg hmany, hstart, hstop, getBlocksInPowInfo_eq (by omega), hdbFirst]
    simp only [Option.bind_some, ← map_take, hkept, ← map_append, hrefill, length_map, if_true]
    rw [hheight, Nat.sub_right_comm]
    rfl

/-- The difficulty cache as a follower of the main chain. -/
def follower (config : DifficultyCacheConfig) : Follower ExtendedBlockHeader DifficultyCache where
  read chain := initFromChainHeight chain.length config chain
  push c height header := c.newBlock height header.timestamp header.cumulativeDifficulty
  pop := popBlocksMainChain

theorem follower_faithful (config : DifficultyCacheConfig) : (follower config).Faithful := by
  refine .of_value (initFromChainHeight_length config) newBlock_ofHeaders ?_
  intro chain n db hn hdb
  have hlen : (chain.take (chain.length - n)).length = chain.length - n := by
    rw [length_take]
    omega
  rw [hlen]
  exact popBlocksMainChain_ofHeaders hn hdb

/-- Whatever blocks were added and popped, the cache is the one that is read for the chain at hand,
and the next block or pop does not fail. -/
theorem run_eq_init (config : DifficultyCacheConfig) (chain : List ExtendedBlockHeader)
    (c : DifficultyCache)
    (h : (follower config).Run chain c) :
    initFromChainHeight chain.length config chain = some c ∧
    c = { timestamps := (chain.drop (max 1 (chain.length - config.totalBlockCount))).map (·.timestamp)
          cumulativeDifficulties :=
            (chain.drop (max 1 (chain.length - config.totalBlockCount))).map (·.cumulativeDifficulty)
          lastAccountedHeight := chain.length - 1
          config := config } ∧
    (∀ header : ExtendedBlockHeader,
      ∃ c', c.newBlock chain.length header.timestamp header.cumulativeDifficulty = some c') ∧
    (∀ n db, n < chain.length → db.take (chain.length - n) = chain.take (chain.length - n) →
      ∃ c', c.popBlocksMainChain n db = some c') ∧
    ∀ c', (follower config).Run chain c' → (∀ hf, c'.nextDifficulty hf = c.nextDifficulty hf) ∧
      c'.cumulativeDifficulty = c.cumulativeDifficulty ∧
      ∀ numbBlocks, c'.medianTimestamp numbBlocks = c.medianTimestamp numbBlocks := by
  have hfaithful := follower_faithful config
  have hread : initFromChainHeight chain.length config chain = some c := (hfaithful.run h).2
  refine ⟨hread, ?_, hfaithful.exists_push h, ?_, ?_⟩
  · exact (Option.some.inj ((initFromChainHeight_length config chain).symm.trans hread)).symm
  · intro n db hn hdb
    exact hfaithful.exists_pop h hn hdb
  · intro c' h'
    obtain rfl := hfaithful.unique h h'
    exact ⟨fun _ => rfl, rfl, fun _ => rfl⟩

/-- A header with the given timestamp and cumulative difficulty. -/
def powHeader (timestamp : UInt64) (cumulativeDifficulty : Nat) : ExtendedBlockHeader :=
  { version := .V1, vote := 1, timestamp := timestamp, cumulativeDifficulty := cumulativeDifficulty,
    blockWeight := 0, longTermWeight := 0 }

/-- Two blocks on top of the genesis block; the second one is popped, and another one takes its
place. -/
theorem run_eq_init_reorg :
    ∃ c, (follower ⟨1, 0, 1, none⟩).Run [powHeader 0 1, powHeader 10 2, powHeader 30 4] c ∧
      initFromChainHeight 3 ⟨1, 0, 1, none⟩ [powHeader 0 1, powHeader 10 2, powHeader 30 4] = some c := by
  have hgenesis : (follower ⟨1, 0, 1, none⟩).Run [powHeader 0 1] _ := .read (by simp) rfl
  have hone := hgenesis.push (a := powHeader 10 2) rfl
  have htwo := hone.push (a := powHeader 20 3) rfl
  have hsource : [powHeader 0 1, powHeader 10 2].take (3 - 1) =
      [powHeader 0 1, powHeader 10 2, powHeader 20 3].take (3 - 1) := rfl
  have hpopped := htwo.pop (n := 1) (by simp) hsource rfl
  have hreorg := hpopped.push (a := powHeader 30 4) rfl
  exact ⟨_, hreorg, (run_eq_init _ _ _ hreorg).1⟩

end DifficultyCache

end Cuprate.Consensus
