import Cuprate.Collections.Follower
import Cuprate.Consensus.Weight
import Cuprate.Helper.Proofs.RollingMedianProofs

/-!
# The block weights cache follows the main chain

After any number of new blocks and of pops both windows hold the weights of the last blocks of the
chain, in order and sorted.
-/

namespace Cuprate.Consensus

open Collections Helper List Option RollingMedian

namespace BlockWeightsCache

def ofChain (config : BlockWeightsCacheConfig) (chain : List ExtendedBlockHeader) : BlockWeightsCache where
  shortTermBlockWeights :=
    .ofList config.shortTermWindow ((chain.map (·.blockWeight)).rtake config.shortTermWindow)
  longTermWeights := .ofList config.longTermWindow
    ((chain.map (·.longTermWeight)).rtake config.longTermWindow)
  tipHeight := chain.length - 1
  config := config

variable {config : BlockWeightsCacheConfig} {chain : List ExtendedBlockHeader}

variable {db : List ExtendedBlockHeader}

theorem map_drop_eq_rtake {β : Type} (f : ExtendedBlockHeader → β) {chainHeight : Nat} (w : Nat)
    (hle : chainHeight ≤ db.length) :
    ((db.take chainHeight).drop (chainHeight - w)).map f = ((db.take chainHeight).map f).rtake w := by
  rw [List.rtake, map_drop, length_map, length_take, min_eq_left hle]

theorem fromVec_rtake (w : Nat) (weights : List Nat) :
    fromVec (weights.rtake w) w = some (.ofList w (weights.rtake w)) := by
  refine fromVec_eq ?_
  rw [length_rtake]
  exact min_le_left _ _

theorem initFromChainHeight_eq {chainHeight : Nat} (config : BlockWeightsCacheConfig)
    (hle : chainHeight ≤ db.length) :
    initFromChainHeight chainHeight config db = some (ofChain config (db.take chainHeight)) := by
  have hlen : (db.take chainHeight).length = chainHeight := by
    rw [length_take]
    omega
  unfold initFromChainHeight
  rw [blockExtendedHeaderInRange_eq _ hle, blockExtendedHeaderInRange_eq _ hle]
  simp only [bind_eq_bind, bind_some, map_drop_eq_rtake _ _ hle, fromVec_rtake]
  rw [ofChain, hlen]

theorem initFromChainHeight_length (config : BlockWeightsCacheConfig) (chain : List ExtendedBlockHeader) :
    initFromChainHeight chain.length config chain = some (ofChain config chain) := by
  rw [initFromChainHeight_eq config le_rfl, take_length]

theorem push_rtake {w : Nat} (hpos : 1 ≤ w) (weights : List Nat) (weight : Nat) :
    (ofList w (weights.rtake w)).push weight = some (.ofList w ((weights ++ [weight]).rtake w)) := by
  have hlen : (weights.rtake w).length ≤ w := by
    rw [length_rtake]
    exact min_le_left _ _
  rw [push_ofList hpos hlen, pushWindow_rtake]

theorem newBlock_ofChain (hshort : 1 ≤ config.shortTermWindow) (hlong : 1 ≤ config.longTermWindow)
    (header : ExtendedBlockHeader) (hne : chain ≠ []) :
    (ofChain config chain).newBlock chain.length header.blockWeight header.longTermWeight =
      some (ofChain config (chain ++ [header])) := by
  have hpos := length_pos_iff.mpr hne
  have hheight : (ofChain config chain).tipHeight + 1 = chain.length := by
    simp only [ofChain]
    omega
  unfold newBlock
  rw [if_pos hheight]
  simp only [ofChain, push_rtake hshort, push_rtake hlong, bind_eq_bind, bind_some,
    map_append, map_cons, map_nil, length_append, length_singleton]
  rw [Nat.sub_add_cancel hpos, Nat.add_sub_cancel]

theorem popBacks_ofList (n w w' : Nat) (shortTerm longTerm : List Nat) :
    popBacks n (.ofList w shortTerm)
      (.ofList w' longTerm) = some (.ofList w (shortTerm.take (shortTerm.length - n)),
        .ofList w' (longTerm.take (longTerm.length - n))) := by
  have htake (n : Nat) (l : List Nat) :
      l.dropLast.take (l.dropLast.length - n) = l.take (l.length - (n + 1)) := by
    rw [length_dropLast, dropLast_eq_take, take_take]
    congr 1
    omega
  induction n generalizing shortTerm longTerm with
  | zero => simp [popBacks]
  | succ n ih =>
    rw [popBacks, popBack_ofList, popBack_ofList]
    simp only [bind_eq_bind, bind_some]
    rw [ih, htake, htake]

theorem appendFront_refill (w n : Nat) (weights : List Nat) :
    (ofList w ((weights.rtake w).take ((weights.rtake w).length - n))).appendFront
        ((weights.take (min (weights.length - (weights.rtake w).length) (weights.length - n))).drop
          (weights.length - (w + n))) =
      some (.ofList w ((weights.take (weights.length - n)).rtake w)) := by
  have hrefill := refill_rtake weights w n
  have hlen := congrArg List.length hrefill
  rw [length_append, length_rtake w (weights.take _)] at hlen
  rw [appendFront_ofList (by omega), hrefill, take_of_length_le (by rw [length_rtake]; omega)]

theorem popBlocksMainChain_ofChain {n : Nat} (hn : n < chain.length)
    (hdb : db.take (chain.length - n) = chain.take (chain.length - n)) :
    (ofChain config chain).popBlocksMainChain n db =
      some (ofChain config (chain.take (chain.length - n))) := by
  have hdbLen : chain.length - n ≤ db.length := by
    have hlen := congrArg List.length hdb
    rw [length_take, length_take] at hlen
    omega
  have hdbTake {k : Nat} (hk : k ≤ chain.length - n) : db.take k = chain.take k := by
    have htake := congrArg (List.take k) hdb
    rwa [take_take, take_take, min_eq_left hk] at htake
  -- the headers that are read give the weights of the chain
  have hread {f : ExtendedBlockHeader → Nat} {start stop : Nat} (hstop : stop ≤ chain.length - n) :
      ((db.take stop).drop start).map f = ((chain.map f).take stop).drop start := by
    rw [hdbTake hstop, map_drop, map_take]
  unfold popBlocksMainChain
  by_cases hmany : (ofChain config chain).longTermWeights.window.length ≤ n
  · have hheight : (ofChain config chain).tipHeight - n + 1 = chain.length - n := by
      simp only [ofChain]
      omega
    rw [if_pos hmany, hheight, ← hdb]
    exact initFromChainHeight_eq config hdbLen
  · have hheight : (ofChain config chain).tipHeight + 1 = chain.length := by
      simp only [ofChain]
      omega
    have hmany' : n < ((chain.map (·.longTermWeight)).rtake config.longTermWindow).length :=
        not_le.mp hmany
    have hlongLen := length_rtake config.longTermWindow (chain.map (·.longTermWeight))
    have hmin : chain.length - ((chain.map (·.longTermWeight)).rtake config.longTermWindow).length =
        min (chain.length - ((chain.map (·.longTermWeight)).rtake config.longTermWindow).length)
          (chain.length - n) := by
      omega
    have hlong := appendFront_refill config.longTermWindow n (chain.map (·.longTermWeight))
    have hshort := appendFront_refill config.shortTermWindow n (chain.map (·.blockWeight))
    rw [length_map] at hlong hshort
    rw [if_neg hmany]
    simp only [hheight]
    simp only [ofChain, ofList_window]
    rw [hmin, blockExtendedHeaderInRange_eq _ (by omega), blockExtendedHeaderInRange_eq _ (by omega)]
    simp only [bind_eq_bind, bind_some, popBacks_ofList, hread (min_le_right _ _), hlong, hshort,
      map_take, length_take]
    congr 2
    omega

/-- The block weights cache as a follower of the main chain. -/
def follower (config : BlockWeightsCacheConfig) : Follower ExtendedBlockHeader BlockWeightsCache where
  read chain := initFromChainHeight chain.length config chain
  push c height header := c.newBlock height header.blockWeight header.longTermWeight
  pop := popBlocksMainChain

theorem follower_faithful (hshort : 1 ≤ config.shortTermWindow) (hlong : 1 ≤ config.longTermWindow) :
    (follower config).Faithful :=
  .of_value (initFromChainHeight_length config) (newBlock_ofChain hshort hlong) popBlocksMainChain_ofChain

/-- Whatever blocks were added and popped, the cache is the one that is read for the chain at hand,
and the next block or pop does not fail. -/
theorem run_eq_initFromChainHeight (config : BlockWeightsCacheConfig) (hshort : 1 ≤ config.shortTermWindow)
    (hle : config.shortTermWindow ≤ config.longTermWindow) (chain : List ExtendedBlockHeader)
      (c : BlockWeightsCache)
    (h : (follower config).Run chain c) :
    initFromChainHeight chain.length config chain = some c ∧
    c.shortTermBlockWeights.window = (chain.map (·.blockWeight)).rtake config.shortTermWindow ∧
    c.shortTermBlockWeights.sortedWindow = c.shortTermBlockWeights.window.insertionSort (· ≤ ·) ∧
    c.longTermWeights.window = (chain.map (·.longTermWeight)).rtake config.longTermWindow ∧
    c.longTermWeights.sortedWindow = c.longTermWeights.window.insertionSort (· ≤ ·) ∧
    c.tipHeight + 1 = chain.length ∧
    (∀ header : ExtendedBlockHeader,
      ∃ c', c.newBlock chain.length header.blockWeight header.longTermWeight = some c') ∧
    (∀ n db, n < chain.length → db.take (chain.length - n) = chain.take (chain.length - n) →
      ∃ c', c.popBlocksMainChain n db = some c') ∧
    ∀ c', (follower config).Run chain c' → c'.medianShortTermWeight = c.medianShortTermWeight ∧
      c'.medianLongTermWeight = c.medianLongTermWeight ∧
      ∀ hf, c'.effectiveMedianBlockWeight hf = c.effectiveMedianBlockWeight hf ∧
        c'.medianForBlockReward hf = c.medianForBlockReward hf := by
  have hfaithful : (follower config).Faithful := follower_faithful hshort (by omega)
  obtain ⟨hne, hread⟩ := hfaithful.run h
  have hread : initFromChainHeight chain.length config chain = some c := hread
  have hpos := length_pos_iff.mpr hne
  have hc : ofChain config chain = c :=
    some.inj ((initFromChainHeight_length config chain).symm.trans hread)
  have hpush := hfaithful.exists_push h
  refine ⟨hread, ?_, ?_, ?_, ?_, ?_, hpush, ?_, ?_⟩
  · rw [← hc]
    rfl
  · rw [← hc]
    rfl
  · rw [← hc]
    rfl
  · rw [← hc]
    rfl
  · rw [← hc]
    exact Nat.sub_add_cancel hpos
  · intro n db hn hdb
    exact hfaithful.exists_pop h hn hdb
  · intro c' h'
    obtain rfl := hfaithful.unique h h'
    exact ⟨rfl, rfl, fun _ => ⟨rfl, rfl⟩⟩

def weightHeader (blockWeight longTermWeight : Nat) : ExtendedBlockHeader :=
  { version := .V1, vote := 1, timestamp := 0, cumulativeDifficulty := 1, blockWeight := blockWeight,
    longTermWeight := longTermWeight }

/-- Two blocks on top of the genesis block; the second one is popped, and another one takes its
place. -/
theorem run_eq_initFromChainHeight_reorg :
    ∃ c, (follower ⟨1, 2⟩).Run [weightHeader 5 5, weightHeader 7 6, weightHeader 3 2] c ∧
      initFromChainHeight 3 ⟨1, 2⟩ [weightHeader 5 5, weightHeader 7 6, weightHeader 3 2] = some c := by
  have hgenesis : (follower ⟨1, 2⟩).Run [weightHeader 5 5] _ := .read (by simp) rfl
  have hone := hgenesis.push (a := weightHeader 7 6) rfl
  have htwo := hone.push (a := weightHeader 9 8) rfl
  have hsource : [weightHeader 5 5, weightHeader 7 6].take (3 - 1) =
      [weightHeader 5 5, weightHeader 7 6, weightHeader 9 8].take (3 - 1) := rfl
  have hpopped := htwo.pop (n := 1) (by simp) hsource rfl
  have hreorg := hpopped.push (a := weightHeader 3 2) rfl
  exact ⟨_, hreorg, (run_eq_initFromChainHeight _ (by simp) (by simp) _ _ hreorg).1⟩

end BlockWeightsCache

end Cuprate.Consensus
