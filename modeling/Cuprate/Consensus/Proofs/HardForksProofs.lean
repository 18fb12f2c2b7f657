import Cuprate.Consensus.HardForks

/-!
# Popping blocks from the hard-fork state

The state after any number of new blocks is the one that is read from the database
(`reached_eq_init`). But `popBlocksMainChain` refills the vote window with the wrong votes, cannot
pop more blocks than the window holds and never goes back to an earlier fork.
-/

namespace Cuprate.Consensus

open HardFork Collections List Option HFVotes

def votesOf (chain : List ExtendedBlockHeader) : List HardFork := chain.map fun h => fromVote h.vote

@[simp] theorem length_votesOf (chain : List ExtendedBlockHeader) :
    (votesOf chain).length = chain.length := length_map ..

namespace HFVotes

/-- The votes `l` in a window of size `w`. -/
def ofList (w : Nat) (l : List HardFork) : HFVotes where
  votes := fun hf => l.count hf
  voteList := l
  windowSize := w
  count := fun _ => rfl

theorem addVoteForHf_eq (v : HFVotes) (hf : HardFork) :
    v.addVoteForHf hf = ofList v.windowSize (pushWindow v.windowSize v.voteList hf) := by
  refine ext ?_ ?_
  · unfold addVoteForHf pushWindow
    simp only [pushBack, popFront, ofList, gt_iff_lt]
    split <;> rfl
  · unfold addVoteForHf
    dsimp only
    split <;> rfl

theorem foldl_addVoteForHf (w : Nat) (headers : List ExtendedBlockHeader) (l : List HardFork) :
    headers.foldl (fun votes h => votes.addVoteForHf (fromVote h.vote)) (ofList w l) =
      ofList w ((votesOf headers).foldl (pushWindow w) l) := by
  induction headers generalizing l with
  | nil => rfl
  | cons h headers ih =>
    rw [foldl_cons, addVoteForHf_eq]
    exact ih _

theorem reverseBlocks_ofList {w n : Nat} {l : List HardFork} {old : HFVotes}
    (hold : old.voteList.length ≤ n)
    (hn : n ≤ l.length) :
    (ofList w l).reverseBlocks n old = some (ofList w (old.voteList ++ l.take (l.length - n))) := by
  unfold reverseBlocks
  rw [if_pos ⟨hold, hn⟩]
  exact congrArg some (ext rfl rfl)

end HFVotes

variable {db : List ExtendedBlockHeader}

theorem getVotesInRange_eq {start stop : Nat} (w : Nat) (hstop : stop ≤ db.length) :
    getVotesInRange db start stop w =
      some (ofList w (((votesOf db).take stop).drop (max start (stop - w)))) := by
  have hfold (headers : List ExtendedBlockHeader) :
      headers.foldl (fun votes h => votes.addVoteForHf (fromVote h.vote)) (new w) =
        ofList w ((votesOf headers).rtake w) := by
    rw [← foldl_pushWindow_nil]
    exact foldl_addVoteForHf w headers []
  have hvotes : votesOf ((db.take stop).drop start) = ((votesOf db).take stop).drop start := by
    simp only [votesOf, map_drop, map_take]
  rw [getVotesInRange, blockExtendedHeaderInRange_eq start hstop, map_some, hfold, hvotes,
    rtake_take_drop _ (by rwa [length_votesOf])]

namespace HardForkState

variable {h : ExtendedBlockHeader} {k : Nat}

theorem initFromChainHeight_eq (cfg : HardForkConfig) (hh : db[k]? = some h) :
    initFromChainHeight (k + 1) cfg db = some (checkSetNewHf
        { config := cfg
          currentHardfork := h.version
          votes := ofList cfg.window (((votesOf db).take (k + 1)).rtake cfg.window)
          lastHeight := k }) := by
  have hk : k < db.length := (List.getElem?_eq_some_iff.mp hh).1
  have hrtake : ((votesOf db).take (k + 1)).drop (max (k + 1 - cfg.window) (k + 1 - cfg.window)) =
      ((votesOf db).take (k + 1)).rtake cfg.window := by
    rw [List.rtake, max_self, length_take, length_votesOf]
    congr 1
    omega
  unfold initFromChainHeight
  rw [getVotesInRange_eq _ (by omega), hrtake]
  simp [hh]

theorem initFromChainHeight_fields {cfg : HardForkConfig}
    {s : HardForkState} (hs : initFromChainHeight k cfg db = some s) :
    s.config = cfg ∧ s.lastHeight + 1 = k ∧
      s.votes = ofList cfg.window (((votesOf db).take k).rtake cfg.window) := by
  cases k with
  | zero => simp [initFromChainHeight] at hs
  | succ k =>
    rcases hh : db[k]? with _ | h
    · simp [initFromChainHeight, hh] at hs
    · rw [initFromChainHeight_eq cfg hh, some.injEq] at hs
      subst hs
      exact ⟨rfl, rfl, rfl⟩

theorem initFromChainHeight_congr {chain : List ExtendedBlockHeader} (cfg : HardForkConfig)
    (hk : k ≤ chain.length) (htake : db.take k = chain.take k) :
    initFromChainHeight k cfg db = initFromChainHeight k cfg chain := by
  cases k with
  | zero => simp [initFromChainHeight]
  | succ k =>
    obtain ⟨h, hh⟩ : ∃ h, chain[k]? = some h := ⟨_, List.getElem?_eq_getElem hk⟩
    have hget : db[k]? = some h := by
      rw [← hh, ← getElem?_take_of_lt (Nat.lt_succ_self k), htake,
        getElem?_take_of_lt (Nat.lt_succ_self k)]
    have hvotes : (votesOf db).take (k + 1) = (votesOf chain).take (k + 1) := by
      simp only [votesOf, ← map_take, htake]
    rw [initFromChainHeight_eq cfg hget, initFromChainHeight_eq cfg hh, hvotes]

theorem newBlock_init {cfg : HardForkConfig} {s : HardForkState} (hk : 1 ≤ k)
    (hs : initFromChainHeight k cfg db = some s) (hh : db[k]? = some h)
    (hv : h.version = s.currentHardfork) :
    s.newBlock (fromVote h.vote) k = initFromChainHeight (k + 1) cfg db := by
  obtain ⟨k, rfl⟩ : ∃ j, k = j + 1 := ⟨k - 1, by omega⟩
  have hlt : k + 1 < db.length := (List.getElem?_eq_some_iff.mp hh).1
  obtain ⟨top, htop⟩ : ∃ top, db[k]? = some top := ⟨_, List.getElem?_eq_getElem (by omega)⟩
  rw [initFromChainHeight_eq cfg htop, some.injEq] at hs
  have hlast : (votesOf db).take (k + 1 + 1) = (votesOf db).take (k + 1) ++ [fromVote h.vote] := by
    rw [take_add_one, votesOf, getElem?_map, hh]
    rfl
  rw [initFromChainHeight_eq cfg hh, hv, hlast, ← pushWindow_rtake]
  subst hs
  refine (if_pos rfl).trans ?_
  rw [addVoteForHf_eq]
  rfl

/-- A main chain and the state that has seen it grow: every block after the genesis block has the
version the state assigns to it. -/
inductive Grown (cfg : HardForkConfig) : List ExtendedBlockHeader → HardForkState → Prop
  | genesis {h s} : initFromChainHeight 1 cfg [h] = some s → Grown cfg [h] s
  | grow {chain s h s'} : Grown cfg chain s → h.version = s.currentHardfork →
      s.newBlock (fromVote h.vote) chain.length = some s' → Grown cfg (chain ++ [h]) s'

/-- The states of a node that starts at some height of a chain and then takes the remaining blocks
one by one. -/
def Reached (cfg : HardForkConfig) (chain : List ExtendedBlockHeader) (s : HardForkState) : Prop :=
  ∃ k s₀, 1 ≤ k ∧ k ≤ chain.length ∧ initFromChainHeight k cfg (chain.take k) = some s₀ ∧
    s₀.newBlocks k (chain.drop k) = some s

variable {cfg : HardForkConfig} {chain : List ExtendedBlockHeader} {s : HardForkState}

section
variable (hg : Grown cfg chain s)
include hg

theorem Grown.length_pos : 1 ≤ chain.length := by cases hg <;> simp

theorem Grown.eq_init : initFromChainHeight chain.length cfg chain = some s := by
  induction hg with
  | genesis hs => exact hs
  | @grow chain s h s' hg hv hs' ih =>
    have hinit : initFromChainHeight chain.length cfg (chain ++ [h]) = some s := by
      rw [← ih]
      exact initFromChainHeight_congr cfg le_rfl (by simp)
    rw [← hs', newBlock_init hg.length_pos hinit (by simp) hv]
    simp

theorem Grown.version_eq {sₖ : HardForkState}
    (hk : 1 ≤ k) (hh : chain[k]? = some h) (hsₖ : initFromChainHeight k cfg chain = some sₖ) :
    h.version = sₖ.currentHardfork := by
  induction hg with
  | genesis hs =>
    have : k < 1 := (List.getElem?_eq_some_iff.mp hh).1
    omega
  | @grow chain s top s' hg hv hs' ih =>
    have hlt : k < (chain ++ [top]).length := (List.getElem?_eq_some_iff.mp hh).1
    rw [List.length_append, List.length_singleton] at hlt
    have hinit : initFromChainHeight k cfg (chain ++ [top]) = initFromChainHeight k cfg chain :=
      initFromChainHeight_congr cfg (by omega) (take_append_of_le_length (by omega))
    rw [hinit] at hsₖ
    by_cases hlast : k = chain.length
    · subst hlast
      rw [hg.eq_init, some.injEq] at hsₖ
      rw [getElem?_concat_length, some.injEq] at hh
      rw [← hh, ← hsₖ, hv]
    · rw [getElem?_append_left (by omega)] at hh
      exact ih hh hsₖ

theorem newBlocks_init {s₀ s' : HardForkState} (hk : 1 ≤ k)
    (hle : k ≤ chain.length) (hs₀ : initFromChainHeight k cfg chain = some s₀)
    (hs' : s₀.newBlocks k (chain.drop k) = some s') :
    initFromChainHeight chain.length cfg chain = some s' := by
  -- induction on the number of blocks still to come
  obtain ⟨m, hm⟩ : ∃ m, chain.length - k = m := ⟨_, rfl⟩
  induction m generalizing k s₀ with
  | zero =>
    obtain rfl : k = chain.length := by omega
    rw [drop_length] at hs'
    exact hs₀.trans hs'
  | succ m ih =>
    have hlt : k < chain.length := by omega
    have hh : chain[k]? = some chain[k] := List.getElem?_eq_getElem hlt
    have hnew := newBlock_init hk hs₀ hh (hg.version_eq hk hh hs₀)
    rw [drop_eq_getElem_cons hlt, newBlocks, hnew] at hs'
    rcases hs₁ : initFromChainHeight (k + 1) cfg chain with _ | s₁
    · rw [hs₁] at hs'
      cases hs'
    · rw [hs₁] at hs'
      exact ih (by omega) hlt hs₁ hs' (by omega)

end

theorem reached_eq_init {sg : HardForkState} (hg : Grown cfg chain sg) (hr : Reached cfg chain s) :
    initFromChainHeight chain.length cfg chain = some s := by
  obtain ⟨k, s₀, hk, hle, hs₀, hs⟩ := hr
  rw [initFromChainHeight_congr cfg hle (by rw [take_take, min_self])] at hs₀
  exact newBlocks_init hg hk hle hs₀ hs

/-! ## Popping blocks -/

/-- When the pop of the newest `n` blocks restores the state: the window was not full yet; or it
holds all popped blocks, none of them activated the current fork `hf`, and the `n` votes read for
the front of the window are those that come back into it. -/
def PopRestores (cfg : HardForkConfig) (chain : List ExtendedBlockHeader) (hf : HardFork)
    (n : Nat) : Prop :=
  chain.length < cfg.window ∨
    (n ≤ cfg.window ∧ (n = 0 ∨ chain[chain.length - n]?.map (·.version) = some hf) ∧
      (n = cfg.window ∨ (cfg.window + n ≤ chain.length ∧
        ((votesOf chain).drop (chain.length - 2 * n)).take n =
            ((votesOf chain).drop (chain.length - cfg.window - n)).take n)))

/-- The refilled window against the window of the shorter chain. -/
theorem refill_eq_iff (l : List HardFork) {w n : Nat} (hw : w ≤ l.length) (hn : n ≤ w) :
    (l.take (l.length - n)).drop (max (l.length - w - n) (l.length - n - n)) ++
        (l.rtake w).take ((l.rtake w).length - n) = (l.take (l.length - n)).rtake w ↔
      n = w ∨ (w + n ≤ l.length ∧
        (l.drop (l.length - 2 * n)).take n = (l.drop (l.length - w - n)).take n) := by
  have hkept : (l.rtake w).take ((l.rtake w).length - n) = (l.take (l.length - n)).drop
      (l.length - w) := by
    rw [length_rtake, List.rtake, drop_take]
    congr 1
    omega
  have hright : (l.take (l.length - n)).rtake w = (l.take (l.length - n)).drop (l.length - w - n) := by
    rw [List.rtake, length_take]
    congr 1
    omega
  rw [hkept, hright]
  by_cases hnw : n = w
  · subst hnw
    rw [drop_eq_nil_iff.mpr (by rw [length_take]; omega : _ ≤ l.length - n), max_self, append_nil]
    exact iff_of_true rfl (.inl rfl)
  by_cases hfull : w + n ≤ l.length
  · -- both windows end with the votes that stay; the front is compared
    have hsplit : (l.take (l.length - n)).drop (l.length - w - n) =
        (l.drop (l.length - w - n)).take n ++ (l.take (l.length - n)).drop (l.length - w) := by
      rw [← take_append_drop n ((l.take (l.length - n)).drop (l.length - w - n)),
        drop_drop, drop_take, take_take, Nat.min_eq_left (by omega)]
      congr 2
      omega
    have hold : (l.take (l.length - n)).drop (max (l.length - w - n) (l.length - n - n)) =
        (l.drop (l.length - 2 * n)).take n := by
      rw [drop_take, show max (l.length - w - n) (l.length - n - n) = l.length - 2 * n by omega]
      congr 1
      omega
    rw [hsplit, hold, append_left_inj]
    simp only [hnw, hfull, false_or, true_and]
  · refine iff_of_false (fun heq => ?_) (fun h => h.elim hnw fun h => hfull h.1)
    have hlen := congrArg List.length heq
    simp only [List.length_append, length_drop, length_take] at hlen
    omega

theorem currentHardfork_popped_iff {s' : HardForkState} {n : Nat} (hg : Grown cfg chain s)
    (hn : n < chain.length)
    (hs' : initFromChainHeight (chain.length - n) cfg chain = some s') :
    s.currentHardfork = s'.currentHardfork ↔
      n = 0 ∨ chain[chain.length - n]?.map (·.version) = some s.currentHardfork := by
  by_cases h0 : n = 0
  · subst h0
    rw [Nat.sub_zero, hg.eq_init, some.injEq] at hs'
    exact iff_of_true (by rw [hs']) (.inl rfl)
  · have hlt : chain.length - n < chain.length := by omega
    have hh := List.getElem?_eq_getElem hlt
    have hv := hg.version_eq (by omega) hh hs'
    rw [hh, map_some, some.injEq, hv]
    simp only [h0, false_or]
    exact eq_comm

section
variable (hs : initFromChainHeight chain.length cfg chain = some s)
include hs

/-- A pop from a full window, step by step. -/
theorem popBlocksMainChain_full {n : Nat} (hn : n < chain.length)
    (hdb : db.take (chain.length - n) = chain.take (chain.length - n))
      (hfull : cfg.window ≤ chain.length) : s.popBlocksMainChain n db =
      if n ≤ cfg.window then
        some
          { s with
            votes := ofList cfg.window
              (((votesOf chain).take (chain.length - n)).drop
                  (max (chain.length - cfg.window - n) (chain.length - n - n)) ++
                ((votesOf chain).rtake cfg.window).take
                  (((votesOf chain).rtake cfg.window).length - n))
            lastHeight := s.lastHeight - n }
      else none := by
  obtain ⟨hconfig, hlast, hvotes⟩ := initFromChainHeight_fields hs
  rw [take_of_length_le (by rw [length_votesOf])] at hvotes
  have htotal : s.votes.totalVotes = cfg.window := by
    rw [hvotes, totalVotes, ofList, length_rtake, length_votesOf]
    omega
  have hdbLen : chain.length - n ≤ db.length := by
    have := congrArg List.length hdb
    rw [length_take, length_take] at this
    omega
  have hdbVotes : (votesOf db).take (chain.length - n) = (votesOf chain).take (chain.length - n) := by
    simp only [votesOf, ← map_take, hdb]
  unfold popBlocksMainChain
  rw [hconfig, if_neg (by omega), htotal, hlast]
  simp only [Nat.sub_self, Nat.sub_zero]
  rw [getVotesInRange_eq _ hdbLen, hdbVotes, hvotes]
  have hold : (((votesOf chain).take (chain.length - n)).drop
      (max (chain.length - cfg.window - n) (chain.length - n - n))).length ≤ n := by
    rw [length_drop, length_take]
    omega
  split
  · have hle' : n ≤ ((votesOf chain).rtake cfg.window).length := by
      rw [length_rtake, length_votesOf]
      omega
    simp only [bind_eq_bind, bind_some]
    rw [reverseBlocks_ofList hold hle']
    rfl
  · have hgt' : ¬ n ≤ ((votesOf chain).rtake cfg.window).length := by
      rw [length_rtake, length_votesOf]
      omega
    simp only [bind_eq_bind, bind_some]
    rw [reverseBlocks, if_neg (fun h => hgt' h.2)]
    rfl

theorem popBlocksMainChain_short {n : Nat} (hshort : chain.length < cfg.window) :
    s.popBlocksMainChain n db = initFromChainHeight (chain.length - n) cfg db := by
  obtain ⟨hconfig, hlast, hvotes⟩ := initFromChainHeight_fields hs
  have htotal : s.votes.totalVotes < cfg.window := by
    rw [hvotes, totalVotes, ofList, length_rtake, length_take, length_votesOf]
    omega
  unfold popBlocksMainChain
  rw [hconfig, if_pos htotal, hlast]

end

/-- On every grown chain and in every state reached on it, popping `n` blocks leaves the state of
the chain without them exactly when `PopRestores` holds. -/
theorem popBlocksMainChain_eq_init_iff {sg : HardForkState} {db : List ExtendedBlockHeader} {n : Nat}
    (hg : Grown cfg chain sg) (hr : Reached cfg chain s) (hn : n < chain.length)
    (hdb : db.take (chain.length - n) = chain.take (chain.length - n)) :
    (∃ s', s.popBlocksMainChain n db = some s' ∧
      initFromChainHeight (chain.length - n) cfg (chain.take (chain.length - n)) = some s') ↔
    PopRestores cfg chain s.currentHardfork n := by
  have hs := reached_eq_init hg hr
  obtain rfl : sg = s := some.inj (hg.eq_init.symm.trans hs)
  have hle : chain.length - n ≤ chain.length := Nat.sub_le ..
  rw [initFromChainHeight_congr cfg hle (by rw [take_take, min_self])]
  obtain ⟨k, hk⟩ : ∃ k, chain.length - n = k + 1 := ⟨chain.length - n - 1, by omega⟩
  obtain ⟨s', htarget⟩ : ∃ s', initFromChainHeight (chain.length - n) cfg chain = some s' := by
    rw [hk]
    exact ⟨_, initFromChainHeight_eq cfg (List.getElem?_eq_getElem (by omega))⟩
  obtain ⟨hconfig, hlast, -⟩ := initFromChainHeight_fields hs
  obtain ⟨hconfig', hlast', hvotes'⟩ := initFromChainHeight_fields htarget
  unfold PopRestores
  by_cases hshort : chain.length < cfg.window
  · refine iff_of_true ⟨s', ?_, htarget⟩ (.inl hshort)
    rw [popBlocksMainChain_short hs hshort, initFromChainHeight_congr cfg hle hdb, htarget]
  rw [popBlocksMainChain_full hs hn hdb (by omega)]
  by_cases hnw : n ≤ cfg.window
  · have hlist := refill_eq_iff (votesOf chain) (by rw [length_votesOf]; omega) hnw
    rw [length_votesOf] at hlist
    rw [← currentHardfork_popped_iff hg hn htarget, ← hlist, if_pos hnw, htarget]
    -- what is left is the equality of two states, field by field
    constructor
    · rintro ⟨_, hpop, hinit⟩
      cases hinit
      have heq := some.inj hpop
      refine .inr ⟨hnw, by rw [← heq], ?_⟩
      exact (congrArg (fun s => s.votes.voteList) heq).trans (congrArg voteList hvotes')
    · rintro (h | ⟨-, hcur, hvotes⟩)
      · exact absurd h hshort
      · refine ⟨s', congrArg some (HardForkState.ext hcur (hconfig.trans hconfig'.symm) ?_ ?_), rfl⟩
        · rw [hvotes', hvotes]
        · show sg.lastHeight - n = s'.lastHeight
          omega
  · rw [if_neg hnw]
    refine iff_of_false (fun ⟨_, h, _⟩ => by cases h) ?_
    rintro (h | ⟨h, -⟩)
    · exact hshort h
    · exact hnw h

/-- A fork table: `V2` starts at height 4 and needs no votes, the later forks never start. -/
def secondForkAt4 : HFsInfo
  | .V1 => ⟨0, 0⟩
  | .V2 => ⟨4, 0⟩
  | _ => ⟨1000000, 0⟩

def header (version : HardFork) (vote : Nat) : ExtendedBlockHeader :=
  { version := version, vote := vote, timestamp := 0, cumulativeDifficulty := 1, blockWeight := 0,
    longTermWeight := 0 }

/-- Blocks of the first fork: after four of them the next block is the first one of `V2`. -/
def v1Blocks (n : Nat) : List ExtendedBlockHeader := List.replicate n (header .V1 2)

theorem grown_threeBlocks :
    ∃ s, Grown ⟨secondForkAt4, 1⟩ (v1Blocks 3) s ∧ Reached ⟨secondForkAt4, 1⟩ (v1Blocks 3) s ∧
      s.currentHardfork = .V1 := by
  have hgenesis := @Grown.genesis ⟨secondForkAt4, 1⟩ (header .V1 2) _ rfl
  have htwo := hgenesis.grow (h := header .V1 2) (by decide) rfl
  have hthree := htwo.grow (h := header .V1 2) (by decide) rfl
  exact ⟨_, hthree, ⟨1, _, by decide, by decide, rfl, rfl⟩, by decide⟩

/-- The third of three `V1` blocks is popped without a trace. -/
theorem popBlocksMainChain_eq_init_threeBlocks :
    ∃ s s' : HardForkState, Reached ⟨secondForkAt4, 1⟩ (v1Blocks 3) s ∧
      s.popBlocksMainChain 1 (v1Blocks 2) = some s' ∧
      initFromChainHeight 2 ⟨secondForkAt4, 1⟩ (v1Blocks 2) = some s' := by
  obtain ⟨s, hg, hr, hcur⟩ := grown_threeBlocks
  have hrestores : PopRestores ⟨secondForkAt4, 1⟩ (v1Blocks 3) s.currentHardfork 1 := by
    rw [hcur]
    exact .inr ⟨by decide, .inr (by decide), .inl rfl⟩
  obtain ⟨s', hpop, hinit⟩ := (popBlocksMainChain_eq_init_iff hg hr (by decide)
    (by decide : (v1Blocks 2).take 2 = (v1Blocks 3).take 2)).mpr hrestores
  exact ⟨s, s', hr, hpop, hinit⟩

theorem grown_fourBlocks :
    ∃ s, Grown ⟨secondForkAt4, 1⟩ (v1Blocks 4) s ∧ Reached ⟨secondForkAt4, 1⟩ (v1Blocks 4) s ∧
      s.currentHardfork = .V2 := by
  have hgenesis := @Grown.genesis ⟨secondForkAt4, 1⟩ (header .V1 2) _ rfl
  have htwo := hgenesis.grow (h := header .V1 2) (by decide) rfl
  have hthree := htwo.grow (h := header .V1 2) (by decide) rfl
  have hfour := hthree.grow (h := header .V1 2) (by decide) rfl
  exact ⟨_, hfour, ⟨1, _, by decide, by decide, rfl, rfl⟩, by decide⟩

/-- The pop of the block that activated `V2` leaves the state at `V2`. -/
theorem popBlocksMainChain_keeps_fork : ∃ s s' : HardForkState, Grown ⟨secondForkAt4, 1⟩ (v1Blocks 4) s ∧
      Reached ⟨secondForkAt4, 1⟩ (v1Blocks 4) s ∧
      s.popBlocksMainChain 1 (v1Blocks 3) = some s' ∧ s'.currentHardfork = .V2 ∧
      (initFromChainHeight 3 ⟨secondForkAt4, 1⟩ (v1Blocks 3)).map (·.currentHardfork) = some .V1 := by
  obtain ⟨s, hg, hr, hcur⟩ := grown_fourBlocks
  have hpop := popBlocksMainChain_full hg.eq_init (by decide : 1 < (v1Blocks 4).length)
    (by decide : (v1Blocks 3).take 3 = (v1Blocks 4).take 3) (by decide)
  exact ⟨s, _, hg, hr, hpop, hcur, by decide⟩

end HardForkState

end Cuprate.Consensus
