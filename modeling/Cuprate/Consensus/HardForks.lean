import Cuprate.Types.HardFork
import Cuprate.Collections.Window

/-!
# Hard-fork votes and the hard-fork state

`HFVotes` (`consensus/rules/src/hard_forks.rs`) counts the votes of the last `window` blocks and
decides which fork they activate. `HardForkState` (`consensus/context/src/hardforks.rs`) is the
cache of the blockchain context built on it. The database is the list of the extended headers of the
main chain. A panic or a database error is `none`.
-/

namespace Cuprate.Consensus

open HardFork List Function

/-- When a hard fork starts, and how many votes it needs. -/
structure HFInfo where
  height : Nat
  threshold : Nat
deriving DecidableEq, Repr

/-- The information on every hard fork. -/
abbrev HFsInfo := HardFork → HFInfo

/-- The product is computed on `usize`. -/
def votesNeeded (threshold window : Nat) : Nat := (threshold * window % 2 ^ 64 + 99) / 100

/-- One more, or one less, vote for `hf`. -/
def incVote (votes : HardFork → Nat) (hf : HardFork) : HardFork → Nat :=
  update votes hf (votes hf + 1)

def decVote (votes : HardFork → Nat) (hf : HardFork) : HardFork → Nat :=
  update votes hf (votes hf - 1)

theorem decVote_apply (votes : HardFork → Nat) (hf hf' : HardFork) :
    decVote votes hf hf' = votes hf' - if hf = hf' then 1 else 0 := by
  unfold decVote
  by_cases h : hf = hf'
  · subst h; simp
  · simp [h, update_of_ne (Ne.symm h)]

theorem incVote_apply (votes : HardFork → Nat) (hf hf' : HardFork) :
    incVote votes hf hf' = votes hf' + if hf = hf' then 1 else 0 := by
  unfold incVote
  by_cases h : hf = hf'
  · subst h; simp
  · simp [h, update_of_ne (Ne.symm h)]

theorem foldl_decVote (l : List HardFork) (votes : HardFork → Nat) (hf : HardFork) :
    l.foldl decVote votes hf = votes hf - l.count hf := by
  induction l generalizing votes with
  | nil => simp
  | cons a l ih =>
    rw [foldl_cons, ih, decVote_apply, count_cons]
    simp only [beq_iff_eq]
    omega

theorem foldl_incVote (l : List HardFork) (votes : HardFork → Nat) (hf : HardFork) :
    l.foldl incVote votes hf = votes hf + l.count hf := by
  induction l generalizing votes with
  | nil => simp
  | cons a l ih =>
    rw [foldl_cons, ih, incVote_apply, count_cons]
    simp only [beq_iff_eq]
    omega

/-- The voting state: the votes in the window, oldest first, and how many there are for each
fork. -/
structure HFVotes where
  votes : HardFork → Nat
  voteList : List HardFork
  windowSize : Nat
  count : ∀ hf, votes hf = voteList.count hf

namespace HFVotes

theorem ext {v v' : HFVotes} (hl : v.voteList = v'.voteList) (hw : v.windowSize = v'.windowSize) :
    v = v' := by
  obtain ⟨votes, l, w, hc⟩ := v
  obtain ⟨votes', l', w', hc'⟩ := v'
  obtain rfl : l = l' := hl
  obtain rfl : w = w' := hw
  obtain rfl : votes = votes' := funext fun hf => (hc hf).trans (hc' hf).symm
  rfl

def new (windowSize : Nat) : HFVotes where
  votes := fun _ => 0
  voteList := []
  windowSize := windowSize
  count := fun _ => rfl

/-- Adds a vote at the end. -/
def pushBack (v : HFVotes) (hf : HardFork) : HFVotes where
  votes := incVote v.votes hf
  voteList := v.voteList ++ [hf]
  windowSize := v.windowSize
  count hf' := by
    rw [incVote_apply, v.count, count_append, count_singleton]
    simp only [beq_iff_eq]

/-- Removes the oldest vote; there is one whenever this is called. -/
def popFront (v : HFVotes) : HFVotes where
  votes := (v.voteList.take 1).foldl decVote v.votes
  voteList := v.voteList.tail
  windowSize := v.windowSize
  count hf := by
    rw [foldl_decVote, v.count]
    cases v.voteList with
    | nil => rfl
    | cons a l => simp [count_cons]

/-- Adds a vote for a hard fork and removes the vote that falls out of the window. -/
def addVoteForHf (v : HFVotes) (hf : HardFork) : HFVotes :=
  let v := v.pushBack hf
  if v.voteList.length > v.windowSize then v.popFront else v

def totalVotes (v : HFVotes) : Nat := v.voteList.length

/-- Drains the votes of the newest `numbBlocks` blocks, and puts older votes at the front. `none` is
a panic: too many old votes, or too few to drain. -/
def reverseBlocks (v : HFVotes) (numbBlocks : Nat) (oldBlockVotes : HFVotes) : Option HFVotes :=
  if oldBlockVotes.voteList.length ≤ numbBlocks ∧ numbBlocks ≤ v.voteList.length then
    let kept := v.voteList.take (v.voteList.length - numbBlocks)
    let drained := v.voteList.drop (v.voteList.length - numbBlocks)
    some
      { votes := oldBlockVotes.voteList.reverse.foldl incVote (drained.foldl decVote v.votes)
        voteList := oldBlockVotes.voteList ++ kept
        windowSize := v.windowSize
        count := fun hf => by
          have hsplit : v.voteList.count hf = kept.count hf + drained.count hf := by
            rw [← count_append, take_append_drop]
          rw [foldl_incVote, foldl_decVote, v.count, count_reverse, count_append]
          omega }
  else none

/-- The total votes for a hard fork: a vote for a later fork counts too. -/
def votesForHf (v : HFVotes) (hf : HardFork) : Nat :=
  ((variants.drop (hf.asU8 - 1)).map v.votes).sum

/-- The loop of `current_fork`, which runs once for each fork at most. -/
def currentForkLoop (v : HFVotes) (currentHeight window : Nat) (info : HFsInfo) : Nat → HardFork → HardFork
  | 0, currentHf => currentHf
  | fuel + 1, currentHf =>
    match currentHf.nextFork with
    | none => currentHf
    | some nextHf =>
      if (info nextHf).height ≤ currentHeight ∧
        votesNeeded (info nextHf).threshold window ≤ v.votesForHf nextHf then
        currentForkLoop v currentHeight window info fuel nextHf
      else currentHf

/-- The hard fork that the votes lead to. -/
def currentFork (v : HFVotes) (currentHf : HardFork) (currentHeight window : Nat) (info : HFsInfo) :
    HardFork :=
  v.currentForkLoop currentHeight window info variants.length currentHf

end HFVotes

/-- The hard forks of a network and the window of their votes. -/
structure HardForkConfig where
  info : HFsInfo
  window : Nat

/-- The headers of a height range, if the chain has them all. -/
def blockExtendedHeaderInRange (db : List ExtendedBlockHeader) (start stop : Nat) :
    Option (List ExtendedBlockHeader) :=
  if stop ≤ start then some []
  else if stop ≤ db.length then some ((db.take stop).drop start) else none

theorem blockExtendedHeaderInRange_eq {db : List ExtendedBlockHeader} {stop : Nat} (start : Nat)
    (hstop : stop ≤ db.length) :
    blockExtendedHeaderInRange db start stop = some ((db.take stop).drop start) := by
  unfold blockExtendedHeaderInRange
  by_cases hempty : stop ≤ start
  · have hdrop : (db.take stop).drop start = [] := by
      rw [drop_eq_nil_iff, length_take]
      omega
    rw [if_pos hempty, hdrop]
  · rw [if_neg hempty, if_pos hstop]

/-- The votes of the blocks in a range. -/
def getVotesInRange (db : List ExtendedBlockHeader) (start stop windowSize : Nat) : Option HFVotes :=
  (blockExtendedHeaderInRange db start stop).map fun headers =>
    headers.foldl (fun votes h => votes.addVoteForHf (fromVote h.vote)) (HFVotes.new windowSize)

/-- Keeps track of the current hard fork and the current votes. -/
@[ext]
structure HardForkState where
  currentHardfork : HardFork
  config : HardForkConfig
  votes : HFVotes
  lastHeight : Nat

namespace HardForkState

/-- Moves on to the hard fork that the votes lead to. -/
def checkSetNewHf (s : HardForkState) : HardForkState :=
  { s with
    currentHardfork :=
      s.votes.currentFork s.currentHardfork (s.lastHeight + 1) s.config.window s.config.info }

/-- The state of a stored chain. -/
def initFromChainHeight (chainHeight : Nat) (config : HardForkConfig) (db : List ExtendedBlockHeader) :
    Option HardForkState := do
  let votes ← getVotesInRange db (chainHeight - config.window) chainHeight config.window
  let extHeader ← (if chainHeight = 0 then none else db[chainHeight - 1]?)
  some (checkSetNewHf
    { config := config
      currentHardfork := extHeader.version
      votes := votes
      lastHeight := chainHeight - 1 })

/-- Adds the vote of a block. -/
def newBlock (s : HardForkState) (vote : HardFork) (height : Nat) : Option HardForkState :=
  if s.lastHeight + 1 = height then
    some (checkSetNewHf { s with votes := s.votes.addVoteForHf vote, lastHeight := s.lastHeight + 1 })
  else none

/-- Takes blocks off and puts older votes back. -/
def popBlocksMainChain (s : HardForkState) (numbBlocks : Nat) (db : List ExtendedBlockHeader) :
    Option HardForkState :=
  if s.votes.totalVotes < s.config.window then
    initFromChainHeight (s.lastHeight + 1 - numbBlocks) s.config db
  else do
    let retainedBlocks := s.votes.totalVotes - s.config.window
    let currentChainHeight := s.lastHeight + 1
    let oldestVotes ← getVotesInRange db (currentChainHeight - s.config.window - numbBlocks)
      (currentChainHeight - numbBlocks - retainedBlocks) numbBlocks
    let votes ← s.votes.reverseBlocks numbBlocks oldestVotes
    some { s with votes := votes, lastHeight := s.lastHeight - numbBlocks }

/-- The state after `newBlock` for each block of `headers`, from height `height` on. -/
def newBlocks (s : HardForkState) (height : Nat) : List ExtendedBlockHeader → Option HardForkState
  | [] => some s
  | h :: headers => do
    let s ← s.newBlock (fromVote h.vote) height
    newBlocks s (height + 1) headers

end HardForkState

end Cuprate.Consensus
