import Cuprate.Consensus.Proofs.HardForksProofs

/-!
# The votes for hard forks

What any sequence of calls keeps of the vote window, and the fork that its votes activate.
-/

namespace Cuprate.Consensus.HFVotes

open HardFork Collections List

/-- A call that changes the votes. -/
inductive Call where
  | addVoteForHf (hf : HardFork)
  | reverseBlocks (numbBlocks : Nat) (oldBlockVotes : HFVotes)

def call (v : HFVotes) : Call → Option HFVotes
  | .addVoteForHf hf => some (v.addVoteForHf hf)
  | .reverseBlocks numbBlocks oldBlockVotes => v.reverseBlocks numbBlocks oldBlockVotes

/-- The votes that a call takes off the counters, and the counters at that time. -/
def taken (v : HFVotes) : Call → List HardFork × (HardFork → Nat)
  | .addVoteForHf hf =>
    let v := v.pushBack hf
    (if v.voteList.length > v.windowSize then v.voteList.take 1 else [], v.votes)
  | .reverseBlocks numbBlocks _ => (v.voteList.drop (v.voteList.length - numbBlocks), v.votes)

/-- The votes in the list are on the counters. -/
theorem count_taken_le (v : HFVotes) (c : Call) (hf : HardFork) :
    (v.taken c).1.count hf ≤ (v.taken c).2 hf := by
  cases c with
  | addVoteForHf hf' =>
    simp only [taken, (v.pushBack hf').count]
    split
    · exact (take_sublist ..).count_le hf
    · simp
  | reverseBlocks numbBlocks oldBlockVotes =>
    simp only [taken, v.count]
    exact (drop_sublist ..).count_le hf

theorem call_fields {v v' : HFVotes} {c : Call} (h : v.call c = some v') : v'.windowSize = v.windowSize ∧
      (v.voteList.length ≤ v.windowSize → v'.voteList.length ≤ v.windowSize) := by
  cases c with
  | addVoteForHf hf =>
    cases h
    rw [addVoteForHf_eq]
    refine ⟨rfl, fun hle => ?_⟩
    simp only [ofList, pushWindow]
    split
    · rw [length_tail]
      simp; omega
    · omega
  | reverseBlocks numbBlocks oldBlockVotes =>
    simp only [call, reverseBlocks] at h
    split at h
    · cases h
      refine ⟨rfl, fun hle => ?_⟩
      simp only [length_append, length_take]
      omega
    · cases h

theorem calls_fields {window : Nat} {calls : List Call} {v v' : HFVotes} (hwindow : v.windowSize = window)
    (hle : v.voteList.length ≤ window) (h : calls.foldlM call v = some v') :
    v'.windowSize = window ∧ v'.voteList.length ≤ window := by
  induction calls generalizing v with
  | nil => exact Option.some.inj h ▸ ⟨hwindow, hle⟩
  | cons c calls ih =>
    obtain ⟨v₁, hcall, h⟩ := Option.bind_eq_some_iff.mp h
    obtain ⟨hsize, hlength⟩ := call_fields hcall
    exact ih (hsize.trans hwindow) (hwindow ▸ hlength (hwindow ▸ hle)) h

theorem votesForHf_eq (v : HFVotes) (hf : HardFork) : v.votesForHf hf = v.voteList.countP (hf ≤ ·) := by
  have hone (a : HardFork) : ((variants.drop (hf.asU8 - 1)).map fun hf' => if a = hf' then 1 else 0).sum =
      if hf ≤ a then 1 else 0 := by
    cases hf <;> cases a <;> rfl
  rw [votesForHf, show v.votes = fun hf => v.voteList.count hf from funext v.count]
  induction v.voteList with
  | nil => simp
  | cons a l ih =>
    simp only [count_cons, beq_iff_eq, countP_cons, decide_eq_true_iff]
    rw [sum_map_add, ih, hone]

/-- Every fork after the current one, up to `hf`, has its height reached and has enough votes. -/
def Activated (v : HFVotes) (height window : Nat) (info : HFsInfo) (currentHf hf : HardFork) : Prop :=
  ∀ hf', currentHf < hf' → hf' ≤ hf → (info hf').height ≤ height ∧
    ⌈((info hf').threshold * window : ℚ) / 100⌉₊ ≤ v.voteList.countP (hf' ≤ ·)

theorem nextFork_eq {hf : HardFork} {nextHf : HardFork} (h : hf.nextFork = some nextHf) :
    nextHf.asU8 = hf.asU8 + 1 := by
  cases hf <;> cases h <;> rfl

theorem votesNeeded_le {threshold window votes : Nat} (h : threshold * window < 2 ^ 64) :
    votesNeeded threshold window ≤ votes ↔ ⌈(threshold * window : ℚ) / 100⌉₊ ≤ votes := by
  rw [Nat.ceil_le, div_le_iff₀ (by norm_num), votesNeeded, Nat.mod_eq_of_lt h]
  norm_cast
  omega

/-- The loop stops at the last activated fork, once it has the fuel to reach the last of all. -/
theorem currentForkLoop_spec (v : HFVotes) (height : Nat) {window : Nat} {info : HFsInfo}
    (hprod : ∀ hf, (info hf).threshold * window < 2 ^ 64) (fuel : Nat) (currentHf : HardFork)
    (hfuel : 16 ≤ currentHf.asU8 + fuel) :
    let hf := v.currentForkLoop height window info fuel currentHf
    currentHf ≤ hf ∧ v.Activated height window info currentHf hf ∧
      ∀ hf', v.Activated height window info currentHf hf' → hf' ≤ hf := by
  have hself (hf : HardFork) : v.Activated height window info hf hf :=
    fun _ hlt hle => absurd hle (Nat.not_le.mpr hlt)
  have hlast (hf : HardFork) : hf.asU8 ≤ 16 := by cases hf <;> decide
  induction fuel generalizing currentHf with
  | zero => exact ⟨Nat.le_refl _, hself _, fun hf' _ => (hlast hf').trans hfuel⟩
  | succ fuel ih =>
    rw [currentForkLoop]
    cases hnext : currentHf.nextFork with
    | none =>
      have hend : 16 ≤ currentHf.asU8 := by
        revert hnext
        cases currentHf <;> decide
      exact ⟨Nat.le_refl _, hself _, fun hf' _ => (hlast hf').trans hend⟩
    | some nextHf =>
      have hsucc := nextFork_eq hnext
      -- The next fork is the first one to be looked at.
      have hfirst (hf' : HardFork) (hlt : currentHf < hf') : nextHf ≤ hf' := hsucc.trans_le hlt
      simp only [votesNeeded_le (hprod nextHf), votesForHf_eq]
      split
      next hactive =>
        obtain ⟨hle, hactivated, hmax⟩ := ih nextHf (by omega)
        have hlt : currentHf < nextHf := Nat.lt_of_succ_le hsucc.ge
        refine ⟨Nat.le_trans (Nat.le_of_lt hlt) hle, fun hf' hlt' hle' => ?_, fun hf' h => ?_⟩
        · obtain heq | hgt := Nat.eq_or_lt_of_le (hfirst hf' hlt')
          · exact asU8_injective heq ▸ hactive
          · exact hactivated hf' hgt hle'
        · exact hmax hf' fun hf'' hlt' => h hf'' (Nat.lt_trans hlt hlt')
      next hinactive =>
        refine ⟨Nat.le_refl _, hself _, fun hf' h => Nat.not_lt.mp fun hlt => hinactive ?_⟩
        exact h nextHf (Nat.lt_of_succ_le hsucc.ge) (hfirst hf' hlt)

/-- Along every run of calls from an empty window: each counter is the number of votes for its fork
in the list, the list stays within the window, and the next call takes no more votes off a counter
than it has. The current fork is the last activated one. -/
theorem votes_calls {windowSize window : Nat} {info : HFsInfo} {calls : List Call} {v : HFVotes}
    (hprod : ∀ hf, (info hf).threshold * window < 2 ^ 64)
    (h : calls.foldlM call (new windowSize) = some v) (currentHf : HardFork) (height : Nat) :
    (∀ hf, v.votes hf = v.voteList.count hf) ∧ v.voteList.length ≤ windowSize ∧
      (∀ c hf, (v.taken c).1.count hf ≤ (v.taken c).2 hf) ∧
      (let hf := v.currentFork currentHf height window info
       currentHf ≤ hf ∧ v.Activated height window info currentHf hf ∧
         ∀ hf', currentHf ≤ hf' → v.Activated height window info currentHf hf' → hf' ≤ hf) := by
  refine ⟨v.count, (calls_fields rfl (Nat.zero_le _) h).2, v.count_taken_le, ?_⟩
  obtain ⟨hle, hactivated, hmax⟩ := v.currentForkLoop_spec height hprod variants.length currentHf
    (Nat.le_add_left ..)
  exact ⟨hle, hactivated, fun hf' _ => hmax hf'⟩

/-- The window of three is full twice, and a block is reversed in between; two of three votes
activate the fork. -/
theorem votes_calls_reversed :
    let info : HFsInfo := fun hf => if hf = .V2 then ⟨5, 50⟩ else ⟨100, 0⟩
    ∃ v, [Call.addVoteForHf .V1, .addVoteForHf .V1, .addVoteForHf .V2, .addVoteForHf .V2,
        .reverseBlocks 1 ((new 3).addVoteForHf .V1), .addVoteForHf .V2].foldlM call (new 3) = some v ∧
      v.votes .V2 = [HardFork.V1, .V2, .V2].count .V2 ∧ v.currentFork .V1 5 3 info = .V2 ∧
      v.Activated 5 3 info .V1 .V2 := by
  intro info
  obtain ⟨v, hv, hlist⟩ :
    ∃ v, [Call.addVoteForHf .V1, .addVoteForHf .V1, .addVoteForHf .V2, .addVoteForHf .V2,
      .reverseBlocks 1 ((new 3).addVoteForHf .V1), .addVoteForHf .V2].foldlM call (new 3) = some v ∧
        v.voteList = [.V1, .V2, .V2] ∧ v.currentFork .V1 5 3 info = .V2 := ⟨_, rfl, rfl, by decide +kernel⟩
  have hprod (hf : HardFork) : (info hf).threshold * 3 < 2 ^ 64 := by
    show (if hf = .V2 then (⟨5, 50⟩ : HFInfo) else ⟨100, 0⟩).threshold * 3 < 2 ^ 64
    split <;> decide
  obtain ⟨hcount, -, -, -, hactivated, -⟩ := votes_calls hprod hv .V1 5
  rw [hlist.2] at hactivated
  exact ⟨v, hv, hlist.1 ▸ hcount .V2, hlist.2, hactivated⟩

end Cuprate.Consensus.HFVotes
