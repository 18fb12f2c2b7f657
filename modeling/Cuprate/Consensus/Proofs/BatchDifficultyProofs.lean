import Cuprate.Consensus.Proofs.BlockVerificationProofs
import Cuprate.Consensus.Proofs.NextDifficultyProofs

/-!
# The difficulties of a batch

`batch_prepare_main_chain_blocks` calculates all difficulties of a batch ahead, that of block `i +
1` with the hard fork of block `i`. They agree with those of one-by-one verification unless the
target block time changes after a block of `V1`.
-/

namespace Cuprate.Consensus

open Collections HardFork List Option ContextTask PreparedBlockExPow DifficultyCache

theorem blockTime_of_ne {hf : HardFork} (h : hf ≠ V1) : hf.blockTime = 120 := by
  cases hf <;> first | rfl | exact absurd rfl h

namespace DifficultyCache

/-- The next difficulty is the same for both target block times: it is fixed, there are too few
blocks, or no multiple of the window's time span separates the work times 60 from the work times
120. -/
def TargetsAgree (c : DifficultyCache) : Prop :=
  c.config.fixedDifficulty ≠ none ∨ c.timestamps.length ≤ 1 ∨
    ∀ work span, windowedWork c.config c.timestamps c.cumulativeDifficulties = some (work, span) →
      ∀ k, work * 60 % 2 ^ 128 ≤ k * max 1 span ↔ work * 120 % 2 ^ 128 ≤ k * max 1 span

theorem targetDifficulty_eq_iff {work span : Nat} :
    targetDifficulty 60 work span = targetDifficulty 120 work span ↔
      ∀ k, work * 60 % 2 ^ 128 ≤ k * max 1 span ↔ work * 120 % 2 ^ 128 ≤ k * max 1 span := by
  have hspan : (if span = 0 then 1 else span) = max 1 span := by split <;> omega
  unfold targetDifficulty
  rw [hspan]
  exact divCeil_eq_iff (by omega)

theorem nextDifficulty_V1_eq_iff {c : DifficultyCache} {hf : HardFork} {next : Nat} (hne : hf ≠ V1)
    (hnext : c.nextDifficulty hf = some next) :
    c.nextDifficulty V1 = c.nextDifficulty hf ↔ c.TargetsAgree := by
  unfold nextDifficulty Consensus.nextDifficulty TargetsAgree at *
  cases hfixed : c.config.fixedDifficulty with
  | some d => simp
  | none =>
    rw [hfixed] at hnext
    by_cases hlen : c.timestamps.length ≤ 1
    · simp [hlen]
    · simp only [hlen, if_false] at hnext ⊢
      obtain ⟨⟨work, span⟩, hw, -⟩ := map_eq_some_iff.mp hnext
      rw [hw, blockTime_of_ne hne]
      simp only [map_some, some.injEq, ne_eq, not_true_eq_false, false_or]
      show targetDifficulty 60 work span = targetDifficulty 120 work span ↔ _
      rw [targetDifficulty_eq_iff]
      constructor
      · rintro h work' span' heq
        cases heq
        exact h
      · exact fun h => h work span rfl

end DifficultyCache

/-- Blocks that were accepted one after another, with the states they were accepted in. -/
inductive Run (env : BlockEnv) : ContextTask → List IncomingBlock → List ContextTask → Prop where
  | nil (s : ContextTask) : Run env s [] []
  | cons {s s' : ContextTask} {b : IncomingBlock} {bs : List IncomingBlock}
      {states : List ContextTask} (ha : Accepted env s b s') (hrun : Run env s' bs states) :
      Run env s (b :: bs) (s :: states)

variable {states : List ContextTask} {env : BlockEnv} {bs : List IncomingBlock} {s : ContextTask}
  {b : IncomingBlock}

theorem run_of_verifySequentially (hs : s.Synced) (h : verifySequentially env s bs = .ok states) :
    Run env s bs states := by
  induction bs generalizing s states with
  | nil =>
    cases h
    exact .nil s
  | cons b bs ih =>
    obtain ⟨s', hstep, h⟩ := bind_eq_ok.mp h
    obtain ⟨rest, hrest, h⟩ := bind_eq_ok.mp h
    cases h
    have ha := accepted_of_verifyAndUpdate hs hstep
    exact .cons ha (ih ha.synced hrest)

def preparedAt (env : BlockEnv) (s : ContextTask) (b : IncomingBlock) : PreparedBlockExPow where
  block := b.block
  blockBlob := env.oxide.serializeBlock b.block
  hfVote := fromVote b.block.header.hardforkSignal
  hfVersion := s.hardfork
  blockHash := env.oxide.hashBlock b.block
  height := s.chainHeight
  minerTxWeight := env.oxide.txWeight b.block.minerTransaction

theorem Accepted.prepared {s' : ContextTask} (h : Accepted env s b s') :
    new env.oxide b.block = .ok (preparedAt env s b) := by
  have hheader : preparedVersionVote b.block =
      .ok (s.hardfork, fromVote b.block.header.hardforkSignal) := by
    unfold preparedVersionVote fromBlockHeader
    rw [h.version]
    rfl
  unfold new
  rw [hheader, h.inputs]
  rfl

theorem Run.prepared (h : Run env s bs states) : (bs.map (·.block)).mapM (new env.oxide) =
      .ok (List.zipWith (preparedAt env) states bs) := by
  rw [mapM_eq_ok]
  induction h with
  | nil s => exact .nil
  | cons ha hrun ih => exact .cons ha.prepared ih

theorem Run.hardfork_le_last (h : Run env s bs states) {last : PreparedBlockExPow}
    (hlast : (List.zipWith (preparedAt env) states bs).getLast? = some last) :
    ∀ s' ∈ states, s'.hardfork ≤ last.hfVersion := by
  induction h with
  | nil s => simp
  | @cons s s' b bs states ha hrun ih =>
    intro s₀ hmem
    cases hrun with
    | nil =>
      obtain rfl : preparedAt env s b = last := some.inj hlast
      obtain rfl : s₀ = s := mem_singleton.mp hmem
      exact Nat.le_refl _
    | @cons _ s'' b' bs' states' ha' hrun' =>
      have hlast' : (zipWith (preparedAt env) (s' :: states') (b' :: bs')).getLast? = some last := hlast
      rcases mem_cons.mp hmem with rfl | hmem
      · exact Nat.le_trans ha.hardfork_le (ih hlast' s' (mem_cons_self ..))
      · exact ih hlast' s₀ hmem

theorem Run.follows (h : Run env s bs states)
    {topHf : HardFork} (htop : ∀ s' ∈ states, s'.hardfork ≤ topHf) :
    let blocks := zipWith (preparedAt env) states bs
    ∀ pair ∈ blocks.zip blocks.tail, checkFollows topHf pair = .ok () := by
  induction h with
  | nil s => simp
  | @cons s s' b bs states ha hrun ih =>
    have hs := htop s (mem_cons_self ..)
    cases hrun with
    | nil => simp
    | @cons _ s'' b' bs' states' ha' hrun' =>
      have ih := ih fun s₀ hmem => htop s₀ (mem_cons_of_mem _ hmem)
      intro blocks pair hmem
      rcases mem_cons.mp hmem with rfl | hmem
      · have hlt := ha.height_lt
        unfold MAX_BLOCK_HEIGHT at hlt
        have hversion : ¬ topHf < s.hardfork := Nat.not_lt.mpr hs
        have hhash : env.oxide.hashBlock b.block = b'.block.header.previous :=
          ha.topBlockHash.symm.trans ha'.previous.symm
        have hheight : s.chainHeight = (s'.chainHeight + 2 ^ 64 - 1) % 2 ^ 64 := by
          rw [ha.chainHeight]
          omega
        unfold checkFollows preparedAt
        rw [if_neg hversion, if_neg]
        rintro (hne | hne)
        · exact hne hhash
        · exact hne hheight
      · exact ih pair hmem

/-- If the target block time changes between two blocks, the difficulty of the second is the same
for both. -/
def KeepsTarget (s s' : ContextTask) : Prop :=
  s.hardfork = V1 → s'.hardfork ≠ V1 → s'.difficultyCache.TargetsAgree

theorem Accepted.nextDifficulty_eq_iff {s' : ContextTask} (h : Accepted env s b s') :
    s'.difficultyCache.nextDifficulty s.hardfork = some s'.difficulty ↔ KeepsTarget s s' := by
  have hnext := h.synced.nextDifficulty
  unfold KeepsTarget
  by_cases hv : s.hardfork = V1
  · by_cases hv' : s'.hardfork = V1
    · refine iff_of_true ?_ fun _ hne => absurd hv' hne
      rw [hv, ← hv', hnext]
    · rw [hv, ← hnext, DifficultyCache.nextDifficulty_V1_eq_iff hv' hnext]
      exact ⟨fun h _ _ => h, fun h => h rfl hv'⟩
  · have hv' : s'.hardfork ≠ V1 := by
      intro heq
      have hle : s.hardfork.asU8 ≤ s'.hardfork.asU8 := h.hardfork_le
      rw [heq] at hle
      refine hv (asU8_injective (le_antisymm hle ?_))
      cases s.hardfork <;> decide
    have htime : s.hardfork.blockTime = s'.hardfork.blockTime :=
        by rw [blockTime_of_ne hv, blockTime_of_ne hv']
    refine iff_of_true ?_ fun heq => absurd heq hv
    rw [← hnext]
    unfold DifficultyCache.nextDifficulty nextDifficulty
    rw [htime]

/-- The loop of `next_difficulties` follows the states of the run. -/
theorem Run.nextDifficultiesLoop_eq_iff (hrun : Run env s bs states)
    {s₀ : ContextTask} (ha : Accepted env s₀ b s) :
    s₀.difficultyCache.nextDifficultiesLoop s₀.difficulty
        (timestampsHfs (List.zipWith (preparedAt env) (s₀ :: states) (b :: bs))) =
        some (states.map (·.difficulty)) ↔
      (s₀ :: states).IsChain KeepsTarget := by
  induction hrun generalizing s₀ b with
  | nil s => exact iff_of_true rfl (.singleton _)
  | @cons s s' b' bs states ha' hrun ih =>
    have hcache := newBlock_eq_some ha.difficultyCache
    rw [isChain_cons_cons, ← ih ha', ← ha.nextDifficulty_eq_iff]
    show (do
      let next ← (s₀.difficultyCache.push b.block.header.timestamp
        ((s₀.difficultyCache.cumulativeDifficulty + s₀.difficulty) % 2 ^ 128)).nextDifficulty s₀.hardfork
      let rest ← (s₀.difficultyCache.push b.block.header.timestamp
        ((s₀.difficultyCache.cumulativeDifficulty + s₀.difficulty) %
          2 ^ 128)).nextDifficultiesLoop next
        (timestampsHfs (zipWith (preparedAt env) (s :: states) (b' :: bs)))
      some (next :: rest)) = some (s.difficulty :: states.map (·.difficulty)) ↔ _
    -- the pushed copy is the cache of the next state, up to the height it keeps
    rw [hcache, nextDifficultiesLoop_height]
    generalize s₀.difficultyCache.push b.block.header.timestamp
      ((s₀.difficultyCache.cumulativeDifficulty + s₀.difficulty) % 2 ^ 128) = c
    generalize timestampsHfs _ = timestamps
    constructor
    · intro h
      obtain ⟨next, hnext, h⟩ := bind_eq_some_iff.mp h
      obtain ⟨rest, hrest, h⟩ := bind_eq_some_iff.mp h
      obtain ⟨rfl, rfl⟩ := List.cons.inj (some.inj h)
      exact ⟨hnext, hrest⟩
    · rintro ⟨hnext, hrest⟩
      have hnext : c.nextDifficulty s₀.hardfork = some s.difficulty := hnext
      rw [hnext]
      show (do
        let rest ← c.nextDifficultiesLoop s.difficulty timestamps
        some (s.difficulty :: rest)) = _
      rw [hrest]
      rfl

theorem Run.batchDifficulties (h : Run env s (b :: bs) states) :
    let blocks := zipWith (preparedAt env) states (b :: bs)
    batchDifficulties env s ((b :: bs).map (·.block)) =
      orPanic (s.batchGetDifficulties (timestampsHfs blocks)) >>= fun difficulties =>
        pure (blocks, difficulties) := by
  intro blocks
  obtain ⟨last, hlast⟩ : ∃ last, blocks.getLast? = some last := by
    cases h with
    | cons ha hrun => exact ⟨_, getLast?_eq_some_getLast (cons_ne_nil _ _)⟩
  have hfollows := forM_eq_ok.mpr (h.follows (h.hardfork_le_last hlast))
  unfold Consensus.batchDifficulties
  simp only [h.prepared, Except.mapError, bind, Except.bind]
  rw [show (zipWith (preparedAt env) states (b :: bs)).getLast? = some last from hlast]
  dsimp only
  rw [hfollows]

/-- For blocks that are accepted one by one, the batch calculation gives every block the difficulty
it has on its own exactly when every change of the target block time inside the batch leaves the
next difficulty as it is. -/
theorem batchDifficulties_eq_sequential_iff (env : BlockEnv) (s : ContextTask) (hs : s.Synced)
    (b : IncomingBlock)
    (bs : List IncomingBlock) (states : List ContextTask)
      (hseq : verifySequentially env s (b :: bs) = .ok states) :
    (∃ blocks, batchDifficulties env s ((b :: bs).map (·.block)) =
        .ok (blocks, states.map fun s' => s'.contextCache.contextToVerifyBlock.nextDifficulty)) ↔
      states.IsChain KeepsTarget := by
  have hrun := run_of_verifySequentially hs hseq
  rw [hrun.batchDifficulties]
  cases hrun with
  | @cons _ s' _ _ states ha hrun =>
    rw [← hrun.nextDifficultiesLoop_eq_iff ha]
    have hfirst := hs.nextDifficulty
    constructor
    · rintro ⟨blocks, h⟩
      obtain ⟨difficulties, hdiff, h⟩ := bind_eq_ok.mp h
      cases h
      obtain ⟨first, hfirst', hdiff⟩ := bind_eq_some_iff.mp (orPanic_eq_ok.mp hdiff)
      obtain rfl : s.difficulty = first := some.inj (hfirst.symm.trans hfirst')
      obtain ⟨rest, hrest, hdiff⟩ := bind_eq_some_iff.mp hdiff
      rw [hrest]
      exact congrArg some (List.cons.inj (some.inj hdiff)).2
    · intro hloop
      refine ⟨zipWith (preparedAt env) (s :: states)
        (b :: bs), bind_eq_ok.mpr ⟨_, orPanic_eq_ok.mpr ?_, rfl⟩⟩
      exact bind_eq_some_iff.mpr ⟨_, hfirst, bind_eq_some_iff.mpr ⟨_, hloop, rfl⟩⟩

/-- A chain with hard fork 2 at `forkHeight`, and the later ones far away. -/
def twoForksConfig (forkHeight : Nat) : ContextConfig where
  difficultyCfg := .mainNet
  weightsConfig := .mainNet
  hardForkCfg := ⟨fun hf => if hf = V2 then ⟨forkHeight, 0⟩ else ⟨1000000, 0⟩, 10080⟩

def minuteRecord (height : Nat) : ChainRecord where
  header := ⟨V1, 1, UInt64.ofNat (60 * height), height + 1, 80, 80⟩
  hash := BitVec.ofNat 256 height
  generatedCoins := 100

/-- The hash of a block is its nonce, and its proof of work is always good enough. -/
def nonceEnv : BlockEnv where
  oxide :=
    { serializeBlock := fun _ => []
      hashBlock := fun b => BitVec.ofNat 256 b.header.nonce.toNat
      serializePowHash := fun _ => []
      serializeTx := fun _ => []
      hashTx := fun _ => 0
      txWeight := fun _ => 80 }
  pow := ⟨fun _ => 0, fun _ => some 0, fun _ => 0, fun _ _ => 0, fun _ _ => some 0⟩
  checks := ⟨fun _ _ => .error .tooBig, fun _ => true, fun _ _ => .ok (), fun _ => true⟩

/-- A block without transactions, one minute after the one before. -/
def minuteBlock (height : Nat) (hf : HardFork) (amount : UInt64) : IncomingBlock where
  block :=
    { header :=
        { hardforkVersion := hf.asU8
          hardforkSignal := hf.asU8
          timestamp := UInt64.ofNat (60 * height)
          previous := BitVec.ofNat 256 (height - 1)
          nonce := UInt32.ofNat height }
      minerTransaction := .v1 ⟨.block (height + 60), [.gen height], [⟨some amount, 0, none⟩], []⟩ []
      transactions := [] }
  randomxVm := none
  txs := []
  now := 1000
  reader := ⟨false, fun _ => false, fun _ => [], ⟨fun _ _ => none, fun _ => 0⟩⟩

/-- The difficulties of blocks that are verified one by one on top of three blocks, and those of the
batch calculation. -/
def bothDifficulties (forkHeight : Nat) (bs : List IncomingBlock) : Option (List Nat × List Nat) := do
  let s ← initContext (twoForksConfig forkHeight) ((List.range 3).map minuteRecord)
  let states ← (verifySequentially nonceEnv s bs).toOption
  let batch ← (batchDifficulties nonceEnv s (bs.map (·.block))).toOption
  some (states.map fun s' => s'.contextCache.contextToVerifyBlock.nextDifficulty, batch.2)

theorem bothDifficulties_eq_some {forkHeight : Nat} {seq batch : List Nat}
    (h : bothDifficulties forkHeight bs = some (seq, batch)) :
    ∃ s states blocks,
      initContext (twoForksConfig forkHeight) ((List.range 3).map minuteRecord) = some s ∧
      verifySequentially nonceEnv s bs = .ok states ∧
      batchDifficulties nonceEnv s (bs.map (·.block)) = .ok (blocks, batch) ∧
      (states.map fun s' => s'.contextCache.contextToVerifyBlock.nextDifficulty) = seq := by
  obtain ⟨s, hs, h⟩ := bind_eq_some_iff.mp h
  obtain ⟨states, hstates, h⟩ := bind_eq_some_iff.mp h
  obtain ⟨⟨blocks, batch'⟩, hbatch, h⟩ := bind_eq_some_iff.mp h
  cases h
  exact ⟨s, states, blocks, hs, toOption_eq_some.mp hstates, toOption_eq_some.mp hbatch, rfl⟩

/-- Two blocks before the fork: both ways give a difficulty of 1. -/
theorem batchDifficulties_eq_sequential_before_fork : ∃ s states blocks,
      initContext (twoForksConfig 5) ((List.range 3).map minuteRecord) = some s ∧
      verifySequentially nonceEnv s
        [minuteBlock 3 V1 17592186044415, minuteBlock 4 V1 17592169267199] = .ok states ∧
      states.IsChain KeepsTarget ∧
      batchDifficulties nonceEnv s
        ([minuteBlock 3 V1 17592186044415, minuteBlock 4 V1 17592169267199].map (·.block)) =
          .ok (blocks, [1, 1]) := by
  obtain ⟨s, states, blocks, hs, hseq, hbatch, hdiff⟩ := bothDifficulties_eq_some
    (show bothDifficulties 5 [minuteBlock 3 V1 17592186044415, minuteBlock 4 V1 17592169267199] =
      some ([1, 1], [1, 1]) by decide +kernel)
  have hiff := batchDifficulties_eq_sequential_iff nonceEnv s (synced_initContext hs) _ _
    states hseq
  exact ⟨s, states, blocks, hs, hseq, hiff.mp ⟨blocks, by rw [hdiff]; exact hbatch⟩, hbatch⟩

/-- Hard fork 2 starts with the second block of the batch: on its own it needs a difficulty of 2,
but its proof of work is checked in the batch against 1. -/
theorem batchDifficulties_ne_sequential_at_fork : ∃ s states blocks,
      initContext (twoForksConfig 4) ((List.range 3).map minuteRecord) = some s ∧
      verifySequentially nonceEnv s [minuteBlock 3 V1 17592186044415, minuteBlock 4 V2 1] = .ok states ∧
      (states.map fun s' => s'.contextCache.contextToVerifyBlock.nextDifficulty) = [1, 2] ∧
      batchDifficulties nonceEnv s
        ([minuteBlock 3 V1 17592186044415, minuteBlock 4 V2 1].map (·.block)) = .ok (blocks, [1, 1]) := by
  obtain ⟨s, states, blocks, hs, hseq, hbatch, hdiff⟩ := bothDifficulties_eq_some
    (show bothDifficulties 4 [minuteBlock 3 V1 17592186044415, minuteBlock 4 V2 1] =
      some ([1, 2], [1, 1]) by decide +kernel)
  exact ⟨s, states, blocks, hs, hseq, hdiff, hbatch⟩

/-- Blocks that are accepted one after another each name the one before as their parent, are at
heights in a row, and have hard forks that never go back. -/
theorem linked_of_verifySequentially (hs : s.Synced) (h : verifySequentially env s bs = .ok states) :
    bs.map (·.block.header.previous) = (s.topBlockHash :: bs.map (env.oxide.hashBlock ·.block)).dropLast ∧
    bs.map (·.block.minerTransaction.txPrefix.inputs) = (range' s.chainHeight bs.length).map ([.gen ·]) ∧
    (states.map hardfork).IsChain (· ≤ ·) := by
  have hrun := run_of_verifySequentially hs h
  clear hs h
  induction hrun with
  | nil s => exact ⟨rfl, rfl, .nil⟩
  | @cons s s' b bs states ha hrun ih =>
    obtain ⟨hprevious, hheights, hforks⟩ := ih
    rw [ha.topBlockHash] at hprevious
    rw [ha.chainHeight] at hheights
    refine ⟨congrArg₂ cons ha.previous hprevious, congrArg₂ cons ha.inputs hheights, ?_⟩
    cases hrun with
    | nil => exact .singleton _
    | cons ha' hrun' => exact .cons_cons ha.hardfork_le hforks

theorem linked_minuteBlocks : ∃ s states,
    verifySequentially nonceEnv s [minuteBlock 3 V1 17592186044415, minuteBlock 4 V2 1] = .ok states ∧
      (states.map hardfork).IsChain (· ≤ ·) := by
  obtain ⟨s, states, -, hs, hseq, -⟩ := bothDifficulties_eq_some
    (show bothDifficulties 4 [minuteBlock 3 V1 17592186044415, minuteBlock 4 V2 1] =
      some ([1, 2], [1, 1]) by
      decide +kernel)
  exact ⟨s, states, hseq, (linked_of_verifySequentially (synced_initContext hs) hseq).2.2⟩

end Cuprate.Consensus
