import Cuprate.Consensus.Proofs.BlockVerificationProofs
import Cuprate.Consensus.ContextPop

/-!
# A failed pop of the blockchain context

When the database fails, the request `PopBlocks` leaves behind exactly the updates it has made
before.
-/

namespace Cuprate.Consensus

open Collections Option Effect Database RandomXVmCache

/-- The database of a main chain. -/
def Database.ofRecords (records : List ChainRecord) : Database Unit where
  blockExtendedHeaderInRange start stop :=
    found (Consensus.blockExtendedHeaderInRange (records.map (·.header)) start stop)
  blockExtendedHeader height := found (records.map (·.header))[height]?
  blockHash height := found (records.map (·.hash))[height]?
  generatedCoins height := found (records.map (·.generatedCoins))[height]?

variable (numbBlocks : Nat)

namespace RandomXVmCache

variable {ε : Type} {db : Database ε} {newHeight : Nat} {c c' : RandomXVmCache Hash} {e : ε}

theorem tryPopBlocksMainChain_eq_error
    (h : tryPopBlocksMainChain newHeight db c = (.error (.error e), c')) :
    c' = c.retainBelow newHeight := by
  unfold tryPopBlocksMainChain at h
  simp only at h
  split at h
  · split at h
    · simp at h
    · split at h
      · simp at h
      · exact (update_eq_error.mp h).2
  · simp at h

end RandomXVmCache

/-! ## Failed requests -/

namespace FullContextTask

variable {ε : Type} {db : ReadPoint → Database ε} {s s' : FullContextTask} {e : ε}

variable {fault : Fault ε}

theorem popDifficultyCache_eq_error : popDifficultyCache numbBlocks db s = (.error fault, s') ↔
      s.difficultyCache.tryPopBlocksMainChain numbBlocks (db .difficulty) = .error fault ∧ s' = s := by
  rw [popDifficultyCache, update_eq_error, map_eq_error]

theorem popDifficultyCache_eq_ok : popDifficultyCache numbBlocks db s = (.ok (), s') ↔
      ∃ cache, s.difficultyCache.tryPopBlocksMainChain numbBlocks (db .difficulty) = .ok cache ∧
        { s with difficultyCache := cache } = s' := by
  rw [popDifficultyCache, update_eq_ok, map_eq_ok]

theorem popWeightCache_eq_error : popWeightCache numbBlocks db s = (.error fault, s') ↔
      s.weightCache.tryPopBlocksMainChain numbBlocks db = .error fault ∧ s' = s := by
  rw [popWeightCache, update_eq_error, map_eq_error]

theorem popWeightCache_eq_ok : popWeightCache numbBlocks db s = (.ok (), s') ↔
      ∃ cache, s.weightCache.tryPopBlocksMainChain numbBlocks db = .ok cache ∧
        { s with weightCache := cache } = s' := by
  rw [popWeightCache, update_eq_ok, map_eq_ok]

theorem popRxVmCache_eq_error (h : popRxVmCache numbBlocks db s = (.error (.error e), s')) :
    tryPopBlocksMainChain (s.chainHeight - numbBlocks - 1) (db .seeds) s.rxVmCache =
      (.error (.error e), s.rxVmCache.retainBelow (s.chainHeight - numbBlocks - 1)) ∧
    s' = { s with rxVmCache := s.rxVmCache.retainBelow (s.chainHeight - numbBlocks - 1) } := by
  obtain ⟨hfail, hs⟩ := Prod.mk.inj h
  have hcache := tryPopBlocksMainChain_eq_error (Prod.ext hfail rfl)
  refine ⟨Prod.ext hfail hcache, ?_⟩
  rw [← hs, ← hcache]

theorem popRxVmCache_eq_ok (h : popRxVmCache numbBlocks db s = (.ok (), s')) :
    ∃ cache, tryPopBlocksMainChain (s.chainHeight - numbBlocks - 1) (db .seeds) s.rxVmCache =
      (.ok (), cache) ∧ { s with rxVmCache := cache } = s' := by
  obtain ⟨hok, rfl⟩ := Prod.mk.inj h
  exact ⟨_, Prod.ext hok rfl, rfl⟩

theorem popHardforkState_eq_error : popHardforkState numbBlocks db s = (.error fault, s') ↔
      s.hardforkState.tryPopBlocksMainChain numbBlocks db = .error fault ∧ s' = s := by
  rw [popHardforkState, update_eq_error, map_eq_error]

theorem popHardforkState_eq_ok : popHardforkState numbBlocks db s = (.ok (), s') ↔
      ∃ state, s.hardforkState.tryPopBlocksMainChain numbBlocks db = .ok state ∧
        { s with hardforkState := state } = s' := by
  rw [popHardforkState, update_eq_ok, map_eq_ok]

theorem popChainHeight_eq_ok (h : popChainHeight (ε := ε) numbBlocks s = (.ok (), s')) :
    s' = { s with altChainCacheMap := ∅, chainHeight := s.chainHeight - numbBlocks } := by
  simpa using (update_eq_ok.mp h).symm

/-- What a failed request leaves behind: the updates made before the failure, in order. A cache
whose update fails is as it was, but the RandomX cache has lost the seeds and VMs from the new top
height on. The generated coins, the top hash and the published context are as they were. -/
theorem popBlocks_error (h : popBlocks numbBlocks db s = (.error (.error e), s')) :
    s'.alreadyGeneratedCoins = s.alreadyGeneratedCoins ∧ s'.topBlockHash = s.topBlockHash ∧
    s'.contextCache = s.contextCache ∧
    ((s.difficultyCache.tryPopBlocksMainChain numbBlocks (db .difficulty) = .error (.error e) ∧ s' = s) ∨
    ∃ difficultyCache, s.difficultyCache.tryPopBlocksMainChain numbBlocks (db .difficulty) =
      .ok difficultyCache ∧
    ((s.weightCache.tryPopBlocksMainChain numbBlocks db = .error (.error e) ∧
      s' = { s with difficultyCache := difficultyCache }) ∨
    ∃ weightCache, s.weightCache.tryPopBlocksMainChain numbBlocks db = .ok weightCache ∧
    ((tryPopBlocksMainChain (s.chainHeight - numbBlocks - 1) (db .seeds) s.rxVmCache =
        (.error (.error e), s.rxVmCache.retainBelow (s.chainHeight - numbBlocks - 1)) ∧
      s' = { s with
        difficultyCache := difficultyCache
        weightCache := weightCache
        rxVmCache := s.rxVmCache.retainBelow (s.chainHeight - numbBlocks - 1) }) ∨
    ∃ rxVmCache, tryPopBlocksMainChain (s.chainHeight - numbBlocks - 1) (db .seeds)
        s.rxVmCache = (.ok (), rxVmCache) ∧
    ((s.hardforkState.tryPopBlocksMainChain numbBlocks db = .error (.error e) ∧
      s' = { s with
        difficultyCache := difficultyCache
        weightCache := weightCache
        rxVmCache := rxVmCache }) ∨
    ∃ hardforkState, s.hardforkState.tryPopBlocksMainChain numbBlocks db = .ok hardforkState ∧
      s' = { s with
        difficultyCache := difficultyCache
        weightCache := weightCache
        rxVmCache := rxVmCache
        hardforkState := hardforkState
        altChainCacheMap := ∅
        chainHeight := s.chainHeight - numbBlocks })))) := by
  unfold popBlocks at h
  split_ifs at h
  case neg => simp at h
  rcases seq_cons_eq_error.mp h with hstep | ⟨s₁, hstep, h⟩
  · obtain ⟨hfail, rfl⟩ := (popDifficultyCache_eq_error numbBlocks).mp hstep
    exact ⟨rfl, rfl, rfl, .inl ⟨hfail, rfl⟩⟩
  obtain ⟨difficultyCache, hdifficulty, rfl⟩ := (popDifficultyCache_eq_ok numbBlocks).mp hstep
  rcases seq_cons_eq_error.mp h with hstep | ⟨s₂, hstep, h⟩
  · obtain ⟨hfail, rfl⟩ := (popWeightCache_eq_error numbBlocks).mp hstep
    exact ⟨rfl, rfl, rfl, .inr ⟨_, hdifficulty, .inl ⟨hfail, rfl⟩⟩⟩
  obtain ⟨weightCache, hweight, rfl⟩ := (popWeightCache_eq_ok numbBlocks).mp hstep
  rcases seq_cons_eq_error.mp h with hstep | ⟨s₃, hstep, h⟩
  · obtain ⟨hfail, rfl⟩ := popRxVmCache_eq_error numbBlocks hstep
    exact ⟨rfl, rfl, rfl, .inr ⟨_, hdifficulty, .inr ⟨_, hweight, .inl ⟨hfail, rfl⟩⟩⟩⟩
  obtain ⟨rxVmCache, hrx, rfl⟩ := popRxVmCache_eq_ok numbBlocks hstep
  rcases seq_cons_eq_error.mp h with hstep | ⟨s₄, hstep, h⟩
  · obtain ⟨hfail, rfl⟩ := (popHardforkState_eq_error numbBlocks).mp hstep
    exact ⟨rfl, rfl, rfl, .inr ⟨_, hdifficulty, .inr ⟨_, hweight, .inr ⟨_, hrx, .inl ⟨hfail, rfl⟩⟩⟩⟩⟩
  obtain ⟨hardforkState, hhardfork, rfl⟩ := (popHardforkState_eq_ok numbBlocks).mp hstep
  rcases seq_cons_eq_error.mp h with hstep | ⟨s₅, hstep, h⟩
  · simp [popChainHeight, update_eq_error] at hstep
  obtain rfl := popChainHeight_eq_ok numbBlocks hstep
  rcases seq_cons_eq_error.mp h with hstep | ⟨s₆, hstep, h⟩
  · obtain rfl := (update_eq_error.mp hstep).2
    exact ⟨rfl, rfl, rfl,
      .inr ⟨_, hdifficulty, .inr ⟨_, hweight, .inr ⟨_, hrx, .inr ⟨_, hhardfork, rfl⟩⟩⟩⟩⟩
  · exact absurd h seq_nil_ne_error

def twoRecords : List ChainRecord :=
  [⟨⟨.V1, 1, 0, 1, 80, 80⟩, 0, 100⟩, ⟨⟨.V1, 1, 60, 2, 80, 80⟩, 1, 200⟩]

def beforeForksConfig : ContextConfig where
  difficultyCfg := .mainNet
  weightsConfig := .mainNet
  hardForkCfg := ⟨fun _ => ⟨1000000, 0⟩, 10080⟩

/-- The database without the second block. It fails after the read for the difficulty cache. -/
def failsAfterDifficulty : ReadPoint → Database Unit
  | .difficulty => .ofRecords (twoRecords.take 1)
  | _ => ⟨fun _ _ => .error (), fun _ => .error (), fun _ => .error (), fun _ => .error ()⟩

/-- The result of popping the second block with that database, and whether the difficulty cache
stays. -/
def failedPop (s : ContextTask) : Except (Fault Unit) Unit × Bool :=
  let popped := popBlocks 1 failsAfterDifficulty ⟨s, ∅⟩
  (popped.1, popped.2.difficultyCache = s.difficultyCache)

theorem failedPop_init : ∃ s, ContextTask.initContext beforeForksConfig twoRecords = some s ∧
      failedPop s = (.error (.error ()), false) :=
  map_eq_some_iff.mp (by decide +kernel)

/-- The request fails at the weight cache, and the difficulty cache is then the one of the first
block only. -/
theorem popBlocks_error_after_difficulty :
    ∃ s s', ContextTask.initContext beforeForksConfig twoRecords = some s ∧
      popBlocks 1 failsAfterDifficulty ⟨s, ∅⟩ = (.error (.error ()), s') ∧
      s'.difficultyCache ≠ s.difficultyCache := by
  obtain ⟨s, hs, hpop⟩ := failedPop_init
  obtain ⟨hfail, hcache⟩ := Prod.mk.inj hpop
  exact ⟨s, _, hs, Prod.ext hfail rfl, of_decide_eq_false hcache⟩

/-- The failed request keeps the data of the top block. -/
theorem popBlocks_error_weight : ∃ s s', ContextTask.initContext beforeForksConfig twoRecords = some s ∧
      popBlocks 1 failsAfterDifficulty ⟨s, ∅⟩ = (.error (.error ()), s') ∧
      s'.topBlockHash = s.topBlockHash ∧ s'.alreadyGeneratedCoins = s.alreadyGeneratedCoins := by
  obtain ⟨s, hs, hpop⟩ := failedPop_init
  have hfail : popBlocks 1 failsAfterDifficulty ⟨s, ∅⟩ = (.error (.error ()), _) :=
    Prod.ext (Prod.mk.inj hpop).1 rfl
  obtain ⟨hcoins, hhash, -⟩ := popBlocks_error 1 hfail
  exact ⟨s, _, hs, hfail, hhash, hcoins⟩

end FullContextTask

end Cuprate.Consensus
