import Cuprate.Consensus.Checked
import Cuprate.Consensus.Proofs.DifficultyProofs

/-!
# The difficulty of the next blocks

Difficulties that are calculated for several blocks at once are those of the blocks added one at a
time. On a chain that grows from the genesis block they stay in range.
-/

namespace Cuprate.Consensus

open MachineNumbers HardFork List Option UInt64

theorem divCeil_le_iff {a t k : Nat} (ht : 0 < t) : divCeil a t ≤ k ↔ a ≤ k * t := by
  have hdiv := Nat.div_add_mod a t
  have hmod := Nat.mod_lt a ht
  unfold divCeil
  split
  · rw [← Nat.mul_le_mul_right_iff ht, mul_comm (a / t)]
    omega
  · constructor
    · intro h
      have hle := Nat.mul_le_mul_right t h
      rw [add_mul, mul_comm (a / t)] at hle
      omega
    · intro h
      by_contra hlt
      have hle := Nat.mul_le_mul_right t (show k ≤ a / t by omega)
      rw [mul_comm (a / t)] at hle
      omega

theorem divCeil_eq_iff {a b t : Nat} (ht : 0 < t) :
    divCeil a t = divCeil b t ↔ ∀ k, a ≤ k * t ↔ b ≤ k * t := by
  constructor
  · intro h k
    rw [← divCeil_le_iff ht, h, divCeil_le_iff ht]
  · intro h
    refine eq_of_forall_ge_iff fun k => ?_
    rw [divCeil_le_iff ht, divCeil_le_iff ht]
    exact h k

namespace DifficultyCache

theorem nextDifficultiesLoop_height (c : DifficultyCache) (height difficulty : Nat)
    (blocks : List (UInt64 × HardFork)) :
    nextDifficultiesLoop { c with lastAccountedHeight := height } difficulty blocks =
      c.nextDifficultiesLoop difficulty blocks := by
  induction blocks generalizing c difficulty with
  | nil => rfl
  | cons block blocks ih =>
    obtain ⟨timestamp, hf⟩ := block
    have hpush : ∀ cd, push { c with lastAccountedHeight := height } timestamp cd =
        { c.push timestamp cd with lastAccountedHeight := height } := by
      intro cd
      unfold push
      simp only
      split <;> rfl
    unfold nextDifficultiesLoop
    simp only [hpush, ih]
    rfl

theorem newBlock_eq_some {c c' : DifficultyCache} {height cd : Nat} {timestamp : UInt64}
    (h : c.newBlock height timestamp cd = some c') :
    c' = { c.push timestamp cd with lastAccountedHeight := height } := by
  unfold newBlock at h
  split at h
  · exact (some.inj h).symm
  · cases h

/-- The cache after blocks with the given timestamps and the difficulties required for them, and the
hard fork of the next block. -/
def addOneByOne (c : DifficultyCache) (hf : HardFork) :
    List (UInt64 × HardFork) → Option (DifficultyCache × HardFork)
  | [] => some (c, hf)
  | (timestamp, nextHf) :: blocks => do
    let difficulty ← c.nextDifficulty hf
    let c ← c.newBlock (c.lastAccountedHeight + 1) timestamp
      ((c.cumulativeDifficulty + difficulty) % 2 ^ 128)
    addOneByOne c nextHf blocks

theorem addOneByOne_cons {c : DifficultyCache} {hf : HardFork} {difficulty : Nat}
    (hdifficulty : c.nextDifficulty hf = some difficulty) (timestamp : UInt64) (nextHf : HardFork)
    (blocks : List (UInt64 × HardFork)) :
    c.addOneByOne hf ((timestamp, nextHf) :: blocks) =
      addOneByOne { c.push timestamp ((c.cumulativeDifficulty + difficulty) % 2 ^ 128) with
        lastAccountedHeight := c.lastAccountedHeight + 1 } nextHf blocks := by
  rw [addOneByOne, hdifficulty, bind_eq_bind, bind_some, newBlock, if_pos rfl]
  rfl

theorem nextDifficulties_height (c : DifficultyCache) (height : Nat) (blocks : List (UInt64 × HardFork))
    (hf : HardFork) :
    nextDifficulties { c with lastAccountedHeight := height } blocks hf =
      c.nextDifficulties blocks hf := by
  unfold nextDifficulties
  simp only [nextDifficultiesLoop_height]
  rfl

theorem nextDifficulties_cons (c : DifficultyCache) (timestamp : UInt64) (nextHf hf : HardFork)
    (blocks : List (UInt64 × HardFork)) :
    c.nextDifficulties ((timestamp, nextHf) :: blocks) hf =
      (c.nextDifficulty hf).bind fun difficulty =>
        ((c.push timestamp ((c.cumulativeDifficulty + difficulty) % 2 ^ 128)).nextDifficulties blocks
          nextHf).map (difficulty :: ·) := by
  rw [nextDifficulties, bind_eq_bind]
  congr 1
  funext difficulty
  rw [Option.map_eq_bind]
  rfl

/-- The `i`-th of the difficulties that are calculated at once is the difficulty of the cache after
the first `i` timestamps, added one at a time. -/
theorem nextDifficulties_eq_oneByOne (c : DifficultyCache) (blocks : List (UInt64 × HardFork))
    (currentHf : HardFork) :
    c.nextDifficulties blocks currentHf =
      blocks.inits.mapM fun added =>
        (c.addOneByOne currentHf added).bind fun next => next.1.nextDifficulty next.2 := by
  induction blocks generalizing c currentHf with
  | nil =>
    rw [inits, mapM_cons, mapM_nil]
    rfl
  | cons block blocks ih =>
    obtain ⟨timestamp, nextHf⟩ := block
    rw [nextDifficulties_cons, inits, mapM_cons]
    cases hdifficulty : c.nextDifficulty currentHf with
    | none => simp only [addOneByOne, bind_some, bind_eq_bind, hdifficulty, bind_none]
    | some difficulty =>
      -- the other prefixes all start with this block
      simp only [mapM_map, Function.comp_def, addOneByOne_cons hdifficulty]
      rw [← ih, nextDifficulties_height, addOneByOne, bind_some, bind_some, hdifficulty,
        Option.map_eq_bind]
      rfl

end DifficultyCache

/-- The entries of a window that are left when the outliers are cut off at both ends. -/
def kept {α : Type} (config : DifficultyCacheConfig) (l : List α) : List α :=
  (l.drop ((l.length - (config.window - 2 * config.cut) + 1) / 2)).take (config.window - 2 * config.cut)

def spread (l : List Nat) : Nat := l.getLast?.getD 0 - l.head?.getD 0

/-- A window of which at least two entries are kept, on `usize`. -/
structure KeepsTwo (config : DifficultyCacheConfig) : Prop where
  cut_le : 2 * config.cut + 2 ≤ config.window
  window_lt : config.window < 2 ^ 64

variable {config : DifficultyCacheConfig}

theorem KeepsTwo.bounds (hconfig : KeepsTwo config) (windowLen : Nat) (htwo : 2 ≤ windowLen)
    (hle : windowLen ≤ config.window) :
    ∃ start stop, getWindowStartAndEndChecked windowLen (config.window - 2 * config.cut) config.window =
        some (start, stop) ∧
      start = (windowLen - (config.window - 2 * config.cut) + 1) / 2 ∧
      stop = start + min (config.window - 2 * config.cut) (windowLen - start) ∧
      start + 1 < stop ∧ stop ≤ windowLen := by
  have hcut := hconfig.cut_le
  have hwindow := hconfig.window_lt
  have hlen : (if windowLen > config.window then config.window else windowLen) = windowLen :=
      if_neg (by omega)
  simp only [getWindowStartAndEndChecked, hlen]
  split
  · exact ⟨0, windowLen, rfl, by omega, by omega, by omega, le_rfl⟩
  · rw [checkedSub_of_le (by omega), bind_eq_bind, bind_some, checkedAdd_of_lt (by omega)]
    exact ⟨_, _, rfl, rfl, by omega, by omega, by omega⟩

theorem spread_kept (l : List Nat) {windowLen start stop : Nat} (hlength : l.length = windowLen)
    (hstart : start = (windowLen - (config.window - 2 * config.cut) + 1) / 2)
    (hstop : stop = start + min (config.window - 2 * config.cut) (windowLen - start))
      (hlt : start + 1 < stop)
    (hle : stop ≤ windowLen) :
    ∃ first last, l[start]? = some first ∧ l[stop - 1]? = some last ∧
      spread (kept config l) = last - first := by
  subst hlength
  have hfirst := getElem?_eq_getElem (show start < l.length by omega)
  have hlast := getElem?_eq_getElem (show stop - 1 < l.length by omega)
  refine ⟨_, _, hfirst, hlast, ?_⟩
  have hkept : (kept config l).length = stop - start := by
    rw [kept, length_take, length_drop, ← hstart]
    omega
  have hget : ∀ i, i < stop - start → (kept config l)[i]? = l[start + i]? := by
    intro i hi
    rw [kept, getElem?_take_of_lt (by omega), getElem?_drop, ← hstart]
  rw [spread, getLast?_eq_getElem?, head?_eq_getElem?, hkept, hget 0 (by omega),
    hget _ (by omega), add_zero, show start + (stop - start - 1) = stop - 1 by omega, hfirst, hlast]
  rfl

theorem pairwise_getElem? {α : Type} {r : α → α → Prop} {l : List α} (h : l.Pairwise r)
    {i j : Nat} {a b : α}
    (hij : i < j) (hi : l[i]? = some a) (hj : l[j]? = some b) : r a b := by
  obtain ⟨hltI, rfl⟩ := List.getElem?_eq_some_iff.mp hi
  obtain ⟨hltJ, rfl⟩ := List.getElem?_eq_some_iff.mp hj
  exact pairwise_iff_getElem.mp h i j hltI hltJ hij

/-- Where the cumulative difficulties increase, the checked calculation gives the work and the time
of the kept window, and there is work. -/
theorem windowedWorkChecked_eq {timestamps : List UInt64} {cumulativeDifficulties : List Nat}
    (hconfig : KeepsTwo config) (htwo : 2 ≤ timestamps.length)
    (hlength : cumulativeDifficulties.length = timestamps.length)
    (hincreasing : cumulativeDifficulties.Pairwise (· < ·)) :
    windowedWorkChecked config timestamps cumulativeDifficulties =
        some (spread (kept config (cumulativeDifficulties.take config.window)),
          spread (kept config (((timestamps.take config.window).insertionSort (· ≤ ·)).map toNat))) ∧
      0 < spread (kept config (cumulativeDifficulties.take config.window)) := by
  have hcut := hconfig.cut_le
  have hwindow := hconfig.window_lt
  generalize hsorted : (timestamps.take config.window).insertionSort (· ≤ ·) = sorted
  have hlen : min config.window timestamps.length = (timestamps.take config.window).length :=
      length_take.symm
  have hworkLength : (cumulativeDifficulties.take config.window).length =
      (timestamps.take config.window).length := by
    rw [length_take, hlength, hlen]
  have htimeLength : (sorted.map toNat).length = (timestamps.take config.window).length := by
    rw [length_map, ← hsorted, length_insertionSort]
  obtain ⟨start, stop, hbounds, hstart, hstop, hlt, hle⟩ :=
    hconfig.bounds (timestamps.take config.window).length (by omega) (by omega)
  obtain ⟨workStart, workEnd, hworkStart, hworkEnd, hwork⟩ :=
    spread_kept _ hworkLength hstart hstop hlt hle
  obtain ⟨first, last, hfirst, hlast, htime⟩ := spread_kept _ htimeLength hstart hstop hlt hle
  rw [getElem?_map, map_eq_some_iff] at hfirst hlast
  obtain ⟨firstTime, hfirst, rfl⟩ := hfirst
  obtain ⟨lastTime, hlast, rfl⟩ := hlast
  have hworkLt : workStart < workEnd :=
    pairwise_getElem? (hincreasing.sublist (take_sublist ..)) (by omega) hworkStart hworkEnd
  have htimeLe : firstTime.toNat ≤ lastTime.toNat := le_iff_toNat_le.mp
    (pairwise_getElem? (hsorted ▸ pairwise_insertionSort (· ≤ ·) _) (by omega) hfirst hlast)
  rw [getElem?_take_of_lt (by omega)] at hworkStart hworkEnd
  refine ⟨?_, by omega⟩
  rw [hwork, htime]
  simp only [windowedWorkChecked, selectNth, hsorted,
    checkedMul_of_lt (show 2 * config.cut < 2 ^ 64 by omega),
    checkedSub_of_le (show 2 * config.cut ≤ config.window by omega), bind_eq_bind, bind_some,
    hbounds, checkedSub_of_le (show 1 ≤ stop by omega), hfirst, hlast, checkedSub_of_le htimeLe,
    hworkStart, hworkEnd, checkedSub_of_le hworkLt.le]

theorem getWindowStartAndEnd_of_checked {windowLen accountedWindow window : Nat} {bounds : Nat × Nat}
    (h : getWindowStartAndEndChecked windowLen accountedWindow window = some bounds) :
    getWindowStartAndEnd windowLen accountedWindow window = bounds := by
  unfold getWindowStartAndEndChecked at h
  unfold getWindowStartAndEnd
  generalize (if windowLen > window then window else windowLen) = len at h ⊢
  dsimp only at h ⊢
  split at h
  · next hshort => rw [if_pos hshort, some.inj h]
  · next hlong =>
    obtain ⟨outliers, houtliers, h⟩ := bind_eq_some_iff.mp h
    obtain ⟨stop, hstop, h⟩ := bind_eq_some_iff.mp h
    rw [if_neg hlong, (checkedSub_eq_some.mp houtliers).2, (narrow_eq_some.mp hstop).2, some.inj h]

/-- What the checked calculation returns is what the wrapping one returns. -/
theorem windowedWork_of_checked {timestamps : List UInt64} {cumulativeDifficulties : List Nat}
    {work time : Nat}
    (hwindow : config.window < 2 ^ 64)
    (h : windowedWorkChecked config timestamps cumulativeDifficulties = some (work, time)) :
    windowedWork config timestamps cumulativeDifficulties = some (work % 2 ^ 128, time) := by
  simp only [windowedWorkChecked, bind_eq_bind, bind_eq_some_iff] at h
  obtain ⟨bothCuts, hcuts, accountedWindow, haccounted, bounds, hbounds, lastIndex, hlastIndex,
    last, hlast,
    first, hfirst, timeSpan, htime, workEnd, hworkEnd, workStart, hworkStart, windowed, hwindowed, h⟩ := h
  cases h
  obtain ⟨hcutsLt, rfl⟩ := narrow_eq_some.mp hcuts
  obtain ⟨hcutsLe, rfl⟩ := checkedSub_eq_some.mp haccounted
  obtain ⟨-, rfl⟩ := checkedSub_eq_some.mp hlastIndex
  obtain ⟨htimeLe, rfl⟩ := checkedSub_eq_some.mp htime
  obtain ⟨hworkLe, rfl⟩ := checkedSub_eq_some.mp hwindowed
  have haccounted : config.accountedWindowLen = config.window - 2 * config.cut := by
    unfold DifficultyCacheConfig.accountedWindowLen
    omega
  have hworkMod : (workEnd + 2 ^ 128 - workStart) % 2 ^ 128 = (workEnd - workStart) % 2 ^ 128 := by
    rw [Nat.sub_add_comm hworkLe, Nat.add_mod_right]
  have htimeSub : (last - first).toNat = last.toNat - first.toNat :=
    UInt64.toNat_sub_of_le _ _ (UInt64.le_iff_toNat_le.mpr htimeLe)
  simp only [windowedWork, haccounted, getWindowStartAndEnd_of_checked hbounds, hlast, hfirst, hworkEnd,
    hworkStart, bind_eq_bind, bind_some, hworkMod, htimeSub]

/-! ## Growing chains -/

theorem divCeil_eq_ceil (a : Nat) {b : Nat} (hb : 0 < b) : divCeil a b = ⌈(a : ℚ) / b⌉₊ := by
  refine eq_of_forall_ge_iff fun k => ?_
  rw [divCeil_le_iff hb, Nat.ceil_le, div_le_iff₀ (Nat.cast_pos.mpr hb)]
  exact_mod_cast Iff.rfl

namespace DifficultyCache

def keptWork (c : DifficultyCache) : Nat :=
  spread (kept c.config (c.cumulativeDifficulties.take c.config.window))

def keptTime (c : DifficultyCache) : Nat :=
  spread (kept c.config (((c.timestamps.take c.config.window).insertionSort (· ≤ ·)).map toNat))

/-- The caches of chains that grow from the genesis block, with any timestamps and the difficulties
that were calculated. No product of the calculation reaches `2 ^ 128`. -/
inductive Grown (config : DifficultyCacheConfig) : DifficultyCache → Prop where
  | genesis : Grown config ⟨[], [], 0, config⟩
  | block {c next : DifficultyCache} {hf : HardFork} {timestamp : UInt64} {difficulty : Nat} :
    Grown config c → c.keptWork * hf.blockTime < 2 ^ 128 → c.nextDifficulty hf = some difficulty →
    c.newBlock (c.lastAccountedHeight + 1) timestamp (c.cumulativeDifficulty + difficulty) = some next →
    Grown config next

/-- What a growing chain keeps: the two lists go together, and the cumulative difficulties
increase. -/
structure Increasing (config : DifficultyCacheConfig) (c : DifficultyCache) : Prop where
  config_eq : c.config = config
  length_eq : c.cumulativeDifficulties.length = c.timestamps.length
  pairwise_lt : c.cumulativeDifficulties.Pairwise (· < ·)

theorem blockTime_pos (hf : HardFork) : 0 < hf.blockTime := by cases hf <;> decide

variable {c : DifficultyCache} {hf : HardFork}

/-- The difficulty of the next block, where the cumulative difficulties increase. -/
theorem Increasing.nextDifficulty (hc : Increasing config c) (hconfig : KeepsTwo config)
    (hfixed : config.fixedDifficulty = none) (hfits : c.keptWork * hf.blockTime < 2 ^ 128) :
    ∃ difficulty, nextDifficultyChecked c.config c.timestamps c.cumulativeDifficulties hf =
      some difficulty ∧ c.nextDifficulty hf = some difficulty ∧ 1 ≤ difficulty ∧
      difficulty = if c.timestamps.length ≤ 1 then 1
        else ⌈((c.keptWork * hf.blockTime : ℕ) : ℚ) / (max 1 c.keptTime : ℕ)⌉₊ := by
  obtain ⟨rfl, hlength, hincreasing⟩ := hc
  unfold DifficultyCache.nextDifficulty Consensus.nextDifficulty nextDifficultyChecked
  rw [hfixed]
  by_cases hshort : c.timestamps.length ≤ 1
  · exact ⟨1, if_pos hshort, if_pos hshort, le_rfl, (if_pos hshort).symm⟩
  obtain ⟨hchecked, hpos⟩ : windowedWorkChecked c.config c.timestamps c.cumulativeDifficulties =
      some (c.keptWork, c.keptTime) ∧ 0 < c.keptWork :=
    windowedWorkChecked_eq hconfig (by omega) hlength hincreasing
  have hwrapping := windowedWork_of_checked hconfig.window_lt hchecked
  have hwork : c.keptWork < 2 ^ 128 := (Nat.le_mul_of_pos_right _ (blockTime_pos hf)).trans_lt hfits
  have htimePos : 0 < max 1 c.keptTime := by omega
  have htime : (if c.keptTime = 0 then 1 else c.keptTime) = max 1 c.keptTime := by split <;> omega
  refine ⟨divCeil (c.keptWork * hf.blockTime) (max 1 c.keptTime), ?_, ?_, ?_, ?_⟩
  · simp only [if_neg hshort, hchecked, bind_eq_bind, bind_some, checkedMul_of_lt hfits, htime,
      divCeilChecked, checkedDiv_of_pos htimePos, map_some]
    rfl
  · simp only [if_neg hshort, hwrapping, map_some, targetDifficulty, Nat.mod_eq_of_lt hwork,
      Nat.mod_eq_of_lt hfits, htime]
  · -- a quotient that rounds up to zero has nothing to divide
    have hproduct := Nat.mul_pos hpos (blockTime_pos hf)
    have hzero := divCeil_le_iff (a := c.keptWork * hf.blockTime) (k := 0) htimePos
    omega
  · rw [if_neg hshort, divCeil_eq_ceil _ htimePos]

theorem Increasing.le_cumulativeDifficulty (hc : Increasing config c) {cd : Nat}
    (hmem : cd ∈ c.cumulativeDifficulties) : cd ≤ c.cumulativeDifficulty := by
  have hpairwise := hc.pairwise_lt
  unfold cumulativeDifficulty
  rcases eq_nil_or_concat c.cumulativeDifficulties with hnil | ⟨older, last, hlast⟩
  · rw [hnil] at hmem
    cases hmem
  · rw [hlast, concat_eq_append] at hmem hpairwise ⊢
    rw [getLast?_concat, getD_some]
    rcases mem_append.mp hmem with hold | hnew
    · exact ((pairwise_append.mp hpairwise).2.2 cd hold last (mem_singleton_self _)).le
    · exact (mem_singleton.mp hnew).le

theorem Increasing.newBlock (hc : Increasing config c)
    {next : DifficultyCache} {height cd : Nat} {timestamp : UInt64}
    (hcd : c.cumulativeDifficulty < cd) (hnext : c.newBlock height timestamp cd = some next) :
    Increasing config next := by
  have happend : (c.cumulativeDifficulties ++ [cd]).Pairwise (· < ·) := by
    refine pairwise_append.mpr ⟨hc.pairwise_lt, pairwise_singleton .., fun older hold new hnew => ?_⟩
    rw [mem_singleton.mp hnew]
    exact (hc.le_cumulativeDifficulty hold).trans_lt hcd
  have hlength : (c.cumulativeDifficulties ++ [cd]).length = (c.timestamps ++ [timestamp]).length := by
    rw [length_append, length_append, hc.length_eq]
    rfl
  obtain rfl := newBlock_eq_some hnext
  unfold push
  dsimp only
  split
  · refine ⟨hc.config_eq, ?_, happend.sublist (tail_sublist _)⟩
    dsimp only
    rw [length_tail, length_tail, hlength]
  · exact ⟨hc.config_eq, hlength, happend⟩

theorem Grown.increasing (hc : Grown config c) (hconfig : KeepsTwo config)
    (hfixed : config.fixedDifficulty = none) : Increasing config c := by
  induction hc with
  | genesis => exact ⟨rfl, rfl, .nil⟩
  | block _ hfits hdifficulty hnext ih =>
    obtain ⟨difficulty, -, hsome, hpos, -⟩ := ih.nextDifficulty hconfig hfixed hfits
    obtain rfl := some.inj (hdifficulty.symm.trans hsome)
    exact ih.newBlock (by omega) hnext

/-- On a chain that grew from the genesis block the next difficulty is calculated in range. It is 1
for the first blocks, which have no window yet, and then the work in the kept window times the
target block time, over the time span of the window, rounded up; it is at least 1. -/
theorem nextDifficulty_of_grown (config : DifficultyCacheConfig) (c : DifficultyCache) (hf : HardFork)
    (hcut : 2 * config.cut + 2 ≤ config.window) (hwindow : config.window < 2 ^ 64)
    (hfixed : config.fixedDifficulty = none) (hc : Grown config c)
      (hfits : c.keptWork * hf.blockTime < 2 ^ 128) :
    ∃ difficulty, nextDifficultyChecked c.config c.timestamps c.cumulativeDifficulties hf =
      some difficulty ∧ c.nextDifficulty hf = some difficulty ∧ 1 ≤ difficulty ∧
      difficulty = if c.timestamps.length ≤ 1 then 1
        else ⌈((c.keptWork * hf.blockTime : ℕ) : ℚ) / (max 1 c.keptTime : ℕ)⌉₊ :=
  have hconfig : KeepsTwo config := ⟨hcut, hwindow⟩
  (hc.increasing hconfig hfixed).nextDifficulty hconfig hfixed hfits

/-- A chain of three blocks. -/
theorem nextDifficulty_of_two_blocks : Grown .mainNet ⟨[10, 40], [2, 3], 2, .mainNet⟩ ∧
      ∃ difficulty, nextDifficultyChecked .mainNet [10, 40] [2, 3] V1 = some difficulty ∧
        nextDifficulty ⟨[10, 40], [2, 3], 2, .mainNet⟩ V1 = some difficulty ∧ 1 ≤ difficulty ∧
        difficulty = if [10, 40].length ≤ 1 then 1
          else ⌈((keptWork ⟨[10, 40], [2, 3], 2, .mainNet⟩ * V1.blockTime : ℕ) : ℚ) /
            (max 1 (keptTime ⟨[10, 40], [2, 3], 2, .mainNet⟩) : ℕ)⌉₊ := by
  have hone : Grown .mainNet ⟨[10], [2], 1, .mainNet⟩ :=
    @Grown.block _ _ _ V1 10 1 .genesis (by decide) rfl rfl
  have htwo : Grown .mainNet ⟨[10, 40], [2, 3], 2, .mainNet⟩ :=
    @Grown.block _ _ _ V1 40 1 hone (by decide) rfl rfl
  exact ⟨htwo, nextDifficulty_of_grown .mainNet _ V1 (by decide) (by decide) rfl htwo (by decide)⟩

/-- After the first block the difficulty is 1, and there is no work in the window. -/
theorem nextDifficulty_of_one_block : Grown .mainNet ⟨[10], [2], 1, .mainNet⟩ ∧
      nextDifficulty ⟨[10], [2], 1, .mainNet⟩ V1 = some 1 ∧
      ⌈((keptWork ⟨[10], [2], 1, .mainNet⟩ * V1.blockTime : ℕ) : ℚ) /
        (max 1 (keptTime ⟨[10], [2], 1, .mainNet⟩) : ℕ)⌉₊ = 0 := by
  refine ⟨@Grown.block _ _ _ V1 10 1 .genesis (by decide) rfl rfl, rfl, ?_⟩
  have hwork : keptWork ⟨[10], [2], 1, .mainNet⟩ = 0 := by decide
  rw [hwork, Nat.zero_mul, Nat.cast_zero, zero_div, Nat.ceil_zero]

end DifficultyCache

end Cuprate.Consensus
