import Cuprate.Pruning.PruningSeed

/-!
# The blocks a seed keeps

A seed keeps a block when the block is a tip block or lies in one of the seed's stripes. From a kept
block on, the next pruned block is at the end of the stripe, or at the start of the tip.
-/

namespace Cuprate.Pruning

open Collections Option

/-- The first height after the stripe of `height`. -/
def stripeEnd (height : Nat) : Nat :=
  (height / CRYPTONOTE_PRUNING_STRIPE_SIZE + 1) * CRYPTONOTE_PRUNING_STRIPE_SIZE

theorem lt_stripeEnd (height : Nat) : height < stripeEnd height := by
  simp only [stripeEnd, CRYPTONOTE_PRUNING_STRIPE_SIZE]
  omega

theorem getBlockPruningStripe_of_lt {height blockchainHeight logStripe : Nat}
    (h : height + CRYPTONOTE_PRUNING_TIP_BLOCKS < blockchainHeight) :
    getBlockPruningStripe height blockchainHeight logStripe
      = some (height / CRYPTONOTE_PRUNING_STRIPE_SIZE % 2 ^ logStripe + 1) := by
  rw [getBlockPruningStripe, if_neg (not_le.mpr h), Nat.one_shiftLeft, Nat.and_two_pow_sub_one_eq_mod]

theorem isLeast_next_mod {q n r : Nat} (hr : r < n) (hne : q % n ≠ r) :
    IsLeast {k | q ≤ k ∧ k % n = r} ((q / n + if r > q % n then 0 else 1) * n + r) := by
  have hq : n * (q / n) + q % n = q := Nat.div_add_mod q n
  have hmod := Nat.mod_lt q (Nat.zero_lt_of_lt hr)
  constructor
  · refine ⟨?_, by rw [Nat.mul_comm, Nat.mul_add_mod, Nat.mod_eq_of_lt hr]⟩
    split
    · rw [Nat.add_zero, Nat.mul_comm]
      omega
    · rw [Nat.add_mul, Nat.mul_comm]
      omega
  · rintro k ⟨hle, rfl⟩
    have hk : k / n * n + k % n = k := by rw [Nat.mul_comm, Nat.div_add_mod]
    have hdiv : q / n ≤ k / n := Nat.div_le_div_right hle
    have hcycle : (q / n + if k % n > q % n then 0 else 1) ≤ k / n := by
      split
      · exact hdiv
      · refine Nat.lt_of_le_of_ne hdiv fun heq => ?_
        rw [← heq, Nat.mul_comm] at hk
        omega
    calc _ ≤ k / n * n + k % n := Nat.add_le_add_right (Nat.mul_le_mul_right n hcycle) _
      _ = k := hk
theorem succ_mod_ne (q : Nat) {n : Nat} (hn : 2 ≤ n) : (q + 1) % n ≠ q % n := by
  intro heq
  have hone : 1 ≡ 0 [MOD n] := Nat.ModEq.add_left_cancel' q heq
  rw [Nat.ModEq, Nat.zero_mod, Nat.mod_eq_of_lt (by omega)] at hone
  cases hone

namespace DecompressedPruningSeed

variable {seed : DecompressedPruningSeed} {height blockchainHeight : Nat}

theorem hasFullBlock_iff : seed.hasFullBlock height blockchainHeight ↔
    blockchainHeight ≤ height + CRYPTONOTE_PRUNING_TIP_BLOCKS ∨
      seed.stripe = height / CRYPTONOTE_PRUNING_STRIPE_SIZE % 2 ^ seed.logStripes + 1 := by
  unfold hasFullBlock
  by_cases h : blockchainHeight ≤ height + CRYPTONOTE_PRUNING_TIP_BLOCKS
  · rw [getBlockPruningStripe, if_pos h]
    exact iff_of_true rfl (.inl h)
  · rw [getBlockPruningStripe_of_lt (not_le.mp h)]
    simp [h]

theorem hasFullBlock_of_lt_stripeEnd {height' : Nat} (h : seed.hasFullBlock height blockchainHeight)
    (hle : height ≤ height') (hlt : height' < stripeEnd height) :
    seed.hasFullBlock height' blockchainHeight := by
  rw [hasFullBlock_iff] at h ⊢
  simp only [stripeEnd, CRYPTONOTE_PRUNING_STRIPE_SIZE] at h hlt ⊢
  have hsame : height' / 4096 = height / 4096 := by omega
  rw [hsame]
  exact h.imp_left fun h => by omega

theorem new_eq_ok {stripe logStripes : Nat} (hlog : logStripes ≤ PRUNING_SEED_LOG_STRIPES_MASK)
    (hpos : 0 < stripe)
    (hle : stripe ≤ 1 <<< logStripes) :
    new stripe logStripes = .ok ⟨logStripes, stripe, hlog, hpos, hle⟩ := by
  rw [new, dif_neg (not_lt.mpr hlog), dif_pos ⟨hpos, hle⟩]

/-- The heights from `height` on that a seed keeps. -/
def keptFrom (seed : DecompressedPruningSeed) (height blockchainHeight : Nat) : Set Nat :=
  {h | height ≤ h ∧ seed.hasFullBlock h blockchainHeight}

theorem isLeast_keptFrom_self (h : seed.hasFullBlock height blockchainHeight) :
    IsLeast (seed.keptFrom height blockchainHeight) height :=
  ⟨⟨le_rfl, h⟩, fun _ h => h.1⟩

theorem isLeast_keptFrom {k : Nat} (htip : height + CRYPTONOTE_PRUNING_TIP_BLOCKS < blockchainHeight)
    (hk : IsLeast {k | height / CRYPTONOTE_PRUNING_STRIPE_SIZE ≤ k ∧
      k % 2 ^ seed.logStripes = seed.stripe - 1} k)
    (hle : height ≤ k * CRYPTONOTE_PRUNING_STRIPE_SIZE) :
    IsLeast (seed.keptFrom height blockchainHeight)
      (min (k * CRYPTONOTE_PRUNING_STRIPE_SIZE) (blockchainHeight - CRYPTONOTE_PRUNING_TIP_BLOCKS)) := by
  obtain ⟨⟨-, hmod⟩, hleast⟩ := hk
  have hpos := seed.stripe_pos
  refine ⟨⟨by omega, hasFullBlock_iff.mpr ?_⟩, fun h ⟨hh, hkeep⟩ => ?_⟩
  · by_cases hbefore : k * CRYPTONOTE_PRUNING_STRIPE_SIZE ≤
      blockchainHeight - CRYPTONOTE_PRUNING_TIP_BLOCKS
    · right
      rw [Nat.min_eq_left hbefore, Nat.mul_div_cancel k (by decide), hmod]
      omega
    · left
      omega
  · rcases hasFullBlock_iff.mp hkeep with htip' | hstripe
    · exact (Nat.min_le_right ..).trans (by omega)
    · have hq := hleast ⟨Nat.div_le_div_right hh, by omega⟩
      exact (Nat.min_le_left ..).trans ((Nat.mul_le_mul_right _ hq).trans (Nat.div_mul_le_self ..))

theorem exists_getNextUnprunedBlock (hle : height ≤ blockchainHeight)
    (hmax : blockchainHeight ≤ MAX_BLOCK_HEIGHT_USIZE) :
    ∃ next, seed.getNextUnprunedBlock height blockchainHeight = .ok next ∧
      IsLeast (seed.keptFrom height blockchainHeight) next := by
  have hheight : ¬(height > MAX_BLOCK_HEIGHT_USIZE ∨ height > blockchainHeight) := by omega
  have hchain : ¬blockchainHeight > MAX_BLOCK_HEIGHT_USIZE := by omega
  rw [getNextUnprunedBlock, if_neg hheight, if_neg hchain]
  by_cases htip : height + CRYPTONOTE_PRUNING_TIP_BLOCKS ≥ blockchainHeight
  · rw [if_pos htip]
    exact ⟨height, rfl, isLeast_keptFrom_self (hasFullBlock_iff.mpr (.inl htip))⟩
  have hbelow := not_le.mp htip
  rw [if_neg htip, getBlockPruningStripe_of_lt hbelow]
  by_cases hown : seed.stripe = height / CRYPTONOTE_PRUNING_STRIPE_SIZE % 2 ^ seed.logStripes + 1
  · refine ⟨height, ?_, isLeast_keptFrom_self (hasFullBlock_iff.mpr (.inr hown))⟩
    simp only [orPanic, bind, Except.bind, if_pos hown]
  have hstripe := seed.stripe_pos
  have hstripes : seed.stripe ≤ 2 ^ seed.logStripes := Nat.one_shiftLeft _ ▸ seed.stripe_le
  have hk := isLeast_next_mod (q := height / CRYPTONOTE_PRUNING_STRIPE_SIZE) (n := 2 ^ seed.logStripes)
    (r := seed.stripe - 1) (by omega) (by omega)
  have hcycle : (seed.stripe > height / CRYPTONOTE_PRUNING_STRIPE_SIZE % 2 ^ seed.logStripes + 1) =
      (seed.stripe - 1 > height / CRYPTONOTE_PRUNING_STRIPE_SIZE % 2 ^ seed.logStripes) :=
        propext (by omega)
  simp only [orPanic, bind, Except.bind, if_neg hown, Nat.shiftRight_eq_div_pow, Nat.shiftLeft_eq, hcycle,
    mul_comm CRYPTONOTE_PRUNING_STRIPE_SIZE, ← mul_assoc, ← add_mul]
  generalize (_ + _ : Nat) = k at hk ⊢
  have hafter : height / CRYPTONOTE_PRUNING_STRIPE_SIZE < k := by
    refine Nat.lt_of_le_of_ne hk.1.1 fun heq => hown ?_
    rw [heq, hk.1.2]
    omega
  have hlt : height < k * CRYPTONOTE_PRUNING_STRIPE_SIZE :=
      by rwa [Nat.div_lt_iff_lt_mul (by decide)] at hafter
  refine ⟨_, ?_, isLeast_keptFrom hbelow hk hlt.le⟩
  split
  · rw [min_eq_right (by omega)]
  · rw [if_neg (by omega), min_eq_left (by omega)]

theorem getNextUnprunedBlock_next (hmax : blockchainHeight ≤ MAX_BLOCK_HEIGHT_USIZE)
    (htip : height + CRYPTONOTE_PRUNING_TIP_BLOCKS < blockchainHeight) (hlog : seed.logStripes ≠ 0)
    (hnext : seed.stripe
      = 1 + (height / CRYPTONOTE_PRUNING_STRIPE_SIZE % 2 ^ seed.logStripes + 1) % 2 ^ seed.logStripes) :
    seed.getNextUnprunedBlock height blockchainHeight
      = .ok (min (stripeEnd height) (blockchainHeight - CRYPTONOTE_PRUNING_TIP_BLOCKS)) := by
  obtain ⟨next, heq, hleast⟩ :=
    seed.exists_getNextUnprunedBlock (show height ≤ blockchainHeight by omega) hmax
  have hcount : 2 ≤ 2 ^ seed.logStripes := Nat.le_self_pow hlog 2
  rw [Nat.mod_add_mod] at hnext
  rw [heq, hleast.unique (isLeast_keptFrom htip ⟨⟨Nat.le_add_right _ 1, by omega⟩, ?_⟩
    (lt_stripeEnd height).le)]
  · rfl
  rintro k ⟨hle, hmod⟩
  refine Nat.lt_of_le_of_ne hle fun hsame => ?_
  refine succ_mod_ne k hcount ?_
  rw [hmod, hnext, hsame, Nat.add_sub_cancel_left]

theorem getNextPrunedBlock_tip (h : blockchainHeight ≤ height + CRYPTONOTE_PRUNING_TIP_BLOCKS) :
    seed.getNextPrunedBlock height blockchainHeight = .ok none := if_pos h

theorem getNextPrunedBlock_of_next {next : DecompressedPruningSeed} {calculated : Nat}
    (htip : height + CRYPTONOTE_PRUNING_TIP_BLOCKS < blockchainHeight)
    (hkeep : seed.hasFullBlock height blockchainHeight)
    (hnew : new (1 + seed.stripe % 2 ^ seed.logStripes) seed.logStripes = .ok next)
    (hnext : next.getNextUnprunedBlock height blockchainHeight = .ok calculated)
    (hle : calculated + CRYPTONOTE_PRUNING_TIP_BLOCKS ≤ blockchainHeight) :
    seed.getNextPrunedBlock height blockchainHeight = .ok (some calculated) := by
  have hstripe := (hasFullBlock_iff.mp hkeep).resolve_left (not_le.mpr htip)
  have htip' : ¬height + CRYPTONOTE_PRUNING_TIP_BLOCKS ≥ blockchainHeight := not_le.mpr htip
  simp only [getNextPrunedBlock, htip', if_false, getBlockPruningStripe_of_lt htip, orPanic, bind,
    Except.bind, Nat.one_shiftLeft, Nat.and_two_pow_sub_one_eq_mod, hnew, Except.toOption, hnext,
    ← hstripe, ne_eq, not_true_eq_false, not_lt.mpr hle]

theorem getNextPrunedBlock_of_not_hasFullBlock (h : ¬seed.hasFullBlock height blockchainHeight) :
    seed.getNextPrunedBlock height blockchainHeight = .ok (some height) := by
  rw [hasFullBlock_iff, not_or, not_le] at h
  have htip : ¬height + CRYPTONOTE_PRUNING_TIP_BLOCKS ≥ blockchainHeight := not_le.mpr h.1
  simp only [getNextPrunedBlock, if_neg htip, getBlockPruningStripe_of_lt h.1, orPanic, bind,
    Except.bind, ne_eq, h.2, not_false_eq_true, if_true]

theorem getNextPrunedBlock_of_hasFullBlock (hmax : blockchainHeight ≤ MAX_BLOCK_HEIGHT_USIZE)
    (htip : height + CRYPTONOTE_PRUNING_TIP_BLOCKS < blockchainHeight)
    (hkeep : seed.hasFullBlock height blockchainHeight) (hlog : seed.logStripes ≠ 0) :
    seed.getNextPrunedBlock height blockchainHeight
      = .ok (some (min (stripeEnd height) (blockchainHeight - CRYPTONOTE_PRUNING_TIP_BLOCKS))) := by
  have hstripe := (hasFullBlock_iff.mp hkeep).resolve_left (not_le.mpr htip)
  have hmod : seed.stripe % 2 ^ seed.logStripes < 2 ^ seed.logStripes := Nat.mod_lt _ (Nat.two_pow_pos _)
  have hnew := new_eq_ok seed.logStripes_le (Nat.lt_add_right (seed.stripe % 2 ^ seed.logStripes) one_pos)
    (by rw [Nat.one_shiftLeft]; omega)
  refine getNextPrunedBlock_of_next htip hkeep hnew (getNextUnprunedBlock_next hmax htip hlog ?_) ?_
  · show 1 + seed.stripe % 2 ^ seed.logStripes = _
    rw [← hstripe]
  · omega

theorem getNextPrunedBlock_of_logStripes_eq_zero (hmax : blockchainHeight ≤ MAX_BLOCK_HEIGHT_USIZE)
    (htip : height + CRYPTONOTE_PRUNING_TIP_BLOCKS < blockchainHeight) (hlog : seed.logStripes = 0) :
    seed.getNextPrunedBlock height blockchainHeight = .ok (some height) := by
  have hone : seed.stripe = 1 := by
    have hle := seed.stripe_le
    have hpos := seed.stripe_pos
    rw [hlog, Nat.one_shiftLeft, Nat.pow_zero] at hle
    omega
  have hstripe : height / CRYPTONOTE_PRUNING_STRIPE_SIZE % 2 ^ seed.logStripes + 1 = seed.stripe := by
    rw [hlog, hone, Nat.pow_zero, Nat.mod_one]
  have hnew : new (1 + seed.stripe % 2 ^ seed.logStripes) seed.logStripes = .ok seed := by
    have hnext : 1 + seed.stripe % 2 ^ seed.logStripes = seed.stripe := by rw [hlog, hone, Nat.pow_zero]
    rw [hnext]
    exact new_eq_ok seed.logStripes_le seed.stripe_pos seed.stripe_le
  refine getNextPrunedBlock_of_next htip (hasFullBlock_iff.mpr (.inr hstripe.symm)) hnew ?_ htip.le
  have hheight : ¬(height > MAX_BLOCK_HEIGHT_USIZE ∨ height > blockchainHeight) := by omega
  have hchain : ¬blockchainHeight > MAX_BLOCK_HEIGHT_USIZE := by omega
  have htip' : ¬height + CRYPTONOTE_PRUNING_TIP_BLOCKS ≥ blockchainHeight := by omega
  simp only [getNextUnprunedBlock, hheight, hchain, htip', if_false, getBlockPruningStripe_of_lt htip,
    orPanic, bind, Except.bind, hstripe, if_true]

end DecompressedPruningSeed

namespace PruningSeed

open DecompressedPruningSeed

/-- The seed of a pruned peer whose one stripe is the whole chain. -/
def SingleStripe : PruningSeed → Prop
  | notPruned => False
  | pruned seed => seed.logStripes = 0

theorem hasFullBlock_pruned (seed : DecompressedPruningSeed) (height blockchainHeight : Nat) :
    (pruned seed).hasFullBlock height blockchainHeight = seed.hasFullBlock height blockchainHeight := rfl

/-- The next unpruned block is the first block that the seed keeps. -/
theorem getNextUnprunedBlock_isLeast (seed : PruningSeed) {blockHeight blockchainHeight : Nat}
    (hle : blockHeight ≤ blockchainHeight) (hmax : blockchainHeight ≤ MAX_BLOCK_HEIGHT_USIZE) :
    ∃ next, seed.getNextUnprunedBlock blockHeight blockchainHeight = .ok next ∧
      IsLeast {h | blockHeight ≤ h ∧ seed.hasFullBlock h blockchainHeight} next := by
  cases seed with
  | notPruned => exact ⟨blockHeight, rfl, ⟨le_rfl, rfl⟩, fun _ h => h.1⟩
  | pruned seed => exact seed.exists_getNextUnprunedBlock hle hmax

def secondStripe : DecompressedPruningSeed := ⟨3, 2, by decide, by decide, by decide⟩

theorem getNextUnprunedBlock_secondStripe :
    ∃ next, (pruned secondStripe).getNextUnprunedBlock 100 20000 = .ok next ∧
      IsLeast {h | 100 ≤ h ∧ (pruned secondStripe).hasFullBlock h 20000} next :=
  getNextUnprunedBlock_isLeast _ (by decide) (by decide)

/-- The heights of the chain from `blockHeight` on that a seed does not keep. -/
def prunedFrom (seed : PruningSeed) (blockHeight blockchainHeight : Nat) : Set Nat :=
  {h | blockHeight ≤ h ∧ h < blockchainHeight ∧ ¬seed.hasFullBlock h blockchainHeight}

/-- The result is the least height of a set, or none if the set is empty. -/
def Finds (heights : Set Nat) (result : Except (Fault PruningError) (Option Nat)) : Prop :=
  (∀ next, result = .ok (some next) ↔ IsLeast heights next) ∧ (result = .ok none ↔ heights = ∅)

theorem finds_none {heights : Set Nat} : Finds heights (.ok none) ↔ heights = ∅ := by
  refine ⟨fun h => h.2.mp rfl, ?_⟩
  rintro rfl
  exact ⟨fun next => iff_of_false (by simp) fun h => h.1, iff_of_true rfl rfl⟩

theorem finds_some {heights : Set Nat} {next : Nat} :
    Finds heights (.ok (some next)) ↔ IsLeast heights next := by
  refine ⟨fun h => (h.1 next).mp rfl, fun h =>
    ⟨fun next' => ⟨?_, fun h' => ?_⟩, iff_of_false (by simp) ?_⟩⟩
  · intro heq
    obtain rfl := some.inj (Except.ok.inj heq)
    exact h
  · rw [h.unique h']
  · intro hempty
    exact (hempty ▸ h.1 : next ∈ (∅ : Set Nat))

/-- From a kept block below the tip on, the next pruned block is found if it comes before the tip,
else the first block of the tip. A seed of one stripe prunes nothing, but finds the block itself. -/
theorem finds_getNextPrunedBlock_iff (seed : PruningSeed) {blockHeight blockchainHeight : Nat}
    (hle : blockHeight ≤ blockchainHeight) (hmax : blockchainHeight ≤ MAX_BLOCK_HEIGHT_USIZE) :
    Finds (seed.prunedFrom blockHeight blockchainHeight)
      (seed.getNextPrunedBlock blockHeight blockchainHeight) ↔
      ∀ pruningSeed, seed = .pruned pruningSeed → seed.hasFullBlock blockHeight blockchainHeight →
        blockHeight + CRYPTONOTE_PRUNING_TIP_BLOCKS < blockchainHeight → pruningSeed.logStripes ≠ 0 ∧
          stripeEnd blockHeight + CRYPTONOTE_PRUNING_TIP_BLOCKS < blockchainHeight := by
  have hkept : ∀ {h : Nat}, seed.hasFullBlock h blockchainHeight →
      ¬Finds (seed.prunedFrom blockHeight blockchainHeight)
      (.ok (some h)) := fun hkeep hfinds => (finds_some.mp hfinds).1.2.2 hkeep
  cases seed with
  | notPruned =>
    refine iff_of_true (finds_none.mpr ?_) nofun
    exact Set.eq_empty_of_forall_notMem fun h hh => hh.2.2 rfl
  | pruned seed =>
    change Finds _ (seed.getNextPrunedBlock blockHeight blockchainHeight) ↔ _
    by_cases htip : blockchainHeight ≤ blockHeight + CRYPTONOTE_PRUNING_TIP_BLOCKS
    · rw [getNextPrunedBlock_tip htip]
      refine iff_of_true (finds_none.mpr ?_) fun _ _ _ hlt => by omega
      refine Set.eq_empty_of_forall_notMem fun h hh => hh.2.2 ?_
      rw [hasFullBlock_pruned, hasFullBlock_iff]
      exact .inl (htip.trans (Nat.add_le_add_right hh.1 _))
    have hbelow := Nat.not_le.mp htip
    by_cases hkeep : seed.hasFullBlock blockHeight blockchainHeight
    · by_cases hlog : seed.logStripes = 0
      · rw [getNextPrunedBlock_of_logStripes_eq_zero hmax hbelow hlog]
        exact iff_of_false (hkept hkeep) fun hcond => (hcond seed rfl hkeep hbelow).1 hlog
      rw [getNextPrunedBlock_of_hasFullBlock hmax hbelow hkeep hlog]
      by_cases hend : stripeEnd blockHeight + CRYPTONOTE_PRUNING_TIP_BLOCKS < blockchainHeight
      · refine iff_of_true (finds_some.mpr ?_) fun s heq _ _ => ?_
        · rw [Nat.min_eq_left (by omega)]
          refine ⟨⟨(lt_stripeEnd _).le, by omega, fun hkeep' => ?_⟩, fun h hh =>
            Nat.not_lt.mp fun hlt => hh.2.2 ?_⟩
          · have hown := (hasFullBlock_iff.mp hkeep).resolve_left htip
            have hnext := (hasFullBlock_iff.mp hkeep').resolve_left (Nat.not_le.mpr hend)
            rw [stripeEnd, Nat.mul_div_cancel _ (by decide)] at hnext
            exact succ_mod_ne (blockHeight / CRYPTONOTE_PRUNING_STRIPE_SIZE)
              (Nat.le_self_pow hlog 2) (by omega)
          · exact hasFullBlock_of_lt_stripeEnd hkeep hh.1 hlt
        · cases heq
          exact ⟨hlog, hend⟩
      · refine iff_of_false (hkept ?_) fun hcond => hend (hcond seed rfl hkeep hbelow).2
        rw [hasFullBlock_pruned, hasFullBlock_iff]
        left
        omega
    · rw [getNextPrunedBlock_of_not_hasFullBlock hkeep]
      refine iff_of_true (finds_some.mpr ⟨⟨le_rfl, by omega, hkeep⟩, fun h hh => hh.1⟩)
        fun s heq hkeep' => ?_
      exact absurd hkeep' hkeep

/-- The stripe of block 0 ends at 4096, below the tip. -/
theorem finds_getNextPrunedBlock_firstStripe :
    Finds ((pruned ⟨3, 1, by decide, by decide, by decide⟩).prunedFrom 0 20000)
      ((pruned ⟨3, 1, by decide, by decide, by decide⟩).getNextPrunedBlock 0 20000) := by
  refine (finds_getNextPrunedBlock_iff _ (by decide) (by decide)).mpr fun s heq _ _ => ?_
  cases heq
  decide

/-- Of a chain of 5501 blocks only block 0 is below the tip. Its own stripe keeps it, so no block is
pruned, but block 1 is returned. -/
theorem getNextPrunedBlock_returns_kept :
    (pruned ⟨3, 1, by decide, by decide, by decide⟩).getNextPrunedBlock 0 5501 = .ok (some 1) ∧
      (pruned ⟨3, 1, by decide, by decide, by decide⟩).hasFullBlock 1 5501 = true := by
  decide

/-- From a kept block on, a seed keeps every block below the next pruned one. -/
theorem exists_getNextPrunedBlock {seed : PruningSeed} {height : Nat}
    (hkeep : seed.hasFullBlock height MAX_BLOCK_HEIGHT_USIZE) :
    ∃ next, seed.getNextPrunedBlock height MAX_BLOCK_HEIGHT_USIZE = .ok next ∧
      (∀ height', height ≤ height' → height' < next.getD MAX_BLOCK_HEIGHT_USIZE →
        seed.hasFullBlock height' MAX_BLOCK_HEIGHT_USIZE) ∧
      (height < MAX_BLOCK_HEIGHT_USIZE → height ≤ next.getD MAX_BLOCK_HEIGHT_USIZE) ∧
      (height < MAX_BLOCK_HEIGHT_USIZE → ¬seed.SingleStripe →
        height < next.getD MAX_BLOCK_HEIGHT_USIZE) := by
  cases seed with
  | notPruned =>
    refine ⟨none, rfl, fun _ _ _ => rfl, ?_⟩
    rw [getD_none]
    exact ⟨fun h => by omega, fun h _ => h⟩
  | pruned seed =>
    by_cases htip : MAX_BLOCK_HEIGHT_USIZE ≤ height + CRYPTONOTE_PRUNING_TIP_BLOCKS
    · refine ⟨none, getNextPrunedBlock_tip htip, fun height' hle _ => ?_, ?_⟩
      · rw [hasFullBlock_pruned, hasFullBlock_iff]
        exact .inl (by omega)
      · rw [getD_none]
        exact ⟨fun h => by omega, fun h _ => h⟩
    by_cases hlog : seed.logStripes = 0
    · refine ⟨some height, getNextPrunedBlock_of_logStripes_eq_zero le_rfl
        (not_le.mp htip) hlog, fun height' hle hlt => ?_, fun _ => le_rfl, fun _ h => absurd hlog h⟩
      exact absurd hlt (not_lt.mpr hle)
    · have hend := lt_stripeEnd height
      refine ⟨_, getNextPrunedBlock_of_hasFullBlock le_rfl (not_le.mp htip)
        hkeep hlog, fun height' hle hlt => ?_, fun _ => ?_, fun _ _ => ?_⟩
      · rw [hasFullBlock_pruned] at hkeep ⊢
        exact hasFullBlock_of_lt_stripeEnd hkeep hle
          (lt_of_lt_of_le hlt (min_le_left _ _))
      · rw [getD_some]
        omega
      · rw [getD_some]
        omega

end PruningSeed

end Cuprate.Pruning
