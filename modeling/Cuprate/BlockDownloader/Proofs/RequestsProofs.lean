import Cuprate.BlockDownloader.Proofs.ChainTrackerProofs

/-!
# The requests of the block downloader

Which peers a batch is requested from again.
-/

namespace Cuprate.BlockDownloader

open Pruning List ChainTracker

variable {P H E : Type}

/-- Between two kept heights that are close to each other every height is kept: no stripe is that
short, and the tip does not start shortly after a stripe. -/
theorem hasFullBlock_between {seed : PruningSeed} {a b height : Nat} (hclose : b ≤ a + MAX_BLOCK_BATCH_LEN)
    (ha : seed.hasFullBlock a MAX_BLOCK_HEIGHT_USIZE) (hb : seed.hasFullBlock b MAX_BLOCK_HEIGHT_USIZE)
    (hle : a ≤ height) (hge : height ≤ b) : seed.hasFullBlock height MAX_BLOCK_HEIGHT_USIZE := by
  cases seed with
  | notPruned => rfl
  | pruned seed =>
    rw [PruningSeed.hasFullBlock_pruned, DecompressedPruningSeed.hasFullBlock_iff] at ha hb ⊢
    simp only [MAX_BLOCK_HEIGHT_USIZE, CRYPTONOTE_PRUNING_TIP_BLOCKS, CRYPTONOTE_PRUNING_STRIPE_SIZE,
      MAX_BLOCK_BATCH_LEN] at ha hb hclose ⊢
    by_cases htip : 500000000 ≤ height + 5500
    · exact .inl htip
    have hstripe := ha.resolve_left (by omega)
    rcases (by omega : height / 4096 = a / 4096 ∨ height / 4096 = b / 4096 ∧
      b + 5500 < 500000000) with heq | ⟨heq, hlt⟩
    · exact .inr (heq ▸ hstripe)
    · exact .inr (heq ▸ hb.resolve_left (by omega))

/-- The test is about all heights up to the one after the range. So it is about the range if the
peer also has the block after it or misses one of the range, and a batch is requested again from a
peer with the seed it was handed out for exactly if the peer also has the block after the batch. -/
theorem clientHasBlockInRange_iff (seed : PruningSeed) {start length : Nat} (hpos : 1 ≤ length)
    (hlen : length ≤ 100) :
    ((clientHasBlockInRange seed start length = true ↔
        ∀ height, start ≤ height → height < start + length →
          seed.hasFullBlock height MAX_BLOCK_HEIGHT_USIZE) ↔
      seed.hasFullBlock (start + length) MAX_BLOCK_HEIGHT_USIZE ∨
        ∃ height, start ≤ height ∧ height < start + length ∧
          ¬seed.hasFullBlock height MAX_BLOCK_HEIGHT_USIZE) ∧
    ∀ (tracker tracker' : ChainTracker P H) (maxBlocks : Nat) (blocks : BlocksToRetrieve P H),
      tracker.blocksToGet seed maxBlocks = some (some blocks, tracker') →
      (clientHasBlockInRange seed blocks.startHeight blocks.ids.length = true ↔
        seed.hasFullBlock (blocks.startHeight + blocks.ids.length) MAX_BLOCK_HEIGHT_USIZE) := by
  constructor
  · rw [clientHasBlockInRange, Bool.and_eq_true]
    constructor
    · intro h
      by_cases hend : seed.hasFullBlock (start + length) MAX_BLOCK_HEIGHT_USIZE
      · exact .inl hend
      · by_contra hnot
        push Not at hnot
        exact hend (h.mpr hnot.2).2
    · intro h
      refine ⟨fun hhas height hle hlt =>
        hasFullBlock_between (Nat.add_le_add_left hlen start) hhas.1 hhas.2 hle hlt.le,
        fun hall => ⟨hall start le_rfl (by omega), h.resolve_right ?_⟩⟩
      rintro ⟨height, hle, hlt, hnot⟩
      exact hnot (hall height hle hlt)
  · intro tracker tracker' maxBlocks blocks hget
    obtain ⟨entry, entries, n, -, hpos, -, -, hkept, rfl, -⟩ := blocksToGet_eq_some hget
    rw [clientHasBlockInRange, Bool.and_eq_true]
    exact and_iff_right (hkept tracker.firstHeight le_rfl (Nat.lt_add_of_pos_right hpos))

/-- The seed of a peer that keeps the first of eight stripes. -/
def firstOfEight : PruningSeed := (DecompressedPruningSeed.new 1 3).toOption.elim .notPruned .pruned

theorem clientHasBlockInRange_firstOfEight : (clientHasBlockInRange firstOfEight 0 100 = true ↔
      ∀ height, 0 ≤ height → height < 0 + 100 → firstOfEight.hasFullBlock height MAX_BLOCK_HEIGHT_USIZE) :=
  (clientHasBlockInRange_iff (P := Unit) (H := Unit) firstOfEight (by decide) (by decide)).1.mpr
    (.inl (by decide))

/-- The last block of a stripe is handed out to a peer that keeps this stripe, but is not requested
from it again. -/
theorem clientHasBlockInRange_fails_at_stripe_end :
    (∀ height, 4095 ≤ height → height < 4095 + 1 →
      firstOfEight.hasFullBlock height MAX_BLOCK_HEIGHT_USIZE) ∧
    clientHasBlockInRange firstOfEight 4095 1 = false ∧
    ∃ (blocks : BlocksToRetrieve String Nat) (tracker' : ChainTracker String Nat),
      (oneIdTracker 4095).blocksToGet firstOfEight 100 = some (some blocks, tracker') ∧
      blocks.startHeight = 4095 ∧ blocks.ids = [1] := by
  refine ⟨fun height hle hlt => ?_, by decide, (oneIdTracker 4095).batch ⟨[1], "a", 0⟩ 1,
    (oneIdTracker 4095).afterBatch ⟨[1], "a", 0⟩ [] 1, by decide +kernel, rfl, rfl⟩
  obtain rfl : height = 4095 := by omega
  decide

end Cuprate.BlockDownloader
