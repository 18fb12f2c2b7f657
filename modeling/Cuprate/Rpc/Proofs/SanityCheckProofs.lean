import Cuprate.Helper.Proofs.MedianProofs
import Cuprate.Rpc.SanityCheck

/-!
# What the sanity check looks at

It skips the inputs without a public amount, which are those that spend RingCT outputs.
-/

namespace Cuprate.Rpc

open List

/-- The absolute indexes of the ring members of the RingCT inputs. -/
def ringctIndexes (inputs : List Input) : List Nat :=
  inputs.flatMap fun
    | .toKey none (offset :: offsets) _ => (offsets.map UInt64.toNat).scanl (· + ·) offset.toNat
    | _ => []

/-- There is a coinbase input. -/
def Coinbase (inputs : List Input) : Prop := ∃ height, .gen height ∈ inputs

/-- Too few distinct ring members, or too old ones. -/
def PoorRings (inputs : List Input) (available : UInt64) : Prop :=
  let indexes := ringctIndexes inputs
  let distinct := indexes.dedup
  10 < indexes.length ∧ 10000 ≤ available ∧ (10 * distinct.length < 8 * indexes.length ∨
    ∃ median ∈ Helper.median (distinct.insertionSort (· ≤ ·)), 10 * median < 6 * available.toNat)

/-- The transactions that the rule rejects. -/
def Insane (inputs : List Input) (available : UInt64) : Prop :=
  inputs = [] ∨ Coinbase inputs ∨ PoorRings inputs available

/-- The check returns an error. -/
def Rejects (tx : Transaction) (available : UInt64) :
    Prop := ∃ e, txSanityCheck tx available = some (.error e)

/-- The inputs before the first coinbase input. -/
def beforeCoinbase (inputs : List Input) : List Input :=
  inputs.takeWhile fun
    | .gen _ => false
    | _ => true

/-- The rings of the inputs with a public amount, which are those that the check looks at. -/
def publicRings (inputs : List Input) : List (List UInt64) :=
  inputs.filterMap fun
    | .toKey (some _) keyOffsets _ => some keyOffsets
    | _ => none

/-- Their absolute indexes one after another, as sums that wrap around. -/
def publicIndexes (inputs : List Input) : List UInt64 :=
  (publicRings inputs).flatMap fun
    | [] => []
    | offset :: offsets => offsets.scanl (· + ·) offset

/-- More than ten ring members have public amounts, and the one in the middle is old. Six times the
number of available outputs may wrap around. -/
def OldPublicRings (inputs : List Input) (available : UInt64) : Prop :=
  10 < (publicIndexes inputs).length ∧ 10000 ≤ available ∧
    ∃ median ∈ Helper.median (publicIndexes inputs), median < available * 6 / 10

variable {inputs : List Input} {indices : List UInt64} {n : Nat}

theorem coinbase_cons_toKey {amount : Option UInt64} {offsets : List UInt64} {image : CompressedPoint} :
    Coinbase (.toKey amount offsets image :: inputs) ↔ Coinbase inputs := by
  simp [Coinbase]

theorem rctIndices_eq_none_iff :
    rctIndices indices n inputs = none ↔ [] ∈ publicRings (beforeCoinbase inputs) := by
  induction inputs generalizing indices n with
  | nil => simp [rctIndices, beforeCoinbase, publicRings]
  | cons input inputs ih =>
    rcases input with height | ⟨_ | amount, offsets, image⟩
    · simp [rctIndices, beforeCoinbase, publicRings]
    · exact ih
    · cases offsets with
      | nil => simp [rctIndices, relativeOutputOffsetsToAbsolute, beforeCoinbase, publicRings]
      | cons offset offsets =>
        have hring : [] ∈ publicRings
            (beforeCoinbase (.toKey (some amount) (offset :: offsets) image :: inputs)) ↔
            [] ∈ publicRings (beforeCoinbase inputs) := by
          show [] ∈ (offset :: offsets) :: publicRings (beforeCoinbase inputs) ↔ _
          simp
        rw [hring]
        exact ih

theorem rctIndices_of_coinbase (hcoinbase : Coinbase inputs)
    (hrings : [] ∉ publicRings (beforeCoinbase inputs)) :
    ∃ e, rctIndices indices n inputs = some (.error e) := by
  induction inputs generalizing indices n with
  | nil => exact absurd hcoinbase (by simp [Coinbase])
  | cons input inputs ih =>
    rcases input with height | ⟨_ | amount, offsets, image⟩
    · exact ⟨_, rfl⟩
    · exact ih (coinbase_cons_toKey.mp hcoinbase) hrings
    · cases offsets with
      | nil => exact absurd mem_cons_self hrings
      | cons offset offsets =>
        have hrest := mt (mem_cons_of_mem (offset :: offsets)) hrings
        exact ih (coinbase_cons_toKey.mp hcoinbase) hrest

theorem rctIndices_of_not_coinbase (hcoinbase : ¬ Coinbase inputs)
    (hrings : [] ∉ publicRings (beforeCoinbase inputs)) : rctIndices indices n inputs =
      some (.ok (indices ++ publicIndexes inputs, n + (publicIndexes inputs).length)) := by
  induction inputs generalizing indices n with
  | nil => simp [rctIndices, publicIndexes, publicRings]
  | cons input inputs ih =>
    rcases input with height | ⟨_ | amount, offsets, image⟩
    · exact absurd ⟨height, mem_cons_self⟩ hcoinbase
    · exact ih (mt coinbase_cons_toKey.mpr hcoinbase) hrings
    · cases offsets with
      | nil => exact absurd mem_cons_self hrings
      | cons offset offsets =>
        have hrest := mt (mem_cons_of_mem (offset :: offsets)) hrings
        have hindexes : publicIndexes (.toKey (some amount) (offset :: offsets) image :: inputs) =
            offsets.scanl (· + ·) offset ++ publicIndexes inputs := rfl
        have hlength : (offset :: offsets).length = (offsets.scanl (· + ·) offset).length := by
          rw [length_scanl, length_cons]
        refine (ih (mt coinbase_cons_toKey.mpr hcoinbase) hrest).trans ?_
        rw [hindexes, append_assoc, length_append, hlength, Nat.add_assoc]

variable (tx : Transaction) (available : UInt64)

/-- What the check returns for a transaction with inputs and without a coinbase input, if it does
not panic. -/
theorem txSanityCheck_eq (hnil : tx.txPrefix.inputs ≠ []) (hcoinbase : ¬ Coinbase tx.txPrefix.inputs)
    (hrings : [] ∉ publicRings (beforeCoinbase tx.txPrefix.inputs)) :
    (txSanityCheck tx available = some (.ok ()) ∧ ¬ OldPublicRings tx.txPrefix.inputs available) ∨
      Rejects tx available ∧ OldPublicRings tx.txPrefix.inputs available := by
  have hindices : rctIndices [] 0 tx.txPrefix.inputs =
      some (.ok (publicIndexes tx.txPrefix.inputs, (publicIndexes tx.txPrefix.inputs).length)) := by
    rw [rctIndices_of_not_coinbase hcoinbase hrings, nil_append, Nat.zero_add]
  unfold Rejects txSanityCheck OldPublicRings
  rw [if_neg hnil, hindices, Option.bind_some]
  dsimp only
  by_cases hfew : (publicIndexes tx.txPrefix.inputs).length ≤ 10 ∨ available < 10000
  · rw [if_pos hfew]
    refine .inl ⟨rfl, fun h => ?_⟩
    exact hfew.elim (Nat.not_le.mpr h.1) (UInt64.not_lt.mpr h.2.1)
  · -- there are as many indices as ring members
    rw [if_neg hfew, if_neg (by omega)]
    obtain ⟨hlong, hmany⟩ := not_or.mp hfew
    have hne := length_pos_iff.mp (show 0 < (publicIndexes tx.txPrefix.inputs).length by omega)
    obtain ⟨median, hmedian⟩ :
      ∃ median, Helper.median (publicIndexes tx.txPrefix.inputs) = some median := by
      obtain ⟨a, b, -, -, hmedian⟩ := Helper.median_eq_some hne
      exact ⟨_, hmedian⟩
    rw [hmedian, Option.map_some]
    by_cases hold : median < available * 6 / 10
    · rw [if_pos hold]
      exact .inr ⟨⟨_, rfl⟩, Nat.not_le.mp hlong, UInt64.not_lt.mp hmany, median, rfl, hold⟩
    · rw [if_neg hold]
      refine .inl ⟨rfl, fun ⟨_, _, median', hmem, hlt⟩ => hold ?_⟩
      cases hmem
      exact hlt

theorem txSanityCheck_eq_none_iff :
    txSanityCheck tx available = none ↔ [] ∈ publicRings (beforeCoinbase tx.txPrefix.inputs) := by
  by_cases hrings : [] ∈ publicRings (beforeCoinbase tx.txPrefix.inputs)
  · have hnil : tx.txPrefix.inputs ≠ [] := by
      intro hnil
      rw [hnil] at hrings
      cases hrings
    refine iff_of_true ?_ hrings
    rw [txSanityCheck, if_neg hnil, rctIndices_eq_none_iff.mpr hrings, Option.bind_none]
  · refine iff_of_false ?_ hrings
    by_cases hnil : tx.txPrefix.inputs = []
    · simp [txSanityCheck, hnil]
    · by_cases hcoinbase : Coinbase tx.txPrefix.inputs
      · obtain ⟨e, he⟩ := rctIndices_of_coinbase (n := 0) hcoinbase hrings
        rw [txSanityCheck, if_neg hnil, he]
        nofun
      · rcases txSanityCheck_eq tx available hnil hcoinbase hrings with ⟨hok, -⟩ | ⟨⟨e, herror⟩, -⟩
        · rw [hok]
          nofun
        · rw [herror]
          nofun

theorem rejects_iff (hrings : [] ∉ publicRings (beforeCoinbase tx.txPrefix.inputs)) :
    Rejects tx available ↔
    tx.txPrefix.inputs = [] ∨ Coinbase tx.txPrefix.inputs ∨
      OldPublicRings tx.txPrefix.inputs available := by
  by_cases hnil : tx.txPrefix.inputs = []
  · exact iff_of_true ⟨_, by rw [txSanityCheck, if_pos hnil]⟩ (.inl hnil)
  · by_cases hcoinbase : Coinbase tx.txPrefix.inputs
    · obtain ⟨e, he⟩ := rctIndices_of_coinbase (n := 0) hcoinbase hrings
      refine iff_of_true ⟨e, ?_⟩ (.inr (.inl hcoinbase))
      rw [txSanityCheck, if_neg hnil, he, Option.bind_some]
    · rw [or_iff_right hnil, or_iff_right hcoinbase]
      rcases txSanityCheck_eq tx available hnil hcoinbase hrings with ⟨hok, hnot⟩ | ⟨hrejects, hold⟩
      · refine iff_of_false ?_ hnot
        rintro ⟨e, herror⟩
        cases hok.symm.trans herror
      · exact iff_of_true hrejects hold

/-- The check panics exactly if an input with a public amount has an empty ring and no coinbase
input comes before it. It does not and gives the verdict of the rule exactly if moreover the
transaction has no inputs or a coinbase input, or old rings with public amounts come exactly with
poor rings of RingCT inputs. -/
theorem rejects_insane_iff :
    (txSanityCheck tx available = none ↔ [] ∈ publicRings (beforeCoinbase tx.txPrefix.inputs)) ∧
    (txSanityCheck tx available ≠ none ∧ (Rejects tx available ↔ Insane tx.txPrefix.inputs available) ↔
      [] ∉ publicRings (beforeCoinbase tx.txPrefix.inputs) ∧ (tx.txPrefix.inputs = [] ∨
        Coinbase tx.txPrefix.inputs ∨
          (OldPublicRings tx.txPrefix.inputs available ↔ PoorRings tx.txPrefix.inputs available))) := by
  have hnone := txSanityCheck_eq_none_iff tx available
  refine ⟨hnone, ?_⟩
  rw [ne_eq, hnone]
  refine and_congr_right fun hrings => ?_
  rw [rejects_iff tx available hrings, Insane]
  by_cases hnil : tx.txPrefix.inputs = []
  · simp [hnil]
  · by_cases hcoinbase : Coinbase tx.txPrefix.inputs
    · simp [hcoinbase]
    · simp [hnil, hcoinbase]

/-- Eleven different and recent ring members of a RingCT input pass, as they should. -/
theorem rejects_insane_recent :
    let tx : Transaction := .v2 ⟨.none, [.toKey none (9000 :: .replicate 10 1) 0], [], []⟩
      (some ⟨⟨0, [], []⟩, []⟩)
    txSanityCheck tx 10000 = some (.ok ()) ∧ ¬ Insane tx.txPrefix.inputs 10000 := by
  intro tx
  have hpoor : ¬ PoorRings tx.txPrefix.inputs 10000 := by
    rintro ⟨-, -, hfew | ⟨median, hmedian, hold⟩⟩
    · exact absurd hfew (by decide)
    · have hmiddle : Helper.median
          ((ringctIndexes tx.txPrefix.inputs).dedup.insertionSort (· ≤ ·)) = some 9005 := by
        decide +kernel
      cases hmiddle.symm.trans hmedian
      exact absurd hold (by decide)
  have h := ((rejects_insane_iff tx 10000).2.mpr
    ⟨by decide, .inr (.inr (iff_of_false (fun h => absurd h.1 (by decide)) hpoor))⟩).2
  refine ⟨rfl, fun hinsane => ?_⟩
  obtain ⟨e, he⟩ := h.mpr hinsane
  cases he

/-- Eleven times the same ring member passes, and an empty ring with an amount panics. -/
theorem insane_passes_and_empty_ring_panics :
    (txSanityCheck (.v2 ⟨.none, [.toKey none (.replicate 11 0) 0], [], []⟩ (some ⟨⟨0, [], []⟩, []⟩))
      10000 = some (.ok ()) ∧ Insane [.toKey none (.replicate 11 0) 0] 10000) ∧
    txSanityCheck (.v1 ⟨.none, [.toKey (some 1) [] 0], [], []⟩ []) 10000 = none := by
  refine ⟨⟨rfl, .inr (.inr ⟨?_, ?_, .inl ?_⟩)⟩, rfl⟩ <;> decide

end Cuprate.Rpc
