import Cuprate.P2P.Bucket

/-!
# Random items of a bucket

`get_random` divides the random numbers by the lengths where the remainder is meant, so that most of
them are out of range.
-/

namespace Cuprate.P2P.Bucket

open List

variable {N : Nat} {I D : Type} [Ord D] [Std.TransOrd D] {b : Bucket N I D}

def Stored (b : Bucket N I D) (item : I) : Prop := ∃ entry ∈ b.storage.toList, item ∈ entry.2

/-- The array that a first draw chooses: each of them has as many draws as there are arrays. -/
def Drawn (b : Bucket N I D) (bucketDraw : UInt64) (entry : D × List I) : Prop :=
  ∃ i, b.storage.toList[i]? = some entry ∧ i * b.storage.size ≤ bucketDraw.toNat ∧
    bucketDraw.toNat < (i + 1) * b.storage.size

variable {bucketDraw itemDraw : UInt64} {entry : D × List I} {item : I}

theorem drawn_iff : b.Drawn bucketDraw entry ↔
    b.storage.toList[bucketDraw.toNat / b.storage.size]? = some entry := by
  constructor
  · rintro ⟨i, hi, hle, hlt⟩
    rw [Nat.div_eq_of_lt_le hle hlt, hi]
  · intro h
    have hlt := (List.getElem?_eq_some_iff.mp h).1
    rw [Std.TreeMap.length_toList] at hlt
    exact ⟨_, h, Nat.div_mul_le_self _ _, Nat.lt_mul_of_div_lt (Nat.lt_succ_self _)
      (Nat.zero_lt_of_lt hlt)⟩

/-- A draw of an item that is too high gives none, and an empty array makes the division panic. -/
theorem getRandom_of_drawn (h : b.Drawn bucketDraw entry) (itemDraw : UInt64) :
    b.getRandom bucketDraw itemDraw =
    if entry.2 = [] then .error .divisionByZero else .ok entry.2[itemDraw.toNat / entry.2.length]? := by
  have hentry := drawn_iff.mp h
  have hlt := (List.getElem?_eq_some_iff.mp hentry).1
  rw [Std.TreeMap.length_toList] at hlt
  unfold getRandom checkedDiv
  rw [if_neg (Nat.ne_zero_of_lt hlt)]
  simp only [bind, Except.bind, hentry, length_eq_zero_iff]
  by_cases hnil : entry.2 = []
  · rw [if_pos hnil, if_pos hnil]
  · rw [if_neg hnil, if_neg hnil]

theorem getRandom_of_not_drawn (h : ∀ entry, ¬ b.Drawn bucketDraw entry) (itemDraw : UInt64) :
    ∃ panic, b.getRandom bucketDraw itemDraw = .error panic := by
  have hnone : b.storage.toList[bucketDraw.toNat / b.storage.size]? = none :=
    Option.eq_none_iff_forall_ne_some.mpr fun entry => mt drawn_iff.mpr (h entry)
  unfold getRandom checkedDiv
  by_cases hsize : b.storage.size = 0
  · exact ⟨_, by rw [if_pos hsize]; rfl⟩
  · rw [if_neg hsize]
    simp only [bind, Except.bind, hnone]
    exact ⟨_, rfl⟩

theorem getRandom_eq_ok_iff {result : Option I} : b.getRandom bucketDraw itemDraw = .ok result ↔
    ∃ entry, b.Drawn bucketDraw entry ∧ entry.2 ≠ [] ∧
      entry.2[itemDraw.toNat / entry.2.length]? = result := by
  by_cases hdrawn : ∃ entry, b.Drawn bucketDraw entry
  · obtain ⟨entry, hentry⟩ := hdrawn
    rw [getRandom_of_drawn hentry]
    have hunique : ∀ entry', b.Drawn bucketDraw entry' → entry' = entry := fun entry' hentry' =>
      Option.some.inj ((drawn_iff.mp hentry').symm.trans (drawn_iff.mp hentry))
    constructor
    · intro h
      split at h
      · cases h
      · next hne => exact ⟨entry, hentry, hne, Except.ok.inj h⟩
    · rintro ⟨entry', hentry', hne, rfl⟩
      obtain rfl := hunique entry' hentry'
      rw [if_neg hne]
  · obtain ⟨panic, hpanic⟩ := getRandom_of_not_drawn (not_exists.mp hdrawn) itemDraw
    rw [hpanic]
    exact iff_of_false nofun fun ⟨entry, hentry, _⟩ => hdrawn ⟨entry, hentry⟩

theorem isSome_getElem?_div_iff {vec : List I} (hne : vec ≠ []) (draw : Nat) :
    vec[draw / vec.length]?.isSome ↔ draw < vec.length ^ 2 := by
  rw [isSome_getElem?, pow_two]
  exact Nat.div_lt_iff_lt_mul (length_pos_iff.mpr hne)

theorem exists_draw_iff {i n : Nat} (hn : 0 < n) :
    (∃ draw : UInt64, draw.toNat / n = i) ↔ i * n < 2 ^ 64 := by
  constructor
  · rintro ⟨draw, rfl⟩
    exact (Nat.div_mul_le_self _ _).trans_lt draw.toNat_lt
  · intro hlt
    refine ⟨.ofNat (i * n), ?_⟩
    rw [UInt64.toNat_ofNat_of_lt' hlt, Nat.mul_div_cancel _ hn]

/-- An item is returned for some draws exactly if its array is at a position, and the item at one in
the array, whose product with the number of them is a 64-bit number. -/
theorem exists_getRandom_iff : (∃ bucketDraw itemDraw, b.getRandom bucketDraw itemDraw = .ok (some item)) ↔
    ∃ i j entry, b.storage.toList[i]? = some entry ∧ entry.2[j]? = some item ∧
      i * b.storage.size < 2 ^ 64 ∧ j * entry.2.length < 2 ^ 64 := by
  simp only [getRandom_eq_ok_iff, drawn_iff]
  constructor
  · rintro ⟨bucketDraw, itemDraw, entry, hentry, -, hitem⟩
    exact ⟨_, _, entry, hentry, hitem, (Nat.div_mul_le_self _ _).trans_lt bucketDraw.toNat_lt,
      (Nat.div_mul_le_self _ _).trans_lt itemDraw.toNat_lt⟩
  · rintro ⟨i, j, entry, hentry, hitem, hi, hj⟩
    have hlt := (List.getElem?_eq_some_iff.mp hentry).1
    rw [Std.TreeMap.length_toList] at hlt
    have hlt' := (List.getElem?_eq_some_iff.mp hitem).1
    obtain ⟨bucketDraw, hbucket⟩ := (exists_draw_iff (by omega)).mpr hi
    obtain ⟨itemDraw, hdraw⟩ := (exists_draw_iff (by omega)).mpr hj
    refine ⟨bucketDraw, itemDraw, entry, by rw [hbucket, hentry], ?_, by rw [hdraw, hitem]⟩
    exact ne_nil_of_length_pos (by omega)

/-- A random item is a stored one. There is one exactly when the first draw chooses an array and the
second one is below the square of its length, and none exactly when the second one is higher and the
array is not empty. So a bucket without items always panics. A stored item is returned for some
draws exactly if the products of its positions are 64-bit numbers, which is so if all lengths are at
most `2 ^ 32`. -/
theorem getRandom_spec [Std.LawfulEqOrd D] (b : Bucket N I D) :
    (∀ bucketDraw itemDraw item, b.getRandom bucketDraw itemDraw = .ok (some item) → b.Stored item) ∧
    (∀ bucketDraw itemDraw, (∃ item, b.getRandom bucketDraw itemDraw = .ok (some item)) ↔
      ∃ entry, b.Drawn bucketDraw entry ∧ itemDraw.toNat < entry.2.length ^ 2) ∧
    (∀ bucketDraw itemDraw, b.getRandom bucketDraw itemDraw = .ok none ↔
      ∃ entry, b.Drawn bucketDraw entry ∧ entry.2 ≠ [] ∧ entry.2.length ^ 2 ≤ itemDraw.toNat) ∧
    ((∀ item, ¬ b.Stored item) →
      ∀ bucketDraw itemDraw, ∃ panic, b.getRandom bucketDraw itemDraw = .error panic) ∧
    (∀ item, (∃ bucketDraw itemDraw, b.getRandom bucketDraw itemDraw = .ok (some item)) ↔
      ∃ i j entry, b.storage.toList[i]? = some entry ∧ entry.2[j]? = some item ∧
        i * b.storage.size < 2 ^ 64 ∧ j * entry.2.length < 2 ^ 64) ∧
    (N ≤ 2 ^ 32 → b.storage.size ≤ 2 ^ 32 → ∀ item, b.Stored item →
      ∃ bucketDraw itemDraw, b.getRandom bucketDraw itemDraw = .ok (some item)) := by
  refine ⟨fun bucketDraw itemDraw item h => ?_, fun bucketDraw itemDraw =>
    ?_, fun bucketDraw itemDraw => ?_,
    fun hempty bucketDraw itemDraw => ?_, fun item =>
      exists_getRandom_iff, fun hN hsize item hstored => ?_⟩
  · obtain ⟨entry, hentry, -, hitem⟩ := getRandom_eq_ok_iff.mp h
    exact ⟨entry, mem_of_getElem? (drawn_iff.mp hentry), mem_of_getElem? hitem⟩
  · simp only [getRandom_eq_ok_iff]
    rw [exists_comm]
    refine exists_congr fun entry => ?_
    rw [exists_and_left]
    refine and_congr_right fun _ => ?_
    rw [exists_and_left, ← Option.isSome_iff_exists]
    constructor
    · rintro ⟨hne, hitem⟩
      exact (isSome_getElem?_div_iff hne _).mp hitem
    · intro hlt
      have hne : entry.2 ≠ [] := by
        rintro hnil
        rw [hnil] at hlt
        cases hlt
      exact ⟨hne, (isSome_getElem?_div_iff hne _).mpr hlt⟩
  · rw [getRandom_eq_ok_iff]
    refine exists_congr fun entry => and_congr_right fun _ => and_congr_right fun hne => ?_
    rw [← Option.not_isSome_iff_eq_none, isSome_getElem?_div_iff hne, Nat.not_lt]
  · cases h : b.getRandom bucketDraw itemDraw with
    | error panic => exact ⟨panic, rfl⟩
    | ok result =>
      obtain ⟨entry, hentry, hne, -⟩ := getRandom_eq_ok_iff.mp h
      obtain ⟨item, hitem⟩ := exists_mem_of_ne_nil _ hne
      exact absurd ⟨entry, mem_of_getElem? (drawn_iff.mp hentry), hitem⟩ (hempty item)
  · obtain ⟨entry, hentry, hitem⟩ := hstored
    obtain ⟨i, hi⟩ := getElem?_of_mem hentry
    obtain ⟨j, hj⟩ := getElem?_of_mem hitem
    have hlength := b.within entry.1 entry.2 (Std.TreeMap.mem_toList_iff_getElem?_eq_some.mp hentry)
    have hlt := (List.getElem?_eq_some_iff.mp hi).1
    rw [Std.TreeMap.length_toList] at hlt
    have hproduct {i n : Nat} (hi : i < n) (hn : n ≤ 2 ^ 32) : i * n < 2 ^ 32 * 2 ^ 32 :=
      Nat.mul_lt_mul_of_lt_of_le (hi.trans_le hn) hn (by decide)
    exact exists_getRandom_iff.mpr ⟨i, j, entry, hi, hj, hproduct hlt hsize,
      hproduct (List.getElem?_eq_some_iff.mp hj).1 (hlength.trans hN)⟩

instance : Bucketable Nat Nat := ⟨(· % 2)⟩

/-- Of two arrays one has two items. A draw of four is too high for an item, and the second item has
draws. -/
theorem getRandom_spec_push :
    let b : Bucket 2 Nat Nat := (((new.push 7).2.push 8).2.push 9).2
    b.getRandom 2 4 = .ok none ∧
      ∃ bucketDraw itemDraw, b.getRandom bucketDraw itemDraw = .ok (some 9) := by
  intro b
  obtain ⟨-, -, hnone, -, -, hstored⟩ := getRandom_spec b
  refine ⟨(hnone 2 4).mpr ⟨(1, [7, 9]), ⟨1, by decide, by decide, by decide⟩, by decide, by decide⟩, ?_⟩
  exact hstored (by decide) (by decide) 9 ⟨(1, [7, 9]), by decide, by decide⟩

/-- An empty bucket, a stored item and a first draw of `1`, and an item that was removed. -/
theorem getRandom_panics :
    let b : Bucket 1 Nat Nat := (new.push 7).2
    (new : Bucket 1 Nat Nat).getRandom 0 0 = .error .divisionByZero ∧
    b.getRandom 1 0 = .error .noBucket ∧ (b.remove 7).2.getRandom 0 0 = .error .divisionByZero := by
  decide

end Cuprate.P2P.Bucket
