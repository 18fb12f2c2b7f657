import Cuprate.Collections.Table

/-!
# Tables that hold lists

A table can hold the elements of a list under their positions (`IsSeq`), the positions under the
elements (`IsIndex`), the elements as a set (`IsSet`), or a family of lists with their lengths in a
second table (`IsStacks`). Each description determines the table.
-/

namespace Cuprate.Collections

open List

theorem getElem?_concat_of_ne {α : Type*} {l : List α} {a : α} {i : Nat} (h : i ≠ l.length) :
    (l ++ [a])[i]? = l[i]? := by
  by_cases hlt : i < l.length
  · rw [getElem?_append_left hlt]
  · have hle : (l ++ [a]).length ≤ i := by
      rw [length_append, length_singleton]
      omega
    rw [getElem?_eq_none hle, getElem?_eq_none (by omega)]

theorem map_zipIdx_fst {α β : Type*} (g : α → β) (l : List α) (n : Nat) :
    (l.zipIdx n).map (fun p => g p.1) = l.map g := by
  conv_rhs => rw [← zipIdx_map_fst n l, map_map]
  rfl

theorem mem_map_snd_zipIdx {α : Type*} (l : List α) (n i : Nat) :
    i ∈ (l.zipIdx n).map Prod.snd ↔ n ≤ i ∧ i < n + l.length := by
  rw [zipIdx_map_snd, mem_range'_1]

theorem flatMap_zipIdx_fst {α β : Type*} (g : α → List β) (l : List α) (n : Nat) :
    (l.zipIdx n).flatMap (fun p => g p.1) = l.flatMap g := by
  rw [flatMap_def, flatMap_def, map_zipIdx_fst]

theorem find?_eq_some_of_nodup {α β : Type*} [DecidableEq β] {l : List α} {f : α → β} {a : α}
    (hnodup : (l.map f).Nodup) (ha : a ∈ l) : l.find? (fun b => f b = f a) = some a := by
  have hsome : (l.find? fun b => f b = f a).isSome := find?_isSome.mpr ⟨a, ha, decide_eq_true rfl⟩
  obtain ⟨b, hb⟩ := Option.isSome_iff_exists.mp hsome
  have heq : f b = f a := by simpa using find?_some hb
  rw [hb, inj_on_of_nodup_map hnodup (mem_of_find?_eq_some hb) ha heq]

end Cuprate.Collections

namespace Finmap

open Cuprate.Collections Option List Function

variable {K V : Type*} [DecidableEq K]

/-! ## Elements under their positions -/

/-- The table holds the elements of the list under their positions. -/
def IsSeq (t : Table Nat V) (l : List V) : Prop := ∀ i, t.lookup i = l[i]?

theorem isSeq_empty : IsSeq (∅ : Table Nat V) [] := by
  intro i
  simp

variable {t : Table Nat V} {l : List K}

section
variable {l : List V} (h : IsSeq t l)
include h

theorem IsSeq.unique {t' : Table Nat V} (h' : IsSeq t' l) :
    t = t' := ext_lookup fun i => (h i).trans (h' i).symm

theorem IsSeq.keys : t.keys = Finset.range l.length := by
  ext i
  rw [mem_keys, ← lookup_isSome, h i, Finset.mem_range]
  simp

theorem IsSeq.len : t.len = l.length := by
  unfold Finmap.len
  rw [h.keys, Finset.card_range]

theorem IsSeq.isSome_lookup (i : Nat) : (t.lookup i).isSome ↔ i < l.length := by
  rw [h]
  simp

theorem IsSeq.filterMap_lookup : (List.range l.length).filterMap (fun i => t.lookup i) = l := by
  have hget : ∀ n, (List.range n).filterMap (fun i => t.lookup i) = l.take n := by
    intro n
    induction n with
    | zero => rfl
    | succ n ih =>
      rw [range_succ, filterMap_append, ih, take_add_one, ← h n]
      cases hn : t.lookup n with
      | none => simp [hn]
      | some v => simp [hn]
  rw [hget, take_length]

theorem IsSeq.insert (v : V) : IsSeq (t.insert l.length v) (l ++ [v]) := by
  intro i
  rw [lookup_insert_ite, h i]
  split
  · next heq => rw [heq, getElem?_concat_length]
  · next hne => rw [getElem?_concat_of_ne hne]

theorem IsSeq.erase_last : IsSeq (t.erase (l.length - 1)) l.dropLast := by
  intro i
  rw [lookup_erase_ite, h i, getElem?_dropLast]
  by_cases hi : i < l.length - 1
  · rw [if_pos hi, if_neg (by omega)]
  · rw [if_neg hi]
    split
    · rfl
    · rw [getElem?_eq_none (by omega)]

end

theorem IsSeq.eraseAll {l l' : List V} (h : IsSeq t (l ++ l')) {ks : List Nat}
    (hks : ∀ i, i ∈ ks ↔ l.length ≤ i ∧ i < l.length + l'.length) : IsSeq (t.eraseAll ks) l := by
  intro i
  rw [lookup_eraseAll, h i]
  split
  · next hmem => rw [getElem?_eq_none ((hks i).mp hmem).1]
  · next hmem =>
    by_cases hlt : i < l.length
    · rw [getElem?_append_left hlt]
    · have hle : (l ++ l').length ≤ i := by
        rw [length_append]
        by_contra hgt
        exact hmem ((hks i).mpr ⟨by omega, by omega⟩)
      rw [getElem?_eq_none hle, getElem?_eq_none (by omega)]

/-- The table holds the positions of the list under its elements. -/
def IsIndex (t : Table K Nat) (l : List K) : Prop := ∀ k i, t.lookup k = some i ↔ l[i]? = some k

theorem isIndex_empty : IsIndex (∅ : Table K Nat) [] := by
  intro k i
  simp

section
variable {t : Table K Nat} (h : IsIndex t l)
include h

theorem IsIndex.unique {t' : Table K Nat} (h' : IsIndex t' l) : t = t' :=
  ext_lookup fun k => Option.ext fun i => (h k i).trans (h' k i).symm

theorem IsIndex.lookup_eq_none {k : K} : t.lookup k = none ↔ k ∉ l := by
  rw [Option.eq_none_iff_forall_ne_some, mem_iff_getElem?]
  constructor
  · rintro hne ⟨i, hi⟩
    exact hne i ((h k i).mpr hi)
  · intro hmem i hi
    exact hmem ⟨i, (h k i).mp hi⟩

theorem IsIndex.nodup : l.Nodup := by
  rw [nodup_iff_getElem?_ne_getElem?]
  intro i j hij hj heq
  have hi : l[i]? = some l[j] := by rw [heq, getElem?_eq_getElem hj]
  have hj' : l[j]? = some l[j] := getElem?_eq_getElem hj
  have := ((h _ i).mpr hi).symm.trans ((h _ j).mpr hj')
  have : i = j := some.inj this
  omega

theorem IsIndex.len : t.len = l.length := by
  have hkeys : t.keys = l.toFinset := by
    ext k
    rw [mem_keys, ← lookup_isSome, List.mem_toFinset, ← Option.ne_none_iff_isSome, ne_eq,
      h.lookup_eq_none, not_not]
  unfold Finmap.len
  rw [hkeys, toFinset_card_of_nodup h.nodup]

theorem IsIndex.insert {k : K} (hk : k ∉ l) : IsIndex (t.insert k l.length) (l ++ [k]) := by
  intro k' i
  rw [lookup_insert_ite]
  by_cases hi : i = l.length
  · subst hi
    rw [getElem?_concat_length]
    split
    · next heq => simp [heq]
    · next hne =>
      refine iff_of_false ?_ fun heq => hne (some.inj heq).symm
      rw [h k', getElem?_eq_none (Nat.le_refl _)]
      simp
  · rw [getElem?_concat_of_ne hi]
    split
    · next heq =>
      refine iff_of_false (fun he => hi (some.inj he).symm) ?_
      rw [heq]
      exact fun he => hk (mem_of_getElem? he)
    · exact h k' i

end

theorem IsIndex.eraseAll {t : Table K Nat} {l' : List K} (h : IsIndex t (l ++ l')) :
    IsIndex (t.eraseAll l') l := by
  have hdisj : ∀ k ∈ l, k ∉ l' := fun k hl hl' =>
    (nodup_append.mp h.nodup).2.2 k hl k hl' rfl
  intro k i
  rw [lookup_eraseAll]
  by_cases hmem : k ∈ l'
  · rw [if_pos hmem]
    constructor
    · intro hi
      cases hi
    · intro hi
      exact absurd hmem (hdisj k (mem_of_getElem? hi))
  · rw [if_neg hmem, h k i]
    by_cases hlt : i < l.length
    · rw [getElem?_append_left hlt]
    · rw [getElem?_append_right (by omega)]
      constructor
      · intro hi
        exact absurd (mem_of_getElem? hi) hmem
      · intro hi
        exact absurd (List.getElem?_eq_some_iff.mp hi).1 hlt

def IsSet (t : Table K Unit) (l : List K) : Prop := ∀ k, t.lookup k = some () ↔ k ∈ l

theorem isSet_empty : IsSet (∅ : Table K Unit) [] := by
  intro k
  simp

variable {t : Table K Unit}

theorem IsSet.unique {t' : Table K Unit} (h : IsSet t l) (h' : IsSet t' l) : t = t' :=
  ext_lookup fun k => Option.ext fun _ => (h k).trans (h' k).symm

theorem IsSet.insert (h : IsSet t l) (k : K) : IsSet (t.insert k ()) (l ++ [k]) := by
  intro k'
  rw [lookup_insert_ite, mem_append, List.mem_singleton, ← h k']
  split
  · next heq => simp [heq]
  · next hne => simp [hne]

theorem IsSet.insertAll (h : IsSet t l) (ks : List K) :
    IsSet (ks.foldl (fun t k => t.insert k ()) t) (l ++ ks) := by
  induction ks generalizing t l with
  | nil => simpa using h
  | cons k ks ih =>
    rw [foldl_cons, ← singleton_append, ← append_assoc]
    exact ih (h.insert k)

theorem IsSet.eraseAll {l' : List K} (h : IsSet t (l ++ l')) (hdisj : ∀ k ∈ l', k ∉ l) :
    IsSet (t.eraseAll l') l := by
  intro k
  rw [lookup_eraseAll]
  by_cases hmem : k ∈ l'
  · rw [if_pos hmem]
    exact iff_of_false (by simp) (hdisj k hmem)
  · rw [if_neg hmem, h k, mem_append]
    exact or_iff_left hmem

/-! ## Families of lists -/

section Stacks

variable {A : Type*} [DecidableEq A]

/-- Appends to the list of `a`. -/
def pushStack (f : A → List V) (a : A) (v : V) : A → List V := Function.update f a (f a ++ [v])

/-- Removes the last element of the list of `a`. -/
def popStack (f : A → List V) (a : A) : A → List V := Function.update f a (f a).dropLast

def pushAll (f : A → List V) (l : List (A × V)) : A → List V :=
  l.foldl (fun f p => pushStack f p.1 p.2) f

def popAll (f : A → List V) (l : List A) : A → List V := l.foldl popStack f

section
variable (f : A → List V)
include f

theorem pushAll_apply (l : List (A × V)) (a : A) :
    pushAll f l a = f a ++ (l.filter fun p => p.1 = a).map Prod.snd := by
  induction l generalizing f with
  | nil => simp [pushAll]
  | cons p l ih =>
    show pushAll (pushStack f p.1 p.2) l a = _
    rw [ih]
    unfold pushStack
    by_cases h : p.1 = a
    · subst h
      simp
    · rw [update_of_ne (Ne.symm h), filter_cons_of_neg (by simpa using h)]

theorem popAll_apply (l : List A) (a : A) :
    popAll f l a = (f a).take ((f a).length - l.count a) := by
  induction l generalizing f with
  | nil => simp [popAll]
  | cons a' l ih =>
    show popAll (popStack f a') l a = _
    rw [ih]
    unfold popStack
    by_cases h : a' = a
    · subst h
      rw [update_self, count_cons_self, length_dropLast, dropLast_eq_take, take_take]
      exact congrArg₂ List.take (by omega) rfl
    · rw [update_of_ne (Ne.symm h), count_cons_of_ne h]

theorem length_pushAll (l : List (A × V)) (a : A) :
    (pushAll f l a).length = (f a).length + (l.map Prod.fst).count a := by
  rw [pushAll_apply, length_append, length_map, List.count, countP_map, countP_eq_length_filter]
  rfl

theorem popAll_pushAll (l : List (A × V)) : popAll (pushAll f l) (l.map Prod.fst) = f := by
  funext a
  rw [popAll_apply, length_pushAll, Nat.add_sub_cancel, pushAll_apply, take_left]

end

/-- One table holds the elements of the lists under their list and position; the other one holds the
lengths of the lists that are not empty. -/
structure IsStacks (num : Table A Nat) (items : Table (A × Nat) V) (f : A → List V) : Prop where
  num : ∀ a, num.lookup a = if f a = [] then none else some (f a).length
  items : ∀ a i, items.lookup (a, i) = (f a)[i]?

theorem isStacks_empty : IsStacks (∅ : Table A Nat) (∅ : Table (A × Nat) V) fun _ => [] where
  num a := by simp
  items a i := by simp

namespace IsStacks

variable {num num' : Table A Nat} {items items' : Table (A × Nat) V} {f : A → List V}

section
variable (h : IsStacks num items f)
include h

theorem unique (h' : IsStacks num' items' f) : num = num' ∧ items = items' :=
  ⟨ext_lookup fun a => (h.num a).trans (h'.num a).symm,
    ext_lookup fun k => (h.items k.1 k.2).trans (h'.items k.1 k.2).symm⟩

theorem getD_num (a : A) : (num.lookup a).getD 0 = (f a).length := by
  rw [h.num]
  split
  · next hnil => rw [hnil]; rfl
  · rfl

theorem isSome_lookup (a : A) (i : Nat) : (items.lookup (a, i)).isSome ↔ i < (num.lookup a).getD 0 := by
  rw [h.items, h.getD_num]
  simp

theorem push (a : A) (v : V) :
    IsStacks (num.insert a ((f a).length + 1)) (items.insert (a, (f a).length) v) (pushStack f a v) where
  num a' := by
    unfold pushStack
    rw [lookup_insert_ite]
    by_cases heq : a' = a
    · subst heq
      simp
    · rw [if_neg heq, h.num, update_of_ne heq]
  items a' i := by
    unfold pushStack
    rw [lookup_insert_ite]
    by_cases heq : a' = a
    · subst heq
      rw [update_self, getElem?_append]
      by_cases hi : i = (f a').length
      · simp [hi]
      · have hne : ¬ (a', i) = (a', (f a').length) := fun he => hi (Prod.mk.inj he).2
        rw [if_neg hne, h.items]
        by_cases hlt : i < (f a').length
        · rw [if_pos hlt]
        · rw [if_neg hlt, getElem?_eq_none (by omega), getElem?_eq_none]
          rw [length_singleton]
          omega
    · have hne : ¬ (a', i) = (a, (f a).length) := fun he => heq (Prod.mk.inj he).1
      rw [if_neg hne, h.items, update_of_ne heq]

theorem pop {a : A} (ha : f a ≠ []) :
    IsStacks (if (f a).length = 1 then num.erase a else num.insert a ((f a).length - 1))
      (items.erase (a, (f a).length - 1)) (popStack f a) where
  num a' := by
    have hpos := length_pos_iff.mpr ha
    unfold popStack
    by_cases heq : a' = a
    · subst heq
      rw [update_self]
      split
      · rw [lookup_erase_ite, if_pos rfl, if_pos]
        rw [← length_eq_zero_iff, length_dropLast]
        omega
      · rw [lookup_insert_ite, if_pos rfl, if_neg, length_dropLast]
        rw [← length_eq_zero_iff, length_dropLast]
        omega
    · rw [update_of_ne heq, ← h.num]
      split
      · rw [lookup_erase_ite, if_neg heq]
      · rw [lookup_insert_ite, if_neg heq]
  items a' i := by
    have hpos := length_pos_iff.mpr ha
    unfold popStack
    rw [lookup_erase_ite]
    by_cases heq : a' = a
    · subst heq
      rw [update_self, getElem?_dropLast]
      by_cases hi : i = (f a').length - 1
      · simp [hi]
      · have hne : ¬ (a', i) = (a', (f a').length - 1) := fun he => hi (Prod.mk.inj he).2
        rw [if_neg hne, h.items]
        split
        · rfl
        · rw [getElem?_eq_none (by omega)]
    · have hne : ¬ (a', i) = (a, (f a).length - 1) := fun he => heq (Prod.mk.inj he).1
      rw [if_neg hne, h.items, update_of_ne heq]

end

end IsStacks

end Stacks

end Finmap
