import Mathlib.Data.List.Nodup
import Mathlib.Tactic

/-!
# Maps that keep an order

A map whose entries are numbered. A new key goes to the end, a new value of an old key stays in the
key's place, and a removed entry is replaced by the last one.
-/

namespace Cuprate.Collections

open List

variable {α : Type*}

/-- Removes the element at `i` and puts the last one in its place. -/
def swapRemove (l : List α) (i : Nat) : List α :=
  match l.getLast? with
  | none => []
  | some last => (l.set i last).dropLast

theorem swapRemove_perm (l : List α) {i : Nat} (h : i < l.length) : l.Perm (l[i] :: swapRemove l i) := by
  rcases eq_nil_or_concat l with rfl | ⟨init, last, rfl⟩
  · simp at h
  · rw [concat_eq_append] at h
    have hlast : (init ++ [last]).getLast? = some last := by simp
    simp only [concat_eq_append, swapRemove, hlast]
    by_cases hi : i < init.length
    · rw [set_append_left _ _ hi, dropLast_concat, getElem_append_left hi]
      -- the last element comes to stand where the removed one stood
      have hinit : init = init.take i ++ init[i] :: init.drop (i + 1) := by simp
      have hset : init.set i last = init.take i ++ last :: init.drop (i + 1) :=
        set_eq_take_append_cons_drop.trans (if_pos hi)
      have hremoved : init.Perm (init[i] :: (init.take i ++ init.drop (i + 1))) := by
        nth_rewrite 1 [hinit]
        exact perm_middle
      have hmoved : (init.set i last).Perm (last :: (init.take i ++ init.drop (i + 1))) := by
        rw [hset]
        exact perm_middle
      refine (perm_append_singleton _ _).trans ((hremoved.cons _).trans ?_)
      exact (List.Perm.swap _ _ _).trans (hmoved.symm.cons _)
    · obtain rfl : i = init.length := by
        rw [length_append, length_singleton] at h
        omega
      simp

/-- A map that keeps the order of insertion, as the `indexmap` crate documents it. -/
structure IndexMap (K V : Type*) where
  entries : List (K × V)
  nodup_keys : (entries.map Prod.fst).Nodup

namespace IndexMap

variable {K V : Type*} [DecidableEq K]

def empty : IndexMap K V := ⟨[], nodup_nil⟩

/-- The keys in their order. -/
def keys (m : IndexMap K V) : List K := m.entries.map Prod.fst

def len (m : IndexMap K V) : Nat := m.entries.length

/-- The entry at a position. -/
def getIndex (m : IndexMap K V) (n : Nat) : Option (K × V) := m.entries[n]?

/-- The value of a key. -/
def lookup (m : IndexMap K V) (k : K) : Option V := (m.entries.find? fun e => e.1 = k).map Prod.snd

/-- The entries with a new value for `k`. -/
def replaceEntry (k : K) (v : V) (entries : List (K × V)) : List (K × V) :=
  entries.map fun e => if e.1 = k then (k, v) else e

theorem map_fst_replaceEntry (k : K) (v : V) (entries : List (K × V)) :
    (replaceEntry k v entries).map Prod.fst = entries.map Prod.fst := by
  unfold replaceEntry
  rw [map_map]
  refine map_congr_left fun e _ => ?_
  by_cases h : e.1 = k
  · simp [h]
  · simp [h]

/-- Inserts at the end, or replaces the value of a key that is there without moving it. -/
def insert (m : IndexMap K V) (k : K) (v : V) : IndexMap K V :=
  if h : k ∈ m.keys then
    ⟨replaceEntry k v m.entries, by rw [map_fst_replaceEntry]; exact m.nodup_keys⟩
  else
    ⟨m.entries ++ [(k, v)], by
      rw [map_append, nodup_append]
      refine ⟨m.nodup_keys, nodup_singleton _, ?_⟩
      intro a ha b hb
      obtain rfl := mem_singleton.mp hb
      exact fun heq => h (heq ▸ ha)⟩

/-- Removes the entry of `k` and puts the last entry in its place. -/
def swapRemove (m : IndexMap K V) (k : K) : IndexMap K V :=
  match h : m.entries.findIdx? fun e => e.1 = k with
  | none => m
  | some i =>
    ⟨Collections.swapRemove m.entries i, by
      obtain ⟨hi, -⟩ := findIdx?_eq_some_iff_getElem.mp h
      have hnodup := ((swapRemove_perm m.entries hi).map Prod.fst).nodup_iff.mp m.nodup_keys
      exact (nodup_cons.mp hnodup).2⟩

variable {m : IndexMap K V} {k k' : K} {v v' : V}

theorem lookup_eq_some_iff : m.lookup k = some v ↔ (k, v) ∈ m.entries := by
  unfold lookup
  rw [Option.map_eq_some_iff]
  constructor
  · rintro ⟨⟨k', v'⟩, hfind, rfl⟩
    have hkey := find?_some hfind
    obtain rfl := of_decide_eq_true hkey
    exact mem_of_find?_eq_some hfind
  · intro hmem
    have hsome : (m.entries.find? fun e => e.1 = k).isSome := by
      rw [find?_isSome]
      exact ⟨_, hmem, decide_eq_true rfl⟩
    obtain ⟨⟨k', v'⟩, hfind⟩ := Option.isSome_iff_exists.mp hsome
    have hkey := find?_some hfind
    obtain rfl := of_decide_eq_true hkey
    refine ⟨_, hfind, ?_⟩
    have heq := inj_on_of_nodup_map m.nodup_keys (mem_of_find?_eq_some hfind) hmem rfl
    exact congrArg Prod.snd heq

theorem lookup_eq_none_iff : m.lookup k = none ↔ k ∉ m.keys := by
  unfold lookup keys
  rw [Option.map_eq_none_iff, find?_eq_none]
  simp only [decide_eq_true_eq, mem_map, not_exists, not_and]

theorem lookup_isSome_iff : (m.lookup k).isSome ↔ k ∈ m.keys := by
  rw [← Option.ne_none_iff_isSome, ne_eq, lookup_eq_none_iff, not_not]

theorem mem_entries_insert : (k', v') ∈ (m.insert k v).entries ↔
    (k' = k ∧ v' = v) ∨ (k' ≠ k ∧ (k', v') ∈ m.entries) := by
  unfold insert
  split
  · next hk =>
    obtain ⟨old, hold, hkey⟩ := mem_map.mp hk
    simp only [replaceEntry, mem_map]
    constructor
    · rintro ⟨e, he, heq⟩
      split at heq
      · cases heq
        exact .inl ⟨rfl, rfl⟩
      · next hne =>
        subst heq
        exact .inr ⟨hne, he⟩
    · rintro (⟨rfl, rfl⟩ | ⟨hne, hmem⟩)
      · exact ⟨old, hold, if_pos hkey⟩
      · exact ⟨_, hmem, if_neg hne⟩
  · next hk =>
    rw [mem_append, mem_singleton, Prod.mk.injEq]
    constructor
    · rintro (hmem | heq)
      · refine .inr ⟨?_, hmem⟩
        rintro rfl
        exact hk (mem_map.mpr ⟨_, hmem, rfl⟩)
      · exact .inl heq
    · rintro (heq | ⟨-, hmem⟩)
      · exact .inr heq
      · exact .inl hmem

theorem lookup_insert : (m.insert k v).lookup k' = if k' = k then some v else m.lookup k' := by
  refine Option.ext fun v' => ?_
  rw [lookup_eq_some_iff, mem_entries_insert]
  split
  · next h => simp [h, eq_comm]
  · next h => rw [lookup_eq_some_iff]; simp [h]

theorem mem_entries_swapRemove : (k', v') ∈ (m.swapRemove k).entries ↔ k' ≠ k ∧ (k', v') ∈ m.entries := by
  unfold swapRemove
  split
  · next h =>
    rw [findIdx?_eq_none_iff] at h
    refine ⟨fun hmem => ⟨?_, hmem⟩, And.right⟩
    simpa using h _ hmem
  · next i h =>
    obtain ⟨hi, hkey, -⟩ := findIdx?_eq_some_iff_getElem.mp h
    have hkey := of_decide_eq_true hkey
    have hperm := swapRemove_perm m.entries hi
    have hnodup := (hperm.map Prod.fst).nodup_iff.mp m.nodup_keys
    rw [map_cons, nodup_cons, hkey] at hnodup
    constructor
    · intro hmem
      refine ⟨?_, hperm.mem_iff.mpr (mem_cons_of_mem _ hmem)⟩
      rintro rfl
      exact hnodup.1 (mem_map.mpr ⟨_, hmem, rfl⟩)
    · rintro ⟨hne, hmem⟩
      rcases mem_cons.mp (hperm.mem_iff.mp hmem) with heq | hmem
      · exact absurd ((congrArg Prod.fst heq).trans hkey) hne
      · exact hmem

theorem lookup_swapRemove : (m.swapRemove k).lookup k' = if k' = k then none else m.lookup k' := by
  refine Option.ext fun v' => ?_
  rw [lookup_eq_some_iff, mem_entries_swapRemove]
  split
  · next h => simp [h]
  · next h => rw [lookup_eq_some_iff]; simp [h]

theorem mem_keys_insert : k' ∈ (m.insert k v).keys ↔ k' = k ∨ k' ∈ m.keys := by
  rw [← lookup_isSome_iff, lookup_insert, ← lookup_isSome_iff]
  split
  · next h => simp [h]
  · next h => simp [h]

theorem mem_keys_swapRemove : k' ∈ (m.swapRemove k).keys ↔ k' ≠ k ∧ k' ∈ m.keys := by
  rw [← lookup_isSome_iff, lookup_swapRemove, ← lookup_isSome_iff]
  split
  · next h => simp [h]
  · next h => simp [h]

end IndexMap

end Cuprate.Collections
