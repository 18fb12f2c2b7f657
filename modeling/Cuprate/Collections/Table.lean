import Mathlib.Data.Finmap
import Mathlib.Tactic

/-!
# Tables

A table is a finite map. Mathlib's `Finmap` gives `lookup`, `insert` and `erase`; this module adds
the number of entries, `eraseAll`, `retain`, `tabulate`, `fromList` and `takeAll`, with the lemmas
that compute them.
-/

/-- A finite map: a table of a database, or a hash map. -/
abbrev Cuprate.Collections.Table (K V : Type*) := Finmap fun _ : K => V

namespace Finmap

open Cuprate.Collections Option List Prod

variable {K V : Type*}

/-- The number of keys. -/
def len (t : Table K V) : Nat := t.keys.card

@[simp] theorem len_empty : len (∅ : Table K V) = 0 := rfl

/-- Keeps the entries that satisfy `p`. -/
def retain (p : K → V → Bool) (t : Table K V) : Table K V where
  entries := t.entries.filter fun e => p e.1 e.2
  nodupKeys := by
    have h := t.nodupKeys
    rw [← Multiset.nodup_keys] at h ⊢
    exact Multiset.nodup_of_le (Multiset.map_le_map (Multiset.filter_le _ _)) h

/-- The table of a function that is defined on some of the keys. -/
def tabulate (ks : Finset K) (f : K → Option V) : Table K V where
  entries := ks.val.filterMap fun k => (f k).map fun v => ⟨k, v⟩
  nodupKeys := by
    rw [← Multiset.nodup_keys]
    unfold Multiset.keys
    rw [Multiset.map_filterMap]
    refine ks.nodup.filterMap _ fun k k' k'' h h' => ?_
    simp only [Option.mem_def, Option.map_map, map_eq_some_iff, Function.comp_apply] at h h'
    obtain ⟨-, -, rfl⟩ := h
    obtain ⟨-, -, rfl⟩ := h'
    rfl

variable [DecidableEq K]

theorem lookup_tabulate (ks : Finset K) (f : K → Option V) (k : K) :
    (tabulate ks f).lookup k = if k ∈ ks then f k else none := by
  refine Option.ext fun v => ?_
  rw [lookup_eq_some_iff]
  show (⟨k, v⟩ : Sigma fun _ : K => V) ∈ Multiset.filterMap _ _ ↔ _
  rw [Multiset.mem_filterMap]
  constructor
  · rintro ⟨k', hmem, h⟩
    obtain ⟨v', hv', heq⟩ := map_eq_some_iff.mp h
    obtain ⟨rfl, hvalue⟩ := Sigma.mk.inj heq
    obtain rfl := eq_of_heq hvalue
    rw [if_pos (Finset.mem_val.mp hmem), hv']
  · intro h
    split at h
    · next hmem => exact ⟨k, hmem, by rw [h]; rfl⟩
    · cases h

def mapValues {W : Type*} (f : K → V → W) (t : Table K V) : Table K W :=
  tabulate t.keys fun k => (t.lookup k).map (f k)

theorem lookup_mapValues {W : Type*} (f : K → V → W) (t : Table K V) (k : K) :
    (t.mapValues f).lookup k = (t.lookup k).map (f k) := by
  unfold mapValues
  rw [lookup_tabulate]
  split
  · rfl
  · next h =>
    rw [mem_keys] at h
    rw [lookup_eq_none.mpr h]
    rfl

theorem lookup_insert_ite (t : Table K V) (k k' : K) (v : V) :
    (t.insert k v).lookup k' = if k' = k then some v else t.lookup k' := by
  by_cases h : k' = k
  · subst h
    rw [lookup_insert, if_pos rfl]
  · rw [lookup_insert_of_ne _ h, if_neg h]

theorem mapValues_insert {W : Type*} (f : K → V → W) (t : Table K V) (k : K) (v : V) :
    (t.insert k v).mapValues f = (t.mapValues f).insert k (f k v) := by
  refine ext_lookup fun k' => ?_
  rw [lookup_mapValues, lookup_insert_ite, lookup_insert_ite, lookup_mapValues]
  split
  · next h => rw [h, map_some]
  · rfl

theorem lookup_erase_ite (t : Table K V) (k k' : K) :
    (t.erase k).lookup k' = if k' = k then none else t.lookup k' := by
  by_cases h : k' = k
  · subst h
    rw [lookup_erase, if_pos rfl]
  · rw [lookup_erase_ne h, if_neg h]

variable {entries : List (K × V)} {k : K} {v : V}

theorem len_insert (t : Table K V) (v : V) (hk : t.lookup k = none) : (t.insert k v).len = t.len + 1 := by
  have hkeys : (t.insert k v).keys = Insert.insert k t.keys := by
    ext k'
    rw [Finset.mem_insert, mem_keys, mem_insert, mem_keys]
  rw [len, hkeys, Finset.card_insert_of_notMem]
  · rfl
  · rw [mem_keys]
    exact lookup_eq_none.mp hk

theorem insert_of_lookup_eq_some (t : Table K V) (h : t.lookup k = some v) : t.insert k v = t := by
  refine ext_lookup fun k' => ?_
  rw [lookup_insert_ite]
  split
  · next hk => rw [hk, h]
  · rfl

theorem mapValues_erase {W : Type*} (f : K → V → W) (t : Table K V) (k : K) :
    (t.erase k).mapValues f = (t.mapValues f).erase k := by
  refine ext_lookup fun k' => ?_
  rw [lookup_mapValues, lookup_erase_ite, lookup_erase_ite, lookup_mapValues]
  split <;> rfl

theorem len_insert_of_lookup (t : Table K V) (v : V) (hk : (t.lookup k).isSome) :
    (t.insert k v).len = t.len := by
  have hkeys : (t.insert k v).keys = t.keys := by
    ext k'
    rw [mem_keys, mem_insert, mem_keys]
    refine or_iff_right_of_imp ?_
    rintro rfl
    exact lookup_isSome.mp hk
  rw [len, hkeys]
  rfl

/-- Removes the keys one after another. -/
def eraseAll (t : Table K V) (ks : List K) : Table K V := ks.foldl (fun t k => t.erase k) t

theorem eraseAll_append (t : Table K V) (ks ks' : List K) :
    t.eraseAll (ks ++ ks') = (t.eraseAll ks).eraseAll ks' :=
  foldl_append

theorem lookup_eraseAll (t : Table K V) (ks : List K) (k : K) :
    (t.eraseAll ks).lookup k = if k ∈ ks then none else t.lookup k := by
  induction ks generalizing t with
  | nil => simp [eraseAll]
  | cons k' ks ih =>
    show (eraseAll (t.erase k') ks).lookup k = _
    rw [ih, lookup_erase_ite]
    by_cases hmem : k ∈ ks
    · simp [hmem]
    · by_cases heq : k = k'
      · simp [heq]
      · simp [hmem, heq]

theorem lookup_retain (p : K → V → Bool) (t : Table K V) (k : K) :
    (t.retain p).lookup k = (t.lookup k).filter (p k) := by
  refine Option.ext fun v => ?_
  rw [Option.filter_eq_some_iff, lookup_eq_some_iff, lookup_eq_some_iff]
  exact Multiset.mem_filter

theorem retain_insert (p : K → Bool) (t : Table K V) (k : K) (v : V) :
    (t.insert k v).retain (fun k _ => p k) =
      if p k then (t.retain fun k _ => p k).insert k v else t.retain fun k _ => p k := by
  refine ext_lookup fun k' => ?_
  by_cases hp : p k
  · rw [if_pos hp, lookup_retain, lookup_insert_ite, lookup_insert_ite, lookup_retain]
    split
    · next heq => rw [heq, Option.filter_some, if_pos hp]
    · rfl
  · rw [if_neg hp, lookup_retain, lookup_insert_ite, lookup_retain]
    split
    · next heq =>
      subst heq
      cases t.lookup k' <;> simp [hp]
    · rfl

/-- The table of the entries of a list; of two entries with the same key it has the later one. -/
def fromList (entries : List (K × V)) : Table K V := entries.foldl (fun t e => t.insert e.1 e.2) ∅

theorem lookup_foldl_insert_of_notMem (h : k ∉ entries.map fst) (t : Table K V) :
    (entries.foldl (fun t e => t.insert e.1 e.2) t).lookup k = t.lookup k := by
  induction entries generalizing t with
  | nil => rfl
  | cons e entries ih =>
    rw [map_cons, mem_cons, not_or] at h
    rw [foldl_cons, ih h.2, lookup_insert_ite, if_neg h.1]

theorem lookup_fromList_of_mem (hnodup : (entries.map fst).Nodup) (h : (k, v) ∈ entries) :
    (fromList entries).lookup k = some v := by
  obtain ⟨before, after, rfl⟩ := append_of_mem h
  rw [map_append, map_cons] at hnodup
  have hafter : k ∉ after.map fst := (nodup_cons.mp hnodup.of_append_right).1
  rw [fromList, foldl_append, foldl_cons, lookup_foldl_insert_of_notMem hafter, lookup_insert]

theorem fromList_concat (entries : List (K × V)) (e : K × V) :
    fromList (entries ++ [e]) = (fromList entries).insert e.1 e.2 :=
  foldl_concat ..

theorem mem_of_lookup_fromList (h : (fromList entries).lookup k = some v) : (k, v) ∈ entries := by
  induction entries using List.reverseRecOn with
  | nil => cases h
  | append_singleton entries e ih =>
    rw [fromList_concat, lookup_insert_ite] at h
    rw [List.mem_append, List.mem_singleton]
    split at h
    · next heq =>
      subst heq
      exact .inr (Prod.ext rfl (some.inj h).symm)
    · exact .inl (ih h)

theorem mem_fromList : k ∈ fromList entries ↔ k ∈ entries.map fst := by
  induction entries using List.reverseRecOn with
  | nil => exact iff_of_false (notMem_empty) nofun
  | append_singleton entries e ih =>
    rw [fromList_concat, mem_insert, ih, List.map_append, List.mem_append, List.map_singleton,
      List.mem_singleton, or_comm]

theorem len_fromList (hnodup : (entries.map fst).Nodup) : (fromList entries).len = entries.length := by
  have hkeys : (fromList entries).keys = (entries.map fst).toFinset := by
    ext k
    rw [mem_keys, mem_fromList, List.mem_toFinset]
  rw [len, hkeys, List.toFinset_card_of_nodup hnodup, List.length_map]

/-- Takes the values of the keys out of the table, one after another. -/
def takeAll (t : Table K V) : List K → Option (List V)
  | [] => some []
  | k :: ks =>
    match t.lookup k with
    | some v => ((t.erase k).takeAll ks).map (v :: ·)
    | none => none

theorem takeAll_eq_some {t : Table K V} {ks : List K} {vs : List V} (hnodup : ks.Nodup)
    (h : Forall₂ (fun k v => t.lookup k = some v) ks vs) : t.takeAll ks = some vs := by
  induction ks generalizing t vs with
  | nil =>
    rw [forall₂_nil_left_iff.mp h]
    rfl
  | cons k ks ih =>
    obtain ⟨v, vs, hv, hvs, rfl⟩ := forall₂_cons_left_iff.mp h
    obtain ⟨hnotMem, hnodup⟩ := nodup_cons.mp hnodup
    have hrest : Forall₂ (fun k' v => (t.erase k).lookup k' = some v) ks vs := by
      rw [forall₂_iff_zip] at hvs ⊢
      refine ⟨hvs.1, fun {k' v'} hmem => ?_⟩
      have hne : k' ≠ k := fun heq => hnotMem (heq ▸ (of_mem_zip hmem).1)
      rw [lookup_erase_ite, if_neg hne, hvs.2 hmem]
    rw [takeAll, hv]
    simp only [ih hnodup hrest, map_some]

theorem takeAll_eq_some_iff {t : Table K V} {ks : List K} {vs : List V} :
    t.takeAll ks = some vs ↔ ks.Nodup ∧ Forall₂ (fun k v => t.lookup k = some v) ks vs := by
  refine ⟨fun h => ?_, fun h => takeAll_eq_some h.1 h.2⟩
  induction ks generalizing t vs with
  | nil =>
    cases h
    exact ⟨.nil, .nil⟩
  | cons k ks ih =>
    rw [takeAll] at h
    cases hv : t.lookup k with
    | none =>
      rw [hv] at h
      cases h
    | some v =>
      rw [hv] at h
      obtain ⟨vs, hvs, rfl⟩ := map_eq_some_iff.mp h
      obtain ⟨hnodup, hrest⟩ := ih hvs
      have hlookup : Forall₂ (fun k' v' => k' ≠ k ∧ t.lookup k' = some v') ks vs := by
        refine hrest.imp fun k' v' h' => ?_
        rw [lookup_erase_ite] at h'
        split at h'
        · cases h'
        · next hne => exact ⟨hne, h'⟩
      obtain ⟨hne, hlookup⟩ := (forall₂_and_left _ _).mp hlookup
      exact ⟨nodup_cons.mpr ⟨fun hmem => hne k hmem rfl, hnodup⟩, .cons hv hlookup⟩

end Finmap
