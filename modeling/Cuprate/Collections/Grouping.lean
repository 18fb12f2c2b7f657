import Cuprate.Collections.Table

/-!
# Groups of a set by a key

A table that groups the elements of a set by a key, without empty groups. An element is added to the
group of its key, and a group is dropped with its last element.
-/

namespace Cuprate.Collections

open Option Finset

variable {α K : Type*}

/-- Every element of `s` is in the group of its key. -/
def Covers [DecidableEq K] (key : α → K) (s : α → Prop) (t : Table K (Finset α)) : Prop :=
  ∀ a, s a → ∃ group, t.lookup (key a) = some group ∧ a ∈ group

/-- The groups are not empty, and they are the elements of `s` with their keys. -/
structure Groups [DecidableEq K] (key : α → K) (s : α → Prop) (t : Table K (Finset α)) : Prop where
  covers : Covers key s t
  nonempty : ∀ {k group}, t.lookup k = some group → group.Nonempty
  mem : ∀ {k group a}, t.lookup k = some group → a ∈ group → key a = k ∧ s a

variable [DecidableEq α] [DecidableEq K]

/-- Adds an element to its group. -/
def groupInsert (key : α → K) (t : Table K (Finset α)) (a : α) : Table K (Finset α) :=
  t.insert (key a) (insert a ((t.lookup (key a)).getD ∅))

/-- Removes an element from its group, and the group if it becomes empty. -/
def groupErase (key : α → K) (t : Table K (Finset α)) (group : Finset α) (a : α) : Table K (Finset α) :=
  if group.erase a = ∅ then t.erase (key a) else t.insert (key a) (group.erase a)

variable {key : α → K} {s s' : α → Prop} {t : Table K (Finset α)} {a : α} {group : Finset α}

omit [DecidableEq α] in
theorem Groups.congr (h : Groups key s t) (hs : ∀ a, s a ↔ s' a) : Groups key s' t where
  covers a ha := h.covers a ((hs a).mpr ha)
  nonempty := h.nonempty
  mem hlookup ha := ⟨(h.mem hlookup ha).1, (hs _).mp (h.mem hlookup ha).2⟩

omit [DecidableEq α] in
theorem groups_empty (hs : ∀ a, ¬ s a) : Groups key s (∅ : Table K (Finset α)) where
  covers a ha := absurd ha (hs a)
  nonempty h := by cases h
  mem h := by cases h

theorem lookup_groupInsert (k : K) : (groupInsert key t a).lookup k =
    if k = key a then some (insert a ((t.lookup (key a)).getD ∅)) else t.lookup k :=
  Finmap.lookup_insert_ite _ _ _ _

theorem lookup_groupErase (k : K) : (groupErase key t group a).lookup k =
    if k = key a then (if group.erase a = ∅ then none else some (group.erase a)) else t.lookup k := by
  unfold groupErase
  split
  · rw [Finmap.lookup_erase_ite]
  · rw [Finmap.lookup_insert_ite]

theorem Covers.insert (h : Covers key s t) : Covers key (fun x => x = a ∨ s x) (groupInsert key t a) := by
  intro x hx
  rw [lookup_groupInsert]
  rcases hx with rfl | hx
  · rw [if_pos rfl]
    exact ⟨_, rfl, mem_insert_self _ _⟩
  · obtain ⟨group, hlookup, hmem⟩ := h x hx
    split
    · next hkey =>
      rw [← hkey, hlookup]
      exact ⟨_, rfl, mem_insert_of_mem hmem⟩
    · exact ⟨group, hlookup, hmem⟩

theorem Groups.insert (h : Groups key s t) : Groups key (fun x => x = a ∨ s x) (groupInsert key t a) where
  covers := h.covers.insert
  nonempty {k group} hlookup := by
    rw [lookup_groupInsert] at hlookup
    split at hlookup
    · cases hlookup
      exact insert_nonempty _ _
    · exact h.nonempty hlookup
  mem {k group x} hlookup hx := by
    rw [lookup_groupInsert] at hlookup
    split at hlookup
    · next hkey =>
      cases hlookup
      rcases mem_insert.mp hx with rfl | hx
      · exact ⟨hkey.symm, .inl rfl⟩
      · cases hold : t.lookup (key a) with
        | none => simp [hold] at hx
        | some group =>
          rw [hold, getD_some] at hx
          obtain ⟨hkey', hsx⟩ := h.mem hold hx
          exact ⟨hkey'.trans hkey.symm, .inr hsx⟩
    · obtain ⟨hkey, hsx⟩ := h.mem hlookup hx
      exact ⟨hkey, .inr hsx⟩

theorem Covers.erase (h : Covers key s t) (hlookup : t.lookup (key a) = some group) :
    Covers key (fun x => x ≠ a ∧ s x) (groupErase key t group a) := by
  rintro x ⟨hne, hx⟩
  obtain ⟨group', hlookup', hmem⟩ := h x hx
  rw [lookup_groupErase]
  split
  · next hkey =>
    rw [hkey, hlookup] at hlookup'
    cases hlookup'
    have hrest : x ∈ group.erase a := mem_erase.mpr ⟨hne, hmem⟩
    rw [if_neg (ne_empty_of_mem hrest)]
    exact ⟨_, rfl, hrest⟩
  · exact ⟨group', hlookup', hmem⟩

theorem Groups.erase (h : Groups key s t) (hlookup : t.lookup (key a) = some group) :
    Groups key (fun x => x ≠ a ∧ s x) (groupErase key t group a) where
  covers := h.covers.erase hlookup
  nonempty {k group'} hlookup' := by
    rw [lookup_groupErase] at hlookup'
    split at hlookup'
    · split at hlookup'
      · cases hlookup'
      · next hne =>
        cases hlookup'
        exact nonempty_iff_ne_empty.mpr hne
    · exact h.nonempty hlookup'
  mem {k group' x} hlookup' hx := by
    rw [lookup_groupErase] at hlookup'
    split at hlookup'
    · next hkey =>
      split at hlookup'
      · cases hlookup'
      · cases hlookup'
        obtain ⟨hne, hx⟩ := mem_erase.mp hx
        obtain ⟨hkey', hsx⟩ := h.mem hlookup hx
        exact ⟨hkey'.trans hkey.symm, hne, hsx⟩
    · next hkey =>
      obtain ⟨hkey', hsx⟩ := h.mem hlookup' hx
      refine ⟨hkey', ?_, hsx⟩
      rintro rfl
      exact hkey hkey'.symm

end Cuprate.Collections
