import Cuprate.Collections.Table

/-!
# Timers

A delay queue is a table of pending timers. A timer is known by its key, and a key can be used again
once its timer has fired or was removed. Whoever starts timers remembers the key of each, to be able
to remove it.
-/

namespace Cuprate.Collections

open Finmap Finset

variable {K V : Type*} [DecidableEq K]

/-- `keyOf` remembers exactly the pending timers: each value has at most one, and its key is the one
remembered. -/
def Tracks (keyOf : V → Option K) (timers : Table K V) : Prop :=
  ∀ v k, keyOf v = some k ↔ timers.lookup k = some v

namespace Tracks

variable {keyOf keyOf' : V → Option K} {timers : Table K V} {v : V} {k : K}

theorem empty : Tracks (fun _ => none) (∅ : Table K V) := by
  intro v k
  rw [lookup_empty]
  exact ⟨nofun, nofun⟩

section
variable (h : Tracks keyOf timers)
include h

theorem lookup (hv : keyOf v = some k) : timers.lookup k = some v := (h v k).mp hv

theorem insert [DecidableEq V] (hfresh : timers.lookup k = none) (hv : keyOf v = none)
    (hkeyOf : ∀ v', keyOf' v' = if v' = v then some k else keyOf v') :
      Tracks keyOf' (timers.insert k v) := by
  intro v' k'
  rw [hkeyOf, lookup_insert_ite]
  by_cases hv' : v' = v
  · subst hv'
    rw [if_pos rfl]
    by_cases hk : k' = k
    · rw [hk, if_pos rfl]
      simp
    · rw [if_neg hk, ← h v' k', hv]
      simp [Ne.symm hk]
  · rw [if_neg hv']
    by_cases hk : k' = k
    · rw [hk, if_pos rfl, h v' k, hfresh]
      simp [Ne.symm hv']
    · rw [if_neg hk]
      exact h v' k'

theorem erase [DecidableEq V] (hv : keyOf v = some k)
    (hkeyOf : ∀ v', keyOf' v' = if v' = v then none else keyOf v') : Tracks keyOf' (timers.erase k) := by
  intro v' k'
  rw [hkeyOf, lookup_erase_ite]
  by_cases hv' : v' = v
  · subst hv'
    rw [if_pos rfl]
    by_cases hk : k' = k
    · rw [if_pos hk]
      simp
    · rw [if_neg hk, ← h v' k', hv]
      simp [Ne.symm hk]
  · rw [if_neg hv']
    by_cases hk : k' = k
    · rw [hk, if_pos rfl, h v' k, h.lookup hv]
      simp [Ne.symm hv']
    · rw [if_neg hk]
      exact h v' k'

theorem lookup_erase_of_ne (hv : keyOf v = some k) {v' : V} {k' : K} (hne : v' ≠ v)
    (hk' : timers.lookup k' = some v') : (timers.erase k).lookup k' = some v' := by
  rw [lookup_erase_ite, if_neg]
  · exact hk'
  · rintro rfl
    rw [h.lookup hv] at hk'
    exact hne (Option.some.inj hk').symm

theorem congr (hkeyOf : ∀ v', keyOf' v' = keyOf v') : Tracks keyOf' timers := by
  intro v' k'
  rw [hkeyOf]
  exact h v' k'

end

end Tracks

theorem len_le_of_pending {W : Type*} [DecidableEq V] (timers : Table K V) (table : Table V W)
    (h : ∀ v, (table.lookup v).isSome → ∃ k, timers.lookup k = some v) : table.len ≤ timers.len := by
  have hsubset : table.keys.image some ⊆ timers.keys.image fun k => timers.lookup k := by
    intro v hv
    obtain ⟨v, hmem, rfl⟩ := mem_image.mp hv
    obtain ⟨k, hk⟩ := h v (lookup_isSome.mpr (mem_keys.mp hmem))
    refine mem_image.mpr ⟨k, ?_, hk⟩
    rw [mem_keys, ← lookup_isSome, hk]
    rfl
  calc table.len = (table.keys.image some).card :=
    (card_image_of_injective _ (Option.some_injective V)).symm
    _ ≤ (timers.keys.image fun k => timers.lookup k).card := card_le_card hsubset
    _ ≤ timers.len := card_image_le

end Cuprate.Collections
