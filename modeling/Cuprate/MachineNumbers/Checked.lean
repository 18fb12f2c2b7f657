import Cuprate.Collections.Result

/-!
# Checked arithmetic

Unsigned machine arithmetic with every operation checked: `none` stands for a result that the width
does not hold, a difference below zero or a division by zero.
-/

namespace Cuprate.MachineNumbers

open Collections

/-- A number that has to fit in `w` bits. -/
def narrow (w a : Nat) : Option Nat := if a < 2 ^ w then some a else none

def checkedAdd (w a b : Nat) : Option Nat := narrow w (a + b)

def checkedMul (w a b : Nat) : Option Nat := narrow w (a * b)

def checkedSub (a b : Nat) : Option Nat := if b ≤ a then some (a - b) else none

def checkedDiv (a b : Nat) : Option Nat := if b = 0 then none else some (a / b)

variable {w a b c : Nat}

theorem narrow_of_lt (h : a < 2 ^ w) : narrow w a = some a := if_pos h

theorem narrow_eq_some : narrow w a = some c ↔ a < 2 ^ w ∧ a = c := by
  unfold narrow
  split
  · next h => exact ⟨fun hc => ⟨h, Option.some.inj hc⟩, fun hc => congrArg some hc.2⟩
  · next h => exact ⟨nofun, fun hc => absurd hc.1 h⟩

theorem checkedAdd_of_lt (h : a + b < 2 ^ w) : checkedAdd w a b = some (a + b) := narrow_of_lt h

theorem checkedMul_of_lt (h : a * b < 2 ^ w) : checkedMul w a b = some (a * b) := narrow_of_lt h

theorem checkedSub_of_le (h : b ≤ a) : checkedSub a b = some (a - b) := if_pos h

theorem checkedSub_eq_some : checkedSub a b = some c ↔ b ≤ a ∧ a - b = c := by
  unfold checkedSub
  split
  · next h => exact ⟨fun hc => ⟨h, Option.some.inj hc⟩, fun hc => congrArg some hc.2⟩
  · next h => exact ⟨nofun, fun hc => absurd hc.1 h⟩

theorem checkedDiv_of_pos (h : 0 < b) : checkedDiv a b = some (a / b) := if_neg h.ne'

section Sums

variable {α ε : Type}

theorem foldlM_add {f : UInt64 → α → Except ε UInt64} (amount : α → Nat)
    (hstep : ∀ sum x next, f sum x = .ok next → next.toNat = sum.toNat + amount x)
      {l : List α} {sum total : UInt64}
    (h : l.foldlM f sum = .ok total) : total.toNat = sum.toNat + (l.map amount).sum := by
  induction l generalizing sum with
  | nil =>
    cases h
    rfl
  | cons x l ih =>
    obtain ⟨next, hnext, h⟩ := bind_eq_ok.mp h
    rw [ih h, hstep _ _ _ hnext, List.map_cons, List.sum_cons, Nat.add_assoc]

theorem foldlM_of_foldlM {β : Type} {f g : β → α → Except ε β}
    (hstep : ∀ acc x next, f acc x = .ok next → g acc x = .ok next) {l : List α} {acc result : β}
    (h : l.foldlM f acc = .ok result) : l.foldlM g acc = .ok result := by
  induction l generalizing acc with
  | nil => exact h
  | cons x l ih =>
    obtain ⟨next, hnext, h⟩ := bind_eq_ok.mp h
    exact bind_eq_ok.mpr ⟨next, hstep _ _ _ hnext, ih h⟩

end Sums

end Cuprate.MachineNumbers
