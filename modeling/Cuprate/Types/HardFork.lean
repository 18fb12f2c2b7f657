import Mathlib.Tactic

/-!
# Hard forks

The identifiers of the hard forks (`types/types/src/hard_fork.rs`) and the headers the caches of the
blockchain context read from the database.
-/

namespace Cuprate

/-- An identifier for every hard fork Monero has had. -/
inductive HardFork where
  | V1 | V2 | V3 | V4 | V5 | V6 | V7 | V8 | V9 | V10 | V11 | V12 | V13 | V14 | V15 | V16
deriving DecidableEq, Repr

/-- Why a version or a vote is invalid. -/
inductive HardForkError where
  | hardForkUnknown
  | versionIncorrect
  | voteTooLow
deriving DecidableEq, Repr

namespace HardFork

def variants : List HardFork :=
  [V1, V2, V3, V4, V5, V6, V7, V8, V9, V10, V11, V12, V13, V14, V15, V16]

/-- The raw hard-fork value, as it appears in a block header. -/
def asU8 : HardFork → Nat
  | V1 => 1 | V2 => 2 | V3 => 3 | V4 => 4 | V5 => 5 | V6 => 6 | V7 => 7 | V8 => 8
  | V9 => 9 | V10 => 10 | V11 => 11 | V12 => 12 | V13 => 13 | V14 => 14 | V15 => 15 | V16 => 16

instance : LE HardFork := ⟨fun a b => a.asU8 ≤ b.asU8⟩
instance : LT HardFork := ⟨fun a b => a.asU8 < b.asU8⟩
instance (a b : HardFork) : Decidable (a ≤ b) := inferInstanceAs (Decidable (a.asU8 ≤ b.asU8))
instance (a b : HardFork) : Decidable (a < b) := inferInstanceAs (Decidable (a.asU8 < b.asU8))

def LATEST : HardFork := V16

/-- The hard fork of a version. -/
def fromVersion (version : Nat) : Except HardForkError HardFork :=
  match variants.find? (fun hf => hf.asU8 == version) with
  | some hf => .ok hf
  | none => .error .hardForkUnknown

/-- The hard fork of a block's vote field: 0 is read as 1, and an unknown vote as the latest
fork. -/
def fromVote (vote : Nat) : HardFork :=
  if vote = 0 then V1
  else match fromVersion vote with
    | .ok hf => hf
    | .error _ => LATEST

/-- The hard fork after this one. -/
def nextFork (hf : HardFork) : Option HardFork := (fromVersion (hf.asU8 + 1)).toOption

/-- Seconds between two blocks. -/
def blockTime : HardFork → Nat
  | V1 => 60
  | _ => 120

theorem fromVersion_asU8 (hf : HardFork) : fromVersion hf.asU8 = .ok hf := by cases hf <;> rfl

theorem asU8_injective {a b : HardFork} (h : a.asU8 = b.asU8) : a = b := by
  have := fromVersion_asU8 a
  rw [h, fromVersion_asU8] at this
  exact (Except.ok.inj this).symm

end HardFork

/-- The extended header of a block (`types/types/src/types.rs`). -/
structure ExtendedBlockHeader where
  version : HardFork
  /-- The raw vote field. -/
  vote : Nat
  timestamp : UInt64
  cumulativeDifficulty : Nat
  blockWeight : Nat
  longTermWeight : Nat
deriving DecidableEq, Repr

end Cuprate
