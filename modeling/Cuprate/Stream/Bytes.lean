import Mathlib.Tactic

/-!
# Numbers and characters in bytes

Fixed-width little-endian encodings of natural numbers, as the `get_*_le` and `put_*_le` functions
of a byte buffer read and write them, and which bytes are UTF-8.
-/

namespace Cuprate.Stream

/-- The `w` low bytes of `n`, least significant first. -/
def leBytes : Nat → Nat → List UInt8
  | 0, _ => []
  | w + 1, n => UInt8.ofNat n :: leBytes w (n / 256)

/-- The number that bytes give, the lowest first. -/
def leValue : List UInt8 → Nat
  | [] => 0
  | b :: bs => b.toNat + 256 * leValue bs

@[simp] theorem length_leBytes (w n : Nat) : (leBytes w n).length = w := by
  induction w generalizing n with
  | zero => rfl
  | succ w ih => simp [leBytes, ih]

theorem leValue_leBytes {w n : Nat} (h : n < 256 ^ w) : leValue (leBytes w n) = n := by
  induction w generalizing n with
  | zero =>
    have hn : n = 0 := by simpa using h
    simp [hn, leBytes, leValue]
  | succ w ih =>
    have hd : n / 256 < 256 ^ w := Nat.div_lt_of_lt_mul (by rw [pow_succ'] at h; exact h)
    simp only [leBytes, leValue, ih hd, UInt8.toNat_ofNat']
    omega

theorem leValue_lt (l : List UInt8) : leValue l < 256 ^ l.length := by
  induction l with
  | nil => simp [leValue]
  | cons b l ih =>
    have hb : b.toNat < 256 := b.toNat_lt
    rw [leValue, List.length_cons, pow_succ]
    omega

theorem leBytes_leValue (l : List UInt8) : leBytes l.length (leValue l) = l := by
  induction l with
  | nil => rfl
  | cons b l ih =>
    have hb : b.toNat < 256 := b.toNat_lt
    have hlow : UInt8.ofNat (b.toNat + 256 * leValue l) = b := by
      apply UInt8.toNat_inj.mp
      rw [UInt8.toNat_ofNat']
      omega
    have hhigh : (b.toNat + 256 * leValue l) / 256 = leValue l := by omega
    rw [leValue, List.length_cons, leBytes, hlow, hhigh, ih]

def isContinuation (b : UInt8) : Bool := 0x80 ≤ b && b ≤ 0xBF

def isSecondOfThree (first second : UInt8) : Bool :=
  if first = 0xE0 then 0xA0 ≤ second && second ≤ 0xBF
  else if first = 0xED then 0x80 ≤ second && second ≤ 0x9F
  else isContinuation second

def isSecondOfFour (first second : UInt8) : Bool :=
  if first = 0xF0 then 0x90 ≤ second && second ≤ 0xBF
  else if first = 0xF4 then 0x80 ≤ second && second ≤ 0x8F
  else isContinuation second

/-- Whether the bytes are valid UTF-8. -/
def isUtf8 : List UInt8 → Bool
  | [] => true
  | b :: s =>
    if b < 0x80 then isUtf8 s
    else if 0xC2 ≤ b && b ≤ 0xDF then
      match s with
      | c :: s => isContinuation c && isUtf8 s
      | _ => false
    else if 0xE0 ≤ b && b ≤ 0xEF then
      match s with
      | c :: d :: s => isSecondOfThree b c && isContinuation d && isUtf8 s
      | _ => false
    else if 0xF0 ≤ b && b ≤ 0xF4 then
      match s with
      | c :: d :: e :: s => isSecondOfFour b c && isContinuation d && isContinuation e && isUtf8 s
      | _ => false
    else false

theorem isUtf8_of_ascii {s : List UInt8} (h : ∀ b ∈ s, b < 0x80) : isUtf8 s = true := by
  induction s with
  | nil => rfl
  | cons b s ih =>
    obtain ⟨hb, hs⟩ := List.forall_mem_cons.mp h
    unfold isUtf8
    rw [if_pos hb, ih hs]

def asciiBytes (s : String) : List UInt8 := s.toList.map fun c => UInt8.ofNat c.toNat

end Cuprate.Stream
