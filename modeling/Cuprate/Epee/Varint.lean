import Cuprate.Stream.Bytes
import Cuprate.Stream.Reader

/-!
# Epee varints

The errors of the epee format and its numbers of variable size
(`net/epee-encoding/src/{error,io,varint}.rs`). A varint takes 1, 2, 4 or 8 bytes; the two low bits
of the first byte say which. The buffer that is written to grows, so that writing never fails.
-/

namespace Cuprate.Epee

open Cuprate.Stream Reader

/-- The errors of the format. -/
inductive Error where
  | io (msg : String)
  | format (msg : String)
  | value (msg : String)
deriving DecidableEq, Repr

/-- A reader of bytes. -/
abbrev Read (α : Type) := Reader UInt8 Error α

/-- Reads bytes if there are enough. -/
def checkedRead (size : Nat) : Read (List UInt8) :=
  .take size (.io "Not enough bytes in buffer to build object.")

def checkedReadU8 : Read UInt8 := .next (.io "Not enough bytes in buffer to build object.")

/-- The numbers of the types that varints are read as are below these bounds. -/
def U64_BOUND : Nat := 2 ^ 64
def I32_BOUND : Nat := 2 ^ 31

/-- Reads a number below the bound. -/
def readVarint (bound : Nat) : Read Nat := do
  let viStart ← .next (.io "Not enough bytes to build VarInt")
  let len := 2 ^ (viStart.toNat % 4)
  let bytes ← .take (len - 1) (.io "Not enough bytes to build VarInt")
  let vi := viStart.toNat / 4 + 2 ^ 6 * leValue bytes
  if vi < bound then pure vi else .fail (.io "VarInt is too big")

def FITS_IN_ONE_BYTE : Nat := 2 ^ 6 - 1
def FITS_IN_TWO_BYTES : Nat := 2 ^ 14 - 1
def FITS_IN_FOUR_BYTES : Nat := 2 ^ 30 - 1

/-- The two bits that give the number of bytes. -/
def sizeMarker (number : Nat) : Nat :=
  if number ≤ FITS_IN_ONE_BYTE then 0
  else if number ≤ FITS_IN_TWO_BYTES then 1
  else if number ≤ FITS_IN_FOUR_BYTES then 2
  else 3

/-- The bytes of a number as a varint. The two high bits of a number that needs all 64 are lost. -/
def writeVarint (number : Nat) : List UInt8 :=
  leBytes (2 ^ sizeMarker number) (4 * number + sizeMarker number)

/-- The bytes are a varint of the number, in any of the sizes that fit it. -/
def IsVarint (number : Nat) (bytes : List UInt8) : Prop :=
  ∃ marker < 4, 4 * number + marker < 256 ^ 2 ^ marker ∧ bytes = leBytes (2 ^ marker) (4 * number + marker)

variable {number : Nat} {bytes : List UInt8}

theorem isVarint_writeVarint (h : number < 2 ^ 62) : IsVarint number (writeVarint number) := by
  refine ⟨sizeMarker number, ?_, ?_, rfl⟩
  · unfold sizeMarker
    split_ifs <;> omega
  · unfold sizeMarker FITS_IN_ONE_BYTE FITS_IN_TWO_BYTES FITS_IN_FOUR_BYTES
    split_ifs with h₁ h₂ h₃
    · norm_num at h₁ ⊢
      omega
    · norm_num at h₂ ⊢
      omega
    · norm_num at h₃ ⊢
      omega
    · norm_num at h ⊢
      omega

theorem IsVarint.ne_nil (h : IsVarint number bytes) : bytes ≠ [] := by
  obtain ⟨marker, -, -, rfl⟩ := h
  apply List.ne_nil_of_length_pos
  rw [length_leBytes]
  exact Nat.two_pow_pos marker

theorem IsVarint.lt (h : IsVarint number bytes) : number < U64_BOUND := by
  obtain ⟨marker, hmarker, hfits, -⟩ := h
  have hle : 256 ^ 2 ^ marker ≤ 256 ^ 2 ^ 3 :=
    Nat.pow_le_pow_right (by norm_num) (Nat.pow_le_pow_right (by norm_num) (by omega))
  have hmax : (256 : Nat) ^ 2 ^ 3 = U64_BOUND := by norm_num [U64_BOUND]
  omega

/-- Varints of all sizes are read. -/
theorem reads_readVarint {bound : Nat} :
    (readVarint bound).Reads bytes number ↔ IsVarint number bytes ∧ number < bound := by
  have hcheck {x : List UInt8} {vi : Nat} : Reads (if vi < bound then pure vi
      else .fail (.io "VarInt is too big") : Read Nat) x number ↔ x = [] ∧ vi = number ∧
        number < bound := by
    split
    · next hlt =>
      rw [reads_pure]
      constructor
      · rintro ⟨rfl, rfl⟩
        exact ⟨rfl, rfl, hlt⟩
      · rintro ⟨rfl, rfl, -⟩
        exact ⟨rfl, rfl⟩
    · next hle =>
      refine iff_of_false not_reads_fail ?_
      rintro ⟨-, rfl, hlt⟩
      exact hle hlt
  unfold readVarint
  constructor
  · intro h
    obtain ⟨x₁, x, start, rfl, hstart, h⟩ := reads_bind.mp h
    obtain ⟨bytes, x₂, _, rfl, htake, h⟩ := reads_bind.mp h
    obtain rfl := reads_next.mp hstart
    obtain ⟨hlen, rfl⟩ := reads_take.mp htake
    obtain ⟨rfl, rfl, hlt⟩ := hcheck.mp h
    have hvalue : 4 * (start.toNat / 4 + 2 ^ 6 * leValue bytes) + start.toNat % 4 =
        leValue (start :: bytes) := by
      rw [leValue]
      omega
    have hlength : (start :: bytes).length = 2 ^ (start.toNat % 4) := by
      have hpos := Nat.two_pow_pos (start.toNat % 4)
      rw [List.length_cons]
      omega
    refine ⟨⟨start.toNat % 4, by omega, ?_, ?_⟩, hlt⟩
    · rw [hvalue, ← hlength]
      exact leValue_lt _
    · rw [hvalue, ← hlength, leBytes_leValue, List.append_nil]
      rfl
  · rintro ⟨⟨marker, hmarker, hfits, rfl⟩, hlt⟩
    obtain ⟨k, hk⟩ := Nat.exists_eq_succ_of_ne_zero (Nat.two_pow_pos marker).ne'
    rw [hk, pow_succ] at hfits
    have hstart : (UInt8.ofNat (4 * number + marker)).toNat = (4 * number + marker) % 256 :=
        UInt8.toNat_ofNat'
    have hlen : 2 ^ ((UInt8.ofNat (4 * number + marker)).toNat % 4) - 1 = k := by
      have hlow : (4 * number + marker) % 256 % 4 = marker := by omega
      rw [hstart, hlow, hk, Nat.succ_sub_one]
    have hvalue : leValue (leBytes k ((4 * number + marker) / 256)) = (4 * number + marker) / 256 :=
      leValue_leBytes (by omega)
    rw [hk, leBytes]
    refine (reads_next.mpr rfl : Reads _ [_] _).bind ?_
    dsimp only
    rw [hlen, ← List.append_nil (leBytes _ _)]
    refine (reads_take.mpr ⟨length_leBytes _ _, rfl⟩).bind (hcheck.mpr ⟨rfl, ?_, hlt⟩)
    rw [hvalue, hstart]
    omega

theorem readVarint_eq_error {bound : Nat} {t : List UInt8} (h : IsVarint number bytes)
    (hle : bound ≤ number) :
    (readVarint bound).run (bytes ++ t) = .error (.io "VarInt is too big") := by
  have hread : (readVarint U64_BOUND).run (bytes ++ t) = .ok (number, t) :=
      reads_readVarint.mpr ⟨h, h.lt⟩ t
  unfold readVarint at hread ⊢
  rw [run_bind] at hread ⊢
  cases hstart : (next (.io "Not enough bytes to build VarInt") : Read UInt8).run (bytes ++ t) with
  | error e =>
    rw [hstart] at hread
    cases hread
  | ok r =>
    rw [hstart] at hread
    simp only [Except.bind] at hread ⊢
    rw [run_bind] at hread ⊢
    -- what is read does not depend on the bound
    generalize (take _ _ : Read (List UInt8)).run r.2 = taken at hread ⊢
    cases taken with
    | error e => cases hread
    | ok r' =>
      simp only [Except.bind] at hread ⊢
      split at hread
      · cases hread
        rw [if_neg (not_lt.mpr hle)]
        rfl
      · cases hread

/-- Writes a varint to a buffer with room for `remaining` more bytes. -/
def writeVarintTo (remaining number : Nat) : Except Error (List UInt8) :=
  if remaining < 2 ^ sizeMarker number then .error (.io "Not enough capacity to write VarInt")
  else .ok (writeVarint number)

/-- The length is the least one of 1, 2, 4 and 8 bytes that has room for the number and for two bits
more. -/
def ShortestFor (number length : Nat) : Prop :=
  ∃ marker < 4, length = 2 ^ marker ∧ number < 2 ^ (8 * length - 2) ∧
    ∀ marker' < 4, number < 2 ^ (8 * 2 ^ marker' - 2) → length ≤ 2 ^ marker'

theorem shortestFor_sizeMarker (h : number < 2 ^ 62) : ShortestFor number (2 ^ sizeMarker number) := by
  -- a shorter width has no room
  have hleast {marker : Nat} (hle : ∀ marker' < marker, 2 ^ (8 * 2 ^ marker' - 2) ≤ number) (marker' : Nat)
      (hlt : number < 2 ^ (8 * 2 ^ marker' - 2)) : 2 ^ marker ≤ 2 ^ marker' := by
    refine Nat.pow_le_pow_right (by decide) (not_lt.mp fun hmarker => ?_)
    exact absurd hlt (not_lt.mpr (hle marker' hmarker))
  unfold sizeMarker FITS_IN_ONE_BYTE FITS_IN_TWO_BYTES FITS_IN_FOUR_BYTES
  split_ifs with h₁ h₂ h₃
  · exact ⟨0, by decide, rfl, by omega, fun marker' _ => hleast (fun k hk => by omega) marker'⟩
  · refine ⟨1, by decide, rfl, by omega, fun marker' _ => hleast (fun k hk => ?_) marker'⟩
    interval_cases k
    omega
  · refine ⟨2, by decide, rfl, by omega, fun marker' _ => hleast (fun k hk => ?_) marker'⟩
    interval_cases k <;> omega
  · refine ⟨3, by decide, rfl, by omega, fun marker' _ => hleast (fun k hk => ?_) marker'⟩
    interval_cases k <;> omega

theorem sizeMarker_of_le (h : 2 ^ 62 ≤ number) : sizeMarker number = 3 := by
  unfold sizeMarker FITS_IN_ONE_BYTE FITS_IN_TWO_BYTES FITS_IN_FOUR_BYTES
  rw [if_neg (by omega), if_neg (by omega), if_neg (by omega)]

/-- A number is not written, or is read back whatever follows it and takes the shortest width,
exactly when it has at most 62 bits or there is no room for the longest width. -/
theorem writeVarintTo_reads_iff (remaining : Nat) {number : Nat} (h : number < U64_BOUND) :
    ((∃ e, writeVarintTo remaining number = .error e) ∨
      ∃ bytes, writeVarintTo remaining number = .ok bytes ∧
        (∀ t, (readVarint U64_BOUND).run (bytes ++ t) = .ok (number, t)) ∧
          ShortestFor number bytes.length) ↔ number < 2 ^ 62 ∨ remaining < 8 := by
  unfold writeVarintTo
  by_cases hroom : remaining < 2 ^ sizeMarker number
  · rw [if_pos hroom]
    refine iff_of_true (.inl ⟨_, rfl⟩) ?_
    by_cases hlt : number < 2 ^ 62
    · exact .inl hlt
    · rw [sizeMarker_of_le (not_lt.mp hlt)] at hroom
      exact .inr hroom
  · rw [if_neg hroom]
    constructor
    · rintro (⟨e, he⟩ | ⟨bytes, hbytes, hread, -⟩)
      · cases he
      · -- no varint has room for a longer number
        obtain ⟨⟨marker, hmarker, hfits, -⟩, -⟩ := reads_readVarint.mp hread
        have hle : 256 ^ 2 ^ marker ≤ 256 ^ 2 ^ 3 :=
          Nat.pow_le_pow_right (by norm_num) (Nat.pow_le_pow_right (by norm_num) (by omega))
        left
        omega
    · intro hor
      have hlt : number < 2 ^ 62 := by
        by_contra hge
        rw [sizeMarker_of_le (not_lt.mp hge)] at hroom
        omega
      refine .inr ⟨_, rfl, reads_readVarint.mpr ⟨isVarint_writeVarint hlt, h⟩, ?_⟩
      rw [writeVarint, length_leBytes]
      exact shortestFor_sizeMarker hlt

theorem writeVarintTo_reads_63 :
    (∃ e, writeVarintTo 1 63 = .error e) ∨ ∃ bytes, writeVarintTo 1 63 = .ok bytes ∧
      (∀ t, (readVarint U64_BOUND).run (bytes ++ t) = .ok (63, t)) ∧ ShortestFor 63 bytes.length :=
  (writeVarintTo_reads_iff 1 (by decide)).mpr (.inl (by decide))

/-- The first number of 63 bits is written without an error and read as zero. -/
theorem writeVarintTo_loses_bits : writeVarintTo 8 (2 ^ 62) = .ok [3, 0, 0, 0, 0, 0, 0, 0] ∧
    (readVarint U64_BOUND).run [3, 0, 0, 0, 0, 0, 0, 0] = .ok (0, []) := by
  decide

end Cuprate.Epee
