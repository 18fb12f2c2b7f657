import Cuprate.Epee.Format

/-!
# Skipping values

`skip_epee_value` consumes exactly the bytes of a value, as long as its sequences have fewer than `2
^ 31` entries: their number is read as an `i32`.
-/

namespace Cuprate.Epee

open Cuprate.Stream List Reader

variable {seqBound depth : Nat} {x : List UInt8}

/-! ## What is skipped -/

theorem reads_checkedRead {n : Nat} {l : List UInt8} :
    (checkedRead n).Reads x l ↔ x.length = n ∧ x = l := reads_take

theorem reads_advance {n : Nat} : (advance n).Reads x () ↔ x.length = n := by
  unfold advance
  constructor
  · intro h
    obtain ⟨x₁, x₂, l, rfl, hread, hpure⟩ := reads_bind.mp h
    obtain ⟨rfl, -⟩ := reads_pure.mp hpure
    rw [append_nil]
    exact (reads_checkedRead.mp hread).1
  · intro h
    exact (reads_checkedRead.mpr ⟨h, rfl⟩).bind_pure

theorem isBody_string : IsBody seqBound .String depth x ↔
    ∃ len bytes, x = len ++ bytes ∧ IsVarint bytes.length len := by
  constructor
  · intro h
    cases h with
    | scalar hsize => cases hsize
    | string hlen => exact ⟨_, _, rfl, hlen⟩
  · rintro ⟨len, bytes, rfl, hlen⟩
    exact .string hlen

theorem isBody_object_zero : ¬ IsBody seqBound .Object 0 x := by
  intro h
  cases h with
  | scalar hsize => cases hsize

theorem isBody_object_succ : IsBody seqBound .Object (depth + 1) x ↔
    ∃ number count bytes, x = count ++ bytes ∧ IsVarint number count ∧ number ≤ MAX_NUM_FIELDS ∧
      IsFields seqBound depth number bytes := by
  constructor
  · intro h
    cases h with
    | scalar hsize => cases hsize
    | object hcount hle hfields => exact ⟨_, _, _, rfl, hcount, hle, hfields⟩
  · rintro ⟨number, count, bytes, rfl, hcount, hle, hfields⟩
    exact .object hcount hle hfields

variable {innerMarker : InnerMarker} {number : Nat} {skipInner : Read Unit}

theorem isBody_scalar {size : Nat} (hsize : innerMarker.size = some size) :
    IsBody seqBound innerMarker depth x ↔ x.length = size := by
  constructor
  · intro h
    cases h with
    | scalar h => exact Option.some.inj (h.symm.trans hsize)
    | string => cases hsize
    | object => cases hsize
  · rintro rfl
    exact .scalar hsize

theorem isBodies_succ : IsBodies seqBound innerMarker depth (number + 1) x ↔
      ∃ bytes rest, x = bytes ++ rest ∧ IsBody seqBound innerMarker depth bytes ∧
        IsBodies seqBound innerMarker depth number rest := by
  constructor
  · intro h
    cases h with
    | cons hbody hrest => exact ⟨_, _, rfl, hbody, hrest⟩
  · rintro ⟨bytes, rest, rfl, hbody, hrest⟩
    exact .cons hbody hrest

theorem isBodies_zero : IsBodies seqBound innerMarker depth 0 x ↔ x = [] := by
  constructor
  · intro h
    cases h
    rfl
  · rintro rfl
    exact .nil

theorem isBodies_scalar {size : Nat} (hsize : innerMarker.size = some size) :
    IsBodies seqBound innerMarker depth number x ↔ x.length = size * number := by
  induction number generalizing x with
  | zero => simp [isBodies_zero]
  | succ number ih =>
    rw [isBodies_succ]
    constructor
    · rintro ⟨bytes, rest, rfl, hbody, hrest⟩
      rw [length_append, (isBody_scalar hsize).mp hbody, ih.mp hrest]
      ring
    · intro h
      have hle : size ≤ x.length := by
        rw [h]
        exact Nat.le_mul_of_pos_right _ (Nat.succ_pos _)
      refine ⟨x.take size, x.drop size, (take_append_drop _ _).symm, ?_, ?_⟩
      · exact (isBody_scalar hsize).mpr (length_take_of_le hle)
      · rw [ih, length_drop, h, Nat.mul_succ, Nat.add_sub_cancel]

section
variable (hinner : ∀ x, skipInner.Reads x () ↔ IsBody seqBound .Object depth x)
include hinner

theorem reads_skipElement (hsize : innerMarker.size = none) :
    (skipElement skipInner innerMarker).Reads x () ↔ IsBody seqBound innerMarker depth x := by
  cases innerMarker with
  | String =>
    rw [isBody_string]
    constructor
    · intro h
      obtain ⟨len, bytes, number, rfl, hlen, hadvance⟩ := reads_bind.mp h
      exact ⟨len, bytes, rfl, by rw [reads_advance.mp hadvance]; exact (reads_readVarint.mp hlen).1⟩
    · rintro ⟨len, bytes, rfl, hlen⟩
      exact (reads_readVarint.mpr ⟨hlen, hlen.lt⟩).bind (reads_advance.mpr rfl)
  | Object => exact hinner x
  | I64 | I32 | I16 | I8 | U64 | U32 | U16 | U8 | F64 | Bool => cases hsize

theorem reads_skipElements (hsize : innerMarker.size = none) :
    (Reader.iterate (fun _ => skipElement skipInner innerMarker) number ()).Reads x () ↔
      IsBodies seqBound innerMarker depth number x := by
  induction number generalizing x with
  | zero => simp [Reader.iterate, isBodies_zero]
  | succ number ih =>
    rw [Reader.iterate, reads_bind, isBodies_succ]
    constructor
    · rintro ⟨bytes, rest, ⟨⟩, rfl, hbody, hrest⟩
      exact ⟨bytes, rest, rfl, (reads_skipElement hinner hsize).mp hbody, ih.mp hrest⟩
    · rintro ⟨bytes, rest, rfl, hbody, hrest⟩
      exact ⟨bytes, rest, (), rfl, (reads_skipElement hinner hsize).mpr hbody, ih.mpr hrest⟩

end

theorem reads_readSkipped : readSkipped.Reads x (innerMarker, number) ↔
      (x = [(Marker.new innerMarker).asU8] ∧ number = 1) ∨
      ∃ count, x = Marker.asU8 ⟨innerMarker, true⟩ :: count ∧ IsVarint number count ∧
        number < I32_BOUND := by
  unfold readSkipped
  constructor
  · intro h
    obtain ⟨x₁, y, ⟨innerMarker', isSeq⟩, rfl, hmarker, h⟩ := reads_bind.mp h
    obtain ⟨x₂, x₃, number', rfl, hlen, hpure⟩ := reads_bind.mp h
    obtain rfl := reads_readMarker.mp hmarker
    obtain ⟨rfl, heq⟩ := reads_pure.mp hpure
    cases heq
    cases isSeq with
    | false =>
      obtain ⟨rfl, hone⟩ := reads_pure.mp hlen
      exact .inl ⟨rfl, hone.symm⟩
    | true =>
      rw [append_nil]
      exact .inr ⟨x₂, rfl, reads_readVarint.mp hlen⟩
  · rintro (⟨rfl, rfl⟩ | ⟨count, rfl, hcount⟩)
    · exact (reads_readMarker.mpr rfl).bind_nil (Reader.Reads.bind_pure (reads_pure.mpr ⟨rfl, rfl⟩))
    · exact (reads_readMarker.mpr rfl : Reader.Reads _ [_] _).bind (reads_readVarint.mpr hcount).bind_pure

theorem reads_skipped (hinner : ∀ x, skipInner.Reads x () ↔ IsBody seqBound .Object depth x)
    (hnumber : number < I32_BOUND) :
    Reader.Reads (match innerMarker.size with
      | some size => if U64_BOUND ≤ size * number then .fail (.value "List is too big") else advance
          (size * number)
      | none => Reader.iterate (fun _ => skipElement skipInner innerMarker) number () : Read Unit) x () ↔
      IsBodies seqBound innerMarker depth number x := by
  cases hsize : innerMarker.size with
  | none => exact reads_skipElements hinner hsize
  | some size =>
    have hle : size ≤ 8 := by cases innerMarker <;> cases hsize <;> norm_num
    have hfits : ¬ U64_BOUND ≤ size * number := by
      have hmul : size * number ≤ 8 * number := Nat.mul_le_mul_right _ hle
      unfold I32_BOUND at hnumber
      unfold U64_BOUND
      omega
    dsimp only
    rw [if_neg hfits, reads_advance, isBodies_scalar hsize]

theorem isBodies_one : IsBodies seqBound innerMarker depth 1 x ↔ IsBody seqBound innerMarker depth x := by
  rw [isBodies_succ]
  constructor
  · rintro ⟨bytes, rest, rfl, hbody, hrest⟩
    rw [isBodies_zero.mp hrest, append_nil]
    exact hbody
  · intro h
    exact ⟨x, [], (append_nil x).symm, h, .nil⟩

theorem reads_skipValueWith (hinner : ∀ x, skipInner.Reads x () ↔ IsBody I32_BOUND .Object depth x) :
    (skipValueWith skipInner).Reads x () ↔ IsValue I32_BOUND depth x := by
  unfold skipValueWith
  rw [reads_bind]
  constructor
  · rintro ⟨x₁, x₂, ⟨innerMarker, number⟩, rfl, hskipped, hrest⟩
    rcases reads_readSkipped.mp hskipped with ⟨rfl, rfl⟩ | ⟨count, rfl, hcount, hlt⟩
    · exact .one (isBodies_one.mp ((reads_skipped hinner (by norm_num [I32_BOUND])).mp hrest))
    · exact .seq hcount hlt ((reads_skipped hinner hlt).mp hrest)
  · intro h
    cases h with
    | one hbody =>
      exact ⟨[_], _, (_, 1), rfl, reads_readSkipped.mpr (.inl ⟨rfl, rfl⟩),
        (reads_skipped hinner (by norm_num [I32_BOUND])).mpr (isBodies_one.mpr hbody)⟩
    | seq hcount hlt hbodies =>
      exact ⟨_ :: _, _, (_, _), rfl, reads_readSkipped.mpr (.inr ⟨_, rfl, hcount, hlt⟩),
        (reads_skipped hinner hlt).mpr hbodies⟩

theorem reads_readHeader : readHeader.Reads x () ↔ x = HEADER := by
  unfold readHeader
  constructor
  · intro h
    obtain ⟨x₁, x₂, buf, rfl, hread, h⟩ := reads_bind.mp h
    obtain ⟨-, rfl⟩ := reads_checkedRead.mp hread
    split at h
    · next heq =>
      obtain ⟨rfl, -⟩ := reads_pure.mp h
      rw [heq, append_nil]
    · exact absurd h not_reads_fail
  · rintro rfl
    refine (reads_checkedRead.mpr ⟨rfl, rfl⟩).bind_nil ?_
    rw [if_pos rfl]
    exact reads_pure.mpr ⟨rfl, rfl⟩

theorem reads_readFieldName {name : List UInt8} :
    readFieldName.Reads x name ↔ x = writeFieldName name ∧ name.length < 256 ∧ isUtf8 name = true := by
  unfold readFieldName readFieldNameBytes checkedReadU8
  constructor
  · intro h
    obtain ⟨y, x₃, bytes, rfl, hbytes, h⟩ := reads_bind.mp h
    obtain ⟨x₁, x₂, len, rfl, hlen, hread⟩ := reads_bind.mp hbytes
    obtain rfl := reads_next.mp hlen
    obtain ⟨hlength, rfl⟩ := reads_checkedRead.mp hread
    split at h
    · next hutf8 =>
      obtain ⟨rfl, rfl⟩ := reads_pure.mp h
      have hlt : x₂.length < 256 := by
        rw [hlength]
        exact len.toNat_lt
      refine ⟨?_, hlt, hutf8⟩
      rw [writeFieldName, hlength, UInt8.ofNat_toNat, append_nil]
      rfl
    · exact absurd h not_reads_fail
  · rintro ⟨rfl, hlt, hutf8⟩
    have hlen : (UInt8.ofNat name.length).toNat = name.length := UInt8.toNat_ofNat_of_lt' hlt
    refine Reader.Reads.bind_nil ((reads_next.mpr rfl : Reader.Reads _ [_] _).bind
      (reads_checkedRead.mpr ⟨hlen.symm, rfl⟩)) ?_
    rw [if_pos hutf8]
    exact reads_pure.mpr ⟨rfl, rfl⟩

theorem reads_readNumberOfFields :
    readNumberOfFields.Reads x number ↔ IsVarint number x ∧ number ≤ MAX_NUM_FIELDS := by
  unfold readNumberOfFields
  constructor
  · intro h
    obtain ⟨x₁, x₂, number', rfl, hread, h⟩ := reads_bind.mp h
    split at h
    · exact absurd h not_reads_fail
    · next hle =>
      obtain ⟨rfl, rfl⟩ := reads_pure.mp h
      rw [append_nil]
      exact ⟨(reads_readVarint.mp hread).1, Nat.le_of_not_lt hle⟩
  · rintro ⟨hvarint, hle⟩
    refine (reads_readVarint.mpr ⟨hvarint, hvarint.lt⟩).bind_nil ?_
    rw [if_neg (Nat.not_lt.mpr hle)]
    exact reads_pure.mpr ⟨rfl, rfl⟩

section

variable {T : Type} {o : EpeeObjectBuilder T} {skip : Read Unit}

theorem reads_readField_skipped {b : o.Builder} {name value : List UInt8} (hlen : name.length < 256)
    (hname : isUtf8 name = true) (hadd : o.addField b name = pure (b, false))
      (hskip : skip.Reads value ()) :
    (readField skip o b).Reads (writeFieldName name ++ value) b := by
  refine (reads_readFieldName.mpr ⟨rfl, hlen, hname⟩).bind ?_
  rw [hadd]
  exact (reads_pure.mpr ⟨rfl, rfl⟩).nil_bind hskip.bind_pure

theorem reads_readObjectWith {value : T} :
    (readObjectWith skip o).Reads x value ↔ ∃ number count fields b, x = count ++ fields ∧
      IsVarint number count ∧ number ≤ MAX_NUM_FIELDS ∧
      (Reader.iterate (readField skip o) number o.default).Reads fields b ∧ o.finish b = .ok value := by
  unfold readObjectWith
  constructor
  · intro h
    obtain ⟨count, y, number, rfl, hcount, h⟩ := reads_bind.mp h
    obtain ⟨fields, x₃, b, rfl, hfields, h⟩ := reads_bind.mp h
    obtain ⟨hvarint, hle⟩ := reads_readNumberOfFields.mp hcount
    obtain ⟨rfl, hfinish⟩ := reads_lift.mp h
    rw [append_nil]
    exact ⟨number, count, fields, b, rfl, hvarint, hle, hfields, hfinish⟩
  · rintro ⟨number, count, fields, b, rfl, hvarint, hle, hfields, hfinish⟩
    exact (reads_readNumberOfFields.mpr ⟨hvarint, hle⟩).bind
      (hfields.bind_nil (reads_lift.mpr ⟨rfl, hfinish⟩))

end

section

variable {skip : Read Unit}

theorem reads_readField_skipObject (hskip : ∀ x, skip.Reads x () ↔ IsValue seqBound depth x) :
    (readField skip skipObject ()).Reads x () ↔ ∃ name value, x = writeFieldName name ++ value ∧
      name.length < 256 ∧ isUtf8 name = true ∧ IsValue seqBound depth value := by
  constructor
  · intro h
    obtain ⟨x₁, y, name, rfl, hname, h⟩ := reads_bind.mp h
    obtain ⟨x₂, z, added, rfl, hadd, h⟩ := reads_bind.mp h
    obtain ⟨rfl, rfl⟩ := reads_pure.mp hadd
    obtain ⟨value, x₃, ⟨⟩, rfl, hvalue, h⟩ := reads_bind.mp h
    obtain ⟨rfl, -⟩ := reads_pure.mp h
    obtain ⟨rfl, hlen, hutf8⟩ := reads_readFieldName.mp hname
    rw [nil_append, append_nil]
    exact ⟨name, value, rfl, hlen, hutf8, (hskip value).mp hvalue⟩
  · rintro ⟨name, value, rfl, hlen, hutf8, hvalue⟩
    exact reads_readField_skipped hlen hutf8 rfl ((hskip value).mpr hvalue)

theorem isFields_zero : IsFields seqBound depth 0 x ↔ x = [] := by
  constructor
  · intro h
    cases h
    rfl
  · rintro rfl
    exact .nil

theorem isFields_succ : IsFields seqBound depth (number + 1) x ↔
    ∃ name value rest, x = writeFieldName name ++ value ++ rest ∧ name.length < 256 ∧ isUtf8 name = true ∧
      IsValue seqBound depth value ∧ IsFields seqBound depth number rest := by
  constructor
  · intro h
    cases h with
    | cons hlen hname hvalue hrest => exact ⟨_, _, _, rfl, hlen, hname, hvalue, hrest⟩
  · rintro ⟨name, value, rest, rfl, hlen, hname, hvalue, hrest⟩
    exact .cons hlen hname hvalue hrest

section
variable (hskip : ∀ x, skip.Reads x () ↔ IsValue seqBound depth x)
include hskip

theorem reads_fields_skipObject :
    (Reader.iterate (readField skip skipObject) number ()).Reads x () ↔
      IsFields seqBound depth number x := by
  induction number generalizing x with
  | zero =>
    rw [isFields_zero]
    exact reads_pure.trans (and_iff_left rfl)
  | succ number ih =>
    rw [isFields_succ]
    refine reads_bind.trans ?_
    constructor
    · rintro ⟨x₁, rest, ⟨⟩, rfl, hfield, hrest⟩
      obtain ⟨name, value, rfl, hlen, hutf8, hvalue⟩ := (reads_readField_skipObject hskip).mp hfield
      exact ⟨name, value, rest, rfl, hlen, hutf8, hvalue, ih.mp hrest⟩
    · rintro ⟨name, value, rest, rfl, hlen, hutf8, hvalue, hrest⟩
      exact ⟨_, rest, (), rfl,
        (reads_readField_skipObject hskip).mpr ⟨name, value, rfl, hlen, hutf8, hvalue⟩,
        ih.mpr hrest⟩

theorem reads_skipObject :
    (readObjectWith skip skipObject).Reads x () ↔ IsBody seqBound .Object (depth + 1) x := by
  rw [reads_readObjectWith, isBody_object_succ]
  constructor
  · rintro ⟨number, count, fields, ⟨⟩, rfl, hcount, hle, hfields, -⟩
    exact ⟨number, count, fields, rfl, hcount, hle, (reads_fields_skipObject hskip).mp hfields⟩
  · rintro ⟨number, count, fields, rfl, hcount, hle, hfields⟩
    exact ⟨number, count, fields, (), rfl, hcount, hle, (reads_fields_skipObject hskip).mpr hfields, rfl⟩

end

end

theorem reads_skipEpeeValue : (skipEpeeValue depth).Reads x () ↔ IsValue I32_BOUND depth x := by
  induction depth generalizing x with
  | zero => exact reads_skipValueWith fun x => iff_of_false not_reads_fail isBody_object_zero
  | succ depth ih => exact reads_skipValueWith fun x => reads_skipObject fun x => ih

end Cuprate.Epee
