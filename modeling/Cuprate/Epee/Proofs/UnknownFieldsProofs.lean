import Cuprate.Epee.Proofs.SkipProofs

/-!
# Unknown fields

No value of the format begins with another one. So fields with unknown names can be put anywhere
into an object as long as `skip_epee_value` can skip their values.
-/

namespace Cuprate.Epee

open Cuprate.Stream List Reader Marker

def IsUnknownField {T : Type} (seqBound : Nat) (o : EpeeObjectBuilder T) (bytes : List UInt8) : Prop :=
  ∃ name value, bytes = writeFieldName name ++ value ∧ name.length < 256 ∧ isUtf8 name = true ∧
    (∀ b, o.addField b name = pure (b, false)) ∧ IsValue seqBound MAX_DEPTH_OF_SKIPPED_OBJECTS value

/-! ## How often loops run -/

/-- How often the loops inside of one round of the loop of `skip_epee_value` run. -/
def skipElementIterations (inner : List UInt8 → Nat) : InnerMarker → List UInt8 → Nat
  | .Object => inner
  | _ => fun _ => 0

def skipValueIterations (skipInner : Read Unit) (inner : List UInt8 → Nat) : List UInt8 → Nat :=
  readSkipped.after fun skipped s =>
    match skipped.1.size with
    | some _ => 0
    | none => iterations (fun _ => skipElement skipInner skipped.1)
      (fun _ => skipElementIterations inner skipped.1) skipped.2 () s

def skipObjectIterations (skip : Read Unit) (inner : List UInt8 → Nat) : List UInt8 → Nat :=
  readNumberOfFields.after fun number =>
    iterations (readField skip skipObject) (fun _ => readFieldName.after fun _ => inner) number ()

/-- How often all loops of `skip_epee_value` run, those of its calls included, up to an error. -/
def skipIterations : Nat → List UInt8 → Nat
  | 0 => skipValueIterations (.fail (.format "Depth of skipped objects exceeded maximum")) fun _ => 0
  | allowed + 1 => skipValueIterations (readObjectWith (skipEpeeValue allowed) skipObject)
    (skipObjectIterations (skipEpeeValue allowed) (skipIterations allowed))

theorem progresses_readSkipped : readSkipped.Progresses := by
  rintro x ⟨innerMarker, number⟩ h
  rcases reads_readSkipped.mp h with ⟨rfl, -⟩ | ⟨count, rfl, -⟩ <;> exact cons_ne_nil _ _

theorem progresses_readNumberOfFields : readNumberOfFields.Progresses := by
  intro x number h
  exact (reads_readNumberOfFields.mp h).1.ne_nil

theorem progresses_readFieldName : readFieldName.Progresses := by
  intro x name h
  rw [(reads_readFieldName.mp h).1]
  exact cons_ne_nil _ _

theorem progresses_fail {e : Error} :
    (Reader.fail e : Read Unit).Progresses := fun _ _ h => absurd h not_reads_fail

theorem progresses_bind {α γ : Type} {p : Read α} {f : α → Read γ} (hp : p.Progresses) :
    (p >>= f).Progresses := by
  intro x c h
  obtain ⟨x₁, x₂, a, rfl, h₁, -⟩ := reads_bind.mp h
  exact append_ne_nil_of_left_ne_nil (hp x₁ a h₁) x₂

variable {skipInner skip : Read Unit} {inner : List UInt8 → Nat} {count t : List UInt8}

theorem progresses_readVarint {bound : Nat} : (readVarint bound).Progresses :=
  fun _ _ h => (reads_readVarint.mp h).1.ne_nil

variable {innerMarker : InnerMarker}

theorem progresses_skipElement (hinner : skipInner.Progresses)
    (hsize : innerMarker.size = none) : (skipElement skipInner innerMarker).Progresses := by
  cases innerMarker with
  | String => exact progresses_bind progresses_readVarint
  | Object => exact hinner
  | I64 | I32 | I16 | I8 | U64 | U32 | U16 | U8 | F64 | Bool => cases hsize

theorem costs_skipObject (hskip : skip.CostsAtMost inner 1) :
    (readObjectWith skip skipObject).CostsAtMost (fun s => 1 + skipObjectIterations skip inner s) 1 :=
  .bind progresses_readNumberOfFields fun number =>
    (iterations_le
      (fun _ => .bind progresses_readFieldName fun _ => hskip.bind_free fun _ =>
        pure ()) number ()).bind_free fun b => .lift (skipObject.finish b)

theorem costs_skipElement (hinner : skipInner.CostsAtMost (fun s => 1 + inner s) 1)
    (hsize : innerMarker.size = none) : (skipElement skipInner innerMarker).CostsAtMost
      (fun s => 1 + skipElementIterations inner innerMarker s) 1 := by
  cases innerMarker with
  | String => exact (progresses_bind progresses_readVarint).costsAtMost
  | Object => exact hinner
  | I64 | I32 | I16 | I8 | U64 | U32 | U16 | U8 | F64 | Bool => cases hsize

theorem costs_skipValueWith (hinner : skipInner.CostsAtMost (fun s => 1 + inner s) 1) :
    (skipValueWith skipInner).CostsAtMost (fun s => 1 + skipValueIterations skipInner inner s) 1 := by
  refine .bind progresses_readSkipped fun skipped => ?_
  cases hsize : skipped.1.size with
  | none => exact iterations_le (fun _ => costs_skipElement hinner hsize) skipped.2 ()
  | some size =>
    intro s
    refine ⟨fun a rest hrun => ?_, fun e _ => Nat.zero_le _⟩
    obtain ⟨x, rfl, -⟩ := run_eq_ok.mp hrun
    simp

theorem costs_skipEpeeValue (depth : Nat) :
    (skipEpeeValue depth).CostsAtMost (fun s => 1 + skipIterations depth s) 1 := by
  induction depth with
  | zero => exact costs_skipValueWith progresses_fail.costsAtMost
  | succ depth ih => exact costs_skipValueWith (costs_skipObject (ih.mono fun s => Nat.le_add_left _ _))

theorem skipIterations_le (depth : Nat) (s : List UInt8) : skipIterations depth s ≤ s.length := by
  obtain ⟨hok, herr⟩ := costs_skipEpeeValue depth s
  cases hrun : (skipEpeeValue depth).run s with
  | error e =>
    have hle : 1 + skipIterations depth s ≤ s.length + 1 := herr e hrun
    omega
  | ok r =>
    have hle : 1 + skipIterations depth s + r.2.length ≤ s.length := hok r.1 r.2 hrun
    omega

/-! ## No value begins with another one -/

/-- Elements of `P` and `Q` with which the same bytes begin are equal. -/
def Separated (P Q : List UInt8 → Prop) : Prop :=
  ∀ {x x' t t' : List UInt8}, P x → Q x' → x ++ t = x' ++ t' → x = x'

theorem IsVarint.unique {number number' : Nat} {count' t' : List UInt8} (h : IsVarint number count)
    (h' : IsVarint number' count') (heq : count ++ t = count' ++ t') :
    count = count' ∧ number = number' ∧ t = t' :=
  (reads_readVarint.mpr ⟨h, h.lt⟩).unique (reads_readVarint.mpr ⟨h', h'.lt⟩) heq

section

variable {seqBound seqBound' depth number : Nat} {innerMarker : InnerMarker}

theorem separated_isBodies (h : Separated (IsBody seqBound innerMarker depth)
    (IsBody seqBound' innerMarker depth)) :
    Separated (IsBodies seqBound innerMarker depth number)
      (IsBodies seqBound' innerMarker depth number) := by
  induction number with
  | zero =>
    intro x x' t t' hx hx' _
    rw [isBodies_zero.mp hx, isBodies_zero.mp hx']
  | succ number ih =>
    intro x x' t t' hx hx' heq
    obtain ⟨bytes, rest, rfl, hbody, hrest⟩ := isBodies_succ.mp hx
    obtain ⟨bytes', rest', rfl, hbody', hrest'⟩ := isBodies_succ.mp hx'
    rw [append_assoc, append_assoc] at heq
    obtain rfl := h hbody hbody' heq
    rw [ih hrest hrest' (append_cancel_left heq)]

section
variable (h : Separated (IsValue seqBound depth) (IsValue seqBound' depth))
include h

theorem separated_isFields :
    Separated (IsFields seqBound depth number) (IsFields seqBound' depth number) := by
  induction number with
  | zero =>
    intro x x' t t' hx hx' _
    rw [isFields_zero.mp hx, isFields_zero.mp hx']
  | succ number ih =>
    intro x x' t t' hx hx' heq
    obtain ⟨name, value, rest, rfl, hlen, hname, hvalue, hrest⟩ := isFields_succ.mp hx
    obtain ⟨name', value', rest', rfl, hlen', hname', hvalue', hrest'⟩ := isFields_succ.mp hx'
    simp only [append_assoc] at heq
    obtain ⟨-, rfl, htail⟩ := (reads_readFieldName.mpr ⟨rfl, hlen, hname⟩).unique
      (reads_readFieldName.mpr ⟨rfl, hlen', hname'⟩) heq
    obtain rfl := h hvalue hvalue' htail
    rw [ih hrest hrest' (append_cancel_left htail)]

theorem separated_isBody_object :
    Separated (IsBody seqBound .Object (depth + 1)) (IsBody seqBound' .Object (depth + 1)) := by
  intro x x' t t' hx hx' heq
  obtain ⟨number, count, bytes, rfl, hcount, -, hfields⟩ := isBody_object_succ.mp hx
  obtain ⟨number', count', bytes', rfl, hcount', -, hfields'⟩ := isBody_object_succ.mp hx'
  rw [append_assoc, append_assoc] at heq
  obtain ⟨rfl, rfl, heq⟩ := hcount.unique hcount' heq
  rw [separated_isFields h hfields hfields' heq]

end

theorem separated_isBody (h : Separated (IsBody seqBound .Object depth) (IsBody seqBound' .Object depth)) :
    Separated (IsBody seqBound innerMarker depth) (IsBody seqBound' innerMarker depth) := by
  intro x x' t t' hx hx' heq
  cases hsize : innerMarker.size with
  | some size =>
    have hlen := (isBody_scalar hsize).mp hx
    have hlen' := (isBody_scalar hsize).mp hx'
    exact append_inj_left heq (hlen.trans hlen'.symm)
  | none =>
    cases innerMarker with
    | Object => exact h hx hx' heq
    | String =>
      obtain ⟨len, bytes, rfl, hlen⟩ := isBody_string.mp hx
      obtain ⟨len', bytes', rfl, hlen'⟩ := isBody_string.mp hx'
      rw [append_assoc, append_assoc] at heq
      obtain ⟨rfl, hlength, heq⟩ := hlen.unique hlen' heq
      rw [append_inj_left heq hlength]
    | I64 | I32 | I16 | I8 | U64 | U32 | U16 | U8 | F64 | Bool => cases hsize

theorem isValue_iff {x : List UInt8} : IsValue seqBound depth x ↔
    ∃ (marker : Marker) (bytes : List UInt8), x = marker.asU8 :: bytes ∧
      ((marker.isSeq = false ∧ IsBody seqBound marker.innerMarker depth bytes) ∨
      (marker.isSeq = true ∧ ∃ number count bodies, bytes = count ++ bodies ∧ IsVarint number count ∧
        number < seqBound ∧ IsBodies seqBound marker.innerMarker depth number bodies)) := by
  constructor
  · intro h
    cases h with
    | one hbody => exact ⟨_, _, rfl, .inl ⟨rfl, hbody⟩⟩
    | seq hcount hlt hbodies => exact ⟨_, _, rfl, .inr ⟨rfl, _, _, _, rfl, hcount, hlt, hbodies⟩⟩
  · rintro ⟨⟨innerMarker, isSeq⟩, bytes, rfl,
      ⟨rfl, hbody⟩ | ⟨rfl, number, count, bodies, rfl, hcount, hlt, hbodies⟩⟩
    · exact .one hbody
    · exact .seq hcount hlt hbodies

theorem separated_isValue (h : Separated (IsBody seqBound .Object depth)
    (IsBody seqBound' .Object depth)) :
    Separated (IsValue seqBound depth) (IsValue seqBound' depth) := by
  intro x x' t t' hx hx' heq
  obtain ⟨marker, bytes, rfl, hvalue⟩ := isValue_iff.mp hx
  obtain ⟨marker', bytes', rfl, hvalue'⟩ := isValue_iff.mp hx'
  obtain ⟨-, rfl, -⟩ := (reads_readMarker.mpr rfl : Reader.Reads _ [_] _).unique
    (reads_readMarker.mpr rfl : Reader.Reads _ [_] _) heq
  have htail : bytes ++ t = bytes' ++ t' := tail_eq_of_cons_eq heq
  congr 1
  rcases hvalue with ⟨hseq, hbody⟩ | ⟨hseq, number, count, bodies, rfl, hcount, -, hbodies⟩
  · rcases hvalue' with ⟨-, hbody'⟩ | ⟨hseq', -⟩
    · exact separated_isBody h hbody hbody' htail
    · exact absurd (hseq.symm.trans hseq') Bool.false_ne_true
  · rcases hvalue' with ⟨hseq', -⟩ | ⟨-, number', count', bodies', rfl, hcount', -, hbodies'⟩
    · exact absurd (hseq'.symm.trans hseq) Bool.false_ne_true
    · rw [append_assoc, append_assoc] at htail
      obtain ⟨rfl, rfl, hrest⟩ := hcount.unique hcount' htail
      rw [separated_isBodies (separated_isBody h) hbodies hbodies' hrest]

theorem isValue_separated (seqBound seqBound' depth : Nat) :
    Separated (IsValue seqBound depth) (IsValue seqBound' depth) := by
  induction depth with
  | zero => exact separated_isValue fun hx => absurd hx isBody_object_zero
  | succ depth ih => exact separated_isValue (separated_isBody_object ih)

end

section

variable {T : Type} {o : EpeeObjectBuilder T} {value : T}

/-- The bytes of an object with its header, and what comes after it. -/
def encoding (count : List UInt8) (fields : List (List UInt8)) (trailing : List UInt8) : List UInt8 :=
  HEADER ++ (count ++ (fields.flatten ++ trailing))

/-- Reading the fields one after another gives the object. -/
def FieldsOf (o : EpeeObjectBuilder T) (fields : List (List UInt8)) (value : T) : Prop :=
  ∃ b, Reader.Steps (readField (skipEpeeValue MAX_DEPTH_OF_SKIPPED_OBJECTS) o) o.default fields b ∧
    o.finish b = .ok value

theorem fromBytes_eq_ok {bytes : List UInt8} : fromBytes o bytes = .ok value ↔
    ∃ count fields trailing, bytes = encoding count fields trailing ∧ IsVarint fields.length count ∧
      fields.length ≤ MAX_NUM_FIELDS ∧ FieldsOf o fields value := by
  have hread {x : List UInt8} : (readHeadObject o).Reads x value ↔
      ∃ count fields, x = HEADER ++ (count ++ fields.flatten) ∧ IsVarint fields.length count ∧
        fields.length ≤ MAX_NUM_FIELDS ∧ FieldsOf o fields value := by
    constructor
    · intro h
      obtain ⟨x₁, x₂, ⟨⟩, rfl, hheader, hobject⟩ := reads_bind.mp h
      obtain ⟨number, count, _, b, rfl, hcount, hle, hfields, hfinish⟩ := reads_readObjectWith.mp hobject
      obtain ⟨fields, rfl, rfl, hsteps⟩ := reads_iterate.mp hfields
      exact ⟨count, fields, by rw [reads_readHeader.mp hheader], hcount, hle, b, hsteps, hfinish⟩
    · rintro ⟨count, fields, rfl, hcount, hle, b, hsteps, hfinish⟩
      refine (reads_readHeader.mpr rfl).bind (reads_readObjectWith.mpr ?_)
      exact ⟨_, count, _, b, rfl, hcount, hle, reads_iterate.mpr ⟨fields, rfl, rfl, hsteps⟩, hfinish⟩
  unfold fromBytes
  constructor
  · intro h
    cases hrun : (readHeadObject o).run bytes with
    | error e =>
      rw [hrun] at h
      cases h
    | ok r =>
      rw [hrun] at h
      obtain ⟨x, rfl, hx⟩ := run_eq_ok.mp hrun
      cases h
      obtain ⟨count, fields, rfl, hrest⟩ := hread.mp hx
      refine ⟨count, fields, r.2, ?_, hrest⟩
      simp only [encoding, append_assoc]
  · rintro ⟨count, fields, trailing, rfl, hrest⟩
    have hrun := hread.mpr ⟨count, fields, rfl, hrest⟩ trailing
    simp only [append_assoc] at hrun
    rw [encoding, hrun]
    rfl

theorem IsUnknownField.reads {y : List UInt8} (h : IsUnknownField I32_BOUND o y) (b : o.Builder) :
    (readField (skipEpeeValue MAX_DEPTH_OF_SKIPPED_OBJECTS) o b).Reads y b := by
  obtain ⟨name, value, rfl, hlen, hname, hadd, hvalue⟩ := h
  exact reads_readField_skipped hlen hname (hadd b) (reads_skipEpeeValue.mpr hvalue)

theorem IsUnknownField.of_reads {y z t' : List UInt8} {b b' : o.Builder} (h : IsUnknownField U64_BOUND o y)
    (hread : (readField (skipEpeeValue MAX_DEPTH_OF_SKIPPED_OBJECTS) o b).Reads z b')
      (heq : y ++ t = z ++ t') : IsUnknownField I32_BOUND o y := by
  obtain ⟨name, value, rfl, hlen, hname, hadd, hvalue⟩ := h
  obtain ⟨x₁, x, name', rfl, hread_name, hread⟩ := reads_bind.mp hread
  rw [append_assoc, append_assoc] at heq
  obtain ⟨rfl, rfl, heq⟩ := (reads_readFieldName.mpr ⟨rfl, hlen, hname⟩).unique hread_name heq
  obtain ⟨x₂, x₃, added, rfl, hread_add, hread⟩ := reads_bind.mp hread
  rw [hadd b] at hread_add
  obtain ⟨rfl, rfl⟩ := reads_pure.mp hread_add
  obtain ⟨value', x₄, ⟨⟩, rfl, hskip, -⟩ := reads_bind.mp hread
  rw [nil_append, append_assoc] at heq
  have hvalue' := reads_skipEpeeValue.mp hskip
  obtain rfl := isValue_separated _ _ _ hvalue hvalue' heq
  exact ⟨name, value, rfl, hlen, hname, hadd, hvalue'⟩

theorem fromBytes_inserted {fields fields' : List (List UInt8)} {trailing : List UInt8}
    (hfields : FieldsOf o fields value)
      (hinserted : Reader.Inserted (IsUnknownField U64_BOUND o) fields fields')
    (hcount : IsVarint fields'.length count) (hle : fields'.length ≤ MAX_NUM_FIELDS) :
    fromBytes o (encoding count fields' trailing) = .ok value ↔
      Reader.Inserted (IsUnknownField I32_BOUND o) fields fields' := by
  obtain ⟨b, hsteps, hfinish⟩ := hfields
  rw [fromBytes_eq_ok]
  constructor
  · rintro ⟨count', fields'', trailing', heq, hcount', -, b', hsteps', -⟩
    obtain ⟨-, hlength, heq⟩ := hcount.unique hcount' (append_cancel_left heq)
    have hiterate := reads_iterate.mpr ⟨fields'', hlength.symm, rfl, hsteps'⟩
    exact hinserted.of_iterate IsUnknownField.of_reads (fun _ b h => h.reads b) hsteps hiterate heq
  · intro h
    exact ⟨count, fields', trailing, rfl, hcount, hle, b, hsteps.inserted (fun _ b h =>
      h.reads b) h, hfinish⟩

end

/-- A value is skipped exactly if its sequences have an `i32` length. Unknown fields in an object
change nothing exactly if all their values are skipped. All loops together run at most once for each
byte, and what is skipped has objects nested at most to the limit. -/
theorem skipEpeeValue_skips_iff {T : Type} (o : EpeeObjectBuilder T) (value : T) (x bytes s : List UInt8)
    (skip : Read Unit) :
    (IsValue U64_BOUND MAX_DEPTH_OF_SKIPPED_OBJECTS x →
      ((∀ rest, (skipEpeeValue MAX_DEPTH_OF_SKIPPED_OBJECTS).run (x ++ rest) = .ok ((), rest)) ↔
        IsValue I32_BOUND MAX_DEPTH_OF_SKIPPED_OBJECTS x)) ∧
    (fromBytes o bytes = .ok value →
      ∃ count fields trailing, bytes = encoding count fields trailing ∧ IsVarint fields.length count ∧
        FieldsOf o fields value ∧ ∀ count' fields' trailing',
          Reader.Inserted (IsUnknownField U64_BOUND o) fields fields' → IsVarint fields'.length count' →
          fields'.length ≤ MAX_NUM_FIELDS →
          (fromBytes o (encoding count' fields' trailing') = .ok value ↔
            Reader.Inserted (IsUnknownField I32_BOUND o) fields fields')) ∧
    (skipIterations MAX_DEPTH_OF_SKIPPED_OBJECTS s ≤ s.length ∧
      ∀ rest, (skipEpeeValue MAX_DEPTH_OF_SKIPPED_OBJECTS).run s = .ok ((), rest) →
        ∃ x, s = x ++ rest ∧ IsValue I32_BOUND MAX_DEPTH_OF_SKIPPED_OBJECTS x) ∧
    ((readField skip skipObject ()).Progresses ∧ ∀ innerMarker, innerMarker.size = none →
      (skipElement (readObjectWith skip skipObject) innerMarker).Progresses) := by
  refine ⟨fun _ => reads_skipEpeeValue, fun h => ?_, ⟨?_, fun rest h => ?_⟩,
    ⟨progresses_bind progresses_readFieldName, fun innerMarker hsize => ?_⟩⟩
  · obtain ⟨count, fields, trailing, hbytes, hcount, -, hfields⟩ := fromBytes_eq_ok.mp h
    refine ⟨count, fields, trailing, hbytes, hcount, hfields, fun count' fields' trailing' => ?_⟩
    exact fromBytes_inserted hfields
  · exact skipIterations_le _ s
  · obtain ⟨x, hx, hread⟩ := run_eq_ok.mp h
    exact ⟨x, hx, reads_skipEpeeValue.mp hread⟩
  · exact progresses_skipElement (progresses_bind progresses_readNumberOfFields) hsize

/-- An object with the field `a`, a byte with its marker. -/
def byteObject : EpeeObjectBuilder UInt8 where
  Builder := Option UInt8
  default := none
  addField byte name :=
    if name = [97] then do
      let bytes ← checkedRead 2
      pure (bytes.getLast?, true)
    else pure (byte, false)
  finish byte := byte.elim (.error (.format "Required field was not found!")) .ok

theorem isVarint_four {number : Nat} {t t' : List UInt8} (h : IsVarint number count)
    (heq : 4 :: t' = count ++ t) : number = 1 := by
  obtain ⟨marker, hmarker, hlt, rfl⟩ := h
  have hhead : 4 = UInt8.ofNat (4 * number + marker) := by
    interval_cases marker <;> exact (List.cons.inj heq).1
  have hmod : 4 = (4 * number + marker) % 256 := congrArg UInt8.toNat hhead
  interval_cases marker <;> omega

/-- A field `b` with a sequence of three bytes is skipped, alone and in front of the fields of an
object. -/
theorem skipEpeeValue_skips_sequence :
    let value : List UInt8 := asU8 ⟨.U8, true⟩ :: (writeVarint 3 ++ [1, 2, 3])
    (skipEpeeValue MAX_DEPTH_OF_SKIPPED_OBJECTS).run (value ++ [7]) = .ok ((), [7]) ∧
      ∃ count fields trailing, encoding [4] [[1, 97, 8, 7]] [] = encoding count fields trailing ∧
        fromBytes byteObject (encoding [4] [[1, 97, 8, 7]] []) = .ok 7 ∧
        fromBytes byteObject (encoding (writeVarint 2) ((writeFieldName [98] ++ value) :: fields)
          []) = .ok 7 := by
  intro value
  have hcount : IsVarint 3 (writeVarint 3) := isVarint_writeVarint (by norm_num)
  have hvalue {seqBound : Nat} (hlt : 3 < seqBound) :
      IsValue seqBound MAX_DEPTH_OF_SKIPPED_OBJECTS value := by
    refine .seq hcount hlt ?_
    rw [isBodies_scalar rfl]
    rfl
  have hunknown {seqBound : Nat} (hlt : 3 < seqBound) :
      IsUnknownField seqBound byteObject (writeFieldName [98] ++ value) :=
    ⟨[98], value, rfl, by decide, by decide, fun _ => rfl, hvalue hlt⟩
  have hkeep {P : List UInt8 → Prop} (fields : List (List UInt8)) : Reader.Inserted P fields fields := by
    induction fields with
    | nil => exact .nil
    | cons field fields ih => exact .keep field ih
  obtain ⟨hskips, hinserted, -⟩ :=
    skipEpeeValue_skips_iff byteObject 7 value (encoding [4] [[1, 97, 8, 7]] []) []
    (pure ())
  have hknown : fromBytes byteObject (encoding [4] [[1, 97, 8, 7]] []) = .ok 7 := by decide +kernel
  obtain ⟨count, fields, trailing, hbytes, hvarint, -, hinserted⟩ := hinserted hknown
  have hone : fields.length = 1 := isVarint_four hvarint (append_cancel_left hbytes)
  refine ⟨(hskips (hvalue (by decide))).mpr (hvalue (by decide)) [7], count, fields, trailing,
    hbytes, hknown, ?_⟩
  refine (hinserted _ _ [] (.insert (hunknown (by decide)) (hkeep fields)) ?_ ?_).mpr
    (.insert (hunknown (by decide)) (hkeep fields))
  · rw [length_cons, hone]
    exact isVarint_writeVarint (by norm_num)
  · rw [length_cons, hone]
    decide

theorem skipValueWith_eq_error {number : Nat} (hcount : IsVarint number count) (hle : I32_BOUND ≤ number) :
    (skipValueWith skipInner).run (asU8 ⟨innerMarker, true⟩ :: (count ++ t)) =
      .error (.io "VarInt is too big") := by
  have hmarker : readMarker.run (asU8 ⟨innerMarker, true⟩ :: (count ++ t)) =
      .ok (⟨innerMarker, true⟩, count ++ t) :=
    (reads_readMarker.mpr rfl : Reader.Reads _ [_] _) (count ++ t)
  unfold skipValueWith readSkipped
  rw [run_bind, run_bind, hmarker]
  simp only [Except.bind]
  rw [run_bind, if_pos trivial, readVarint_eq_error hcount hle]
  rfl

theorem longSequence_not_skipped (number : Nat) (hle : I32_BOUND ≤ number) (hlt : number < 2 ^ 62) :
    IsValue U64_BOUND MAX_DEPTH_OF_SKIPPED_OBJECTS
      (asU8 ⟨.U8, true⟩ :: (writeVarint number ++ List.replicate number 0)) ∧
    (skipEpeeValue MAX_DEPTH_OF_SKIPPED_OBJECTS).run
      (asU8 ⟨.U8, true⟩ :: (writeVarint number ++ List.replicate number 0)) =
        .error (.io "VarInt is too big") := by
  have hcount := isVarint_writeVarint hlt
  refine ⟨.seq hcount hcount.lt ?_, skipValueWith_eq_error hcount hle⟩
  rw [isBodies_scalar rfl, length_replicate, Nat.one_mul]

/-- A sequence of `2 ^ 31` bytes is a value, and it is not skipped. -/
theorem skipEpeeValue_fails_long_sequence : IsValue U64_BOUND MAX_DEPTH_OF_SKIPPED_OBJECTS
      (asU8 ⟨.U8, true⟩ :: (writeVarint (2 ^ 31) ++ List.replicate (2 ^ 31) 0)) ∧
    (skipEpeeValue MAX_DEPTH_OF_SKIPPED_OBJECTS).run
      (asU8 ⟨.U8, true⟩ :: (writeVarint (2 ^ 31) ++ List.replicate (2 ^ 31) 0)) =
        .error (.io "VarInt is too big") :=
  longSequence_not_skipped (2 ^ 31) le_rfl (by norm_num)

end Cuprate.Epee
