import Cuprate.Epee.Macros
import Cuprate.Epee.Proofs.SkipProofs

/-!
# Round trips

A round trip is given by a condition on what is written and by the value that is read for it;
objects are put together from the round trips of their fields.
-/

namespace Cuprate.Epee

open Cuprate.Stream List Reader EpeeValue
open EpeeObject (field iso)

variable {α S T : Type} {depth : Nat}

/-! ## Values -/

/-- A value that can be an entry of a sequence: it is read back in any case. -/
structure EpeeValue.Element (v : EpeeValue α) (depth : Nat) (ok : α → Prop) (norm : α → α) : Prop where
  marker_eq : v.marker = .new v.marker.innerMarker
  reads : ∀ a, ok a → (v.read v.marker).Reads (v.write a) (norm a)
  isBody : ∀ a, ok a → IsBody U64_BOUND v.marker.innerMarker depth (v.write a)

/-- A value that is read back, or is not written and is the default. -/
structure EpeeValue.RoundTrips (v : EpeeValue α) (depth : Nat) (ok : α → Prop) (norm : α → α) : Prop where
  reads : ∀ a, ok a → v.shouldWrite a = true → (v.read v.marker).Reads (v.write a) (norm a)
  isValue : ∀ a, ok a → v.shouldWrite a = true → IsValue U64_BOUND depth (writeEpeeValue v a)
  default : ∀ a, ok a → v.shouldWrite a = false → v.epeeDefaultValue = some (norm a)

variable {entries : List (List UInt8 × List UInt8)} {a : α}

namespace EpeeValue

variable {v : EpeeValue α} {ok : α → Prop} {norm : α → α}

section
variable (h : v.Element depth ok norm)
include h

theorem Element.isValue (ha : ok a) : IsValue U64_BOUND depth (writeEpeeValue v a) := by
  unfold writeEpeeValue
  rw [h.marker_eq]
  exact .one (h.isBody a ha)

theorem Element.roundTrips (hdefault : ∀ a, ok a → v.shouldWrite a = false →
    v.epeeDefaultValue = some (norm a)) : v.RoundTrips depth ok norm where
  reads a ha _ := h.reads a ha
  isValue _ ha _ := h.isValue ha
  default := hdefault

end

theorem reads_expectMarker (marker : Marker) : (expectMarker marker marker).Reads [] () := by
  unfold expectMarker
  rw [if_pos rfl]
  exact reads_pure.mpr ⟨rfl, rfl⟩

theorem reads_okOr {e : Error} {o : Option α} (h : o = some a) : (okOr e o).Reads [] a := by
  rw [h]
  exact reads_pure.mpr ⟨rfl, rfl⟩

theorem Element.number {innerMarker : InnerMarker} {size : Nat} {ofNat : Nat → α} {toNat : α → Nat}
    (hsize : innerMarker.size = some size) (hback : ∀ a, ofNat (toNat a) = a)
      (hlt : ∀ a, toNat a < 256 ^ size) :
    (number innerMarker size ofNat toNat).Element depth (fun _ => True) id where
  marker_eq := rfl
  reads a _ := by
    have hread : (checkedRead size).Reads (leBytes size (toNat a)) (leBytes size (toNat a)) :=
      reads_checkedRead.mpr ⟨length_leBytes _ _, rfl⟩
    have hvalue : ofNat (leValue (leBytes size (toNat a))) = a := by rw [leValue_leBytes (hlt a), hback]
    exact (reads_expectMarker _).nil_bind (hread.bind_nil (reads_pure.mpr ⟨rfl, hvalue⟩))
  isBody a _ := .scalar (by rw [EpeeValue.number, length_leBytes]; exact hsize)

theorem Element.u8 : u8.Element depth (fun _ => True) id :=
  Element.number rfl (fun _ => UInt8.ofNat_toNat) fun a => a.toNat_lt

theorem Element.u16 : u16.Element depth (fun _ => True) id :=
  Element.number rfl (fun _ => UInt16.ofNat_toNat) fun a => a.toNat_lt

theorem Element.u32 : u32.Element depth (fun _ => True) id :=
  Element.number rfl (fun _ => UInt32.ofNat_toNat) fun a => a.toNat_lt

theorem Element.u64 : u64.Element depth (fun _ => True) id :=
  Element.number rfl (fun _ => UInt64.ofNat_toNat) fun a => a.toNat_lt

theorem Element.i64 : i64.Element depth (fun _ => True) id := by
  refine Element.number rfl (fun a => ?_) fun a => a.toUInt64.toNat_lt
  rw [UInt64.ofNat_toNat]
  exact Int64.toInt64_toUInt64 a

theorem Element.bool : bool.Element depth (fun _ => True) id where
  marker_eq := rfl
  reads a _ := by
    refine (reads_expectMarker _).nil_bind ?_
    have hread : checkedReadU8.Reads (EpeeValue.bool.write a) (if a then 1 else 0) := reads_next.mpr rfl
    cases a with
    | true => exact hread.bind_pure
    | false => exact hread.bind_pure
  isBody _ _ := .scalar rfl

/-! ## Strings -/

variable {t : List UInt8} {N : Nat}

section
variable (h : t.length ≤ MAX_STRING_LEN_POSSIBLE)
include h

theorem isVarint_length : IsVarint t.length (writeVarint t.length) := by
  apply isVarint_writeVarint
  unfold MAX_STRING_LEN_POSSIBLE at h
  omega

theorem reads_readBytes : (readBytes (.new .String)).Reads (writeBytes t) t := by
  have hlen := isVarint_length h
  refine (reads_expectMarker _).nil_bind ((reads_readVarint.mpr ⟨hlen, hlen.lt⟩).bind ?_)
  rw [if_neg (not_lt.mpr h)]
  exact reads_take.mpr ⟨rfl, rfl⟩

theorem isBody_writeBytes : IsBody U64_BOUND .String depth (writeBytes t) := .string (isVarint_length h)

end

theorem Element.bytes : bytes.Element depth (fun a => a.length ≤ MAX_STRING_LEN_POSSIBLE) id where
  marker_eq := rfl
  reads _ ha := reads_readBytes ha
  isBody _ ha := isBody_writeBytes ha

theorem RoundTrips.bytes : bytes.RoundTrips depth (fun a => a.length ≤ MAX_STRING_LEN_POSSIBLE) id := by
  refine Element.bytes.roundTrips fun a _ hnot => ?_
  cases a with
  | nil => rfl
  | cons _ _ => cases hnot

theorem Element.octets (hN : N ≤ MAX_STRING_LEN_POSSIBLE) :
    (octets N).Element depth (fun _ => True) id where
  marker_eq := rfl
  reads a _ := by
    have hle : a.1.length ≤ MAX_STRING_LEN_POSSIBLE := a.2.le.trans hN
    refine (reads_readBytes hle).bind_nil ?_
    rw [dif_pos a.2]
    exact reads_pure.mpr ⟨rfl, rfl⟩
  isBody a _ := isBody_writeBytes (a.2.le.trans hN)

theorem Element.byteArray (hN : N ≤ MAX_STRING_LEN_POSSIBLE) :
    (byteArray N).Element depth (fun a => a.bytes.length = N) id where
  marker_eq := rfl
  reads a ha := by
    have hlen := isVarint_length (ha.le.trans hN)
    refine (reads_expectMarker _).nil_bind ((reads_readVarint.mpr ⟨hlen, hlen.lt⟩).bind ?_)
    rw [if_neg (not_not_intro ha)]
    refine (reads_take.mpr ⟨ha, rfl⟩).bind_nil (reads_okOr ?_)
    unfold ByteArray.tryFrom
    rw [dif_pos ha]
    rfl
  isBody a ha := isBody_writeBytes (ha.le.trans hN)

theorem RoundTrips.byteArrayVec (hN : 0 < N) : (byteArrayVec N).RoundTrips depth
    (fun a => a.bytes.length ≤ MAX_STRING_LEN_POSSIBLE) id := by
  have helement : (EpeeValue.byteArrayVec N).Element depth (fun a =>
      a.bytes.length ≤ MAX_STRING_LEN_POSSIBLE) id :=
    { marker_eq := rfl
      reads := fun a ha => (reads_readBytes ha).bind_nil (reads_okOr (dif_pos a.isMultiple))
      isBody := fun a ha => isBody_writeBytes ha }
  refine helement.roundTrips fun a _ hnot => ?_
  have hzero : a.len = 0 := by simpa [EpeeValue.byteArrayVec, ByteArrayVec.isEmpty] using hnot
  have hnil : a.bytes = [] := by
    have hlt : a.bytes.length < N := (Nat.div_eq_zero_iff_lt hN).mp hzero
    have hmod := a.isMultiple
    rw [Nat.mod_eq_of_lt hlt] at hmod
    exact length_eq_zero_iff.mp hmod
  obtain ⟨bytes, hmultiple⟩ := a
  obtain rfl := hnil
  change ByteArrayVec.tryFrom N [] = _
  unfold ByteArrayVec.tryFrom
  rw [dif_pos hmultiple]
  rfl

theorem Element.text : text.Element depth (fun a => a.1.length ≤ MAX_STRING_LEN_POSSIBLE) id where
  marker_eq := rfl
  reads a ha := by
    refine (reads_readBytes ha).bind_nil ?_
    rw [dif_pos a.2]
    exact reads_pure.mpr ⟨rfl, rfl⟩
  isBody a ha := isBody_writeBytes ha

theorem chunks_flatMap (l : List UInt64) :
    chunks 8 l.length (l.flatMap fun n => leBytes 8 n.toNat) = l.map fun n => leBytes 8 n.toNat := by
  induction l with
  | nil => rfl
  | cons n l ih =>
    have hlen : (leBytes 8 n.toNat).length = 8 := length_leBytes _ _
    rw [flatMap_cons, length_cons, chunks, map_cons, take_left' hlen, drop_left' hlen, ih]

theorem length_flatMap_leBytes (l : List UInt64) :
    (l.flatMap fun n => leBytes 8 n.toNat).length = 8 * l.length := by
  induction l with
  | nil => rfl
  | cons n l ih =>
    rw [flatMap_cons, length_append, ih, length_leBytes, length_cons]
    ring

theorem RoundTrips.containerAsBlob : containerAsBlob.RoundTrips depth
    (fun a => 8 * a.length ≤ MAX_STRING_LEN_POSSIBLE) id := by
  have hbytes {a : List UInt64} (ha : 8 * a.length ≤ MAX_STRING_LEN_POSSIBLE) :
      (a.flatMap fun n => leBytes 8 n.toNat).length ≤ MAX_STRING_LEN_POSSIBLE := by
    rw [length_flatMap_leBytes]
    exact ha
  have hback (a : List UInt64) :
      (a.map fun n => leBytes 8 n.toNat).map (fun chunk => UInt64.ofNat (leValue chunk)) = a := by
    have hid (n : UInt64) : UInt64.ofNat (leValue (leBytes 8 n.toNat)) = n := by
      rw [leValue_leBytes n.toNat_lt, UInt64.ofNat_toNat]
    rw [map_map]
    exact map_id'' hid a
  have helement : EpeeValue.containerAsBlob.Element depth (fun a =>
      8 * a.length ≤ MAX_STRING_LEN_POSSIBLE) id :=
    { marker_eq := rfl
      reads := fun a ha => by
        refine (reads_readBytes (hbytes ha)).bind_nil ?_
        rw [length_flatMap_leBytes, if_neg (by omega), Nat.mul_div_cancel_left _ (by norm_num),
          chunks_flatMap, hback]
        exact reads_pure.mpr ⟨rfl, rfl⟩
      isBody := fun a ha => isBody_writeBytes (hbytes ha) }
  refine helement.roundTrips fun a _ hnot => ?_
  cases a with
  | nil => rfl
  | cons _ _ => cases hnot

theorem readBytes_fails (hlt : t.length < 2 ^ 62) (h : MAX_STRING_LEN_POSSIBLE < t.length) :
    (readBytes (.new .String)).Fails (writeBytes t) (.format "Byte array exceeded max length") := by
  have hlen := isVarint_writeVarint hlt
  have hcheck : Reader.Fails (if t.length > MAX_STRING_LEN_POSSIBLE then
      .fail (.format "Byte array exceeded max length")
      else .take t.length (.io "Not enough bytes to fill object") : Read (List UInt8)) t
        (.format "Byte array exceeded max length") := by
    rw [if_pos h]
    exact fun _ => rfl
  exact (reads_expectMarker _).bind_fails ((reads_readVarint.mpr ⟨hlen, hlen.lt⟩).bind_fails hcheck)

theorem byteArray_fails (h : N ≠ 0) : ((byteArray N).read (byteArray N).marker).Fails
    ((byteArray N).write (.default N)) (.format "Byte array has incorrect length") := by
  have hlen : IsVarint 0 (writeVarint 0) := isVarint_writeVarint (by norm_num)
  refine (reads_expectMarker _).bind_fails ((reads_readVarint.mpr ⟨hlen, hlen.lt⟩).bind_fails ?_)
  rw [if_pos h.symm]
  exact fun _ => rfl

section
variable (h : v.Element depth ok norm)
include h

theorem Element.isBodies {l : List α} (hl : ∀ a ∈ l, ok a) :
    IsBodies U64_BOUND v.marker.innerMarker depth l.length (l.flatMap v.write) := by
  induction l with
  | nil => exact .nil
  | cons a l ih =>
    obtain ⟨ha, hl⟩ := forall_mem_cons.mp hl
    exact .cons (h.isBody a ha) (ih hl)

theorem RoundTrips.vec (hseq : (vec v).marker = ⟨v.marker.innerMarker, true⟩) :
    (vec v).RoundTrips depth (fun l => l.length < 2 ^ 62 ∧ ∀ a ∈ l, ok a) (List.map norm) := by
  refine ⟨fun l hl _ => ?_, fun l hl _ => ?_, fun l _ hnot => ?_⟩
  · have hcount := isVarint_writeVarint hl.1
    have hread : (Reader.replicate (v.read (.new v.marker.innerMarker)) l.length).Reads
        (l.flatMap v.write) (l.map norm) := by
      apply reads_replicate
      rw [← h.marker_eq]
      exact fun a ha => h.reads a (hl.2 a ha)
    rw [hseq]
    exact (reads_readVarint.mpr ⟨hcount, hcount.lt⟩).bind hread
  · have hcount := isVarint_writeVarint hl.1
    unfold writeEpeeValue
    rw [hseq]
    exact .seq hcount hcount.lt (h.isBodies hl.2)
  · cases l with
    | nil => rfl
    | cons _ _ => cases hnot

theorem RoundTrips.option :
    (option v).RoundTrips depth (fun o => ∀ a ∈ o, ok a ∧ v.shouldWrite a = true) (Option.map norm) := by
  refine ⟨fun o ho hwrite => ?_, fun o ho hwrite => ?_, fun o ho hnot => ?_⟩
  · cases o with
    | none => cases hwrite
    | some a => exact (h.reads a (ho a rfl).1).bind_pure
  · cases o with
    | none => cases hwrite
    | some a => exact h.isValue (ho a rfl).1
  · cases o with
    | none => rfl
    | some a => exact absurd ((ho a rfl).2.symm.trans hnot) Bool.false_ne_true.symm

end

end EpeeValue

/-- A field that is read back, or is not written and is the default. -/
structure Field.RoundTrips (f : Field α) (depth : Nat) (ok : α → Prop) (norm : α → α) : Prop where
  writes : ∀ a, ok a → f.written a = true →
    ∃ value, f.write a = writeFieldName (asciiBytes f.name) ++ value ∧
    f.read.Reads value (norm a) ∧ IsValue U64_BOUND depth value
  default : ∀ a, ok a → f.written a = false → f.default = some (norm a)

namespace Field

variable {v : EpeeValue α} {ok : α → Prop} {norm : α → α} {name : String}

theorem reads_readEpeeValue {x : List UInt8} (h : (v.read v.marker).Reads x a) :
    (readEpeeValue v).Reads (v.marker.asU8 :: x) a :=
  (reads_readMarker.mpr rfl : Reader.Reads _ [_] _).bind h

theorem RoundTrips.new (h : v.RoundTrips depth ok norm) : (new name v).RoundTrips depth ok norm where
  writes a ha hwrite :=
    ⟨writeEpeeValue v a, if_pos hwrite, reads_readEpeeValue (h.reads a ha hwrite), h.isValue a ha hwrite⟩
  default a ha hnot := h.default a ha hnot

theorem RoundTrips.written (h : v.Element depth ok norm) (hwrite : ∀ a, v.shouldWrite a = true) :
    (Field.new name v).RoundTrips depth ok norm :=
  RoundTrips.new (h.roundTrips fun a _ hnot => absurd ((hwrite a).symm.trans hnot) Bool.false_ne_true.symm)

theorem RoundTrips.withDefault [DecidableEq α] {default : α} (h : v.Element depth ok id)
    (hwrite : ∀ a, v.shouldWrite a = true) : (withDefault name v default).RoundTrips depth ok id where
  writes a ha _ := ⟨writeEpeeValue v a, if_pos (hwrite a), reads_readEpeeValue (h.reads a ha),
    h.isValue ha⟩
  default a ha hnot := by
    have heq : a = default := by simpa [Field.withDefault, hwrite] using hnot
    rw [heq]
    rfl

end Field

/-! ## Objects -/

/-- The builder takes fields one after another, each given by its name and the bytes of its
value. -/
def Adds (o : EpeeObjectBuilder T) : o.Builder → List (List UInt8 × List UInt8) → o.Builder → Prop
  | b, [], b' => b = b'
  | b, (name, value) :: entries, b' => ∃ b₁, (o.addField b name).Reads value (b₁, true) ∧
      Adds o b₁ entries b'

def entryBytes (entry : List UInt8 × List UInt8) : List UInt8 := writeFieldName entry.1 ++ entry.2

/-- The fields of `t` are written, and `t'` is read. -/
structure EpeeObject.Writes (o : EpeeObject T) (depth : Nat) (names : List (List UInt8))
    (entries : List (List UInt8 × List UInt8)) (t t' : T) : Prop where
  writeFields : o.writeFields t = entries.flatMap entryBytes
  numberOfFields : o.numberOfFields t = entries.length
  length_le : entries.length ≤ names.length
  isEntry : ∀ entry ∈ entries, entry.1 ∈ names ∧ IsValue U64_BOUND depth entry.2
  adds : ∃ b, Adds o.toEpeeObjectBuilder o.default entries b ∧ o.finish b = .ok t'

structure EpeeObject.RoundTrips (o : EpeeObject T) (depth : Nat) (names : List (List UInt8))
    (ok : T → Prop)
    (norm : T → T) : Prop where
  unknown : ∀ b, ∀ name ∉ names, o.addField b name = pure (b, false)
  writes : names.Nodup → ∀ t, ok t → ∃ entries, o.Writes depth names entries t (norm t)

def isName (name : List UInt8) : Bool := Nat.blt name.length 256 && name.all fun b => Nat.blt b.toNat 128

/-- The names of the fields of an object: different ASCII strings. -/
def areNames : List (List UInt8) → Bool
  | [] => true
  | name :: names => isName name && names.all (fun other => name != other) && areNames names

abbrev ValidNames (names : List (List UInt8)) : Prop :=
  (areNames names && Nat.ble names.length MAX_NUM_FIELDS) = true

theorem isName_iff {name : List UInt8} :
    isName name = true ↔ name.length < 256 ∧ ∀ b ∈ name, b < 0x80 := by
  simp [isName, UInt8.lt_iff_toNat_lt]

theorem areNames_iff {names : List (List UInt8)} :
    areNames names = true ↔ names.Nodup ∧ ∀ name ∈ names, isName name = true := by
  induction names with
  | nil => simp [areNames]
  | cons name names ih =>
    have hall : (names.all fun other => name != other) = true ↔ name ∉ names := by
      simp only [all_eq_true, bne_iff_ne]
      exact ⟨fun h hmem => h name hmem rfl, fun h other hother heq => h (heq ▸ hother)⟩
    rw [areNames, Bool.and_eq_true, Bool.and_eq_true, hall, ih, nodup_cons, forall_mem_cons]
    tauto

theorem ValidNames.spec {names : List (List UInt8)} (h : ValidNames names) : names.Nodup ∧
    names.length ≤ MAX_NUM_FIELDS ∧ ∀ name ∈ names, name.length < 256 ∧ ∀ b ∈ name, b < 0x80 := by
  obtain ⟨hnames, hle⟩ := (Bool.and_eq_true _ _).mp h
  obtain ⟨hnodup, hvalid⟩ := areNames_iff.mp hnames
  exact ⟨hnodup, Nat.le_of_ble_eq_true hle, fun name hname => isName_iff.mp (hvalid name hname)⟩

theorem Adds.steps {o : EpeeObjectBuilder T} {skip : Read Unit} {b b' : o.Builder}
    (h : Adds o b entries b')
    (hnames : ∀ entry ∈ entries, entry.1.length < 256 ∧ isUtf8 entry.1 = true) :
    Reader.Steps (readField skip o) b (entries.map entryBytes) b' := by
  induction entries generalizing b with
  | nil => exact h
  | cons entry entries ih =>
    obtain ⟨⟨hlen, hname⟩, hrest⟩ := forall_mem_cons.mp hnames
    obtain ⟨b₁, hadd, h⟩ := h
    refine ⟨b₁, ?_, ih h hrest⟩
    exact (reads_readFieldName.mpr ⟨rfl, hlen, hname⟩).bind
      (hadd.bind_nil (reads_pure.mpr ⟨rfl, rfl⟩))

theorem isFields_entries
    (h : ∀ entry ∈ entries, entry.1.length < 256 ∧ isUtf8 entry.1 = true ∧
      IsValue U64_BOUND depth entry.2) :
    IsFields U64_BOUND depth entries.length (entries.flatMap entryBytes) := by
  induction entries with
  | nil => exact .nil
  | cons entry entries ih =>
    obtain ⟨⟨hlen, hname, hvalue⟩, hrest⟩ := forall_mem_cons.mp h
    exact .cons hlen hname hvalue (ih hrest)

namespace EpeeObject

variable {o : EpeeObject T} {names : List (List UInt8)} {ok : T → Prop} {norm : T → T}

theorem RoundTrips.readObject (h : o.RoundTrips depth names ok norm) (hnames : ValidNames names)
    {t : T} (ht : ok t) : (readObject o.toEpeeObjectBuilder).Reads (writeObject o t) (norm t) ∧
      IsBody U64_BOUND .Object (depth + 1) (writeObject o t) := by
  obtain ⟨hnodup, hmax, hvalid⟩ := hnames.spec
  obtain ⟨entries, hw⟩ := h.writes hnodup t ht
  obtain ⟨b, hadds, hfinish⟩ := hw.adds
  have hle : entries.length ≤ MAX_NUM_FIELDS := hw.length_le.trans hmax
  have hcount : IsVarint entries.length (writeVarint entries.length) := by
    apply isVarint_writeVarint
    unfold MAX_NUM_FIELDS at hle
    omega
  have hentries (entry) (he : entry ∈ entries) : entry.1.length < 256 ∧ isUtf8 entry.1 = true := by
    obtain ⟨hlen, hascii⟩ := hvalid entry.1 (hw.isEntry entry he).1
    exact ⟨hlen, isUtf8_of_ascii hascii⟩
  unfold writeObject
  rw [hw.numberOfFields, hw.writeFields]
  constructor
  · refine reads_readObjectWith.mpr ⟨entries.length, _, _, b, rfl, hcount, hle, ?_, hfinish⟩
    exact reads_iterate.mpr ⟨entries.map entryBytes, length_map _, rfl, hadds.steps hentries⟩
  · refine .object hcount hle (isFields_entries fun entry he => ?_)
    exact ⟨(hentries entry he).1, (hentries entry he).2, (hw.isEntry entry he).2⟩

theorem RoundTrips.element (h : o.RoundTrips depth names ok norm) (hnames : ValidNames names) :
    (ofObject o).Element (depth + 1) ok norm where
  marker_eq := rfl
  reads _ ht := (reads_expectMarker _).nil_bind (h.readObject hnames ht).1
  isBody _ ht := (h.readObject hnames ht).2

/-! ## Putting objects together -/

theorem RoundTrips.empty : empty.RoundTrips depth [] (fun _ => True) id where
  unknown _ _ _ := rfl
  writes _ _ _ := ⟨[], rfl, rfl, le_rfl, nofun, (), rfl, rfl⟩

variable {f : Field α} {bs : o.Builder}

theorem addField_eq_first (b : Option α × o.Builder) : (field f o).addField b (asciiBytes f.name) = (do
      let value ← f.read
      if b.1.isSome then .fail (.value ("Duplicate field in data: " ++ f.name))
      else pure ((some value, b.2), true) : Read ((Option α × o.Builder) × Bool)) :=
  if_pos rfl

theorem addField_eq_rest {name : List UInt8} (b : Option α × o.Builder) (hne : name ≠ asciiBytes f.name) :
    (field f o).addField b name = (do
      let added ← o.addField b.2 name
      pure ((b.1, added.1), added.2) : Read ((Option α × o.Builder) × Bool)) :=
  if_neg hne

theorem addField_first {value : List UInt8} (h : f.read.Reads value a) :
    ((field f o).addField (none, bs) (asciiBytes f.name)).Reads value ((some a, bs), true) := by
  rw [addField_eq_first]
  exact h.bind_nil (reads_pure.mpr ⟨rfl, rfl⟩)

theorem adds_field {b : Option α} {bs' : o.Builder} (h : Adds o.toEpeeObjectBuilder bs entries bs')
    (hne : ∀ entry ∈ entries, entry.1 ≠ asciiBytes f.name) :
    Adds (field f o).toEpeeObjectBuilder (b, bs) entries (b, bs') := by
  induction entries generalizing bs with
  | nil =>
    obtain rfl : bs = bs' := h
    rfl
  | cons entry entries ih =>
    obtain ⟨hentry, hrest⟩ := forall_mem_cons.mp hne
    obtain ⟨bs₁, hadd, h⟩ := h
    refine ⟨(b, bs₁), ?_, ih h hrest⟩
    rw [addField_eq_rest _ hentry]
    exact hadd.bind_nil (reads_pure.mpr ⟨rfl, rfl⟩)

theorem finish_field {b : Option α} {t : T} (hb : b.or f.default = some a) (h : o.finish bs = .ok t) :
    (field f o).finish (b, bs) = .ok (a, t) := by
  simp only [field, hb, h]
  rfl

theorem RoundTrips.field {okf : α → Prop} {normf : α → α} (hf : f.RoundTrips depth okf normf)
    (h : o.RoundTrips depth names ok norm) : (field f o).RoundTrips depth (asciiBytes f.name :: names)
      (fun t => okf t.1 ∧ ok t.2) (fun t => (normf t.1, norm t.2)) where
  unknown b name hname := by
    obtain ⟨hne, hname⟩ := not_or.mp (mt mem_cons.mpr hname)
    rw [addField_eq_rest b hne, h.unknown b.2 name hname]
    rfl
  writes hnodup t ht := by
    obtain ⟨hnot, hnodup⟩ := nodup_cons.mp hnodup
    obtain ⟨entries, hw⟩ := h.writes hnodup t.2 ht.2
    obtain ⟨bs, hadds, hfinish⟩ := hw.adds
    have hne (entry) (he : entry ∈ entries) : entry.1 ≠ asciiBytes f.name :=
      fun heq => hnot (heq ▸ (hw.isEntry entry he).1)
    have hmem (entry) (he : entry ∈ entries) :
        entry.1 ∈ asciiBytes f.name :: names ∧ IsValue U64_BOUND depth entry.2 :=
      ⟨.tail _ (hw.isEntry entry he).1, (hw.isEntry entry he).2⟩
    have hfields : (EpeeObject.field f o).writeFields t =
        (if f.written t.1 then f.write t.1 else []) ++ entries.flatMap entryBytes := by
      rw [← hw.writeFields]
      rfl
    have hnumber : (EpeeObject.field f o).numberOfFields t = (if f.written t.1 then 1 else 0) +
        entries.length := by
      rw [← hw.numberOfFields]
      rfl
    by_cases hwrite : f.written t.1 = true
    · obtain ⟨value, hbytes, hread, hvalue⟩ := hf.writes t.1 ht.1 hwrite
      rw [if_pos hwrite] at hfields hnumber
      refine ⟨(asciiBytes f.name, value) :: entries, ?_, ?_, Nat.succ_le_succ hw.length_le, ?_, ?_⟩
      · rw [hfields, hbytes]
        rfl
      · rw [hnumber, add_comm, length_cons]
      · exact forall_mem_cons.mpr ⟨⟨mem_cons_self, hvalue⟩, hmem⟩
      · exact ⟨(some (normf t.1), bs), ⟨_, addField_first hread, adds_field hadds hne⟩,
          finish_field rfl hfinish⟩
    · have hdefault := hf.default t.1 ht.1 (Bool.eq_false_iff.mpr hwrite)
      rw [if_neg hwrite] at hfields hnumber
      refine ⟨entries, hfields, hnumber.trans (zero_add _), hw.length_le.trans (Nat.le_succ _), hmem, ?_⟩
      exact ⟨(none, bs), adds_field hadds hne, finish_field hdefault hfinish⟩

theorem adds_iso {fields : S → T} {new : T → S} {b b' : o.Builder}
    (h : Adds o.toEpeeObjectBuilder b entries b') :
    Adds (iso fields new o).toEpeeObjectBuilder b entries b' := by
  induction entries generalizing b with
  | nil => exact h
  | cons entry entries ih =>
    obtain ⟨b₁, hadd, h⟩ := h
    exact ⟨b₁, hadd, ih h⟩

theorem RoundTrips.iso {fields : S → T} {new : T → S} (h : o.RoundTrips depth names ok norm) :
    (iso fields new o).RoundTrips depth names (fun s => ok (fields s))
      (fun s => new (norm (fields s))) where
  unknown := h.unknown
  writes hnodup s hs := by
    obtain ⟨entries, hw⟩ := h.writes hnodup (fields s) hs
    obtain ⟨b, hadds, hfinish⟩ := hw.adds
    refine ⟨entries, hw.writeFields, hw.numberOfFields, hw.length_le, hw.isEntry, b, adds_iso hadds, ?_⟩
    change (o.finish b).map new = _
    rw [hfinish]
    rfl

theorem RoundTrips.congr {ok' : T → Prop} {norm' : T → T} (h : o.RoundTrips depth names ok norm)
    (hok : ∀ t, ok' t → ok t) (hnorm : ∀ t, ok' t → norm t = norm' t) :
      o.RoundTrips depth names ok' norm' where
  unknown := h.unknown
  writes hnodup t ht := by
    rw [← hnorm t ht]
    exact h.writes hnodup t (hok t ht)

/-- An object with valid names for its fields that is read back. -/
def Lawful (o : EpeeObject T) (depth : Nat) (ok : T → Prop) (norm : T → T) : Prop :=
  ∃ names, ValidNames names ∧ o.RoundTrips depth names ok norm

/-- The object that a record is read and written as, with the conditions on its fields as one on the
record. -/
theorem Lawful.iso {fields : S → T} {new : T → S} {ok' : S → Prop} {norm' : S → S}
    (h : o.RoundTrips depth names ok norm) (hok : ∀ s, ok' s → ok (fields s))
    (hnorm : ∀ s, ok' s → new (norm (fields s)) = norm' s) (hnames : ValidNames names) :
    (iso fields new o).Lawful depth ok' norm' :=
  ⟨names, hnames, h.iso.congr hok hnorm⟩

section
variable (h : o.Lawful depth ok norm)
include h

theorem Lawful.element : (ofObject o).Element (depth + 1) ok norm := by
  obtain ⟨names, hnames, h⟩ := h
  exact h.element hnames

theorem Lawful.fromBytes {t : T} (ht : ok t) (trailing : List UInt8) :
    fromBytes o.toEpeeObjectBuilder (toBytes o t ++ trailing) = .ok (norm t) := by
  obtain ⟨names, hnames, h⟩ := h
  have hread : (readHeadObject o.toEpeeObjectBuilder).Reads (toBytes o t) (norm t) :=
    (reads_readHeader.mpr rfl).bind (h.readObject hnames ht).1
  unfold Epee.fromBytes
  rw [hread trailing]
  rfl

theorem Lawful.isBody {t : T} (ht : ok t) : IsBody U64_BOUND .Object (depth + 1) (writeObject o t) :=
  h.element.isBody t ht

end

/-- The error of the first field is the error of the object. -/
theorem fromBytes_first_fails {fields : S → α × T} {new : α × T →
    S} {s : S} {value : List UInt8} {e : Error}
    (hvalid : isName (asciiBytes f.name) = true) (hnumber : o.numberOfFields (fields s).2 < MAX_NUM_FIELDS)
    (hwritten : f.written (fields s).1 = true)
    (hwrite : f.write (fields s).1 = writeFieldName (asciiBytes f.name) ++ value)
      (hread : f.read.Fails value e) :
    Epee.fromBytes (iso fields new (field f o)).toEpeeObjectBuilder
      (toBytes (iso fields new (field f o)) s) = .error e := by
  have hname : readFieldName.Reads (writeFieldName (asciiBytes f.name)) (asciiBytes f.name) :=
    reads_readFieldName.mpr ⟨rfl, (isName_iff.mp hvalid).1, isUtf8_of_ascii (isName_iff.mp hvalid).2⟩
  have hadd (b : Option α × o.Builder) : ((field f o).addField b (asciiBytes f.name)).Fails value e := by
    rw [addField_eq_first]
    exact hread.bind _
  have hcount : IsVarint (o.numberOfFields (fields s).2 + 1)
      (writeVarint (o.numberOfFields (fields s).2 + 1)) := by
    apply isVarint_writeVarint
    unfold MAX_NUM_FIELDS at hnumber
    omega
  have hbytes : toBytes (iso fields new (field f o)) s = (HEADER ++
      (writeVarint (o.numberOfFields (fields s).2 + 1) ++
        (writeFieldName (asciiBytes f.name) ++ value))) ++ o.writeFields (fields s).2 := by
    change HEADER ++ (writeVarint
      ((if f.written (fields s).1 then 1 else 0) + o.numberOfFields (fields s).2) ++
      ((if f.written (fields s).1 then f.write (fields s).1 else []) ++ o.writeFields (fields s).2)) = _
    rw [if_pos hwritten, if_pos hwritten, hwrite, add_comm]
    simp only [append_assoc]
  have hfails : (readHeadObject (iso fields new (field f o)).toEpeeObjectBuilder).Fails
      (HEADER ++ (writeVarint (o.numberOfFields (fields s).2 + 1) ++
        (writeFieldName (asciiBytes f.name) ++ value))) e := by
    refine (reads_readHeader.mpr rfl).bind_fails
      ((reads_readNumberOfFields.mpr ⟨hcount, hnumber⟩).bind_fails ?_)
    exact Reader.Fails.bind (Reader.Fails.bind (hname.bind_fails ((hadd _).bind _)) _) _
  unfold Epee.fromBytes
  rw [hbytes, hfails]
  rfl

end EpeeObject

end Cuprate.Epee
