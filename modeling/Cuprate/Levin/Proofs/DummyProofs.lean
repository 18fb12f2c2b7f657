import Cuprate.Levin.Proofs.CodecProofs

/-!
# Dummy messages

A dummy of size `n` takes `n` bytes on the wire, but its header announces a body of `n` bytes
instead of the `n - 33` that follow. So the decoder skips the first 33 bytes after it, too: it is
harmless only as the last thing on the stream.
-/

namespace Cuprate.Levin

open Cuprate.Stream List Protocol LevinMessageCodec TestBody Decoder LevinBucketCodec BucketHead
open LevinBucketCodec (encode decode_header decodeBody decodeBody_some)
open LevinMessageCodec (decodeAll)

variable {T C : Type} [LevinCommand C]

def idle (protocol : Protocol) (seen : Bool) : LevinBucketCodec C :=
  { state := .waitingForHeader, protocol := protocol, handshakeMessageSeen := seen }

def Fits (protocol : Protocol) (seen : Bool) (head : BucketHead C) : Prop :=
  (idle protocol seen).exceedsMaxSize head = false

variable {protocol : Protocol} {seen : Bool} {head : BucketHead C} {size : UInt64}

section
variable (hcmd : fromU32 (toU32 head.command) = head.command)
include hcmd

theorem decode_toBytes_append (hfits : Fits protocol seen head) (rest : List UInt8) :
    (idle protocol seen : LevinBucketCodec C).decode (head.toBytes ++ rest) =
      ((idle protocol seen).acceptHead head).decodeBody head rest := by
  rw [decode_header rfl (by simp), fromBytes_toBytes head hcmd]
  unfold Fits at hfits
  simp [hfits]

theorem decode_toBytes_exceeds (hex : ¬ Fits protocol seen head) (rest : List UInt8) :
    (idle protocol seen : LevinBucketCodec C).decode (head.toBytes ++ rest) =
      (.error .bucketExceededMaxSize, idle protocol seen, rest) := by
  rw [decode_header rfl (by simp), fromBytes_toBytes head hcmd]
  have hex' : (idle protocol seen).exceedsMaxSize head = true := by simpa [Fits] using hex
  simp [hex']

theorem decode_bucket (hfits : Fits protocol seen head) (rest : List UInt8)
    (hlen : head.size.toNat ≤ rest.length) :
    (idle protocol seen : LevinBucketCodec C).decode (head.toBytes ++ rest) =
      (.ok (some { header := head, body := rest.take head.size.toNat }),
        idle protocol (seen || isHandshake head.command), rest.drop head.size.toNat) := by
  rw [decode_toBytes_append hcmd hfits, decodeBody, if_neg (by omega : ¬ rest.length < head.size.toNat)]
  rfl

end

variable [LevinBody T C]

/-- A message that travels as one bucket, within the limits in force and with its true size, and is
decoded back from it. -/
structure Ordinary (protocol : Protocol) (seen : Bool) (message : T) (bucket : Bucket C) : Prop where
  encodes : toBucket protocol (.body message) = .ok (some bucket)
  command : fromU32 (toU32 bucket.header.command) = bucket.header.command
  size : bucket.header.size.toNat = bucket.body.length
  fits : Fits protocol seen bucket.header
  decodes : ∃ ty : MessageType, bucket.header.flags = ty.asFlags ∧
    bucket.header.haveToReturnData = ty.haveToReturnData ∧
    decodeMessage bucket.body ty bucket.header.command = .ok message

/-- The messages are encoded, one after the other, as `bytes`, each of them ordinary when it is
received; `seen` and `seen'` say whether a handshake was seen before and after. -/
inductive Ordinaries (protocol : Protocol) : Bool → List T → List UInt8 → Bool → Prop where
  | nil {seen : Bool} : Ordinaries protocol seen [] [] seen
  | cons {seen seen' : Bool} {message : T} {bucket : Bucket C} {messages : List T}
      {bytes : List UInt8} (head : Ordinary protocol seen message bucket)
      (tail : Ordinaries protocol (seen || isHandshake bucket.header.command) messages bytes seen') :
      Ordinaries protocol seen (message :: messages)
        (encode bucket [] ++ bytes) seen'

theorem asFlags_ordinary (ty : MessageType) :
    ty.asFlags.contains .DUMMY = false ∧ ty.asFlags.contains .END_FRAGMENT = false ∧
      ty.asFlags.contains .START_FRAGMENT = false := by
  cases ty <;> decide

theorem handle_ordinary {message : T} {bucket : Bucket C} (h : Ordinary protocol seen message bucket)
    (codec : LevinBucketCodec C) :
    handle codec .waitingForBucket bucket = (.ok (some message), codec, .waitingForBucket) := by
  obtain ⟨ty, hflags, hret, hdec⟩ := h.decodes
  obtain ⟨h1, h2, h3⟩ := asFlags_ordinary ty
  simp only [handle, handleBucket, hflags, hret, h1, h2, h3, MessageType.fromFlags_asFlags]
  simp [hdec, Functor.map, Except.map, bind, Except.bind]

theorem drain_ordinaries {seen' : Bool} {messages : List T} {bytes : List UInt8}
    (h : Ordinaries protocol seen messages bytes seen') (rest : List UInt8) :
    (decodeAll T (idle protocol seen, .waitingForBucket) (bytes ++ rest)) =
      (messages ++ (decodeAll T (idle protocol seen', .waitingForBucket) rest).1,
        (decodeAll T (idle protocol seen', .waitingForBucket) rest).2) := by
  induction h with
  | nil => simp
  | @cons seen seen' message bucket messages bytes head tail ih =>
    have hdec := decode_bucket head.command head.fits (bucket.body ++ (bytes ++ rest))
      (by simp [head.size])
    rw [head.size, take_left, drop_left] at hdec
    have hpoll := poll_of_message (T := T) hdec (handle_ordinary head _)
    have hsplit : encode bucket [] ++ bytes ++ rest = bucket.header.toBytes ++
        (bucket.body ++ (bytes ++ rest)) := by
      simp [encode]
    rw [hsplit, decodeAll, drain_of_item hpoll]
    simp only [decodeAll] at ih ⊢
    rw [ih]
    simp

theorem handle_dummy (protocol : Protocol) (size : UInt64) (body : List UInt8)
    (codec : LevinBucketCodec C) :
    handle (T := T) codec .waitingForBucket
      { header := (makeDummyMessage protocol size).header, body := body } =
      (.ok none, codec, .waitingForBucket) := by
  have hflag : Flags.DUMMY.contains .DUMMY = true := by decide
  simp [handle, handleBucket, makeDummyMessage, hflag]

theorem dummy_command (protocol : Protocol) (size : UInt64) :
    fromU32 (toU32 (makeDummyMessage (C := C) protocol size).header.command) =
      (makeDummyMessage (C := C) protocol size).header.command := by
  simp only [makeDummyMessage, LevinCommand.toU32_fromU32]

theorem decodeAll_dummy_exceeds
    (hex : ¬ Fits protocol seen (makeDummyMessage (C := C) protocol size).header)
    (rest : List UInt8) :
    decodeAll T (idle protocol seen, .waitingForBucket)
      (encode (makeDummyMessage (C := C) protocol size) [] ++ rest) =
      ([], some .bucketExceededMaxSize) := by
  have hdec := decode_toBytes_exceeds (dummy_command protocol size) hex
    ((makeDummyMessage (C := C) protocol size).body ++ rest)
  simp only [encode, nil_append, append_assoc]
  rw [decodeAll, drain_of_error (poll_of_error (T := T) hdec)]

theorem decodeAll_dummy_last (hsize : HEADER_SIZE ≤ size.toNat)
    (hfits : Fits protocol seen (makeDummyMessage (C := C) protocol size).header) {rest : List UInt8}
    (hrest : rest.length < HEADER_SIZE) :
    decodeAll T (idle protocol seen, .waitingForBucket)
      (encode (makeDummyMessage (C := C) protocol size) [] ++ rest) =
      ([], none) := by
  have hdec := decode_toBytes_append (dummy_command protocol size) hfits
    ((makeDummyMessage (C := C) protocol size).body ++ rest)
  rw [decodeBody, if_pos (by simp [makeDummyMessage]; omega)] at hdec
  simp only [encode, nil_append, append_assoc]
  rw [decodeAll, drain_of_pending (poll_of_pending (T := T) hdec)]

/-- The dummy swallows the first `HEADER_SIZE` bytes that follow it. -/
theorem decodeAll_dummy_swallows (hsize : HEADER_SIZE ≤ size.toNat)
    (hfits : Fits protocol seen (makeDummyMessage (C := C) protocol size).header) {rest : List UInt8}
    (hrest : HEADER_SIZE ≤ rest.length) :
    decodeAll T (idle protocol seen, .waitingForBucket)
      (encode (makeDummyMessage (C := C) protocol size) [] ++ rest) =
      decodeAll T
        (idle protocol (seen || isHandshake (fromU32 0 : C)), .waitingForBucket)
        (rest.drop HEADER_SIZE) := by
  set dummy : Bucket C := makeDummyMessage protocol size with hdummy
  have hbody : dummy.body.length = size.toNat - HEADER_SIZE := by simp [hdummy, makeDummyMessage]
  have hdec := decode_bucket (dummy_command protocol size) hfits (dummy.body ++ rest)
    (by rw [length_append, hbody]; simp only [makeDummyMessage]; omega)
  have hpoll := poll_of_skip (T := T) hdec
    (handle_dummy protocol size _ (idle protocol (seen || isHandshake dummy.header.command)))
  -- what is left of the buffer after the announced `size` bytes
  have hdrop : (dummy.body ++ rest).drop dummy.header.size.toNat = rest.drop HEADER_SIZE := by
    have hs : dummy.header.size.toNat = dummy.body.length + HEADER_SIZE := by
      rw [hbody]; simp only [hdummy, makeDummyMessage]; omega
    rw [hs, drop_append, drop_of_length_le (by omega), nil_append, Nat.add_sub_cancel_left]
  rw [hdrop] at hpoll
  simp only [encode, nil_append, append_assoc]
  rw [decodeAll, drain_eq_of_poll_eq hpoll]
  rfl

/-- The bytes at hand, counting a header that was already consumed. -/
def weight (codec : LevinBucketCodec C) (src : List UInt8) : Nat :=
  src.length + match codec.state with
    | .waitingForHeader => 0
    | .waitingForBody _ => HEADER_SIZE

theorem decoder_priced : (decoder C).Priced weight HEADER_SIZE := by
  intro codec src bucket codec' rest h
  change codec.decode src = _ at h
  cases hst : codec.state with
  | waitingForBody head =>
    rw [decode_waitingForBody hst] at h
    obtain ⟨hle, hst'⟩ := decodeBody_some h
    simp only [weight, hst, hst']
    omega
  | waitingForHeader =>
    by_cases hlen : HEADER_SIZE ≤ src.length
    · rw [decode_header hst hlen] at h
      split at h
      · simp at h
      · obtain ⟨hle, hst'⟩ := decodeBody_some h
        simp only [fromBytes, length_drop] at hle
        simp only [weight, hst, hst']
        omega
    · rw [decode_short hst (by omega)] at h
      simp at h

theorem decodeAll_length_mul_le (protocol : Protocol) (seen : Bool) (src : List UInt8) :
    (decodeAll T ((idle protocol seen : LevinBucketCodec C), .waitingForBucket)
      src).1.length * HEADER_SIZE ≤ src.length := by
  have hpriced := through_priced (sizeStable_handle (T := T)) (decoder_priced (C := C))
    (fun codec state bucket x => by simp [weight, (handle_codec codec state bucket).1])
  exact drain_length_mul_le hpriced (idle protocol seen, .waitingForBucket) src

theorem Ordinaries.le_length {seen' : Bool} {messages : List T} {bytes : List UInt8}
    (h : Ordinaries protocol seen messages bytes seen') :
      messages.length * HEADER_SIZE ≤ bytes.length := by
  induction h with
  | nil => simp
  | cons head tail ih =>
    simp only [length_cons, length_append, encode, length_toBytes, length_nil, add_mul, one_mul]
    omega

/-- A dummy of size `size` takes `size` bytes on the wire. If nothing follows it and it fits the
limits, the stream decodes to exactly the ordinary messages. If something follows it, with bodies
that are together shorter than a header, it does not. -/
theorem decodeAll_dummy_iff (protocol : Protocol) (size : UInt64) (hsize : HEADER_SIZE ≤ size.toNat)
    (before after : List T) (bytes bytes' : List UInt8) (seen seen' : Bool)
    (hbefore : Ordinaries protocol false before bytes seen)
      (hafter : Ordinaries protocol seen after bytes' seen') :
    let dummy : Bucket C := makeDummyMessage protocol size
    let wire := encode dummy []
    let decoded := decodeAll T (.new protocol) (bytes ++ wire ++ bytes')
    toBucket (T := T) protocol (.dummy size) = .ok (some dummy) ∧
    wire.length = size.toNat ∧
    (after = [] ∧ Fits protocol seen dummy.header → decoded = (before ++ after, none)) ∧
    (bytes'.length < (after.length + 1) * HEADER_SIZE →
      (decoded = (before ++ after, none) ↔ after = [] ∧ Fits protocol seen dummy.header)) := by
  intro dummy wire decoded
  have hdecoded : decoded = (before ++ (decodeAll T (idle protocol seen, .waitingForBucket)
          (wire ++ bytes')).1,
        (decodeAll T (idle protocol seen, .waitingForBucket) (wire ++ bytes')).2) := by
    rw [← drain_ordinaries hbefore, ← append_assoc]
    rfl
  have hlast : after = [] ∧ Fits protocol seen dummy.header → decoded = (before ++ after, none) := by
    rintro ⟨rfl, hfits⟩
    cases hafter
    rw [hdecoded, decodeAll_dummy_last hsize hfits (by simp [HEADER_SIZE]), append_nil]
  refine ⟨?_, ?_, hlast, fun hshort => ⟨fun heq => ?_, hlast⟩⟩
  · simp [toBucket, not_lt.mpr hsize, dummy]
  · simp [wire, dummy, encode, makeDummyMessage]
    omega
  · by_cases hfits : Fits protocol seen dummy.header
    · refine ⟨?_, hfits⟩
      by_contra hne
      -- the first header of `after` is swallowed: too few bytes are left for all its messages
      have hpos : 0 < after.length := length_pos_of_ne_nil hne
      have hle := hafter.le_length
      have hheader : HEADER_SIZE ≤ bytes'.length := by
        calc HEADER_SIZE = 1 * HEADER_SIZE := (one_mul _).symm
          _ ≤ after.length * HEADER_SIZE := Nat.mul_le_mul_right _ hpos
          _ ≤ bytes'.length := hle
      rw [hdecoded, decodeAll_dummy_swallows hsize hfits hheader] at heq
      have hafter' := append_cancel_left (congrArg Prod.fst heq)
      have hcount := decodeAll_length_mul_le (T := T) protocol
        (seen || isHandshake (fromU32 0 : C)) (bytes'.drop HEADER_SIZE)
      rw [hafter', length_drop] at hcount
      rw [add_mul, one_mul] at hshort
      omega
    · rw [hdecoded, decodeAll_dummy_exceeds hfits] at heq
      simp at heq

theorem emptyBucket_ordinary (seen : Bool) : Ordinary default seen (bytes 0 []) emptyBucket where
  encodes := rfl
  command := rfl
  size := rfl
  fits := by unfold Fits; cases seen <;> decide
  decodes := ⟨.notification, rfl, rfl, rfl⟩

theorem emptyBucket_ordinaries : Ordinaries default false [bytes 0 []]
      (encode emptyBucket []) true := by
  rw [← append_nil (encode emptyBucket [])]
  exact .cons (emptyBucket_ordinary false) .nil

theorem decodeAll_dummy_iff_empty :
    Fits default true (makeDummyMessage (C := TestCommands) .default 40).header ∧
    decodeAll TestBody (.new .default)
      (encode emptyBucket [] ++ encode (makeDummyMessage (C := TestCommands) .default 40) [] ++ []) =
      ([bytes 0 []], none) := by
  have hfits : Fits default true
      (makeDummyMessage (C := TestCommands) .default 40).header := by
    unfold Fits; decide
  exact ⟨hfits, (decodeAll_dummy_iff default 40 (by decide) [bytes 0 []] []
    _ [] true true emptyBucket_ordinaries .nil).2.2.1 ⟨rfl, hfits⟩⟩

/-- An empty dummy in front of an empty message: both are well formed, but the message is lost. -/
theorem decodeAll_dummy_loses_message : Ordinaries default false ([] : List TestBody) [] false ∧
    Ordinaries default false [bytes 0 []]
      (encode emptyBucket []) true ∧
    toBucket (T := TestBody) .default (.dummy 33) = .ok (some (makeDummyMessage .default 33)) ∧
    decodeAll TestBody (.new .default)
      ([] ++ encode (makeDummyMessage (C := TestCommands) .default 33) [] ++
        encode emptyBucket []) ≠ ([] ++ [bytes 0 []], none) :=
  ⟨.nil, emptyBucket_ordinaries, rfl, by decide +kernel⟩

end Cuprate.Levin
