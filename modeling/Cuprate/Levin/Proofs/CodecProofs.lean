import Cuprate.Levin.TestBody

/-!
# The levin codecs: message boundaries do not depend on how the bytes arrive

The bucket decoder decides about a header from its 33 bytes and about a body from as many bytes as
the header announces, so it is resumable; the message decoder is the loop around it.
-/

namespace Cuprate.Levin

open Cuprate.Stream List LevinBucketCodec
open BucketHead (fromBytes)

variable {C : Type}

variable {bucket : Bucket C}

namespace LevinBucketCodec

variable {head : BucketHead C} {codec : LevinBucketCodec C} {src : List UInt8}

theorem decodeBody_item {codec' : LevinBucketCodec C} {rest : List UInt8} (y : List UInt8)
    (h : codec.decodeBody head src = (.ok (some bucket), codec', rest)) :
    codec.decodeBody head (src ++ y) = (.ok (some bucket), codec', rest ++ y) := by
  simp only [decodeBody] at h ⊢
  split at h
  · simp at h
  · have hle : head.size.toNat ≤ src.length := by omega
    simp only [Prod.mk.injEq, Except.ok.injEq, Option.some.injEq] at h
    obtain ⟨rfl, rfl, rfl⟩ := h
    rw [if_neg (by rw [length_append]; omega), take_append_of_le_length hle, drop_append_of_le_length hle]

theorem decodeBody_ne_error (codec : LevinBucketCodec C) (head : BucketHead C) (src : List UInt8)
    (e : BucketError)
    (t : LevinBucketCodec C × List UInt8) :
    codec.decodeBody head src ≠ (.error e, t) := by
  simp only [decodeBody]
  split <;> simp

theorem decodeBody_pending {codec' : LevinBucketCodec C} {rest : List UInt8}
    (h : codec.decodeBody head src = (.ok none, codec', rest)) : codec' = codec ∧ rest = src := by
  simp only [decodeBody] at h
  split at h
  · simp only [Prod.mk.injEq, true_and] at h
    exact ⟨h.1.symm, h.2.symm⟩
  · simp at h

variable [LevinCommand C]

theorem fromBytes_append (y : List UInt8) (h : HEADER_SIZE ≤ src.length) :
    (fromBytes (src ++ y) : BucketHead C × List UInt8) =
      ((fromBytes src).1, (fromBytes (C := C) src).2 ++ y) := by
  simp only [HEADER_SIZE] at h
  have hfield : ∀ i n, i + n ≤ 33 → ((src ++ y).drop i).take n = (src.drop i).take n := by
    intro i n hin
    rw [drop_append_of_le_length (by omega), take_append_of_le_length (by simp; omega)]
  have h0 : (src ++ y).take 8 = src.take 8 := by simpa using hfield 0 8 (by omega)
  simp only [fromBytes, HEADER_SIZE, h0, hfield 8 8 (by omega), hfield 16 1 (by omega),
    hfield 17 4 (by omega), hfield 21 4 (by omega), hfield 25 4 (by omega), hfield 29 4 (by omega),
    drop_append_of_le_length h]

theorem decode_waitingForBody (hst : codec.state = .waitingForBody head)
    (src : List UInt8) : codec.decode src = codec.decodeBody head src := by
  simp only [decode, hst]

theorem decode_short (hst : codec.state = .waitingForHeader)
    (hlen : src.length < HEADER_SIZE) : codec.decode src = (.ok none, codec, src) := by
  simp only [decode, hst, if_pos hlen]

theorem decode_header (hst : codec.state = .waitingForHeader) (hlen : HEADER_SIZE ≤ src.length) :
    codec.decode src =
      if codec.exceedsMaxSize (fromBytes src).1 then
        (.error .bucketExceededMaxSize, codec, (fromBytes (C := C) src).2)
      else (codec.acceptHead (fromBytes src).1).decodeBody (fromBytes src).1
        (fromBytes (C := C) src).2 := by
  simp only [decode, hst, if_neg (Nat.not_lt.mpr hlen)]

/-- The bucket decoder is resumable. The cases follow the decoder: a header that is not complete, a
header that is rejected, and a body (announced now or earlier). -/
theorem decoder_resumable : (decoder C).Resumable where
  item := by
    intro codec src bucket codec' rest y h
    change codec.decode src = _ at h
    change codec.decode (src ++ y) = _
    cases hst : codec.state with
    | waitingForBody head =>
      rw [decode_waitingForBody hst] at h ⊢
      exact decodeBody_item y h
    | waitingForHeader =>
      by_cases hlen : HEADER_SIZE ≤ src.length
      · rw [decode_header hst hlen] at h
        rw [decode_header hst (by rw [length_append]; omega), fromBytes_append y hlen]
        split at h
        · simp at h
        · next hok =>
          rw [if_neg hok]
          exact decodeBody_item y h
      · rw [decode_short hst (by omega)] at h
        simp at h
  error := by
    intro codec src e codec' rest y h
    change codec.decode src = _ at h
    change codec.decode (src ++ y) = _
    cases hst : codec.state with
    | waitingForBody head =>
      rw [decode_waitingForBody hst] at h
      exact absurd h (decodeBody_ne_error _ _ _ _ _)
    | waitingForHeader =>
      by_cases hlen : HEADER_SIZE ≤ src.length
      · rw [decode_header hst hlen] at h
        rw [decode_header hst (by rw [length_append]; omega), fromBytes_append y hlen]
        split at h
        · next hex =>
          simp only [Prod.mk.injEq] at h
          obtain ⟨he, rfl, rfl⟩ := h
          rw [if_pos hex, he]
        · exact absurd h (decodeBody_ne_error _ _ _ _ _)
      · rw [decode_short hst (by omega)] at h
        simp at h
  pending := by
    intro codec src codec' rest y h
    change codec.decode src = _ at h
    change codec.decode (src ++ y) = codec'.decode (rest ++ y)
    cases hst : codec.state with
    | waitingForBody head =>
      rw [decode_waitingForBody hst] at h
      obtain ⟨rfl, rfl⟩ := decodeBody_pending h
      rfl
    | waitingForHeader =>
      by_cases hlen : HEADER_SIZE ≤ src.length
      · rw [decode_header hst hlen] at h
        split at h
        · simp at h
        · next hok =>
          -- the header was consumed: the codec now waits for the body it announced
          obtain ⟨rfl, rfl⟩ := decodeBody_pending h
          rw [decode_header hst (by rw [length_append]; omega), fromBytes_append y hlen,
            if_neg hok, decode_waitingForBody rfl]
      · rw [decode_short hst (by omega)] at h
        simp only [Prod.mk.injEq, true_and] at h
        obtain ⟨rfl, rfl⟩ := h
        rfl

end LevinBucketCodec

namespace LevinMessageCodec

variable [LevinCommand C] {T : Type} [LevinBody T C]

theorem decoder_resumable : (decoder (C := C) T).Resumable :=
  Decoder.through_resumable sizeStable_handle LevinBucketCodec.decoder_resumable

variable {codec codec' : LevinBucketCodec C} {state : MessageState} {src rest : List UInt8}

theorem poll_eq : (decoder T).poll (codec, state) src =
    match codec.decode src with
    | (.error e, codec', rest) => (.error e, (codec', state), rest)
    | (.ok none, codec', rest) => (.ok none, (codec', state), rest)
    | (.ok (some bucket), codec', rest) =>
      match handle codec' state bucket with
      | (.error e, st') => (.error e, st', rest)
      | (.ok (some message), st') => (.ok (some message), st', rest)
      | (.ok none, st') => (decoder T).poll st' rest := by
  refine (Decoder.throughPoll_eq (sizeStable_handle (T := T)) codec state src).trans ?_
  rw [show (LevinBucketCodec.decoder C).poll codec src = codec.decode src from rfl]
  rcases codec.decode src with ⟨e | (_ | bucket), codec', rest⟩
  · rfl
  · rfl
  · dsimp only
    rcases handle (T := T) codec' state bucket with ⟨e | (_ | message), st'⟩ <;> rfl

theorem poll_of_pending (h : codec.decode src = (.ok none, codec', rest)) :
    (decoder T).poll (codec, state) src = (.ok none, (codec', state), rest) := by
  rw [poll_eq, h]

theorem poll_of_error {e : BucketError} (h : codec.decode src = (.error e, codec', rest)) :
    (decoder T).poll (codec, state) src = (.error e, (codec', state), rest) := by
  rw [poll_eq, h]

variable {st' : LevinMessageCodec C}

section
variable (h : codec.decode src = (.ok (some bucket), codec', rest))
include h

theorem poll_of_message {message : T} (hh : handle codec' state bucket = (.ok (some message), st')) :
    (decoder T).poll (codec, state) src = (.ok (some message), st', rest) := by
  rw [poll_eq, h]
  simp only [hh]

theorem poll_of_skip (hh : handle (T := T) codec' state bucket = (.ok none, st')) :
    (decoder T).poll (codec, state) src = (decoder T).poll st' rest := by
  rw [poll_eq, h]
  simp only [hh]

theorem poll_of_refused {e : BucketError} (hh : handle (T := T) codec' state bucket = (.error e, st')) :
    (decoder T).poll (codec, state) src = (.error e, st', rest) := by
  rw [poll_eq, h]
  simp only [hh]

end

theorem drain_nil {codec : LevinBucketCodec C} (hst : codec.state = .waitingForHeader)
    (state : MessageState) :
    (decoder T).drain (codec, state) [] = (([], none), (codec, state), []) := by
  apply Decoder.drain_of_pending
  apply poll_of_pending
  exact decode_short hst (by simp [HEADER_SIZE])

/-- **Message boundaries never depend on how the bytes are delivered.** However a byte stream is cut
into chunks, the messages and the first error are the same, for a codec that waits for a header,
inside a fragmented message or not. -/
theorem feedChunks_eq_of_flatten_eq (codec : LevinBucketCodec C) (state : MessageState)
    (hst : codec.state = .waitingForHeader) (chunks chunks' : List (List UInt8))
    (hcut : chunks.flatten = chunks'.flatten) :
    feedChunks T (codec, state) chunks = feedChunks T (codec, state) chunks' := by
  have hfeed : ∀ cs, feedChunks T (codec, state) cs = decodeAll T (codec, state) cs.flatten :=
    fun cs => Decoder.feed_eq_drain decoder_resumable cs (drain_nil hst state)
  rw [hfeed, hfeed, hcut]

theorem feedChunks_emptyBucket :
    feedChunks TestBody (.new .default) [(encode emptyBucket []).take 10, [],
      (encode emptyBucket []).drop 10] =
      feedChunks TestBody (.new .default) [encode emptyBucket []] :=
  feedChunks_eq_of_flatten_eq (.new .default) .waitingForBucket rfl _ _ (by simp)

end LevinMessageCodec

end Cuprate.Levin
