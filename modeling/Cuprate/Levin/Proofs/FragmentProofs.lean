import Cuprate.Levin.Proofs.DummyProofs
import Mathlib.Data.List.ModifyLast

/-!
# Fragmented messages

The fragments of a message carry the bytes of the whole bucket, its header included, and zeros at
the end. The decoder joins them and reads the bucket that was cut.
-/

namespace Cuprate.Levin

open Cuprate.Stream List Option Except LevinMessageCodec Flags MessageType BucketHead
open LevinBucketCodec (encode)
open LevinMessageCodec (decodeAll)

variable {T C : Type} [LevinCommand C]

/-! ## Cutting -/

theorem length_padTo {size : Nat} {bytes : List UInt8} (h : bytes.length ≤ size) :
    (padTo size bytes).length = size := by
  simp only [padTo, length_append, length_replicate]
  omega

theorem length_fragmentBodies (dataSpace amount : Nat) (body : List UInt8) :
    (fragmentBodies dataSpace amount body).length = amount := by
  induction amount generalizing body with
  | zero => rfl
  | succ amount ih => simp [fragmentBodies, ih]

theorem length_of_mem_fragmentBodies {dataSpace amount : Nat} {body bytes : List UInt8}
    (h : bytes ∈ fragmentBodies dataSpace amount body) : bytes.length = dataSpace := by
  induction amount generalizing body with
  | zero => simp [fragmentBodies] at h
  | succ amount ih =>
    rcases mem_cons.mp h with rfl | h
    · exact length_padTo (by simp)
    · exact ih h

/-- The fragments together are the body, with zeros up to the last fragment's end. -/
theorem flatten_fragmentBodies {dataSpace amount : Nat} {body : List UInt8}
    (h : body.length ≤ amount * dataSpace) :
    (fragmentBodies dataSpace amount body).flatten = padTo (amount * dataSpace) body := by
  induction amount generalizing body with
  | zero =>
    have hnil : body = [] := by
      rw [← length_eq_zero_iff]
      omega
    simp [fragmentBodies, padTo, hnil]
  | succ amount ih =>
    rw [add_mul, one_mul] at h ⊢
    have hdrop : (body.drop dataSpace).length ≤ amount * dataSpace := by
      rw [length_drop]
      omega
    rw [fragmentBodies, flatten_cons, ih hdrop]
    by_cases hlen : dataSpace ≤ body.length
    · have hpad : dataSpace - (body.take dataSpace).length = 0 := by
        rw [length_take]
        omega
      have hrest : amount * dataSpace - (body.drop dataSpace).length =
          amount * dataSpace + dataSpace - body.length := by
        rw [length_drop]
        omega
      simp only [padTo, hpad, hrest, replicate_zero, append_nil]
      rw [← append_assoc, take_append_drop]
    · have htake : body.take dataSpace = body := take_of_length_le (by omega)
      have hempty : body.drop dataSpace = [] := drop_eq_nil_of_le (by omega)
      have hzeros : amount * dataSpace + dataSpace - body.length =
          (dataSpace - body.length) + amount * dataSpace := by omega
      simp only [padTo, htake, hempty, hzeros, length_nil, Nat.sub_zero, nil_append, append_assoc,
        replicate_add]

def fragment (protocol : Protocol) (fragmentSize : UInt64) (flags : Flags) (body : List UInt8) :
    Bucket C where
  header := { fragmentHead protocol fragmentSize with flags := flags }
  body := body

def fragments (protocol : Protocol) (fragmentSize : UInt64) (first : List UInt8)
    (middle : List (List UInt8))
    (last : List UInt8) : List (Bucket C) :=
  fragment protocol fragmentSize .START_FRAGMENT first ::
    (middle.map (fragment protocol fragmentSize .empty) ++
      [fragment protocol fragmentSize .END_FRAGMENT last])

variable {protocol : Protocol} {fragmentSize : UInt64} {bucket : Bucket C}

theorem sum_length_fragments (first : List UInt8) (middle : List (List UInt8)) (last : List UInt8) :
    ((fragments (C := C) protocol fragmentSize first middle last).map (·.body.length)).sum =
      first.length + (middle.flatten.length + last.length) := by
  simp [fragments, fragment, length_flatten, Function.comp_def]

theorem toggleFlags_fragmentHead (flags : Flags) (body : List UInt8) :
    Bucket.toggleFlags flags { header :=
      (fragmentHead protocol fragmentSize : BucketHead C), body := body } =
      fragment protocol fragmentSize flags body := by
  simp [Bucket.toggleFlags, fragment, fragmentHead, toggle, empty]

theorem toNat_bodySize (hsize : HEADER_SIZE ≤ fragmentSize.toNat) :
    (fragmentSize - .ofNat HEADER_SIZE).toNat = fragmentSize.toNat - HEADER_SIZE := by
  have hheader : (UInt64.ofNat HEADER_SIZE).toNat = HEADER_SIZE := rfl
  rw [UInt64.toNat_sub_of_le _ _ (by rw [UInt64.le_iff_toNat_le, hheader]; exact hsize), hheader]

theorem asFlags_intersects (ty : MessageType) :
    ty.asFlags.intersects ⟨REQUEST.bits ||| RESPONSE.bits⟩ = true := by
  cases ty <;> decide

variable {ty : MessageType}

/-- The fragments of a bucket that does not fit in one: they all have the same size, and together
they hold the bucket with its header. -/
theorem fragmentBucket_of_lt (protocol : Protocol) (hsize : 2 * HEADER_SIZE ≤ fragmentSize.toNat)
    (hflags : bucket.header.flags = ty.asFlags)
      (hlong : fragmentSize.toNat < bucket.body.length + HEADER_SIZE) : ∃ first middle last padding,
      fragmentBucket protocol fragmentSize bucket =
        .ok (fragments protocol fragmentSize first middle last) ∧
      (∀ body ∈ first :: (middle ++ [last]), body.length = fragmentSize.toNat - HEADER_SIZE) ∧
      first ++ (middle.flatten ++ last) = bucket.header.toBytes ++
        (bucket.body ++ List.replicate padding 0) := by
  obtain ⟨size, hsizeEq⟩ : ∃ size, fragmentSize.toNat = size + HEADER_SIZE :=
    ⟨fragmentSize.toNat - HEADER_SIZE, by omega⟩
  have hpos : HEADER_SIZE ≤ size := by omega
  have hheader : HEADER_SIZE = 33 := rfl
  -- the number of fragments
  obtain ⟨amount, hamount⟩ :
    ∃ amount, (bucket.body.length + HEADER_SIZE + (size - 1)) / size = amount + 2 := by
    have htwo : 2 ≤ (bucket.body.length + HEADER_SIZE + (size - 1)) / size := by
      rw [Nat.le_div_iff_mul_le (by omega)]
      omega
    exact ⟨_, (Nat.sub_add_cancel htwo).symm⟩
  have hspace : bucket.body.length + HEADER_SIZE ≤ (amount + 2) * size := by
    have hlt := Nat.lt_div_mul_add (a := bucket.body.length + HEADER_SIZE + (size - 1)) (b := size)
        (by omega)
    rw [hamount] at hlt
    omega
  have hfirst : size - HEADER_SIZE ≤ bucket.body.length := by omega
  have hrest : (bucket.body.drop (size - HEADER_SIZE)).length ≤ (amount + 1) * size := by
    rw [length_drop]
    have hmul : (amount + 2) * size = (amount + 1) * size + size := by ring
    omega
  obtain ⟨middle, last, hbodies⟩ : ∃ middle last,
      fragmentBodies size (amount + 1) (bucket.body.drop (size - HEADER_SIZE)) = middle ++ [last] := by
    have hne : fragmentBodies size (amount + 1) (bucket.body.drop (size - HEADER_SIZE)) ≠ [] := by
      rw [← length_pos_iff, length_fragmentBodies]
      omega
    exact ⟨_, _, (dropLast_append_getLast hne).symm⟩
  refine ⟨bucket.header.toBytes ++ bucket.body.take (size - HEADER_SIZE), middle, last,
    (amount + 1) * size - (bucket.body.drop (size - HEADER_SIZE)).length, ?_, ?_, ?_⟩
  · have hspaceEq : size + HEADER_SIZE - HEADER_SIZE * 2 = size - HEADER_SIZE := by omega
    have hcount : amount + 2 - 1 = amount + 1 := rfl
    unfold fragmentBucket
    rw [hflags, asFlags_intersects, hsizeEq]
    simp only [Nat.add_sub_cancel, hspaceEq, hamount, hcount, hbodies]
    rw [if_neg (by simp), if_neg (by omega), map_cons, modifyHead_cons, map_append,
      map_singleton, ← cons_append, modifyLast_concat, toggleFlags_fragmentHead,
      toggleFlags_fragmentHead]
    rfl
  · intro body hbody
    rw [hsizeEq, Nat.add_sub_cancel]
    rcases mem_cons.mp hbody with rfl | hbody
    · rw [length_append, length_toBytes, length_take]
      omega
    · rw [← hbodies] at hbody
      exact length_of_mem_fragmentBodies hbody
  · have hflat := flatten_fragmentBodies hrest
    rw [hbodies, flatten_concat, padTo] at hflat
    rw [hflat]
    simp only [append_assoc]
    rw [← append_assoc (List.take _ _), take_append_drop]

variable {seen : Bool}

theorem decode_encode (hcmd : fromU32 (toU32 bucket.header.command) = bucket.header.command)
    (hfits : Fits protocol seen bucket.header) (hsize : bucket.header.size.toNat = bucket.body.length)
    (rest : List UInt8) : (idle protocol seen : LevinBucketCodec C).decode (encode bucket [] ++ rest) =
      (.ok (some bucket), idle protocol (seen || isHandshake bucket.header.command), rest) := by
  have hdec := decode_bucket hcmd hfits (bucket.body ++ rest) (by simp [hsize])
  rw [hsize, take_left, drop_left] at hdec
  simpa [encode] using hdec

theorem Fits.seen_or {head : BucketHead C} (h : Fits protocol seen head) (handshake : Bool) :
    Fits protocol (seen || handshake) head := by
  cases handshake with
  | false => simpa using h
  | true =>
    simp only [Fits, LevinBucketCodec.exceedsMaxSize, idle, Bool.or_eq_false_iff] at h ⊢
    exact ⟨h.1, by simp⟩

section Join

variable {seen : Bool} {bytes body : List UInt8}

theorem decode_fragment (flags : Flags) (hsize : HEADER_SIZE ≤ fragmentSize.toNat)
    (hfits : Fits protocol seen (fragmentHead protocol fragmentSize : BucketHead C))
    (hlen : body.length = fragmentSize.toNat - HEADER_SIZE) (rest : List UInt8) :
    (idle protocol seen : LevinBucketCodec C).decode
        (encode (fragment protocol fragmentSize flags body : Bucket C) [] ++ rest) =
      (.ok (some (fragment protocol fragmentSize flags body)),
        idle protocol (seen || isHandshake (fromU32 0 : C)), rest) := by
  have hcmd : fromU32 (toU32 (fragment (C := C) protocol fragmentSize flags body).header.command) =
      (fragment (C := C) protocol fragmentSize flags body).header.command := by
    simp only [fragment, fragmentHead, LevinCommand.toU32_fromU32]
  refine decode_encode hcmd hfits ?_ rest
  show (fragmentSize - .ofNat HEADER_SIZE).toNat = body.length
  rw [toNat_bodySize hsize, hlen]

variable [LevinBody T C]

theorem handle_start (codec : LevinBucketCodec C) (bytes : List UInt8)
    (hflags : bucket.header.flags = .START_FRAGMENT) (hbody : bucket.body = bytes) :
    handle (T := T) codec .waitingForBucket bucket =
      (.ok none, codec, .waitingForRestOfFragment bytes) := by
  have hdummy : START_FRAGMENT.contains .DUMMY = false := by decide
  have hend : START_FRAGMENT.contains .END_FRAGMENT = false := by decide
  have hstart : START_FRAGMENT.contains .START_FRAGMENT = true := by decide
  simp [handle, handleBucket, hflags, hbody, hdummy, hend, hstart]

theorem handle_middle (protocol : Protocol) (fragmentSize : UInt64) (codec : LevinBucketCodec C)
    (hmax : bytes.length + body.length ≤ maxFragmentedSize codec) :
    handle (T := T) codec (.waitingForRestOfFragment bytes)
        (fragment protocol fragmentSize .empty body) =
      (.ok none, codec, .waitingForRestOfFragment (bytes ++ body)) := by
  have hdummy : empty.contains .DUMMY = false := by decide
  have hend : empty.contains .END_FRAGMENT = false := by decide
  have hnot := not_lt.mpr hmax
  simp [handle, handleFragment, fragment, hdummy, hend, hnot]

theorem handle_end (protocol : Protocol) (fragmentSize : UInt64) (codec : LevinBucketCodec C)
    (hmax : bytes.length + body.length ≤ maxFragmentedSize codec) :
    handle (T := T) codec (.waitingForRestOfFragment bytes)
        (fragment protocol fragmentSize .END_FRAGMENT body) =
      handleFragmentedMessage codec (bytes ++ body) := by
  have hdummy : END_FRAGMENT.contains .DUMMY = false := by decide
  have hend : END_FRAGMENT.contains .END_FRAGMENT = true := by decide
  have hnot := not_lt.mpr hmax
  simp [handle, handleFragment, fragment, hdummy, hend, hnot]

/-- Fragments in the middle are added to the bytes that were received before. -/
theorem poll_middle (bytes : List UInt8) (middle : List (List UInt8))
    (hsize : HEADER_SIZE ≤ fragmentSize.toNat)
    (hfits : Fits protocol seen (fragmentHead protocol fragmentSize : BucketHead C))
    (hseen : (seen || isHandshake (fromU32 0 : C)) = seen)
    (hlen : ∀ body ∈ middle, body.length = fragmentSize.toNat - HEADER_SIZE)
    (hmax : bytes.length + middle.flatten.length ≤
      maxFragmentedSize (idle protocol seen : LevinBucketCodec C)) (rest : List UInt8) :
    (decoder T).poll ((idle protocol seen : LevinBucketCodec C), .waitingForRestOfFragment bytes)
        ((middle.map (fragment protocol fragmentSize .empty)).flatMap
          (encode (C := C) · []) ++ rest) =
      (decoder T).poll (idle protocol seen,
        .waitingForRestOfFragment (bytes ++ middle.flatten)) rest := by
  induction middle generalizing bytes with
  | nil => simp
  | cons body middle ih =>
    have hmax' : (bytes ++ body).length + middle.flatten.length ≤
        maxFragmentedSize (idle protocol seen : LevinBucketCodec C) := by
      rw [flatten_cons, length_append] at hmax
      rw [length_append]
      omega
    have hdec := decode_fragment .empty hsize hfits (hlen body (by simp))
      ((middle.map (fragment protocol fragmentSize .empty)).flatMap
        (encode (C := C) · []) ++ rest)
    rw [hseen] at hdec
    have hbody : bytes.length + body.length ≤ maxFragmentedSize
        (idle protocol seen : LevinBucketCodec C) := by
      rw [length_append] at hmax'
      omega
    have hpoll := poll_of_skip hdec (handle_middle (T := T) _ _ _ hbody)
    rw [map_cons, flatMap_cons, append_assoc, hpoll,
      ih _ (fun body' hmem => hlen body' (by simp [hmem])) hmax', flatten_cons, append_assoc]

/-- The bucket that was cut is read from the joined bytes, with the zeros behind it. -/
theorem handleFragmentedMessage_bucket (codec : LevinBucketCodec C)
    (hcmd : fromU32 (toU32 bucket.header.command) = bucket.header.command)
    (hty : fromFlagsAndHaveToReturn bucket.header.flags bucket.header.haveToReturnData = .ok ty)
    (hsize : bucket.header.size.toNat = bucket.body.length)
    (hlimit : bucket.header.size ≤ bucketSizeLimit bucket.header.command) (padding : Nat) :
    handleFragmentedMessage (T := T) codec
        (bucket.header.toBytes ++ (bucket.body ++ List.replicate padding 0)) =
      (some <$> decodeMessage (bucket.body ++ List.replicate padding 0) ty bucket.header.command,
        { codec with
          handshakeMessageSeen := codec.handshakeMessageSeen || isHandshake bucket.header.command },
        .waitingForBucket) := by
  have hlen : bucket.header.toBytes.length = HEADER_SIZE := length_toBytes _
  have htake : (bucket.header.toBytes ++ (bucket.body ++ List.replicate padding 0)).take HEADER_SIZE =
      bucket.header.toBytes := take_left' hlen
  have hdrop : (bucket.header.toBytes ++ (bucket.body ++ List.replicate padding 0)).drop HEADER_SIZE =
      bucket.body ++ List.replicate padding 0 := drop_left' hlen
  have hhead : (fromBytes bucket.header.toBytes).1 = bucket.header := by
    have hread := fromBytes_toBytes bucket.header hcmd []
    rw [append_nil] at hread
    rw [hread]
  have hlimit' : ¬ bucketSizeLimit bucket.header.command < bucket.header.size := UInt64.not_lt.mpr hlimit
  unfold handleFragmentedMessage
  rw [htake, hdrop, hhead]
  simp [hlimit', hsize, hty, hlen]

end Join

/-! ## The fragments of a message -/

/-- The fragments respect the limits of the codec: each of them, all of them together, and the
message. -/
structure WithinLimits (protocol : Protocol) (seen : Bool) (bucket : Bucket C)
    (buckets : List (Bucket C)) : Prop where
  fits : ∀ fragment ∈ buckets, Fits protocol seen fragment.header
  total : (buckets.map (·.body.length)).sum ≤ protocol.maxPacketSize.toNat
  total_before : seen = false →
    (buckets.map (·.body.length)).sum ≤ protocol.maxPacketSizeBeforeHandshake.toNat
  command : bucket.header.size ≤ bucketSizeLimit bucket.header.command

theorem WithinLimits.total_le {buckets : List (Bucket C)}
    (h : WithinLimits protocol seen bucket buckets) (handshake : Bool) :
      (buckets.map (·.body.length)).sum ≤
      maxFragmentedSize (idle protocol (seen || handshake) : LevinBucketCodec C) := by
  unfold maxFragmentedSize idle
  split_ifs with hseen
  · exact h.total
  · refine h.total_before ?_
    simp at hseen
    exact hseen.1

def delivered : Except BucketError T → List T × Option BucketError
  | .ok message => ([message], none)
  | .error e => ([], some e)

omit [LevinCommand C] in
theorem finish_spec {builder : BucketBuilder C} (h : builder.finish = some bucket) :
    ∃ ty : MessageType, bucket.header.flags = ty.asFlags ∧
      bucket.header.haveToReturnData = ty.haveToReturnData ∧
      bucket.header.size = .ofNat bucket.body.length := by
  unfold BucketBuilder.finish at h
  simp only [bind_eq_bind, bind_eq_some_iff] at h
  obtain ⟨body, -, ty, -, signature, -, command, -, returnCode, -, version, -, heq⟩ := h
  cases heq
  exact ⟨ty, rfl, rfl, rfl⟩

variable [LevinBody T C]

theorem toBucket_body_spec {message : T} (h : toBucket protocol (.body message) = .ok (some bucket)) :
    ∃ ty : MessageType, bucket.header.flags = ty.asFlags ∧
      bucket.header.haveToReturnData = ty.haveToReturnData ∧
      bucket.header.size = .ofNat bucket.body.length := by
  have h : BucketBuilder.finish <$> LevinBody.encode message (.new protocol : BucketBuilder C) =
    .ok (some bucket) := h
  cases hencode : LevinBody.encode message (.new protocol : BucketBuilder C) with
  | error e =>
    rw [hencode] at h
    cases h
  | ok builder =>
    rw [hencode] at h
    exact finish_spec (ok.inj h)

theorem decodeAll_of_handle {codec codec' codec'' : LevinBucketCodec C} {state : MessageState}
    {src : List UInt8}
    {result : Except BucketError T} (hdec : codec.decode src = (.ok (some bucket), codec', []))
    (hhandle : handle codec' state bucket = (some <$> result, codec'', .waitingForBucket))
    (hst : codec''.state = .waitingForHeader) :
    decodeAll T (codec, state) src = delivered result := by
  cases result with
  | error e =>
    have hpoll := poll_of_refused (T := T) hdec hhandle
    rw [decodeAll, Decoder.drain_of_error hpoll]
    rfl
  | ok message =>
    have hpoll := poll_of_message (T := T) hdec hhandle
    rw [decodeAll, Decoder.drain_of_item hpoll, drain_nil hst .waitingForBucket]
    rfl

theorem decodeAll_bucket
    (hcmd : fromU32 (toU32 bucket.header.command) = bucket.header.command)
      (hfits : Fits protocol seen bucket.header)
    (hsize : bucket.header.size.toNat = bucket.body.length) (hflags : bucket.header.flags = ty.asFlags)
    (hret : bucket.header.haveToReturnData = ty.haveToReturnData) :
    decodeAll T ((idle protocol seen : LevinBucketCodec C), .waitingForBucket)
        (encode bucket []) =
      delivered (decodeMessage bucket.body ty bucket.header.command) := by
  have hdec := decode_encode hcmd hfits hsize []
  rw [append_nil] at hdec
  obtain ⟨hdummy, hend, hstart⟩ := asFlags_ordinary ty
  have hhandle (codec : LevinBucketCodec C) : handle (T := T) codec .waitingForBucket bucket =
      (some <$> decodeMessage bucket.body ty bucket.header.command, codec, .waitingForBucket) := by
    simp [handle, handleBucket, hflags, hret, hdummy, hend, hstart, fromFlags_asFlags, bind, Except.bind]
  exact decodeAll_of_handle hdec (hhandle _) rfl

/-- Fragments are decoded as the one message that was cut. -/
theorem decodeAll_fragments {first last : List UInt8} {middle : List (List UInt8)}
    {padding : Nat} (hsize : HEADER_SIZE ≤ fragmentSize.toNat)
    (hcmd : fromU32 (toU32 bucket.header.command) = bucket.header.command)
    (hty : fromFlagsAndHaveToReturn bucket.header.flags bucket.header.haveToReturnData = .ok ty)
    (hbody : bucket.header.size.toNat = bucket.body.length)
    (hlen : ∀ body ∈ first :: (middle ++ [last]), body.length = fragmentSize.toNat - HEADER_SIZE)
    (hjoin : first ++ (middle.flatten ++ last) = bucket.header.toBytes ++
      (bucket.body ++ List.replicate padding 0))
    (hlimits : WithinLimits protocol seen bucket (fragments protocol fragmentSize first middle last)) :
    decodeAll T ((idle protocol seen : LevinBucketCodec C), .waitingForBucket)
        ((fragments protocol fragmentSize first middle last).flatMap
          (encode (C := C) · [])) =
      delivered (decodeMessage (bucket.body ++ List.replicate padding 0) ty bucket.header.command) := by
  -- after the first fragment
  set seen' := seen || isHandshake (fromU32 0 : C) with hseen'
  have hfits : Fits protocol seen (fragmentHead protocol fragmentSize : BucketHead C) :=
    hlimits.fits (fragment protocol fragmentSize .START_FRAGMENT first) (by simp [fragments])
  have hfits' : Fits protocol seen' (fragmentHead protocol fragmentSize : BucketHead C) := hfits.seen_or _
  have hstable : (seen' || isHandshake (fromU32 0 : C)) = seen' := by simp [hseen']
  have hmax : first.length + (middle.flatten.length + last.length) ≤
      maxFragmentedSize (idle protocol seen' : LevinBucketCodec C) := by
    rw [← sum_length_fragments (C := C)]
    exact hlimits.total_le (isHandshake (fromU32 0 : C))
  have hstart := poll_of_skip
    (decode_fragment .START_FRAGMENT hsize hfits (hlen first (by simp))
      ((middle.map (fragment protocol fragmentSize .empty) ++
        [fragment protocol fragmentSize .END_FRAGMENT last]).flatMap
          (encode (C := C) · [])))
    (handle_start (T := T) _ first rfl rfl)
  have hmiddle := poll_middle (T := T) first middle hsize hfits' hstable
    (fun body hmem => hlen body (by simp [hmem])) (by omega)
    (encode (fragment protocol fragmentSize .END_FRAGMENT last : Bucket C) [])
  have hlast := decode_fragment (C := C) .END_FRAGMENT hsize hfits' (hlen last (by simp)) []
  rw [hstable, append_nil] at hlast
  have hjoined : (first ++ middle.flatten).length + last.length ≤
      maxFragmentedSize (idle protocol seen' : LevinBucketCodec C) := by
    rw [length_append]
    omega
  have hend := handle_end (T := T) protocol fragmentSize _ hjoined
  rw [append_assoc, hjoin, handleFragmentedMessage_bucket (T :=
    T) _ hcmd hty hbody hlimits.command padding] at hend
  rw [fragments, flatMap_cons, decodeAll, Decoder.drain_eq_of_poll_eq hstart,
    flatMap_append, flatMap_singleton, Decoder.drain_eq_of_poll_eq hmiddle]
  exact decodeAll_of_handle hlast hend rfl

def padded (fragmentSize : UInt64) (bucket : Bucket C) : Bucket C where
  header := { bucket.header with size := fragmentSize - .ofNat HEADER_SIZE }
  body := padTo (fragmentSize.toNat - HEADER_SIZE) bucket.body

omit [LevinBody T C] in
theorem fragmentBucket_of_le (hsize : HEADER_SIZE ≤ fragmentSize.toNat) {ty : MessageType}
    (hflags : bucket.header.flags = ty.asFlags) (hbody : bucket.header.size = .ofNat bucket.body.length)
    (hshort : bucket.body.length + HEADER_SIZE ≤ fragmentSize.toNat) :
    fragmentBucket protocol fragmentSize bucket = .ok [padded fragmentSize bucket] := by
  unfold fragmentBucket padded
  rw [hflags, asFlags_intersects]
  simp only [Bool.not_true, Bool.false_eq_true, if_false]
  rw [if_pos hshort]
  by_cases hlt : bucket.body.length + HEADER_SIZE < fragmentSize.toNat
  · rw [if_pos hlt]
  · have hlen : fragmentSize.toNat - HEADER_SIZE = bucket.body.length := by omega
    have hsizeEq : fragmentSize - .ofNat HEADER_SIZE = bucket.header.size := by
      rw [hbody, ← hlen, ← toNat_bodySize hsize, UInt64.ofNat_toNat]
    rw [if_neg hlt, hsizeEq, hlen]
    simp [padTo]

theorem makeFragmentedMessages_spec {message : T} {buckets : List (Bucket C)}
    (hbucket : toBucket protocol (.body message) = .ok (some bucket))
    (h : makeFragmentedMessages protocol fragmentSize message = .ok (some buckets)) :
    2 * HEADER_SIZE ≤ fragmentSize.toNat ∧ fragmentBucket protocol fragmentSize bucket = .ok buckets := by
  unfold makeFragmentedMessages at h
  rw [hbucket] at h
  split_ifs at h with hsize
  · simp at h
  · have h : some <$> fragmentBucket protocol fragmentSize bucket = .ok (some buckets) := h
    refine ⟨by omega, ?_⟩
    cases hfragment : fragmentBucket protocol fragmentSize bucket with
    | error e =>
      rw [hfragment] at h
      cases h
    | ok buckets' =>
      rw [hfragment] at h
      exact congrArg Except.ok (some.inj (ok.inj h))

omit [LevinBody T C] in
theorem length_encode_of_length_body {body : List UInt8} {size : Nat} (head : BucketHead C)
    (hsize : HEADER_SIZE ≤ size) (hlen : body.length = size - HEADER_SIZE) :
    (encode { header := head, body := body } []).length = size := by
  simp only [encode, nil_append, length_append, length_toBytes, hlen]
  omega

omit [LevinBody T C] in
theorem mem_fragments {first last : List UInt8} {middle : List (List UInt8)} {b : Bucket C}
    (h : b ∈ fragments protocol fragmentSize first middle last) :
    ∃ flags body, b = fragment protocol fragmentSize flags body ∧ body ∈ first :: (middle ++ [last]) ∧
      flags.contains .DUMMY = false := by
  simp only [fragments, mem_cons, mem_append, List.mem_map, not_mem_nil, or_false] at h
  rcases h with rfl | ⟨body, hbody, rfl⟩ | rfl
  · exact ⟨_, first, rfl, by simp, by decide⟩
  · exact ⟨_, body, rfl, by simp [hbody], by decide⟩
  · exact ⟨_, last, rfl, by simp, by decide⟩

/-- All buckets that are sent for a message have the given size and none is a dummy. If one is
enough it has the flags of the message; otherwise the first has the start flag and the last the end
flag. The peer decodes the body with zeros at its end, as one message of the same type and
command. -/
theorem decodeAll_makeFragmentedMessages (protocol : Protocol) (fragmentSize : UInt64) (message : T)
    (bucket : Bucket C) (buckets : List (Bucket C)) (seen : Bool)
    (hbucket : toBucket protocol (.body message) = .ok (some bucket))
    (hcmd : fromU32 (toU32 bucket.header.command) = bucket.header.command)
    (hmake : makeFragmentedMessages protocol fragmentSize message = .ok (some buckets))
    (hlimits : WithinLimits protocol seen bucket buckets) :
    (∀ b ∈ buckets, (encode b []).length = fragmentSize.toNat) ∧
    (∀ b ∈ buckets, b.header.flags.contains .DUMMY = false) ∧
    (bucket.body.length + HEADER_SIZE ≤ fragmentSize.toNat →
      ∃ b, buckets = [b] ∧ b.header.flags = bucket.header.flags ∧
        b.header.flags.contains .START_FRAGMENT = false ∧
        b.header.flags.contains .END_FRAGMENT = false) ∧
    (fragmentSize.toNat < bucket.body.length + HEADER_SIZE →
      ∃ first middle last, buckets = first :: (middle ++ [last]) ∧
        first.header.flags.contains .START_FRAGMENT ∧ last.header.flags.contains .END_FRAGMENT) ∧
    ∃ ty padding, fromFlagsAndHaveToReturn bucket.header.flags bucket.header.haveToReturnData = .ok ty ∧
      decodeAll T ((idle protocol seen : LevinBucketCodec C), .waitingForBucket)
          (buckets.flatMap (encode · [])) =
        delivered (decodeMessage (bucket.body ++ List.replicate padding 0) ty bucket.header.command) := by
  obtain ⟨ty, hflags, hret, hsizeEq⟩ := toBucket_body_spec hbucket
  obtain ⟨hsize, hfragment⟩ := makeFragmentedMessages_spec hbucket hmake
  have hheader : HEADER_SIZE ≤ fragmentSize.toNat := by omega
  have hty : fromFlagsAndHaveToReturn bucket.header.flags bucket.header.haveToReturnData = .ok ty := by
    rw [hflags, hret, fromFlags_asFlags]
  by_cases hfit : bucket.body.length + HEADER_SIZE ≤ fragmentSize.toNat
  · rw [fragmentBucket_of_le hheader hflags hsizeEq hfit] at hfragment
    cases hfragment
    have hpadded : (padded fragmentSize bucket).body.length = fragmentSize.toNat - HEADER_SIZE :=
      length_padTo (by omega)
    obtain ⟨hdummy, hend, hstart⟩ := asFlags_ordinary ty
    refine ⟨?_, ?_, fun _ => ⟨_, rfl, rfl, hflags ▸ hstart, hflags ▸ hend⟩, fun hlong =>
      absurd hfit (by omega), ty,
      fragmentSize.toNat - HEADER_SIZE - bucket.body.length, hty, ?_⟩
    · intro b hb
      obtain rfl := mem_singleton.mp hb
      exact length_encode_of_length_body _ hheader hpadded
    · intro b hb
      obtain rfl := mem_singleton.mp hb
      simp [padded, hflags, hdummy]
    · have hsizeNat : (padded fragmentSize bucket).header.size.toNat =
          (padded fragmentSize bucket).body.length := by
        rw [hpadded]
        exact toNat_bodySize hheader
      rw [flatMap_singleton]
      exact decodeAll_bucket hcmd (hlimits.fits _ (by simp)) hsizeNat hflags hret
  · obtain ⟨first, middle, last, padding, hcut, hlen, hjoin⟩ :=
      fragmentBucket_of_lt protocol hsize hflags (not_le.mp hfit)
    obtain rfl := ok.inj (hcut.symm.trans hfragment)
    -- the message is not longer than its fragments, so the size in its header does not wrap
    have hbody : bucket.header.size.toNat = bucket.body.length := by
      have htotal := hlimits.total
      have hjoined := congrArg List.length hjoin
      have hmax := protocol.maxPacketSize.toNat_lt
      rw [sum_length_fragments] at htotal
      simp only [length_append, length_toBytes] at hjoined
      rw [hsizeEq, UInt64.toNat_ofNat_of_lt']
      simp only [UInt64.size]
      omega
    refine ⟨?_, ?_, fun hshort => absurd hshort hfit, fun _ => ⟨_, _, _, rfl, ?_, ?_⟩, ty, padding, hty,
      decodeAll_fragments hheader hcmd hty hbody hlen hjoin hlimits⟩
    · intro b hb
      obtain ⟨flags, body, rfl, hmem, -⟩ := mem_fragments hb
      exact length_encode_of_length_body _ hheader (hlen body hmem)
    · intro b hb
      obtain ⟨flags, body, rfl, -, hdummy⟩ := mem_fragments hb
      exact hdummy
    · show START_FRAGMENT.contains .START_FRAGMENT = true
      decide
    · show END_FRAGMENT.contains .END_FRAGMENT = true
      decide

def longBucket : Bucket TestCommands where
  header := { emptyBucket.header with size := 40 }
  body := leBytes 8 32 ++ List.replicate 32 0

def longFragments : List (Bucket TestCommands) :=
  fragments .default 66 longBucket.header.toBytes [longBucket.body.take 33]
    (padTo 33 (longBucket.body.drop 33))

theorem longFragments_withinLimits : WithinLimits .default false longBucket longFragments := by
  constructor
  · intro b hb
    obtain ⟨flags, body, rfl, -, -⟩ := mem_fragments hb
    show (idle .default false).exceedsMaxSize (fragmentHead .default 66 : BucketHead TestCommands) = false
    decide
  · decide
  · decide
  · decide

theorem decodeAll_longFragments : ∃ ty padding, decodeAll TestBody (idle .default false, .waitingForBucket)
        (longFragments.flatMap (encode · [])) =
      delivered (decodeMessage (longBucket.body ++ List.replicate padding 0)
        ty longBucket.header.command) := by
  obtain ⟨-, -, -, -, ty, padding, -, hdecode⟩ :=
    decodeAll_makeFragmentedMessages .default 66 (TestBody.bytes 32 (List.replicate 32 0)) longBucket
      longFragments false rfl rfl rfl longFragments_withinLimits
  exact ⟨ty, padding, hdecode⟩

/-- A message that fits in one bucket is sent without the start and end flags. -/
theorem makeFragmentedMessages_emptyBucket :
    toBucket .default (.body (TestBody.bytes 0 [])) = .ok (some emptyBucket) ∧
    makeFragmentedMessages .default 66 (TestBody.bytes 0 []) = .ok (some [padded 66 emptyBucket]) ∧
    WithinLimits .default false emptyBucket [padded 66 emptyBucket] ∧
    (padded 66 emptyBucket).header.flags.contains .START_FRAGMENT = false ∧
    (padded 66 emptyBucket).header.flags.contains .END_FRAGMENT = false := by
  refine ⟨rfl, rfl, ?_, by decide, by decide⟩
  constructor
  · intro b hb
    obtain rfl := mem_singleton.mp hb
    unfold Fits
    decide
  · decide
  · decide
  · decide

end Cuprate.Levin
