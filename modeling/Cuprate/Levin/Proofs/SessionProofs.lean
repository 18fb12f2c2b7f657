import Cuprate.Levin.Session
import Cuprate.Levin.Proofs.FragmentProofs

/-!
# The limits of a session

Before a handshake a codec accepts small buckets only, and both limits also hold for the bytes it
keeps of a fragmented message. The larger limit is in force as soon as the *header* of a bucket with
a handshake command was accepted.
-/

namespace Cuprate.Levin

open Cuprate.Stream Cuprate.Collections Relation List UInt64 Protocol LevinBucketCodec LevinMessageCodec
open LevinBucketCodec (encode decoder)
open Decoder (throughN drainN)

variable {T C : Type} [LevinCommand C]

/-! ## What the decoders let pass -/

namespace LevinBucketCodec

theorem decode_cases (codec : LevinBucketCodec C) (src : List UInt8) :
    (∃ result rest, codec.decode src = (result, codec, rest) ∧ codec.acceptedHeader src = none ∧
      ∀ bucket, result ≠ .ok (some bucket)) ∨
    (∃ head rest, codec.acceptedHeader src = some head ∧ codec.exceedsMaxSize head = false ∧
      codec.state = .waitingForHeader ∧ codec.decode src = (codec.acceptHead head).decodeBody head rest) ∨
    ∃ head, codec.acceptedHeader src = none ∧ codec.state = .waitingForBody head ∧
      codec.decode src = codec.decodeBody head src := by
  cases hst : codec.state with
  | waitingForBody head =>
      exact .inr (.inr ⟨head, by simp [acceptedHeader, hst], rfl, decode_waitingForBody hst src⟩)
  | waitingForHeader =>
    by_cases hlen : src.length < HEADER_SIZE
    · refine .inl ⟨_, _, decode_short hst hlen, ?_, by simp⟩
      simp [acceptedHeader, hst, hlen]
    · have hdecode := decode_header hst (Nat.le_of_not_lt hlen)
      by_cases hex : codec.exceedsMaxSize (BucketHead.fromBytes src).1 = true
      · rw [if_pos hex] at hdecode
        refine .inl ⟨_, _, hdecode, ?_, by simp⟩
        simp [acceptedHeader, hst, hex]
      · rw [if_neg hex] at hdecode
        refine .inr (.inl ⟨_, _, ?_, by simpa using hex, rfl, hdecode⟩)
        simp [acceptedHeader, hst, hlen, hex]

omit [LevinCommand C] in
theorem decodeBody_cases (codec : LevinBucketCodec C) (head : BucketHead C) (src : List UInt8) :
    codec.decodeBody head src = (.ok none, codec, src) ∨
    ∃ body rest, body.length = head.size.toNat ∧ codec.decodeBody head src =
      (.ok (some { header := head, body := body }), { codec with state := .waitingForHeader }, rest) := by
  by_cases hlen : src.length < head.size.toNat
  · exact .inl (if_pos hlen)
  · refine .inr ⟨_, _, ?_, if_neg hlen⟩
    rw [length_take]
    omega

end LevinBucketCodec

def HandshakeIn (history : List (Event C)) : Prop :=
  ∃ e ∈ history, e.isHandshake = true

theorem handshakeIn_concat {history : List (Event C)} {e : Event C} :
    HandshakeIn (history ++ [e]) ↔ HandshakeIn history ∨ e.isHandshake = true := by
  simp [HandshakeIn, or_and_right, exists_or]

/-- The size in a header is below the limits that are in force after a history. -/
structure Admitted (protocol : Protocol) (history : List (Event C)) (head : BucketHead C) : Prop where
  max : head.size ≤ protocol.maxPacketSize
  command : head.size ≤ bucketSizeLimit head.command
  before_handshake : ¬ HandshakeIn history → head.size ≤ protocol.maxPacketSizeBeforeHandshake

/-- What is let pass respects the limits; a bucket comes right after its header. -/
def Checked (protocol : Protocol) (history : List (Event C)) : Event C → Prop
  | .header head => Admitted protocol history head
  | .bucket bucket => ∃ earlier, history = earlier ++ [.header bucket.header]
  | .fragmented head => Admitted protocol history head

structure BucketInv (protocol : Protocol) (codec : LevinBucketCodec C) (history : List (Event C)) :
    Prop where
  protocol_eq : codec.protocol = protocol
  seen : codec.handshakeMessageSeen = true ↔ HandshakeIn history
  waiting : ∀ head, codec.state = .waitingForBody head → ∃ earlier, history = earlier ++ [.header head]
  checked : Along (Checked protocol) history

namespace BucketInv

variable {protocol : Protocol} {codec : LevinBucketCodec C} {history : List (Event C)}
    {head : BucketHead C}

section
variable (h : BucketInv protocol codec history)
include h

theorem admitted (hfits : codec.exceedsMaxSize head = false) : Admitted protocol history head := by
  simp only [exceedsMaxSize, h.protocol_eq, Bool.or_eq_false_iff, Bool.and_eq_false_iff,
    Bool.not_eq_false', decide_eq_false_iff_not, UInt64.not_lt] at hfits
  obtain ⟨⟨hmax, hcommand⟩, hbefore⟩ := hfits
  refine ⟨hmax, hcommand, ?_⟩
  intro hnot
  rcases hbefore with hseen | hbefore
  · exact absurd (h.seen.mp hseen) hnot
  · exact hbefore

theorem acceptHead (hfits : codec.exceedsMaxSize head = false) :
    BucketInv protocol (codec.acceptHead head) (history ++ [.header head]) where
  protocol_eq := h.protocol_eq
  seen := by
    rw [handshakeIn_concat, ← h.seen]
    simp [LevinBucketCodec.acceptHead, Event.isHandshake]
  waiting := by
    intro head' hst
    obtain rfl : head = head' := by simpa [LevinBucketCodec.acceptHead] using hst
    exact ⟨history, rfl⟩
  checked := h.checked.concat (h.admitted hfits)

theorem deliver (hst : codec.state = .waitingForBody head) (body : List UInt8) :
    BucketInv protocol { codec with state := .waitingForHeader }
      (history ++ [.bucket { header := head, body := body }]) where
  protocol_eq := h.protocol_eq
  seen := by
    rw [handshakeIn_concat, ← h.seen]
    simp [Event.isHandshake]
  waiting := by
    intro head' hst'
    cases hst'
  checked := h.checked.concat (h.waiting head hst)

theorem size_le (hst : codec.state = .waitingForBody head) :
    head.size.toNat ≤ maxFragmentedSize codec := by
  obtain ⟨earlier, rfl⟩ := h.waiting head hst
  have hadmitted : Admitted protocol earlier head := h.checked earlier (.header head) [] rfl
  unfold maxFragmentedSize
  rw [h.protocol_eq]
  split_ifs with hseen
  · exact le_iff_toNat_le.mp hadmitted.max
  · refine le_iff_toNat_le.mp (hadmitted.before_handshake ?_)
    intro hearlier
    exact hseen (h.seen.mpr (handshakeIn_concat.mpr (.inl hearlier)))

end

end BucketInv

/-- The bytes kept of a fragmented message respect the limit in force. -/
def Held (codec : LevinBucketCodec C) (state : MessageState) : Prop :=
  ∀ bytes, state = .waitingForRestOfFragment bytes → bytes.length ≤ maxFragmentedSize codec

omit [LevinCommand C] in
theorem Held.mono {codec codec' : LevinBucketCodec C} {state : MessageState} (h : Held codec state)
    (hprotocol : codec'.protocol = codec.protocol)
    (hseen : codec.handshakeMessageSeen = true → codec'.handshakeMessageSeen = true)
    (hle : codec.protocol.maxPacketSizeBeforeHandshake ≤ codec.protocol.maxPacketSize) :
    Held codec' state := by
  intro bytes hst
  have hbytes := h bytes hst
  have hle := le_iff_toNat_le.mp hle
  unfold maxFragmentedSize at hbytes ⊢
  rw [hprotocol]
  by_cases hold : codec.handshakeMessageSeen = true
  · rw [if_pos hold] at hbytes
    rw [if_pos (hseen hold)]
    exact hbytes
  · rw [if_neg hold] at hbytes
    split_ifs <;> omega

section Handle

variable [LevinBody T C]

/-- What a call of the message codec's loop does with a bucket: it completes a fragmented message,
or the bucket codec stays as it is. -/
theorem handle_cases (codec : LevinBucketCodec C) (state : MessageState) (bucket : Bucket C) :
    (completedHeader codec state bucket = none ∧
      ∃ state', (handle (T := T) codec state bucket).2 = (codec, state') ∧
      ∀ bytes, state' = .waitingForRestOfFragment bytes →
        state = .waitingForRestOfFragment bytes ∨ bytes = bucket.body ∨
          bytes.length ≤ maxFragmentedSize codec) ∨
    ∃ head, completedHeader codec state bucket = some head ∧ (handle (T := T) codec state bucket).2 =
        ({ codec with handshakeMessageSeen := codec.handshakeMessageSeen || isHandshake head.command },
          .waitingForBucket) ∧
      head.size ≤ bucketSizeLimit head.command ∧ head.size.toNat ≤ maxFragmentedSize codec := by
  cases state with
  | waitingForBucket =>
    refine .inl ⟨rfl, ?_⟩
    simp only [handle, handleBucket]
    split_ifs
    all_goals refine ⟨_, rfl, ?_⟩
    · simp
    · simp
    · intro bytes hst
      exact .inr (.inl (MessageState.waitingForRestOfFragment.inj hst).symm)
    · simp
  | waitingForRestOfFragment bytes =>
    simp only [handle, handleFragment, completedHeader]
    by_cases hdummy : bucket.header.flags.contains .DUMMY = true
    · refine .inl ⟨by simp [hdummy], _, by rw [if_pos hdummy], by simp⟩
    rw [if_neg hdummy]
    by_cases hmax : maxFragmentedSize codec < bytes.length + bucket.body.length
    · refine .inl ⟨by simp [hmax], _, by rw [if_pos hmax], by simp⟩
    rw [if_neg hmax]
    by_cases hend : bucket.header.flags.contains .END_FRAGMENT = true
    · rw [if_pos hend, handleFragmentedMessage]
      set combined := bytes ++ bucket.body with hcombined
      have hlen : combined.length = bytes.length + bucket.body.length := length_append
      by_cases hshort : combined.length < HEADER_SIZE
      · exact .inl ⟨by simp [hshort], _, by rw [if_pos hshort], by simp⟩
      rw [if_neg hshort]
      set head : BucketHead C := (BucketHead.fromBytes (combined.take HEADER_SIZE)).1
      by_cases hlimit : bucketSizeLimit head.command < head.size
      · exact .inl ⟨by simp [hlimit], .waitingForBucket, by simp [hlimit], by simp⟩
      by_cases hsize : combined.length - HEADER_SIZE < head.size.toNat
      · exact .inl ⟨by simp [hsize], .waitingForBucket, by simp [hlimit, hsize], by simp⟩
      cases hty : MessageType.fromFlagsAndHaveToReturn head.flags head.haveToReturnData with
      | error e => exact .inl ⟨by simp [Except.toOption], .waitingForBucket,
          by simp [hlimit, hsize, hty], by simp⟩
      | ok ty =>
        refine .inr ⟨head, ?_, by simp [hlimit, hsize, hty], UInt64.not_lt.mp hlimit, by omega⟩
        simp [hdummy, hend, hlen, hmax, hlimit, Except.toOption]
        omega
    · rw [if_neg hend]
      refine .inl ⟨by simp [hend], _, rfl, ?_⟩
      intro bytes' hst
      cases hst
      rw [length_append]
      exact .inr (.inr (by omega))

/-- The handler of buckets keeps the limits and what was recorded. -/
theorem BucketInv.handle {protocol : Protocol} {codec : LevinBucketCodec C} {history : List (Event C)}
    (h : BucketInv protocol codec history)
      (hle : protocol.maxPacketSizeBeforeHandshake ≤ protocol.maxPacketSize)
    (state : MessageState) (hheld : Held codec state) (bucket : Bucket C)
      (hst : codec.state = .waitingForHeader)
    (hbody : bucket.body.length ≤ maxFragmentedSize codec) :
    BucketInv protocol (Levin.handle (T := T) codec state bucket).2.1
        (history ++ ((completedHeader codec state bucket).map .fragmented).toList) ∧
      Held (Levin.handle (T := T) codec state bucket).2.1
        (Levin.handle (T := T) codec state bucket).2.2 := by
  rcases handle_cases (T := T) codec state bucket with
    ⟨hnone, state', heq, hstate'⟩ | ⟨head, hsome, heq, hcommand, hsize⟩
  · rw [hnone, heq]
    refine ⟨by simpa using h, ?_⟩
    intro bytes hbytes
    rcases hstate' bytes hbytes with hsame | rfl | hlen
    · exact hheld bytes hsame
    · exact hbody
    · exact hlen
  · rw [hsome, heq]
    refine ⟨?_, by intro bytes hbytes; exact nomatch hbytes⟩
    have hadmitted : Admitted protocol history head := by
      have hle := le_iff_toNat_le.mp hle
      unfold maxFragmentedSize at hsize
      rw [h.protocol_eq] at hsize
      refine ⟨le_iff_toNat_le.mpr ?_, hcommand, ?_⟩
      · split_ifs at hsize <;> omega
      · intro hnot
        rw [if_neg (fun hseen => hnot (h.seen.mp hseen))] at hsize
        exact le_iff_toNat_le.mpr hsize
    refine ⟨h.protocol_eq, ?_, ?_, h.checked.concat hadmitted⟩
    · simp only [Option.map_some, Option.toList_some]
      rw [handshakeIn_concat, ← h.seen]
      simp [Event.isHandshake]
    · intro head' hst'
      rw [hst] at hst'
      cases hst'

end Handle

/-! ## Runs -/

namespace Session

variable [LevinBody T C] {s s' : Session T C} {codec : LevinBucketCodec C} {rest : List UInt8}
  {protocol : Protocol}

theorem iterate_of_bucket {bucket : Bucket C}
    (h : s.codec.1.decode s.buffer = (.ok (some bucket), codec, rest)) :
    s.iterate = handleNext { s with
      codec := (codec, s.codec.2)
      buffer := rest
      history := s.history ++ ((s.codec.1.acceptedHeader s.buffer).map .header).toList ++
        [.bucket bucket] }
      bucket := by
  simp only [iterate, h]

theorem iterate_of_other {result : Except BucketError (Option (Bucket C))}
    (h : s.codec.1.decode s.buffer = (result, codec, rest))
      (hresult : ∀ bucket, result ≠ .ok (some bucket)) : s.iterate = { s with
      codec := (codec, s.codec.2)
      buffer := rest
      history := s.history ++ ((s.codec.1.acceptedHeader s.buffer).map .header).toList } := by
  rcases result with e | (_ | bucket)
  · simp only [iterate, h]
  · simp only [iterate, h]
  · exact absurd rfl (hresult bucket)

theorem iterate_of_skip {bucket : Bucket C} {codec' : LevinMessageCodec C}
    (h : s.codec.1.decode s.buffer = (.ok (some bucket), codec, rest))
    (hhandle : handle (T := T) codec s.codec.2 bucket = (.ok none, codec')) :
    s.iterate.codec = codec' ∧ s.iterate.buffer = rest ∧ s.iterate.messages = s.messages := by
  rw [iterate_of_bucket h]
  simp [handleNext, hhandle]

/-- The codec and the record of what it let pass agree, and fragments respect the limit in force. -/
structure Inv (protocol : Protocol) (s : Session T C) : Prop where
  bucket : BucketInv protocol s.codec.1 s.history
  held : Held s.codec.1 s.codec.2

omit [LevinBody T C] in
theorem inv_new (protocol : Protocol) : Inv protocol (new protocol : Session T C) where
  bucket := {
    protocol_eq := rfl
    seen := by simp [new, LevinMessageCodec.new, LevinBucketCodec.new, HandshakeIn]
    waiting := nofun
    checked := .nil }
  held := nofun

theorem inv_iterate_body (hle : protocol.maxPacketSizeBeforeHandshake ≤ protocol.maxPacketSize)
    {head : BucketHead C}
    {src : List UInt8} (hinv : BucketInv protocol codec
      (s.history ++ ((s.codec.1.acceptedHeader s.buffer).map .header).toList))
    (hheld : Held codec s.codec.2) (hst : codec.state = .waitingForBody head)
    (h : s.codec.1.decode s.buffer = codec.decodeBody head src) : Inv protocol s.iterate := by
  rcases codec.decodeBody_cases head src with hbody | ⟨body, rest, hlen, hbody⟩
  · rw [iterate_of_other (h.trans hbody) (by simp)]
    exact ⟨hinv, hheld⟩
  · rw [iterate_of_bucket (h.trans hbody)]
    have hmax : body.length ≤ maxFragmentedSize codec := by
      rw [hlen]
      exact hinv.size_le hst
    obtain ⟨hbucket, hheld'⟩ := (hinv.deliver hst body).handle (T := T) hle s.codec.2 hheld
      { header := head, body := body } rfl hmax
    exact ⟨hbucket, hheld'⟩

theorem Inv.iterate (h : Inv protocol s)
    (hle : protocol.maxPacketSizeBeforeHandshake ≤ protocol.maxPacketSize) :
    Inv protocol s.iterate := by
  rcases s.codec.1.decode_cases s.buffer with ⟨result, rest, hdec, hnone, hresult⟩ |
    ⟨head, rest, hsome, hfits, hst, hdec⟩ | ⟨head, hnone, hst, hdec⟩
  · rw [iterate_of_other hdec hresult, hnone]
    exact ⟨by simpa using h.bucket, h.held⟩
  · have hheld : Held (s.codec.1.acceptHead head) s.codec.2 := by
      refine h.held.mono rfl ?_ (by rw [h.bucket.protocol_eq]; exact hle)
      intro hseen
      simp [acceptHead, hseen]
    refine inv_iterate_body hle ?_ hheld rfl hdec
    rw [hsome]
    exact h.bucket.acceptHead hfits
  · refine inv_iterate_body hle ?_ h.held hst hdec
    rw [hnone]
    simpa using h.bucket

theorem Inv.step (h : Inv protocol s)
    (hle : protocol.maxPacketSizeBeforeHandshake ≤ protocol.maxPacketSize)
    (hstep : Step s s') :
    Inv protocol s' := by
  cases hstep with
  | receive chunk => exact ⟨h.bucket, h.held⟩
  | iterate => exact h.iterate hle

theorem Inv.steps (h : Inv protocol s)
    (hle : protocol.maxPacketSizeBeforeHandshake ≤ protocol.maxPacketSize)
    (hsteps : ReflTransGen Step s s') :
    Inv protocol s' := by
  induction hsteps with
  | refl => exact h
  | tail _ hstep ih => exact ih.step hle hstep

theorem Step.history (h : Step s s') : s.history <+: s'.history := by
  cases h with
  | receive chunk => exact prefix_rfl
  | iterate =>
    rcases hdec : s.codec.1.decode s.buffer with ⟨result, codec, rest⟩
    rcases result with e | (_ | bucket)
    · rw [iterate_of_other hdec (by simp)]
      exact prefix_append _ _
    · rw [iterate_of_other hdec (by simp)]
      exact prefix_append _ _
    · rw [iterate_of_bucket hdec]
      simp only [handleNext, append_assoc]
      exact prefix_append _ _

theorem history_of_steps (h : ReflTransGen Step s s') : s.history <+: s'.history := by
  induction h with
  | refl => exact prefix_rfl
  | tail _ hstep ih => exact ih.trans hstep.history

theorem Receives.steps {s s' : Session T C} {chunks : List (List UInt8)} (h : Receives s chunks s') :
    ReflTransGen Step s s' := by
  induction h with
  | done s => exact .refl
  | receive _ ih => exact .head (.receive ..) ih
  | iterate _ ih => exact .head (.iterate _) ih

theorem Receives.trans {s₁ s₂ s₃ : Session T C} {chunks chunks' : List (List UInt8)}
    (h : Receives s₁ chunks s₂)
    (h' : Receives s₂ chunks' s₃) : Receives s₁ (chunks ++ chunks') s₃ := by
  induction h with
  | done s => exact h'
  | receive _ ih => exact .receive (ih h')
  | iterate _ ih => exact .iterate (ih h')

/-- The loop of `decode` is a run of a session in which nothing arrives. -/
theorem receives_throughN (n : Nat) (s : Session T C) : ∃ s', Receives s [] s' ∧
      let polled := throughN (decoder C) (handle (T := T)) n s.codec s.buffer
      s'.codec = polled.2.1 ∧ s'.buffer = polled.2.2 ∧
        s'.messages = s.messages ++ (decodedMessage polled.1).toList := by
  induction n generalizing s with
  | zero => exact ⟨s, .done s, rfl, rfl, by simp [throughN]⟩
  | succ n ih =>
    rcases hdec : s.codec.1.decode s.buffer with ⟨result, codec, rest⟩
    have hpoll : (decoder C).poll s.codec.1 s.buffer = (result, codec, rest) := hdec
    rcases result with e | (_ | bucket)
    · refine ⟨s.iterate, .iterate (.done _), ?_⟩
      rw [iterate_of_other hdec (by simp)]
      simp [throughN, hpoll]
    · refine ⟨s.iterate, .iterate (.done _), ?_⟩
      rw [iterate_of_other hdec (by simp)]
      simp [throughN, hpoll]
    · rcases hhandle : handle (T := T) codec s.codec.2 bucket with ⟨handled, codec', state'⟩
      have hnext := iterate_of_bucket hdec
      rcases handled with e | (_ | message)
      · refine ⟨s.iterate, .iterate (.done _), ?_⟩
        rw [hnext]
        simp [throughN, hpoll, handleNext, hhandle]
      · obtain ⟨s', hruns, hs'⟩ := ih s.iterate
        refine ⟨s', .iterate hruns, ?_⟩
        rw [hnext] at hs'
        simp only [handleNext, hhandle, decodedMessage_ok, Option.toList_none, append_nil] at hs'
        simpa [throughN, hpoll, hhandle] using hs'
      · refine ⟨s.iterate, .iterate (.done _), ?_⟩
        rw [hnext]
        simp [throughN, hpoll, handleNext, hhandle]

/-- So are the calls of `decode` until it asks for more bytes. -/
theorem receives_drainN (n : Nat) (s : Session T C) : ∃ s', Receives s [] s' ∧
      let drained := (decoder T).drainN n s.codec s.buffer
      s'.codec = drained.2.1 ∧ s'.buffer = drained.2.2 ∧ s'.messages = s.messages ++ drained.1.1 := by
  induction n generalizing s with
  | zero => exact ⟨s, .done s, rfl, rfl, by simp [drainN]⟩
  | succ n ih =>
    obtain ⟨s₁, hruns, hcodec, hbuffer, hmessages⟩ :=
      receives_throughN ((decoder C).size s.codec.1 s.buffer + 1) s
    rcases hpoll : (decoder T).poll s.codec s.buffer with ⟨result, codec, rest⟩
    have hpoll' : throughN (decoder C) (handle (T := T))
        ((decoder C).size s.codec.1 s.buffer + 1) s.codec s.buffer =
        (result, codec, rest) := hpoll
    rw [hpoll'] at hcodec hbuffer hmessages
    rcases result with e | (_ | message)
    · exact ⟨s₁, hruns, by simp [drainN, hpoll, hcodec, hbuffer, hmessages]⟩
    · exact ⟨s₁, hruns, by simp [drainN, hpoll, hcodec, hbuffer, hmessages]⟩
    · obtain ⟨s', hruns', hcodec', hbuffer', hmessages'⟩ := ih s₁
      rw [hcodec, hbuffer] at hcodec' hbuffer' hmessages'
      refine ⟨s', hruns.trans hruns', ?_⟩
      simp only [drainN, hpoll]
      refine ⟨hcodec', hbuffer', ?_⟩
      rw [hmessages', hmessages]
      simp

/-- Feeding a codec is a run of a session that receives these chunks, up to the first error: it ends
with the codec and the unread bytes of the fed codec, and returns the same messages. -/
theorem feed_eq_messages (chunks : List (List UInt8)) (s : Session T C) :
    let fed := (decoder T).feed s.codec s.buffer chunks
    ∃ received s', received <+: chunks ∧ (fed.2 = none → received = chunks) ∧ Receives s received s' ∧
      ReflTransGen Step s s' ∧ (s'.codec, s'.buffer) = (decoder T).feedState s.codec s.buffer chunks ∧
      s'.messages = s.messages ++ fed.1 := by
  suffices h : ∃ received s', received <+: chunks ∧
      (((decoder T).feed s.codec s.buffer chunks).2 = none → received = chunks) ∧ Receives s received s' ∧
      (s'.codec, s'.buffer) = (decoder T).feedState s.codec s.buffer chunks ∧
      s'.messages = s.messages ++ ((decoder T).feed s.codec s.buffer chunks).1 by
    obtain ⟨received, s', hpre, hall, hruns, hstate, hmessages⟩ := h
    exact ⟨received, s', hpre, hall, hruns, hruns.steps, hstate, hmessages⟩
  induction chunks generalizing s with
  | nil => exact ⟨[], s, prefix_rfl, fun _ => rfl, .done s, rfl, (append_nil _).symm⟩
  | cons chunk chunks ih =>
    obtain ⟨s₁, hruns, hcodec, hbuffer, hmessages⟩ :=
      receives_drainN ((decoder T).size s.codec (s.buffer ++ chunk) + 1) (s.receive chunk)
    rcases hdrain : (decoder T).drain s.codec (s.buffer ++ chunk) with ⟨⟨messages, _ | e⟩, codec, rest⟩
    all_goals
      have hdrain' : (decoder T).drainN _ (s.receive chunk).codec (s.receive chunk).buffer = _ := hdrain
      rw [hdrain'] at hcodec hbuffer hmessages
      rw [Decoder.feed, Decoder.feedState, hdrain]
    · obtain ⟨received, s', hpre, hall, hruns', hstate, hmessages'⟩ := ih s₁
      rw [hcodec, hbuffer] at hall hstate hmessages'
      rw [hmessages, append_assoc] at hmessages'
      refine ⟨chunk :: received, s', prefix_cons_inj chunk |>.mpr hpre, fun hnone => ?_,
        .receive (hruns.trans hruns'), hstate, hmessages'⟩
      rw [hall hnone]
    · refine ⟨[chunk], s₁, prefix_append [chunk] chunks, fun hnone => ?_, .receive hruns,
        by rw [hcodec, hbuffer], hmessages⟩
      cases hnone

/-- Whatever bytes come in whatever chunks, a codec keeps at most `maxPacketSize` bytes of a
fragmented message, and at most `maxPacketSizeBeforeHandshake` until it has accepted the header of a
handshake. A bucket it delivers, or takes from the fragments, was within the limits when its header
was read. It does not forget a handshake. -/
theorem reachable_within_limits (s : Session T C) (h : Reachable .default s) :
    (∀ bytes, s.codec.2 = .waitingForRestOfFragment bytes →
      bytes.length ≤ default.maxPacketSize.toNat ∧
      (¬ HandshakeIn s.history → bytes.length ≤ default.maxPacketSizeBeforeHandshake.toNat)) ∧
    (∀ before bucket after, s.history = before ++ .bucket bucket :: after →
      ∃ earlier, before = earlier ++ [.header bucket.header] ∧ Admitted .default earlier bucket.header) ∧
    (∀ before head after, s.history = before ++ .fragmented head :: after →
      Admitted .default before head) ∧
    (s.codec.1.handshakeMessageSeen = true ↔ HandshakeIn s.history) ∧
    ∀ s', ReflTransGen Step s s' →
      s.codec.1.handshakeMessageSeen = true → s'.codec.1.handshakeMessageSeen = true := by
  have hle : default.maxPacketSizeBeforeHandshake ≤ default.maxPacketSize := by decide
  have hinv : Inv .default s := (inv_new .default).steps hle h
  refine ⟨?_, ?_, fun before head => hinv.bucket.checked before (.fragmented head), hinv.bucket.seen, ?_⟩
  · intro bytes hst
    have hbytes := hinv.held bytes hst
    have hle := le_iff_toNat_le.mp hle
    unfold maxFragmentedSize at hbytes
    rw [hinv.bucket.protocol_eq] at hbytes
    refine ⟨by split_ifs at hbytes <;> omega, ?_⟩
    intro hnot
    rwa [if_neg (fun hseen => hnot (hinv.bucket.seen.mp hseen))] at hbytes
  · intro before bucket after heq
    obtain ⟨earlier, rfl⟩ : ∃ earlier, before = earlier ++ [Event.header bucket.header] :=
      hinv.bucket.checked before (.bucket bucket) after heq
    refine ⟨earlier, rfl, hinv.bucket.checked earlier (.header bucket.header) (.bucket bucket :: after) ?_⟩
    rw [heq]
    simp
  · intro s' hsteps hseen
    obtain ⟨e, hmem, he⟩ := hinv.bucket.seen.mp hseen
    exact (hinv.steps hle hsteps).bucket.seen.mpr ⟨e, (history_of_steps hsteps).subset hmem, he⟩

end Session

def handshakeFragment : Bucket TestCommands where
  header := { (fragmentHead .default 33 : BucketHead TestCommands) with command := ⟨1⟩, flags :=
    .START_FRAGMENT }
  body := []

theorem decode_handshakeFragment (rest : List UInt8) :
    (idle .default false).decode (encode handshakeFragment [] ++ rest) =
      (.ok (some handshakeFragment), idle .default true, rest) :=
  decode_encode rfl (by unfold Fits; decide) rfl rest

/-- After an empty first fragment with a handshake command, large fragments are kept. -/
theorem reachable_handshakeFragment (size : UInt64) (hsize : HEADER_SIZE ≤ size.toNat) (body : List UInt8)
    (hlen : body.length = size.toNat - HEADER_SIZE)
    (hfits : Fits .default true (fragmentHead .default size : BucketHead TestCommands))
    (hmax : body.length ≤ maxFragmentedSize (idle .default true : LevinBucketCodec TestCommands)) :
    ∃ s : Session TestBody TestCommands, s.Reachable .default ∧ s.messages = [] ∧
      s.codec.2 = .waitingForRestOfFragment body := by
  obtain ⟨large, hlarge⟩ :
    ∃ large : Bucket TestCommands, large = fragment .default size .empty body := ⟨_, rfl⟩
  obtain ⟨received, hreceived⟩ : ∃ received : Session TestBody TestCommands,
      received = Session.receive (.new .default)
        (encode handshakeFragment [] ++ encode large []) := ⟨_, rfl⟩
  have hcodec : received.codec = (idle .default false, .waitingForBucket) := by
    rw [hreceived]
    rfl
  have hbuffer : received.buffer = encode handshakeFragment [] ++ encode large [] := by
    rw [hreceived]
    exact nil_append _
  have hfirst : received.codec.1.decode received.buffer =
      (.ok (some handshakeFragment), idle .default true, encode large []) := by
    rw [hcodec, hbuffer]
    exact decode_handshakeFragment _
  have hstart : handle (T := TestBody) (idle .default true) received.codec.2 handshakeFragment =
      (.ok none, idle .default true, .waitingForRestOfFragment []) := by
    rw [hcodec]
    exact handle_start _ [] rfl rfl
  obtain ⟨hcodec₁, hbuffer₁, hmessages₁⟩ := Session.iterate_of_skip hfirst hstart
  have hsecond : received.iterate.codec.1.decode received.iterate.buffer =
      (.ok (some large), idle .default true, []) := by
    rw [hcodec₁, hbuffer₁, ← append_nil (encode large []), hlarge]
    simpa only [Bool.true_or] using decode_fragment .empty hsize hfits hlen []
  have hmiddle : handle (T := TestBody) (idle .default true) received.iterate.codec.2 large =
      (.ok none, idle .default true, .waitingForRestOfFragment body) := by
    have hkept : ([] : List UInt8).length + body.length ≤
        maxFragmentedSize (idle .default true : LevinBucketCodec TestCommands) := by
      simpa using hmax
    rw [hcodec₁, hlarge]
    simpa only [nil_append] using handle_middle (T := TestBody) .default size _ hkept
  obtain ⟨hcodec₂, -, hmessages₂⟩ := Session.iterate_of_skip hsecond hmiddle
  refine ⟨received.iterate.iterate, ?_, ?_, ?_⟩
  · rw [hreceived]
    exact .tail (.tail (.single (.receive _ _)) (.iterate _)) (.iterate _)
  · rw [hmessages₂, hmessages₁, hreceived]
    rfl
  · rw [hcodec₂]

theorem reachable_large_fragment : ∃ s : Session TestBody TestCommands, s.Reachable .default ∧
    s.messages = [] ∧ s.codec.2 = .waitingForRestOfFragment (List.replicate 256001 0) := by
  have hsize : HEADER_SIZE ≤ (256034 : UInt64).toNat := by decide
  have hlen : (List.replicate 256001 (0 : UInt8)).length = (256034 : UInt64).toNat - HEADER_SIZE := by
    rw [length_replicate]
    decide
  have hfits : Fits .default true (fragmentHead .default 256034 : BucketHead TestCommands) := by
    unfold Fits
    decide
  exact reachable_handshakeFragment 256034 hsize _ hlen hfits (by rw [length_replicate]; decide)

theorem reachable_within_limits_large : ∃ s : Session TestBody TestCommands, s.Reachable .default ∧
      s.codec.2 = .waitingForRestOfFragment (List.replicate 256001 0) ∧
      (List.replicate 256001 (0 : UInt8)).length ≤ default.maxPacketSize.toNat := by
  obtain ⟨s, hreach, -, hst⟩ := reachable_large_fragment
  exact ⟨s, hreach, hst, ((Session.reachable_within_limits s hreach).1 _ hst).1⟩

/-- The codec has not decoded any message, but it holds more than the limit before the handshake. -/
theorem reachable_exceeds_before_handshake :
    ∃ s : Session TestBody TestCommands, s.Reachable .default ∧ s.messages = [] ∧
      ∃ bytes, s.codec.2 = .waitingForRestOfFragment bytes ∧
        default.maxPacketSizeBeforeHandshake.toNat < bytes.length := by
  obtain ⟨s, hreach, hmessages, hst⟩ := reachable_large_fragment
  refine ⟨s, hreach, hmessages, _, hst, ?_⟩
  rw [length_replicate]
  decide

end Cuprate.Levin
