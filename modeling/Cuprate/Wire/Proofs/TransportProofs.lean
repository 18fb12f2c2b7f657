import Cuprate.Levin.Proofs.FragmentProofs
import Cuprate.Wire.Proofs.MessageProofs

/-!
# Messages over a connection

What a peer sends comes out on the other side, however its bytes arrive.
-/

namespace Cuprate.Wire

open Cuprate.Stream Levin Epee List LevinMessageCodec
open LevinBucketCodec (encode)

/-- The bytes of messages that are sent one after another, each within the limits that are in force
when it is read. -/
inductive Sent (protocol : Protocol) : Bool → List Message → List UInt8 → Prop where
  | nil {seen : Bool} : Sent protocol seen [] []
  | cons {seen : Bool} {message : Message} {bucket : Bucket LevinCommand} {messages : List Message}
      {wire bytes : List UInt8} (hfits : message.Fits)
      (hbucket : toBucket protocol (.body message) = .ok (some bucket))
      (hencode : encodeMessage protocol (.body message) [] = .ok (some wire))
      (hlimits : Levin.Fits protocol seen bucket.header) (hlt : bucket.body.length < 2 ^ 64)
      (hsent : Sent protocol (seen || isHandshake bucket.header.command) messages bytes) :
      Sent protocol seen (message :: messages) (wire ++ bytes)

variable {protocol : Protocol} {seen : Bool} {message : Message} {bucket : Bucket LevinCommand}

theorem encode_spec (hfits : message.Fits) (builder : BucketBuilder LevinCommand) : ∃ ty code object,
    LevinBody.encode message builder =
      .ok (built { builder with ty := some ty, returnCode := some code } message.command object) ∧
      fromU32 (toU32 message.command) = message.command ∧
      LevinBody.decodeMessage (HEADER ++ object) ty message.command = .ok message.normalise := by
  cases message with
  | request message =>
    obtain ⟨object, -, hbuild, hdecode⟩ := message.decode_build _
    refine ⟨.request, 0, object, hbuild, by cases message <;> rfl, ?_⟩
    exact congrArg (Except.map Message.request) (append_nil (HEADER ++ object) ▸ hdecode [])
  | response message =>
    obtain ⟨object, -, hbuild, hdecode⟩ := message.decode_build hfits _
    refine ⟨.response, 1, object, hbuild, by cases message <;> rfl, ?_⟩
    exact congrArg (Except.map Message.response) (append_nil (HEADER ++ object) ▸ hdecode [])
  | protocol message =>
    obtain ⟨object, -, hbuild, hdecode⟩ := message.decode_build hfits _
    refine ⟨.notification, 0, object, hbuild, by cases message <;> rfl, ?_⟩
    exact congrArg (Except.map Message.protocol) (append_nil (HEADER ++ object) ▸ hdecode [])

theorem toBucket_spec (hfits : message.Fits)
    (hbucket : toBucket protocol (.body message) = .ok (some bucket)) :
    bucket.header.size = .ofNat bucket.body.length ∧
      fromU32 (toU32 bucket.header.command) = bucket.header.command ∧
      ∀ codec, handle (T := Message) codec .waitingForBucket bucket =
        (.ok (some message.normalise), codec, .waitingForBucket) := by
  obtain ⟨ty, code, object, hencode, hcommand, hdecode⟩ := encode_spec hfits (.new protocol)
  rw [toBucket, hencode] at hbucket
  cases hbucket
  obtain ⟨hdummy, hend, hstart⟩ := asFlags_ordinary ty
  refine ⟨rfl, hcommand, fun codec => ?_⟩
  simp [handle, handleBucket, hdummy, hend, hstart, MessageType.fromFlags_asFlags, hdecode, bind,
    Except.bind]

variable {messages : List Message} {bytes : List UInt8}

theorem Sent.decodeAll_eq (h : Sent protocol seen messages bytes) :
    decodeAll Message (idle protocol seen, .waitingForBucket) bytes =
      (messages.map Message.normalise, none) := by
  induction h with
  | nil => rw [decodeAll, drain_nil rfl, map_nil]
  | cons hfits hbucket hencode hlimits hlt hsent ih =>
    rw [encodeMessage, hbucket] at hencode
    cases hencode
    obtain ⟨hsize, hcommand, hhandle⟩ := toBucket_spec hfits hbucket
    have hdec := decode_encode hcommand hlimits (hsize ▸ UInt64.toNat_ofNat_of_lt' hlt)
    rw [decodeAll, Decoder.drain_of_item (poll_of_message (hdec _) (hhandle _))]
    rw [decodeAll] at ih
    rw [ih, map_cons]

/-- The messages that were sent are received, as the format keeps them, all and in order, into
whatever chunks their bytes are cut. -/
theorem Sent.feedChunks_eq {chunks : List (List UInt8)} (h : Sent protocol false messages chunks.flatten) :
    feedChunks Message (.new protocol) chunks = (messages.map Message.normalise, none) :=
  (Decoder.feed_eq_drain decoder_resumable chunks (drain_nil rfl .waitingForBucket)).trans h.decodeAll_eq

/-- A ping in two chunks. -/
theorem feedChunks_ping : ∃ bytes, Sent .default false [.request .ping] bytes ∧
    feedChunks Message (.new .default) [bytes.take 10, bytes.drop 10] = ([.request .ping], none) := by
  have hsent : Sent .default false [.request .ping] _ := .cons trivial rfl rfl rfl (by decide) .nil
  refine ⟨_, hsent, Sent.feedChunks_eq (show Sent _ _ [.request .ping] _ from ?_)⟩
  rwa [flatten_cons, flatten_singleton, take_append_drop]

end Cuprate.Wire
