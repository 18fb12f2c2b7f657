import Cuprate.Wire.Proofs.RoundTripProofs

/-!
# Sending a message

Decoding what a message was encoded to gives the message back, but for what the format has no place
for.
-/

namespace Cuprate.Wire

open Cuprate.Stream Cuprate.Epee Cuprate.Levin ProtocolMessage Message EpeeValue

/-- The builder after a message of the given command has been put into it. -/
def built (builder : BucketBuilder LevinCommand) (command : LevinCommand) (object : List UInt8) :
    BucketBuilder LevinCommand :=
  { builder with command := some command, body := some (HEADER ++ object) }

/-- The bytes of an object that is not nested deeper than what is skipped. -/
def IsObject (object : List UInt8) : Prop := IsBody U64_BOUND .Object MAX_DEPTH_OF_SKIPPED_OBJECTS object

theorem buildMessage_decodeMessage {T Ret : Type} {o : EpeeObject T} {depth : Nat} {ok : T →
    Prop} {norm : T → T}
    (h : o.Lawful depth ok norm) (hdepth : depth + 1 = MAX_DEPTH_OF_SKIPPED_OBJECTS) {t : T} (ht : ok t)
    (ret : T → Ret) (command : LevinCommand) (builder : BucketBuilder LevinCommand) :
    ∃ object, IsObject object ∧ buildMessage o command t builder = .ok (built builder command object) ∧
      ∀ trailing, decodeMessage o ret (HEADER ++ object ++ trailing) = .ok (ret (norm t)) := by
  refine ⟨writeObject o t, ?_, rfl, fun trailing => ?_⟩
  · have hbody := h.isBody ht
    rw [hdepth] at hbody
    exact hbody
  · have hread : fromBytes o.toEpeeObjectBuilder (HEADER ++ writeObject o t ++ trailing) = .ok (norm t) :=
      h.fromBytes ht trailing
    unfold decodeMessage
    rw [hread]
    rfl

theorem ProtocolMessage.decode_build (message : ProtocolMessage) (hfits : message.Fits)
    (builder : BucketBuilder LevinCommand) : ∃ object, IsObject object ∧
      message.build builder = .ok (built builder message.command object) ∧
      ∀ trailing, decode (HEADER ++ object ++ trailing) message.command = .ok message.normalise := by
  cases message with
  | newBlock m => exact buildMessage_decodeMessage (@NewBlock.lawful 17) rfl hfits newBlock _ builder
  | newFluffyBlock m =>
    exact buildMessage_decodeMessage (@NewFluffyBlock.lawful 17) rfl hfits newFluffyBlock _ builder
  | getObjectsRequest m =>
    exact buildMessage_decodeMessage (@GetObjectsRequest.lawful 19) rfl hfits getObjectsRequest _ builder
  | getObjectsResponse m =>
    exact buildMessage_decodeMessage (@GetObjectsResponse.lawful 17) rfl hfits getObjectsResponse _ builder
  | chainRequest m => exact buildMessage_decodeMessage (@ChainRequest.lawful 19) rfl hfits chainRequest _ builder
  | chainEntryResponse m =>
    exact buildMessage_decodeMessage (@ChainResponse.lawful 19) rfl hfits chainEntryResponse _ builder
  | newTransactions m =>
    exact buildMessage_decodeMessage (@NewTransactions.lawful 19) rfl hfits newTransactions _ builder
  | fluffyMissingTransactionsRequest m =>
    exact buildMessage_decodeMessage (@FluffyMissingTransactionsRequest.lawful 19) rfl hfits
      fluffyMissingTransactionsRequest _ builder
  | getTxPoolCompliment m =>
    exact buildMessage_decodeMessage (@GetTxPoolCompliment.lawful 19) rfl hfits getTxPoolCompliment _ builder

theorem AdminRequestMessage.decode_build (message : AdminRequestMessage)
    (builder : BucketBuilder LevinCommand) :
    ∃ object, IsObject object ∧ message.build builder = .ok (built builder message.command object) ∧
      ∀ trailing, decode (HEADER ++ object ++ trailing) message.command = .ok message := by
  cases message with
  | handshake m =>
    exact buildMessage_decodeMessage (@HandshakeRequest.lawful 18)
      rfl trivial AdminRequestMessage.handshake _ builder
  | ping =>
    exact buildMessage_decodeMessage (@EmptyMessage.lawful 19) rfl trivial (fun _ =>
      AdminRequestMessage.ping) _ builder
  | supportFlags =>
    exact buildMessage_decodeMessage (@EmptyMessage.lawful 19) rfl trivial (fun _ =>
      AdminRequestMessage.supportFlags) _ builder
  | timedSync m =>
    exact buildMessage_decodeMessage (@TimedSyncRequest.lawful 18)
      rfl trivial AdminRequestMessage.timedSync _ builder

theorem AdminResponseMessage.decode_build (message : AdminResponseMessage) (hfits : message.Fits)
    (builder : BucketBuilder LevinCommand) : ∃ object, IsObject object ∧
      message.build builder = .ok (built builder message.command object) ∧
      ∀ trailing, decode (HEADER ++ object ++ trailing) message.command = .ok message.normalise := by
  cases message with
  | handshake m =>
    exact buildMessage_decodeMessage (@HandshakeResponse.lawful 16) rfl hfits AdminResponseMessage.handshake _ builder
  | ping m => exact buildMessage_decodeMessage (@PingResponse.lawful 19) rfl hfits AdminResponseMessage.ping _ builder
  | supportFlags m =>
    exact buildMessage_decodeMessage (@SupportFlagsResponse.lawful 19) rfl trivial
      AdminResponseMessage.supportFlags _ builder
  | timedSync m =>
    exact buildMessage_decodeMessage (@TimedSyncResponse.lawful 16) rfl hfits AdminResponseMessage.timedSync _ builder

/-- A message that fits the format is read back from what it is encoded to, whatever comes after it.
In each encoded object the number of fields is the one that stands before them. -/
theorem Message.decodeMessage_encode (message : Message) (hfits : message.Fits)
    (builder : BucketBuilder LevinCommand) : ∃ object, IsObject object ∧
      LevinBody.encode message builder = .ok { builder with
        ty := some message.levinType.1
        returnCode := some message.levinType.2
        command := some message.command
        body := some (HEADER ++ object) } ∧
      ∀ trailing, LevinBody.decodeMessage (HEADER ++ object ++ trailing)
        message.levinType.1 message.command = .ok message.normalise := by
  cases message with
  | request message =>
    obtain ⟨object, hobject, hbuild, hdecode⟩ :=
      message.decode_build { builder with ty := some .request, returnCode := some 0 }
    refine ⟨object, hobject, hbuild, fun trailing => ?_⟩
    change (AdminRequestMessage.decode _ _).map request = _
    rw [command, hdecode]
    rfl
  | response message =>
    obtain ⟨object, hobject, hbuild, hdecode⟩ :=
      message.decode_build hfits { builder with ty := some .response, returnCode := some 1 }
    refine ⟨object, hobject, hbuild, fun trailing => ?_⟩
    change (AdminResponseMessage.decode _ _).map response = _
    rw [command, hdecode]
    rfl
  | protocol message =>
    obtain ⟨object, hobject, hbuild, hdecode⟩ :=
      message.decode_build hfits { builder with ty := some .notification, returnCode := some 0 }
    refine ⟨object, hobject, hbuild, fun trailing => ?_⟩
    change (ProtocolMessage.decode _ _).map protocol = _
    rw [command, hdecode]
    rfl

/-- A block with an empty list of transactions is read back without a list. -/
theorem Message.decodeMessage_encode_newBlock : ∃ object, IsObject object ∧
    LevinBody.decodeMessage (HEADER ++ object ++ [7]) .notification LevinCommand.newBlock =
      .ok (protocol (.newBlock ⟨⟨false, [1, 2], 0, .none⟩, 9⟩)) := by
  obtain ⟨object, hobject, -, hdecode⟩ := decodeMessage_encode
    (.protocol (.newBlock ⟨⟨false, [1, 2], 0, .normal []⟩, 9⟩))
    ⟨(by norm_num [MAX_STRING_LEN_POSSIBLE] : 2 ≤ MAX_STRING_LEN_POSSIBLE), by norm_num,
      fun _ h => absurd h List.not_mem_nil⟩ (.new ⟨1, 2, 3, 4⟩)
  exact ⟨object, hobject, hdecode [7]⟩

def Message.NotReadBack (message : Message) (e : BucketError) : Prop :=
  ∃ body, (LevinBody.encode message (.new ⟨1, 2, 3, 4⟩)).map (·.body) = .ok (some body) ∧
    LevinBody.decodeMessage body message.levinType.1 message.command =
      (.error e : Except BucketError Message)

theorem PingResponse.not_readBack (status : List UInt8) (hlt : status.length < 2 ^ 62)
    (h : MAX_STRING_LEN_POSSIBLE < status.length) : (response (.ping ⟨status, 7⟩)).NotReadBack
      (.bodyDecodingError "Format error: Byte array exceeded max length") := by
  have hwritten : (!status.isEmpty) = true := by
    cases status with
    | nil => cases h
    | cons _ _ => rfl
  have hread : (readEpeeValue bytes).Fails (writeEpeeValue bytes status)
      (.format "Byte array exceeded max length") :=
    (reads_readMarker.mpr rfl : Reader.Reads _ [_] _).bind_fails (readBytes_fails hlt h)
  have hfails : fromBytes PingResponse.epeeObject.toEpeeObjectBuilder
      (toBytes PingResponse.epeeObject ⟨status, 7⟩) = .error (.format "Byte array exceeded max length") :=
    EpeeObject.fromBytes_first_fails rfl (Nat.one_lt_ofNat : 1 < 1000) hwritten (if_pos hwritten) hread
  refine ⟨_, rfl, ?_⟩
  change ((Except.mapError bodyDecodingError (fromBytes _ _)).map AdminResponseMessage.ping).map _ = _
  rw [hfails]
  rfl

theorem FluffyMissingTransactionsRequest.not_readBack (height : UInt64) :
    (protocol (.fluffyMissingTransactionsRequest ⟨.default 32, height, []⟩)).NotReadBack
      (.bodyDecodingError "Format error: Byte array has incorrect length") := by
  have hread : (readEpeeValue (byteArray 32)).Fails
      (writeEpeeValue (byteArray 32) (.default 32)) (.format "Byte array has incorrect length") :=
    (reads_readMarker.mpr rfl : Reader.Reads _ [_] _).bind_fails (byteArray_fails (by decide))
  have hwrite : writeField (byteArray 32) "block_hash" (.default 32) =
      writeFieldName (asciiBytes "block_hash") ++ writeEpeeValue (byteArray 32) (.default 32) := if_pos rfl
  have hfails : fromBytes FluffyMissingTransactionsRequest.epeeObject.toEpeeObjectBuilder
      (toBytes FluffyMissingTransactionsRequest.epeeObject ⟨.default 32, height, []⟩) =
        .error (.format "Byte array has incorrect length") :=
    EpeeObject.fromBytes_first_fails rfl (Nat.one_lt_ofNat : 1 < 1000) rfl hwrite hread
  refine ⟨_, rfl, ?_⟩
  change ((Except.mapError bodyDecodingError (fromBytes _ _)).map
    fluffyMissingTransactionsRequest).map _ = _
  rw [hfails]
  rfl

theorem not_readBack_of_lt (n : Nat) (hlt : n < 2 ^ 62) (h : MAX_STRING_LEN_POSSIBLE < n) :
    (response (.ping ⟨List.replicate n 0, 7⟩)).NotReadBack
      (.bodyDecodingError "Format error: Byte array exceeded max length") := by
  apply PingResponse.not_readBack
  · rwa [List.length_replicate]
  · rwa [List.length_replicate]

/-- A status above the limit, and a block hash that is the default byte array. -/
theorem Message.decodeMessage_encode_fails :
    (response (.ping ⟨List.replicate 2000000001 0, 7⟩)).NotReadBack
      (.bodyDecodingError "Format error: Byte array exceeded max length") ∧
    (protocol (.fluffyMissingTransactionsRequest ⟨.default 32, 7, []⟩)).NotReadBack
      (.bodyDecodingError "Format error: Byte array has incorrect length") :=
  ⟨not_readBack_of_lt 2000000001 (by norm_num) (Nat.lt_succ_self 2000000000),
    FluffyMissingTransactionsRequest.not_readBack 7⟩

end Cuprate.Wire
