import Cuprate.Epee.Proofs.RoundTripProofs
import Cuprate.Wire.Normal

/-!
# Messages are read back

Each object of the wire is read back from what is written for it, and so is each message.
-/

namespace Cuprate.Wire

open Cuprate.Stream Cuprate.Epee EpeeValue EpeeObject Epee.Field List Lawful

variable {depth : Nat}

/-! ## Addresses -/

theorem AddressType.fromU8_toU8 (ty : AddressType) : fromU8 ty.toU8 = some ty := by cases ty <;> rfl

theorem AddressType.element : AddressType.epeeValue.Element depth (fun _ => True) id where
  marker_eq := rfl
  reads ty _ := ((Element.u8 : u8.Element depth _ _).reads ty.toU8 trivial).bind_nil
    (reads_okOr (fromU8_toU8 ty))
  isBody ty _ := Element.u8.isBody ty.toU8 trivial

theorem OnionAddr.new_addrString (addr : OnionAddr) :
    OnionAddr.new addr.addrString addr.port = .ok addr := by
  have htake : (addr.domain ++ asciiBytes ".onion").take 56 = addr.domain := take_left' addr.length_domain
  have hdrop : (addr.domain ++ asciiBytes ".onion").drop 56 = asciiBytes ".onion" :=
      drop_left' addr.length_domain
  have hlength : (addr.domain ++ asciiBytes ".onion").length = 62 := by
    rw [length_append, addr.length_domain]
    rfl
  have hcheck : checkAddr (addr.domain ++ asciiBytes ".onion") =
      .ok ⟨addr.domain, addr.length_domain, addr.isBase32_domain⟩ := by
    unfold checkAddr
    rw [dif_neg (not_not_intro hlength)]
    simp only [hdrop, htake]
    rw [if_neg (by decide), if_neg (not_not_intro rfl), dif_pos addr.isBase32_domain]
  unfold OnionAddr.new addrString
  rw [hcheck]
  rfl

theorem AllFieldsNetworkAddress.lawful : AllFieldsNetworkAddress.epeeObject.Lawful depth
    (fun a => ∀ host ∈ a.host, host.1.length ≤ MAX_STRING_LEN_POSSIBLE ∧ host.1 ≠ []) id := by
  refine iso
    (.field (.new (.option .u32))
      (.field (.new (.option .u16)) (.field (.new (.option (.octets (by decide))))
    (.field (.new (.option .text)) (.field (.new (.option .u16)) .empty))))) (fun a ha => ?_)
      (fun a _ => ?_) rfl
  · refine ⟨fun _ _ => ⟨trivial, rfl⟩, fun _ _ => ⟨trivial, rfl⟩, fun _ _ =>
      ⟨trivial, rfl⟩, fun host hhost => ?_, fun _ _ => ⟨trivial, rfl⟩, trivial⟩
    obtain ⟨hle, hne⟩ := ha host hhost
    exact ⟨hle, by simpa [text] using hne⟩
  · simp only [Option.map_id, id_eq]

/-- An address is sent with its type and the fields that it is made from again. -/
theorem TaggedNetworkAddress.ofNetworkAddress_eq (addr : NetworkAddress) : ∃ ty all,
    ofNetworkAddress addr = ⟨some ty, some all⟩ ∧ all.tryIntoNetworkAddress ty = some addr.normalise ∧
      ∀ host ∈ all.host, host.1.length ≤ MAX_STRING_LEN_POSSIBLE ∧ host.1 ≠ [] := by
  cases addr with
  | clear addr =>
    cases addr with
    | v4 ip port =>
      refine ⟨.ipv4, _, rfl, ?_, fun host hhost => absurd hhost (Option.not_mem_none host)⟩
      have hlt : leValue ip.1 < 2 ^ 32 := by
        have hlt := leValue_lt ip.1
        rw [ip.2] at hlt
        exact hlt
      have hip : leBytes 4 (UInt32.ofNat (leValue ip.1)).toNat = ip.1 := by
        rw [UInt32.toNat_ofNat_of_lt' hlt]
        have hback := leBytes_leValue ip.1
        rw [ip.2] at hback
        exact hback
      have hsub : (⟨leBytes 4 (UInt32.ofNat (leValue ip.1)).toNat, length_leBytes _ _⟩ : Octets 4) = ip :=
        Subtype.ext hip
      change some (NetworkAddress.clear (.v4 ⟨leBytes 4 (UInt32.ofNat (leValue ip.1)).toNat, _⟩ port)) = _
      rw [hsub]
      rfl
    | v6 ip port flowinfo scopeId =>
      exact ⟨.ipv6, _, rfl, rfl, fun host hhost => absurd hhost (Option.not_mem_none host)⟩
  | tor addr =>
    refine ⟨.tor, _, rfl, ?_, fun host hhost => ?_⟩
    · change (do
        let addr ← (OnionAddr.new addr.addrString addr.port).toOption
        return NetworkAddress.tor addr) = _
      rw [OnionAddr.new_addrString]
      rfl
    · obtain rfl := Option.mem_some.mp hhost
      have hlength : addr.addrString.1.length = 62 := by
        change (addr.domain ++ asciiBytes ".onion").length = 62
        rw [length_append, addr.length_domain]
        rfl
      refine ⟨?_, ?_⟩
      · rw [hlength]
        decide
      · exact ne_nil_of_length_pos (by omega)

namespace TaggedNetworkAddress

theorem addField_unknown (b : TaggedNetworkAddress) {name : List UInt8}
    (hname : name ∉ [asciiBytes "type", asciiBytes "addr"]) : addField b name = pure (b, false) := by
  have htype : name ≠ asciiBytes "type" := fun h => hname (h ▸ mem_cons_self)
  have haddr : name ≠ asciiBytes "addr" := fun h => hname (h ▸ .tail _ mem_cons_self)
  unfold addField
  rw [if_neg htype, if_neg haddr]

theorem reads_addField_type (ty : AddressType) : (addField ⟨none, none⟩ (asciiBytes "type")).Reads
    (writeEpeeValue AddressType.epeeValue ty) (⟨some ty, none⟩, true) := by
  have hread : (AddressType.epeeValue.read AddressType.epeeValue.marker).Reads
      (AddressType.epeeValue.write ty) ty := (@AddressType.element 0).reads ty trivial
  unfold addField
  rw [if_pos rfl]
  exact (reads_readEpeeValue hread).bind_nil (Reader.reads_pure.mpr ⟨rfl, rfl⟩)

theorem reads_addField_addr (ty : AddressType) {all : AllFieldsNetworkAddress}
    (hhost : ∀ host ∈ all.host, host.1.length ≤ MAX_STRING_LEN_POSSIBLE ∧ host.1 ≠ []) :
    (addField ⟨some ty, none⟩ (asciiBytes "addr")).Reads
      (writeEpeeValue (.ofObject AllFieldsNetworkAddress.epeeObject) all) (⟨some ty, some all⟩, true) := by
  have hne : asciiBytes "addr" ≠ asciiBytes "type" := by decide
  have hread := ((@AllFieldsNetworkAddress.lawful 0).element.reads all hhost).bind_pure (g := some)
  unfold addField
  rw [if_neg hne, if_pos rfl]
  exact (reads_readEpeeValue hread).bind_nil (Reader.reads_pure.mpr ⟨rfl, rfl⟩)

end TaggedNetworkAddress

theorem NetworkAddress.lawful :
    NetworkAddress.epeeObject.Lawful (depth + 1) (fun _ => True) NetworkAddress.normalise := by
  refine ⟨[asciiBytes "type", asciiBytes "addr"], rfl,
    fun b name hname => TaggedNetworkAddress.addField_unknown b hname, fun _ addr _ => ?_⟩
  obtain ⟨ty, all, heq, hinto, hhost⟩ := TaggedNetworkAddress.ofNetworkAddress_eq addr
  have hall := (@AllFieldsNetworkAddress.lawful depth).element
  refine ⟨[(asciiBytes "type", writeEpeeValue AddressType.epeeValue ty),
    (asciiBytes "addr", writeEpeeValue (.ofObject AllFieldsNetworkAddress.epeeObject) all)], ?_,
      rfl, le_rfl, ?_,
    ⟨some ty, some all⟩, ⟨⟨some ty, none⟩, TaggedNetworkAddress.reads_addField_type ty,
      ⟨some ty, some all⟩, TaggedNetworkAddress.reads_addField_addr ty hhost, rfl⟩, ?_⟩
  · change TaggedNetworkAddress.epeeObject.writeFields (.ofNetworkAddress addr) = _
    rw [heq]
    rfl
  · simp only [forall_mem_cons, not_mem_nil, false_implies, implies_true, and_true]
    exact ⟨⟨mem_cons_self, AddressType.element.isValue trivial⟩, .tail _ mem_cons_self, hall.isValue hhost⟩
  · have htagged : (⟨some ty, some all⟩ : TaggedNetworkAddress).tryIntoNetworkAddress =
        some addr.normalise := hinto
    simp only [NetworkAddress.epeeObject, htagged]

theorem BasicNodeData.lawful : BasicNodeData.epeeObject.Lawful depth (fun _ => True) id := by
  exact iso
    (.field (.written .u32 fun _ => rfl) (.field (.written (.octets (by decide)) fun _ => rfl)
    (.field (.written .u64 fun _ => rfl) (.field (.withDefault .u32 fun _ => rfl)
    (.field (.withDefault .u16 fun _ => rfl) (.field (.withDefault .u32 fun _ => rfl) .empty))))))
    (fun _ _ => ⟨trivial, trivial, trivial, trivial, trivial, trivial, trivial⟩) (fun _ _ => rfl) rfl

theorem CoreSyncData.lawful : CoreSyncData.epeeObject.Lawful depth (fun _ => True) id := by
  exact iso
    (.field (.written .u64 fun _ => rfl)
      (.field (.withDefault .u64 fun _ => rfl) (.field (.written .u64 fun _ => rfl)
    (.field (.withDefault .u32 fun _ => rfl) (.field (.written (.octets (by decide)) fun _ => rfl)
    (.field (.withDefault .u8 fun _ => rfl) .empty))))))
    (fun _ _ => ⟨trivial, trivial, trivial, trivial, trivial, trivial, trivial⟩) (fun _ _ => rfl) rfl

theorem PeerListEntryBase.lawful :
    PeerListEntryBase.epeeObject.Lawful (depth + 2) (fun _ => True) PeerListEntryBase.normalise := by
  exact iso
    (.field (.written NetworkAddress.lawful.element fun _ => rfl) (.field (.written .u64 fun _ => rfl)
    (.field (.withDefault .i64 fun _ => rfl) (.field (.withDefault .u32 fun _ => rfl)
    (.field (.withDefault .u16 fun _ => rfl) (.field (.withDefault .u32 fun _ => rfl) .empty))))))
    (fun _ _ => ⟨trivial, trivial, trivial, trivial, trivial, trivial, trivial⟩) (fun _ _ => rfl) rfl

theorem PrunedTxBlobEntry.lawful :
    PrunedTxBlobEntry.epeeObject.Lawful depth PrunedTxBlobEntry.Fits id := by
  exact iso
    (.field (.new .bytes) (.field (.written (.byteArray (by decide)) fun _ => rfl) .empty))
    (fun _ h => ⟨h.1, h.2, trivial⟩) (fun _ _ => rfl) rfl

namespace TransactionBlobs

theorem prunedValue_roundTrips :
    prunedValue.RoundTrips (depth + 1) (FitsVec PrunedTxBlobEntry.Fits) (List.map id) :=
  RoundTrips.vec PrunedTxBlobEntry.lawful.element rfl

theorem normalValue_roundTrips : normalValue.RoundTrips depth (FitsVec FitsBytes) (List.map id) :=
  RoundTrips.vec Element.bytes rfl

theorem epeeField_roundTrips {name : String} :
    (epeeField name).RoundTrips (depth + 1) TransactionBlobs.Fits TransactionBlobs.normalise where
  writes blobs hfits hwritten := by
    have hmarker (marker : Marker) : readMarker.Reads [marker.asU8] marker := reads_readMarker.mpr rfl
    cases blobs with
    | none => cases hwritten
    | normal txs =>
      cases txs with
      | nil => cases hwritten
      | cons tx txs =>
        have hread := (@normalValue_roundTrips depth).reads (tx :: txs) hfits rfl
        rw [map_id] at hread
        exact ⟨writeEpeeValue normalValue (tx :: txs), rfl,
          (hmarker normalValue.marker).bind hread.bind_pure,
          normalValue_roundTrips.isValue (tx :: txs) hfits rfl⟩
    | pruned txs =>
      cases txs with
      | nil => cases hwritten
      | cons tx txs =>
        have hread := (@prunedValue_roundTrips depth).reads (tx :: txs) hfits rfl
        rw [map_id] at hread
        exact ⟨writeEpeeValue prunedValue (tx :: txs), rfl,
          (hmarker prunedValue.marker).bind hread.bind_pure,
          prunedValue_roundTrips.isValue (tx :: txs) hfits rfl⟩
  default blobs _ hnot := by
    cases blobs with
    | none => rfl
    | normal txs =>
      cases txs with
      | nil => rfl
      | cons tx txs => cases hnot
    | pruned txs =>
      cases txs with
      | nil => rfl
      | cons tx txs => cases hnot

end TransactionBlobs

theorem BlockCompleteEntry.lawful :
    BlockCompleteEntry.epeeObject.Lawful (depth + 1) BlockCompleteEntry.Fits
    BlockCompleteEntry.normalise := by
  exact iso
    (.field (.withDefault .bool fun _ => rfl)
      (.field (.new .bytes) (.field (.withDefault .u64 fun _ => rfl)
    (.field TransactionBlobs.epeeField_roundTrips .empty))))
    (fun _ h => ⟨trivial, h.1, trivial, h.2, trivial⟩) (fun _ _ => rfl) rfl

theorem EmptyMessage.lawful : EmptyMessage.epeeObject.Lawful depth (fun _ => True) id := ⟨_, rfl, .empty⟩

theorem HandshakeRequest.lawful : HandshakeRequest.epeeObject.Lawful (depth + 1) (fun _ => True) id := by
  exact iso
    (.field (.written BasicNodeData.lawful.element fun _ => rfl)
    (.field (.written CoreSyncData.lawful.element fun _ => rfl) .empty))
    (fun _ _ => ⟨trivial, trivial, trivial⟩) (fun _ _ => rfl) rfl

theorem HandshakeResponse.lawful : HandshakeResponse.epeeObject.Lawful (depth + 3)
    (fun m => FitsVec (fun _ => True) m.localPeerlistNew)
    (fun m => { m with localPeerlistNew := m.localPeerlistNew.map PeerListEntryBase.normalise }) := by
  exact iso
    (.field (.written BasicNodeData.lawful.element fun _ => rfl)
    (.field (.written CoreSyncData.lawful.element fun _ => rfl)
    (.field (.new (.vec PeerListEntryBase.lawful.element rfl)) .empty)))
    (fun _ h => ⟨trivial, trivial, h, trivial⟩) (fun _ _ => rfl) rfl

theorem TimedSyncRequest.lawful : TimedSyncRequest.epeeObject.Lawful (depth + 1) (fun _ => True) id := by
  exact iso
    (.field (.written CoreSyncData.lawful.element fun _ => rfl) .empty)
    (fun _ _ => ⟨trivial, trivial⟩) (fun _ _ => rfl) rfl

theorem TimedSyncResponse.lawful : TimedSyncResponse.epeeObject.Lawful (depth + 3)
    (fun m => FitsVec (fun _ => True) m.localPeerlistNew)
    (fun m => { m with localPeerlistNew := m.localPeerlistNew.map PeerListEntryBase.normalise }) := by
  exact iso
    (.field (.written CoreSyncData.lawful.element fun _ => rfl)
    (.field (.new (.vec PeerListEntryBase.lawful.element rfl)) .empty))
    (fun _ h => ⟨trivial, h, trivial⟩) (fun _ _ => rfl) rfl

theorem PingResponse.lawful : PingResponse.epeeObject.Lawful depth (fun m => FitsBytes m.status) id := by
  exact iso
    (.field (.new .bytes) (.field (.written .u64 fun _ => rfl) .empty))
    (fun _ h => ⟨h, trivial, trivial⟩) (fun _ _ => rfl) rfl

theorem SupportFlagsResponse.lawful : SupportFlagsResponse.epeeObject.Lawful depth (fun _ => True) id := by
  exact iso
    (.field (.written .u32 fun _ => rfl) .empty) (fun _ _ => ⟨trivial, trivial⟩) (fun _ _ => rfl) rfl

theorem NewBlock.lawful : NewBlock.epeeObject.Lawful (depth + 2) (fun m => m.b.Fits)
    (fun m => { m with b := m.b.normalise }) := by
  exact iso
    (.field (.written BlockCompleteEntry.lawful.element fun _ => rfl)
      (.field (.written .u64 fun _ => rfl) .empty))
    (fun _ h => ⟨h, trivial, trivial⟩) (fun _ _ => rfl) rfl

theorem NewFluffyBlock.lawful : NewFluffyBlock.epeeObject.Lawful (depth + 2) (fun m => m.b.Fits)
    (fun m => { m with b := m.b.normalise }) := by
  exact iso
    (.field (.written BlockCompleteEntry.lawful.element fun _ => rfl)
      (.field (.written .u64 fun _ => rfl) .empty))
    (fun _ h => ⟨h, trivial, trivial⟩) (fun _ _ => rfl) rfl

theorem NewTransactions.lawful : NewTransactions.epeeObject.Lawful depth
    (fun m => FitsVec FitsBytes m.txs ∧ FitsBytes m.padding) id := by
  refine iso
    (.field (.new (.vec .bytes rfl))
      (.field (.withDefault .bool fun _ => rfl) (.field (.new .bytes) .empty)))
    (fun _ h => ⟨h.1, trivial, h.2, trivial⟩) (fun _ _ => ?_) rfl
  simp only [map_id, id_eq]

theorem GetObjectsRequest.lawful :
    GetObjectsRequest.epeeObject.Lawful depth (fun m => FitsBytes m.blocks.bytes) id := by
  exact iso
    (.field (.new (.byteArrayVec (Nat.succ_pos 31))) (.field (.withDefault .bool fun _ => rfl) .empty))
    (fun _ h => ⟨h, trivial, trivial⟩) (fun _ _ => rfl) rfl

theorem GetObjectsResponse.lawful : GetObjectsResponse.epeeObject.Lawful (depth + 2)
    (fun m => FitsVec BlockCompleteEntry.Fits m.blocks ∧ FitsBytes m.missedIds.bytes)
    (fun m => { m with blocks := m.blocks.map BlockCompleteEntry.normalise }) := by
  exact iso
    (.field (.new (.vec BlockCompleteEntry.lawful.element rfl))
      (.field (.new (.byteArrayVec (Nat.succ_pos 31)))
    (.field (.written .u64 fun _ => rfl) .empty))) (fun _ h => ⟨h.1, h.2, trivial, trivial⟩)
      (fun _ _ => rfl) rfl

theorem ChainRequest.lawful :
    ChainRequest.epeeObject.Lawful depth (fun m => FitsBytes m.blockIds.bytes) id := by
  exact iso
    (.field (.new (.byteArrayVec (Nat.succ_pos 31))) (.field (.withDefault .bool fun _ => rfl) .empty))
    (fun _ h => ⟨h, trivial, trivial⟩) (fun _ _ => rfl) rfl

theorem ChainResponse.lawful : ChainResponse.epeeObject.Lawful depth
    (fun m => FitsBytes m.mBlockIds.bytes ∧ FitsBlob m.mBlockWeights ∧ FitsBytes m.firstBlock) id := by
  exact iso
    (.field (.written .u64 fun _ => rfl)
      (.field (.written .u64 fun _ => rfl) (.field (.written .u64 fun _ => rfl)
    (.field (.withDefault .u64 fun _ => rfl) (.field (.new (.byteArrayVec (Nat.succ_pos 31)))
    (.field (.new .containerAsBlob) (.field (.new .bytes) .empty)))))))
    (fun _ h => ⟨trivial, trivial, trivial, trivial, h.1, h.2.1, h.2.2, trivial⟩) (fun _ _ => rfl) rfl

theorem FluffyMissingTransactionsRequest.lawful : FluffyMissingTransactionsRequest.epeeObject.Lawful depth
    (fun m => FitsArray m.blockHash ∧ FitsBlob m.missingTxIndices) id := by
  exact iso
    (.field (.written (.byteArray (by decide)) fun _ => rfl) (.field (.written .u64 fun _ => rfl)
    (.field (.new .containerAsBlob) .empty))) (fun _ h => ⟨h.1, trivial, h.2, trivial⟩)
      (fun _ _ => rfl) rfl

theorem GetTxPoolCompliment.lawful :
    GetTxPoolCompliment.epeeObject.Lawful depth (fun m => FitsBytes m.hashes.bytes) id := by
  exact iso
    (.field (.new (.byteArrayVec (Nat.succ_pos 31))) .empty) (fun _ h => ⟨h, trivial⟩) (fun _ _ => rfl) rfl

end Cuprate.Wire
