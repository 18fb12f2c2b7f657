import Cuprate.AddressBook.Proofs.BansProofs

/-!
# The anchors

An anchor is put into the list under the address at which the peer can be reached, and leaves it
under the address from which it is connected. A peer that connects to us from another port is never
removed.
-/

namespace Cuprate.AddressBook.Book

open Collections P2P List InternalPeerID Finmap

variable {Addr BanID : Type} [DecidableEq Addr]

/-- Every anchor is the address of a connected peer that can be reached at it. -/
def Anchored (b : Book Addr BanID) : Prop :=
  ∀ addr ∈ b.anchorList, ∃ peer, b.connectedPeers.lookup (.knownAddr addr) = some peer ∧
    peer.addr = some addr

/-- The connected peers that can be reached. -/
def reachablePeers (b : Book Addr BanID) : Finset (InternalPeerID Addr) :=
  b.connectedPeers.keys.filter fun id => ((b.connectedPeers.lookup id).bind (·.addr)).isSome

/-- A new connection that can be reached at all can be reached at the address it comes from. -/
def ReachableAtOrigin : Event Addr BanID → Prop
  | .call (.newConnection id peer) => ∀ addr, peer.addr = some addr → id = .knownAddr addr
  | _ => True

variable {b b' : Book Addr BanID}

theorem Anchored.card_le (h : b.Anchored) : b.anchorList.card ≤ b.reachablePeers.card := by
  refine Finset.card_le_card_of_injOn knownAddr (fun addr haddr => ?_)
    fun _ _ _ _ heq => knownAddr.inj heq
  obtain ⟨peer, hlookup, hreach⟩ := h addr haddr
  rw [reachablePeers, Finset.mem_coe, Finset.mem_filter, Finmap.mem_keys, ← Finmap.lookup_isSome, hlookup]
  exact ⟨rfl, by rw [Option.bind_some, hreach]; rfl⟩

variable [DecidableEq BanID] [NetZoneAddress Addr BanID]

theorem Anchored.removeDisconnected (h : b.Anchored) {id : InternalPeerID Addr}
    (hremove : b.removeDisconnected id = .ok b') : b'.Anchored := by
  obtain ⟨banIds, anchors, rfl, hsubset, hnot⟩ := removeDisconnected_frame hremove
  intro addr haddr
  rw [lookup_erase_ne fun heq => hnot addr heq.symm haddr]
  exact h addr (hsubset haddr)

theorem Anchored.removeAllDisconnected {ids : List (InternalPeerID Addr)} (h : b.Anchored)
    (hremove : ids.foldlM Book.removeDisconnected b = .ok b') : b'.Anchored := by
  induction ids generalizing b with
  | nil => exact Except.ok.inj hremove ▸ h
  | cons id ids ih =>
    obtain ⟨b₁, hfirst, hrest⟩ := bind_eq_ok.mp hremove
    exact ih (h.removeDisconnected hfirst) hrest

theorem Step.anchored {event : Event Addr BanID} (hstep : Step b event b')
    (horigin : ReachableAtOrigin event)
    (hindexed : b.Indexed) (h : b.Anchored) : b'.Anchored := by
  cases hstep with
  | @poll _ poll hposs hpoll =>
    unfold Book.pollReady at hpoll
    rw [pollUnbanPeers_eq] at hpoll
    obtain ⟨b₁, hbans, hremove⟩ := bind_eq_ok.mp hpoll
    obtain ⟨-, hpeers, hanchors⟩ := Indexed.banPeers_eq_ok (by exact hindexed) hbans
    refine Anchored.removeAllDisconnected (fun addr haddr => ?_) hremove
    rw [hpeers]
    exact h addr (hanchors haddr)
  | call hcall =>
    rcases hindexed.call_cases hcall with ⟨id, peer, res, rfl, hnew⟩ | ⟨-, hlists⟩
    · obtain ⟨ids, hids⟩ := addConnectedBanId_eq b id
      rcases handleNewConnection_cases hindexed.1 hnew with ⟨-, -, rfl⟩ | ⟨-, -, rfl⟩ |
        ⟨hadmits, -, white, anchors, rfl, -, -, hanchors⟩
      · exact h
      · rw [hids]
        exact h
      · intro addr haddr
        rcases hanchors addr haddr with hold | hnew
        · obtain ⟨peer', hlookup, hreach⟩ := h addr hold
          have hne : knownAddr addr ≠ id := by
            rintro rfl
            rw [hadmits.1] at hlookup
            cases hlookup
          rw [lookup_insert_of_ne _ hne]
          exact ⟨peer', hlookup, hreach⟩
        · rw [horigin addr hnew, lookup_insert]
          exact ⟨peer, rfl, hnew⟩
    · obtain ⟨white, gray, rfl⟩ := hlists.frame
      exact h

/-- Along a run in which every reachable connection is reached at the address it comes from, the
anchors are reachable connected peers, and there are no more anchors than such peers. -/
theorem anchored_of_reachableAtOrigin (cfg : AddressBookConfig)
    (whitePeers grayPeers : List (ZoneSpecificPeerListEntryBase Addr))
    {run : List (Transition (Book Addr BanID) (Event Addr BanID))}
    (hrun : Run Step (Book.new cfg whitePeers grayPeers []) run)
      (horigin : ∀ t ∈ run, ReachableAtOrigin t.event) :
    ∀ b ∈ states (Book.new cfg whitePeers grayPeers []) run,
      (∀ addr ∈ b.anchorList, ∃ peer, b.connectedPeers.lookup (.knownAddr addr) = some peer ∧
        peer.addr = some addr) ∧ b.anchorList.card ≤ b.reachablePeers.card := by
  have hinv := hrun.invariant (fun b => b.Indexed ∧ b.Anchored) (fun _ event => ReachableAtOrigin event)
    (fun hstep hmeets h => ⟨hstep.indexed h.1, hstep.anchored hmeets h.1 h.2⟩)
    ⟨(grouped_new cfg whitePeers grayPeers []).1, fun addr haddr =>
      absurd haddr (Finset.notMem_empty addr)⟩ horigin
  exact fun b hb => ⟨(hinv b hb).2, (hinv b hb).2.card_le⟩

theorem anchored_host : ∃ run b, Run Step hostBook run ∧ b ∈ states hostBook run ∧
    b.anchorList = {hostAddr 1} ∧ b.anchorList.card ≤ b.reachablePeers.card := by
  have hrun : Run Step hostBook [⟨_, .call (.newConnection (.knownAddr (hostAddr 1))
    (hostPeer (some (hostAddr 1)) 1 .notPruned)), _⟩] := .cons (.call rfl) (.nil _)
  refine ⟨_, _, hrun, .tail _ (mem_singleton_self _), rfl, ?_⟩
  refine (anchored_of_reachableAtOrigin _ _ _ hrun (fun t ht => ?_) _ (.tail _ (mem_singleton_self _))).2
  obtain rfl := mem_singleton.mp ht
  exact fun addr haddr => congrArg _ (Option.some.inj haddr)

/-- A peer connects from port 2, can be reached at port 1 and disconnects. It stays an anchor. -/
theorem anchor_stays_after_disconnect : ∃ run b, Run Step hostBook run ∧ b ∈ states hostBook run ∧
    b.anchorList = {hostAddr 1} ∧ b.connectedPeers = ∅ := by
  refine ⟨[⟨_, .call (.newConnection (.knownAddr (hostAddr 2)) (hostPeer (some (hostAddr 1)) 2 .notPruned)), _⟩,
    ⟨_, .poll ⟨0, [], [⟨.knownAddr (hostAddr 2), none, true, 0⟩]⟩, _⟩], _, .cons (.call rfl) (.cons (.poll
    (possible_of_keys nil_subperm (by simp) (by simp) rfl (by simp) (by simp)) rfl) (.nil _)),
    .tail _ (.tail _ (mem_singleton_self _)), rfl, ?_⟩
  rfl

end Cuprate.AddressBook.Book
