import Cuprate.AddressBook.Book
import Cuprate.AddressBook.Proofs.PeerListProofs

/-!
# The connected peers by ban id

A new connection is put with its ban id before the white list is updated, and the update refuses a
peer that has changed its pruning seed: the address then stays in its group without being connected.
-/

namespace Cuprate.AddressBook

open Collections P2P Pruning Wire List Option Book Finmap PeerList Groups

namespace Book

variable {Addr BanID : Type} [DecidableEq Addr] [DecidableEq BanID]

/-- The peer has a connection. -/
def Connected (b : Book Addr BanID) (addr : Addr) : Prop :=
  (b.connectedPeers.lookup (.knownAddr addr)).isSome

variable [NetZoneAddress Addr BanID]

/-- The known addresses of the connected peers are grouped by their ban id. -/
def Grouped (b : Book Addr BanID) : Prop := Groups banId b.Connected b.connectedPeersBanId

/-- The indexes of the white and of the gray list have every peer. -/
def Indexed (b : Book Addr BanID) : Prop := b.whiteList.Indexed ∧ b.grayList.Indexed

/-- What banning a peer does. -/
structure Banned (b : Book Addr BanID) (addr : Addr) (unbanAt : Instant) (b' : Book Addr BanID) :
    Prop where
  connectedPeers : b'.connectedPeers = b.connectedPeers
  connectedPeersBanId : b'.connectedPeersBanId = b.connectedPeersBanId
  bannedPeers : b'.bannedPeers = b.bannedPeers.insert (banId addr) unbanAt
  bannedPeersQueue : b'.bannedPeersQueue = b.bannedPeersQueue ++ [(banId addr, unbanAt)]
  indexed : b'.Indexed
  whiteList : b.whiteList.Shrinks b'.whiteList
  grayList : b.grayList.Shrinks b'.grayList
  not_white : ∀ addr' : Addr, banId addr' = banId addr → b'.whiteList.peers.lookup addr' = none
  not_gray : ∀ addr' : Addr, banId addr' = banId addr → b'.grayList.peers.lookup addr' = none
  anchorList : b'.anchorList ⊆ b.anchorList
  not_anchor : ∀ {peers : Finset Addr}, b.connectedPeersBanId.lookup (banId addr) = some peers →
    peers.Nonempty → addr ∉ b'.anchorList

variable {b b' : Book Addr BanID} {addr : Addr}

theorem closePeersWithBanId_eq_ok (h : b.closePeersWithBanId addr = .ok b') :
    ∃ signals anchors, b' = { b with closeSignals := signals, anchorList := anchors } ∧
      anchors ⊆ b.anchorList ∧ ∀ {peers : Finset Addr},
        b.connectedPeersBanId.lookup (banId addr) = some peers → peers.Nonempty → addr ∉ anchors := by
  unfold closePeersWithBanId at h
  split at h
  · next hnone =>
    cases h
    refine ⟨_, _, rfl, subset_rfl, fun hsome => ?_⟩
    rw [hnone] at hsome
    cases hsome
  · next peers hpeers =>
    split at h
    · cases h
      refine ⟨_, _, rfl, ?_, fun hsome hnonempty => ?_⟩
      · split
        · exact subset_rfl
        · exact Finset.erase_subset _ _
      · rw [hpeers] at hsome
        cases hsome
        rw [if_neg hnonempty.ne_empty]
        exact Finset.notMem_erase _ _
    · cases h

theorem Grouped.exists_closePeersWithBanId (h : b.Grouped) (addr : Addr) :
    ∃ b', b.closePeersWithBanId addr = .ok b' := by
  unfold closePeersWithBanId
  split
  · exact ⟨_, rfl⟩
  · next peers hpeers =>
    have hconnected : ∀ peer ∈ peers, (b.connectedPeers.lookup (.knownAddr peer)).isSome :=
      fun peer hpeer => (h.mem hpeers hpeer).2
    exact ⟨_, if_pos hconnected⟩

theorem Indexed.banPeer (h : b.Indexed)
    {closed : Book Addr BanID} (hclose : b.closePeersWithBanId addr = .ok closed)
    (time : Duration) (now : Instant) :
    ∃ b', b.banPeer addr time now = .ok b' ∧ Banned b addr (now + time) b' := by
  obtain ⟨signals, anchors, rfl, hsubset, hanchor⟩ := closePeersWithBanId_eq_ok hclose
  obtain ⟨white, hwhite, hwhiteIndexed, hwhiteShrinks, hnotWhite⟩ := h.1.removePeersWithBanId (banId addr)
  obtain ⟨gray, hgray, hgrayIndexed, hgrayShrinks, hnotGray⟩ := h.2.removePeersWithBanId (banId addr)
  refine ⟨_, bind_eq_ok.mpr
    ⟨_, hclose, bind_eq_ok.mpr ⟨white, hwhite, bind_eq_ok.mpr ⟨gray, hgray, rfl⟩⟩⟩, ?_⟩
  exact ⟨rfl, rfl, rfl, rfl, ⟨hwhiteIndexed, hgrayIndexed⟩, hwhiteShrinks, hgrayShrinks, hnotWhite,
    hnotGray, hsubset, hanchor⟩

theorem Indexed.banPeer_eq_ok (h : b.Indexed) {time : Duration} {now : Instant}
    (hban : b.banPeer addr time now = .ok b') :
    Banned b addr (now + time) b' := by
  obtain ⟨closed, hclose, -⟩ := bind_eq_ok.mp hban
  obtain ⟨b'', hban', hbanned⟩ := h.banPeer hclose time now
  rw [hban] at hban'
  cases hban'
  exact hbanned

theorem Grouped.of_eq (h : b.Grouped) (hpeers : b'.connectedPeers = b.connectedPeers)
    (hids : b'.connectedPeersBanId = b.connectedPeersBanId) : b'.Grouped := by
  unfold Grouped Connected
  rw [hpeers, hids]
  exact h

theorem Grouped.banPeers (h : b.Grouped) (hindexed : b.Indexed) (bans : List (Addr × Duration × Instant)) :
    ∃ b', b.banPeers bans = .ok b' ∧ b'.Indexed ∧ b'.connectedPeers = b.connectedPeers ∧
      b'.connectedPeersBanId = b.connectedPeersBanId := by
  induction bans generalizing b with
  | nil => exact ⟨b, rfl, hindexed, rfl, rfl⟩
  | cons ban bans ih =>
    obtain ⟨closed, hclose⟩ := h.exists_closePeersWithBanId ban.1
    obtain ⟨b₁, hban, hbanned⟩ := hindexed.banPeer hclose ban.2.1 ban.2.2
    obtain ⟨b', hrest, hindexed', hpeers, hids⟩ :=
      ih (h.of_eq hbanned.connectedPeers hbanned.connectedPeersBanId) hbanned.indexed
    exact ⟨b', bind_eq_ok.mpr ⟨b₁, hban, hrest⟩, hindexed', hpeers.trans hbanned.connectedPeers,
      hids.trans hbanned.connectedPeersBanId⟩

theorem removeDisconnected_knownAddr {peers : Finset Addr}
    (h : b.connectedPeersBanId.lookup (banId addr) = some peers) :
    b.removeDisconnected (.knownAddr addr) = .ok { b with
      connectedPeers := b.connectedPeers.erase (.knownAddr addr)
      connectedPeersBanId := groupErase banId b.connectedPeersBanId peers addr
      anchorList := b.anchorList.erase addr } := by
  simp only [removeDisconnected, h]

theorem Grouped.removeDisconnected (h : b.Grouped) {id : InternalPeerID Addr}
    (hconnected : (b.connectedPeers.lookup id).isSome) :
    ∃ b', b.removeDisconnected id = .ok b' ∧ b'.Grouped ∧
      b'.connectedPeers = b.connectedPeers.erase id ∧ b'.whiteList = b.whiteList ∧
        b'.grayList = b.grayList := by
  cases id with
  | unknown id =>
    refine ⟨_, rfl, congr h fun addr => ?_, rfl, rfl, rfl⟩
    unfold Connected
    rw [lookup_erase_ne (by simp)]
  | knownAddr addr =>
    obtain ⟨peers, hlookup, -⟩ := h.covers addr hconnected
    refine ⟨_, removeDisconnected_knownAddr hlookup, ?_, rfl, rfl, rfl⟩
    refine congr (erase h hlookup) fun addr' => ?_
    unfold Connected
    rw [lookup_erase_ite]
    simp only [InternalPeerID.knownAddr.injEq]
    split
    · next heq => simp [heq]
    · next hne => simp [hne]

theorem Grouped.removeAllDisconnected (h : b.Grouped)
    {ids : List (InternalPeerID Addr)} (hnodup : ids.Nodup)
    (hconnected : ∀ id ∈ ids, (b.connectedPeers.lookup id).isSome) :
    ∃ b', ids.foldlM Book.removeDisconnected b = .ok b' ∧ b'.Grouped ∧
      b'.whiteList = b.whiteList ∧ b'.grayList = b.grayList := by
  induction ids generalizing b with
  | nil => exact ⟨b, rfl, h, rfl, rfl⟩
  | cons id ids ih =>
    obtain ⟨hid, hnodup⟩ := nodup_cons.mp hnodup
    obtain ⟨b₁, hremove, h₁, hpeers, hwhite, hgray⟩ := h.removeDisconnected (hconnected id mem_cons_self)
    have hconnected₁ : ∀ id' ∈ ids, (b₁.connectedPeers.lookup id').isSome := by
      intro id' hid'
      have hne : id' ≠ id := fun heq => hid (heq ▸ hid')
      rw [hpeers, lookup_erase_ne hne]
      exact hconnected id' (.tail _ hid')
    obtain ⟨b', hrest, h', hwhite', hgray'⟩ := ih h₁ hnodup hconnected₁
    exact ⟨b', bind_eq_ok.mpr ⟨b₁, hremove, hrest⟩, h', hwhite'.trans hwhite, hgray'.trans hgray⟩

omit [DecidableEq Addr] [NetZoneAddress Addr BanID] in
theorem pollUnbanPeers_eq (b : Book Addr BanID) (expired : List (BanID × Instant)) :
    b.pollUnbanPeers expired = { b with
      bannedPeersQueue := b.bannedPeersQueue.diff expired
      bannedPeers := b.bannedPeers.eraseAll (expired.map Prod.fst) } := by
  rw [diff_eq_foldl]
  induction expired generalizing b with
  | nil => rfl
  | cons ban expired ih => exact ih _

theorem removeDisconnected_frame {id : InternalPeerID Addr} (h : b.removeDisconnected id = .ok b') :
    ∃ ids anchors, b' = { b with
        connectedPeers := b.connectedPeers.erase id, connectedPeersBanId := ids, anchorList := anchors } ∧
      anchors ⊆ b.anchorList ∧ ∀ addr, id = .knownAddr addr → addr ∉ anchors := by
  cases id with
  | unknown id =>
    cases h
    exact ⟨_, _, rfl, subset_rfl, fun addr heq => by cases heq⟩
  | knownAddr addr =>
    cases hlookup : b.connectedPeersBanId.lookup (banId addr) with
    | none =>
      simp only [removeDisconnected, hlookup] at h
      cases h
    | some peers =>
      rw [removeDisconnected_knownAddr hlookup] at h
      cases h
      refine ⟨_, _, rfl, Finset.erase_subset _ _, fun addr' heq => ?_⟩
      cases heq
      exact Finset.notMem_erase _ _

theorem removeAllDisconnected_frame {ids : List (InternalPeerID Addr)}
    (h : ids.foldlM removeDisconnected b = .ok b') :
    ∃ peers banIds anchors, b' = { b with
        connectedPeers := peers, connectedPeersBanId := banIds, anchorList := anchors } ∧
      anchors ⊆ b.anchorList ∧ ∀ addr, .knownAddr addr ∈ ids → addr ∉ anchors := by
  induction ids generalizing b with
  | nil =>
    cases h
    exact ⟨_, _, _, rfl, subset_rfl, by simp⟩
  | cons id ids ih =>
    obtain ⟨b₁, hremove, hrest⟩ := bind_eq_ok.mp h
    obtain ⟨banIds₁, anchors₁, rfl, hsubset₁, hnot₁⟩ := removeDisconnected_frame hremove
    obtain ⟨peers, banIds, anchors, rfl, hsubset, hnot⟩ := ih hrest
    refine ⟨_, _, _, rfl, hsubset.trans hsubset₁, fun addr hmem => ?_⟩
    rcases mem_cons.mp hmem with heq | hmem
    · exact fun hanchor => hnot₁ addr heq.symm (hsubset hanchor)
    · exact hnot addr hmem

theorem sublist_internalAddrDisconnected (visits : List (Visit Addr)) :
    (internalAddrDisconnected visits).Sublist (visits.map (·.internalAddr)) := by
  unfold internalAddrDisconnected
  generalize unknownToClose visits = closing
  induction visits with
  | nil => exact List.Sublist.refl _
  | cons visit visits ih =>
    rw [filterMap_cons, map_cons]
    split
    · exact ih.cons _
    · next id hid =>
      split at hid
      · cases hid
        exact ih.cons_cons _
      · cases hid

theorem Grouped.pollReady (h : b.Grouped) (hindexed : b.Indexed) {poll : Poll Addr BanID}
    (hposs : Poll.Possible b poll) :
    ∃ b', b.pollReady poll = .ok b' ∧ b'.Grouped ∧ b'.Indexed := by
  unfold Book.pollReady
  rw [pollUnbanPeers_eq]
  obtain ⟨b₁, hbans, hindexed₁, hpeers, hids⟩ := Grouped.banPeers
    (b := { b with
      bannedPeersQueue := b.bannedPeersQueue.diff poll.expired
      bannedPeers := b.bannedPeers.eraseAll (poll.expired.map Prod.fst)
      closeSignals := b.closeSignals ∪ b.handles (unknownToClose poll.visits) })
    (h.of_eq rfl rfl) hindexed (addrsToBan poll.visits)
  have hsublist := sublist_internalAddrDisconnected poll.visits
  obtain ⟨b', hremove, h', hwhite, hgray⟩ := Grouped.removeAllDisconnected (h.of_eq hpeers hids)
    (hposs.nodup.sublist hsublist) (fun id hid => by
      rw [hpeers]
      exact (hposs.visited id).mp (hsublist.subset hid))
  refine ⟨b', bind_eq_ok.mpr ⟨b₁, hbans, hremove⟩, h', ?_⟩
  unfold Indexed
  rw [hwhite, hgray]
  exact hindexed₁

/-- The pruning seed of a connection is the one the white list has for its address. -/
def SeedUnchanged (b : Book Addr BanID) (peer : ConnectionPeerEntry Addr) : Prop :=
  ∀ addr peb, peer.addr = some addr → b.whiteList.peers.lookup addr = some peb →
    peb.pruningSeed = peer.pruningSeed

variable {id : InternalPeerID Addr} {peer : ConnectionPeerEntry Addr}

/-- The identifier is not connected yet and not banned. -/
def Admits (b : Book Addr BanID) (id : InternalPeerID Addr) : Prop :=
  b.connectedPeers.lookup id = none ∧ b.isIdBanned id = false

/-- What an update of the white list does. -/
theorem updateWhiteListPeerEntry_cases (h : b.whiteList.Indexed) (peer : ConnectionPeerEntry Addr) :
    (∃ e, b.updateWhiteListPeerEntry peer = .error e ∧ ¬ b.SeedUnchanged peer) ∨
      ∃ white, b.updateWhiteListPeerEntry peer = .ok { b with whiteList := white } ∧ b.SeedUnchanged peer ∧
        white.Indexed ∧ ∀ addr, peer.addr ≠ some addr → b.whiteList.peers.lookup addr = none →
          white.peers.lookup addr = none := by
  cases haddr : peer.addr with
  | none =>
    refine .inr ⟨b.whiteList, by simp only [updateWhiteListPeerEntry, haddr], ?_, h, fun _ _ hnone => hnone⟩
    intro addr peb heq
    rw [haddr] at heq
    cases heq
  | some addr =>
    have hne : ∀ {addr'}, some addr ≠ some addr' → addr' ≠ addr := fun hne heq => hne (heq ▸ rfl)
    cases hlookup : b.whiteList.peers.lookup addr with
    | none =>
      have hnew := Indexed.addNewPeer h (show b.whiteList.peers.lookup (peer.peb addr).adr = none from hlookup)
      refine .inr ⟨_, by simp only [updateWhiteListPeerEntry, haddr, hlookup], ?_, hnew.1,
        fun addr' hne' => hnew.2 addr' (hne hne')⟩
      intro addr' peb heq hpeb
      rw [haddr] at heq
      cases heq
      rw [hlookup] at hpeb
      cases hpeb
    | some peb =>
      by_cases hseed : peb.pruningSeed = peer.pruningSeed
      · have hupdated : (peer.updatePeb peb).pruningSeed = peb.pruningSeed := rfl
        refine .inr ⟨{ b.whiteList with peers := b.whiteList.peers.insert addr (peer.updatePeb peb) }, ?_, ?_,
          h.update hlookup rfl hupdated, fun addr' hne' hnone => ?_⟩
        · simp only [updateWhiteListPeerEntry, haddr, hlookup, hseed, ne_eq, not_true_eq_false, if_false]
        · intro addr' peb' heq hpeb'
          rw [haddr] at heq
          cases heq
          rw [hlookup] at hpeb'
          cases hpeb'
          exact hseed
        · rw [IndexMap.lookup_insert, if_neg (hne hne')]
          exact hnone
      · refine .inl ⟨.peersDataChanged "Pruning seed", ?_, fun hsame => hseed (hsame addr peb haddr hlookup)⟩
        simp only [updateWhiteListPeerEntry, haddr, hlookup, ne_eq, hseed, not_false_eq_true, if_true]

theorem addConnectedBanId_eq (b : Book Addr BanID) (id : InternalPeerID Addr) :
    ∃ ids, b.addConnectedBanId id = { b with connectedPeersBanId := ids } := by
  cases id with
  | knownAddr addr => exact ⟨_, rfl⟩
  | unknown id => exact ⟨_, rfl⟩

/-- What a new connection does: it is refused, it is refused after its address was put with its ban
id, or it is connected. -/
theorem handleNewConnection_cases {res : Except AddressBookError Unit} (hindexed : b.whiteList.Indexed)
    (h : b.handleNewConnection id peer = .ok (res, b')) :
      (¬ b.Admits id ∧ (∃ e, res = .error e) ∧ b' = b) ∨
      (b.Admits id ∧ ¬ b.SeedUnchanged peer ∧ b' = b.addConnectedBanId id) ∨
      (b.Admits id ∧ b.SeedUnchanged peer ∧ ∃ white anchors, b' = { b.addConnectedBanId id with
        whiteList := white, anchorList := anchors, connectedPeers := b.connectedPeers.insert id peer } ∧
        white.Indexed ∧ (∀ addr, peer.addr ≠ some addr → b.whiteList.peers.lookup addr = none →
          white.peers.lookup addr = none) ∧ ∀ addr ∈ anchors, addr ∈ b.anchorList ∨
            peer.addr = some addr) := by
  obtain ⟨ids, hids⟩ := addConnectedBanId_eq b id
  unfold handleNewConnection at h
  by_cases hconnected : (b.connectedPeers.lookup id).isSome
  · rw [if_pos hconnected] at h
    cases h
    refine .inl ⟨fun hadmits => ?_, ⟨_, rfl⟩, rfl⟩
    rw [hadmits.1] at hconnected
    cases hconnected
  rw [if_neg hconnected] at h
  by_cases hbanned : b.isIdBanned id = true
  · rw [if_pos hbanned] at h
    cases h
    refine .inl ⟨fun hadmits => ?_, ⟨_, rfl⟩, rfl⟩
    rw [hadmits.2] at hbanned
    cases hbanned
  rw [if_neg hbanned] at h
  have hadmits : b.Admits id := ⟨by simpa using hconnected, by simpa using hbanned⟩
  have hwhite : (b.addConnectedBanId id).whiteList.Indexed := by rw [hids]; exact hindexed
  right
  cases haddr : peer.addr with
  | none =>
    simp only [haddr] at h
    cases h
    refine .inr ⟨hadmits, fun addr peb heq =>
      ?_, b.whiteList, b.anchorList, ?_, hindexed, fun _ _ hnone => hnone, fun _ hmem => .inl hmem⟩
    · rw [haddr] at heq
      cases heq
    · rw [hids]
  | some addr =>
    simp only [haddr] at h
    rcases updateWhiteListPeerEntry_cases hwhite peer with ⟨e, hupdate, hseed⟩ | ⟨white, hupdate,
      hseed, hwhite', hkeep⟩
    · rw [hupdate] at h
      cases h
      rw [hids] at hseed
      exact .inl ⟨hadmits, hseed, rfl⟩
    · rw [hupdate] at h
      obtain ⟨reduced, hreduce, h⟩ := bind_eq_ok.mp h
      obtain ⟨white'', hreduce', hindexed'', hshrinks⟩ := hwhite'.reduceList
        (insert addr (b.addConnectedBanId id).anchorList) (b.addConnectedBanId id).cfg.maxWhiteListLength
      rw [hreduce] at hreduce'
      cases hreduce'
      cases h
      rw [hids] at hseed hkeep
      refine .inr ⟨hadmits, hseed, reduced, insert addr b.anchorList, ?_, hindexed'', ?_, ?_⟩
      · rw [hids]
      · intro addr' hne hnone
        exact hshrinks addr' (hkeep addr' (haddr ▸ hne) hnone)
      · intro addr' hmem
        rcases Finset.mem_insert.mp hmem with rfl | hmem
        · exact .inr rfl
        · exact .inl hmem

theorem Grouped.addConnectedBanId (h : b.Grouped) (hadmits : b.Admits id) :
    (b.addConnectedBanId id).Grouped ↔ ∀ addr, id ≠ .knownAddr addr := by
  cases id with
  | unknown id => exact ⟨fun _ _ => by simp, fun _ => h⟩
  | knownAddr addr =>
    refine ⟨fun h' => ?_, fun hne => absurd rfl (hne addr)⟩
    obtain ⟨group, hlookup, hmem⟩ := (Covers.insert (a := addr) h.covers) addr (.inl rfl)
    have hconnected := (h'.mem hlookup hmem).2
    unfold Connected addConnectedBanId at hconnected
    rw [hadmits.1] at hconnected
    cases hconnected

theorem Grouped.connect (h : b.Grouped) (peer : ConnectionPeerEntry Addr) {white : PeerList Addr BanID}
    {anchors : Finset Addr} (hb' : b' = { b.addConnectedBanId id with
      whiteList := white, anchorList := anchors, connectedPeers := b.connectedPeers.insert id peer }) :
    b'.Grouped := by
  subst hb'
  cases id with
  | unknown id =>
    refine congr h fun addr => ?_
    unfold Connected
    rw [lookup_insert_of_ne _ (by simp)]
  | knownAddr addr =>
    refine congr (insert (a := addr) h) fun addr' => ?_
    unfold Connected
    rw [lookup_insert_ite]
    simp only [InternalPeerID.knownAddr.injEq]
    split
    · next heq => simp [heq]
    · next hne => simp [hne]

theorem Indexed.addPeerToGrayList (h : b.Indexed) (peer : ZoneSpecificPeerListEntryBase Addr) :
    ∃ gray, b.addPeerToGrayList peer = { b with grayList := gray } ∧ gray.Indexed ∧
      ∀ addr, addr ≠ peer.adr → b.grayList.peers.lookup addr = none → gray.peers.lookup addr = none := by
  unfold Book.addPeerToGrayList
  split
  · exact ⟨_, rfl, h.2, fun _ _ hnone => hnone⟩
  split
  · exact ⟨_, rfl, h.2, fun _ _ hnone => hnone⟩
  · next hcontains =>
    have hnew : b.grayList.peers.lookup { peer with lastSeen := 0 }.adr = none := by
      simpa [containsPeer] using hcontains
    obtain ⟨hindexed, hkeep⟩ := Indexed.addNewPeer h.2 hnew
    exact ⟨_, rfl, hindexed, hkeep⟩

/-- An incoming peer list only adds the peers it retains to the gray list. -/
theorem Indexed.handleIncomingPeerList (h : b.Indexed)
    {peerList : List (ZoneSpecificPeerListEntryBase Addr)}
    (hlist : b.handleIncomingPeerList peerList = .ok b') :
    ∃ gray, b' = { b with grayList := gray } ∧ gray.Indexed ∧ ∀ addr,
      (∀ peer ∈ b.retainPeers peerList, addr ≠ peer.adr) → b.grayList.peers.lookup addr = none →
        gray.peers.lookup addr = none := by
  have hadd : ∀ (peers : List (ZoneSpecificPeerListEntryBase Addr)) (b : Book Addr BanID), b.Indexed →
      ∃ gray, peers.foldl Book.addPeerToGrayList b = { b with grayList := gray } ∧ gray.Indexed ∧ ∀ addr,
        (∀ peer ∈ peers, addr ≠ peer.adr) → b.grayList.peers.lookup addr = none →
          gray.peers.lookup addr = none := by
    intro peers
    induction peers with
    | nil => exact fun b h => ⟨_, rfl, h.2, fun _ _ hnone => hnone⟩
    | cons peer peers ih =>
      intro b h
      obtain ⟨gray, hgray, hindexed, hkeep⟩ := h.addPeerToGrayList peer
      obtain ⟨gray', hgray', hindexed', hkeep'⟩ := ih { b with grayList := gray } ⟨h.1, hindexed⟩
      rw [foldl_cons, hgray, hgray']
      refine ⟨gray', rfl, hindexed', fun addr hne hnone => ?_⟩
      refine hkeep' addr (fun peer' hmem => hne peer' (.tail _ hmem)) ?_
      exact hkeep addr (hne peer mem_cons_self) hnone
  obtain ⟨gray, hgray, hindexed, hkeep⟩ := hadd (b.retainPeers peerList) b h
  unfold Book.handleIncomingPeerList at hlist
  rw [hgray] at hlist
  obtain ⟨reduced, hreduce, hlist⟩ := bind_eq_ok.mp hlist
  obtain ⟨gray', hreduce', hindexed', hshrinks⟩ := hindexed.reduceList ∅ b.cfg.maxGrayListLength
  rw [hreduce] at hreduce'
  cases hreduce'
  cases hlist
  exact ⟨reduced, rfl, hindexed', fun addr hne hnone => hshrinks addr (hkeep addr hne hnone)⟩

theorem Indexed.takeRandomWhitePeer (h : b.Indexed) {height : Option Nat} {ns : List Nat}
    {taken : Option (ZoneSpecificPeerListEntryBase Addr)}
    (htake : b.takeRandomWhitePeer height ns = .ok (taken, b')) :
    ∃ white, b' = { b with whiteList := white } ∧ white.Indexed ∧ b.whiteList.Shrinks white := by
  obtain ⟨⟨peer, white⟩, hwhite, htake⟩ := bind_eq_ok.mp htake
  cases htake
  exact ⟨white, rfl, h.1.takeRandomPeer hwhite⟩

theorem Indexed.takeRandomGrayPeer (h : b.Indexed) {height : Option Nat} {ns : List Nat}
    {taken : Option (ZoneSpecificPeerListEntryBase Addr)}
      (htake : b.takeRandomGrayPeer height ns = .ok (taken, b')) :
    ∃ gray, b' = { b with grayList := gray } ∧ gray.Indexed ∧ b.grayList.Shrinks gray := by
  obtain ⟨⟨peer, gray⟩, hgray, htake⟩ := bind_eq_ok.mp htake
  cases htake
  exact ⟨gray, rfl, h.2.takeRandomPeer hgray⟩

/-- Any other request: peers leave the lists, and peers that are not banned come into the gray
list. -/
structure ListsOnly (b b' : Book Addr BanID) : Prop where
  frame : ∃ white gray, b' = { b with whiteList := white, grayList := gray }
  indexed : b'.Indexed
  whiteList : b.whiteList.Shrinks b'.whiteList
  grayList : ∀ addr, b.isPeerBanned addr = true → b.grayList.peers.lookup addr = none →
    b'.grayList.peers.lookup addr = none

theorem Indexed.listsOnly_white (h : b.Indexed) {white : PeerList Addr BanID} (hwhite : white.Indexed)
    (hshrinks : b.whiteList.Shrinks white) : ListsOnly b { b with whiteList := white } :=
  ⟨⟨_, _, rfl⟩, ⟨hwhite, h.2⟩, hshrinks, fun _ _ hnone => hnone⟩

theorem Indexed.call_cases (h : b.Indexed) {request : AddressBookRequest Addr}
    {response : Except AddressBookError (AddressBookResponse Addr)}
      (hcall : b.call request = .ok (response, b')) :
    (∃ id peer res, request = .newConnection id peer ∧ b.handleNewConnection id peer = .ok (res, b')) ∨
      ((∀ id peer, request ≠ .newConnection id peer) ∧ ListsOnly b b') := by
  cases request with
  | newConnection id peer =>
    obtain ⟨⟨res, b₁⟩, hnew, hcall⟩ := bind_eq_ok.mp hcall
    cases hcall
    exact .inl ⟨id, peer, res, rfl, hnew⟩
  | incomingPeerList peerList =>
    refine .inr ⟨fun _ _ => by simp, ?_⟩
    obtain ⟨b₁, hlist, hcall⟩ := bind_eq_ok.mp hcall
    cases hcall
    obtain ⟨gray, rfl, hgray, hkeep⟩ := h.handleIncomingPeerList hlist
    refine ⟨⟨_, _, rfl⟩, ⟨h.1, hgray⟩, .refl _, fun addr hbanned hnone =>
      hkeep addr (fun peer hmem => ?_) hnone⟩
    have hretained := (mem_filter.mp hmem).2
    rintro rfl
    simp [hbanned] at hretained
  | takeRandomWhitePeer height ns =>
    refine .inr ⟨fun _ _ => by simp, ?_⟩
    obtain ⟨⟨peer, b₁⟩, htake, hcall⟩ := bind_eq_ok.mp hcall
    cases hcall
    obtain ⟨white, rfl, hwhite, hshrinks⟩ := h.takeRandomWhitePeer htake
    exact h.listsOnly_white hwhite hshrinks
  | takeRandomGrayPeer height ns =>
    refine .inr ⟨fun _ _ => by simp, ?_⟩
    obtain ⟨⟨peer, b₁⟩, htake, hcall⟩ := bind_eq_ok.mp hcall
    cases hcall
    obtain ⟨gray, rfl, hgray, hshrinks⟩ := h.takeRandomGrayPeer htake
    exact ⟨⟨_, _, rfl⟩, ⟨h.1, hgray⟩, .refl _, fun addr _ hnone => hshrinks addr hnone⟩
  | takeRandomPeer height ns ns' =>
    refine .inr ⟨fun _ _ => by simp, ?_⟩
    obtain ⟨⟨peer, b₁⟩, htake, hcall⟩ := bind_eq_ok.mp hcall
    obtain ⟨white, rfl, hwhite, hshrinks⟩ := h.takeRandomWhitePeer htake
    cases peer with
    | some peer =>
      cases hcall
      exact h.listsOnly_white hwhite hshrinks
    | none =>
      obtain ⟨⟨peer, b₂⟩, htake', hcall⟩ := bind_eq_ok.mp hcall
      cases hcall
      obtain ⟨gray, rfl, hgray, hshrinks'⟩ :=
        (h.listsOnly_white hwhite hshrinks).indexed.takeRandomGrayPeer htake'
      exact ⟨⟨_, _, rfl⟩, ⟨hwhite, hgray⟩, hshrinks, fun addr _ hnone => hshrinks' addr hnone⟩
  | getBan addr =>
    refine .inr ⟨fun _ _ => by simp, ?_⟩
    cases hcall
    exact h.listsOnly_white h.1 (.refl _)

/-- No new connection from a known address is refused because the white list has another pruning
seed for it. -/
def KeepsPruningSeed (b : Book Addr BanID) : Event Addr BanID → Prop
  | .call (.newConnection (.knownAddr addr) peer) => b.Admits (.knownAddr addr) → b.SeedUnchanged peer
  | _ => True

variable {event : Event Addr BanID}

theorem Indexed.banPeers_eq_ok (h : b.Indexed) {bans : List (Addr × Duration × Instant)}
    (hbans : b.banPeers bans = .ok b') :
    b'.Indexed ∧ b'.connectedPeers = b.connectedPeers ∧ b'.anchorList ⊆ b.anchorList := by
  induction bans generalizing b with
  | nil =>
    cases hbans
    exact ⟨h, rfl, subset_rfl⟩
  | cons ban bans ih =>
    obtain ⟨b₁, hban, hrest⟩ := bind_eq_ok.mp hbans
    have hbanned := h.banPeer_eq_ok hban
    obtain ⟨hindexed, hpeers, hanchors⟩ := ih hbanned.indexed hrest
    exact ⟨hindexed, hpeers.trans hbanned.connectedPeers, hanchors.trans hbanned.anchorList⟩

theorem Step.indexed (hstep : Step b event b') (h : b.Indexed) : b'.Indexed := by
  cases hstep with
  | @poll _ poll hposs hpoll =>
    unfold pollReady at hpoll
    rw [pollUnbanPeers_eq] at hpoll
    obtain ⟨b₁, hbans, hremove⟩ := bind_eq_ok.mp hpoll
    obtain ⟨peers, banIds, anchors, rfl, -, -⟩ := removeAllDisconnected_frame hremove
    exact (Indexed.banPeers_eq_ok (by exact h) hbans).1
  | call hcall =>
    rcases h.call_cases hcall with ⟨id, peer, res, rfl, hnew⟩ | ⟨-, hlists⟩
    · obtain ⟨ids, hids⟩ := addConnectedBanId_eq b id
      rcases handleNewConnection_cases h.1 hnew with ⟨-, -, rfl⟩ | ⟨-, -, rfl⟩ |
        ⟨-, -, white, anchors, rfl, hwhite, -, -⟩
      · exact h
      · rw [hids]
        exact h
      · rw [hids]
        exact ⟨hwhite, h.2⟩
    · exact hlists.indexed

/-- A step from exact groups keeps them exact if and only if it keeps the pruning seeds. -/
theorem Step.grouped_iff (hstep : Step b event b') (h : b.Indexed) (hgrouped : b.Grouped) :
    b'.Grouped ↔ b.KeepsPruningSeed event := by
  cases hstep with
  | poll hposs hpoll =>
    obtain ⟨b'', hpoll', hgrouped', -⟩ := hgrouped.pollReady h hposs
    rw [hpoll] at hpoll'
    cases hpoll'
    exact ⟨fun _ => trivial, fun _ => hgrouped'⟩
  | call hcall =>
    rcases h.call_cases hcall with ⟨id, peer, res, rfl, hnew⟩ | ⟨hrequest, hlists⟩
    · rcases handleNewConnection_cases h.1 hnew with ⟨hadmits, -, rfl⟩ | ⟨hadmits, hseed, rfl⟩ |
        ⟨-, hseed, white, anchors, hb', -, -, -⟩
      · refine ⟨fun _ => ?_, fun _ => hgrouped⟩
        cases id with
        | knownAddr addr => exact fun hadmits' => absurd hadmits' hadmits
        | unknown id => trivial
      · refine (hgrouped.addConnectedBanId hadmits).trans ?_
        cases id with
        | knownAddr addr => exact ⟨fun hne => absurd rfl (hne addr), fun hkeeps =>
            absurd (hkeeps hadmits) hseed⟩
        | unknown id => exact ⟨fun _ => trivial, fun _ _ => by simp⟩
      · refine ⟨fun _ => ?_, fun _ => hgrouped.connect peer hb'⟩
        cases id with
        | knownAddr addr => exact fun _ => hseed
        | unknown id => trivial
    · obtain ⟨white, gray, rfl⟩ := hlists.frame
      refine ⟨fun _ => ?_, fun _ => hgrouped⟩
      unfold KeepsPruningSeed
      split
      · next heq =>
        cases heq
        exact absurd rfl (hrequest _ _)
      · trivial

theorem grouped_new (cfg : AddressBookConfig)
    (whitePeers grayPeers : List (ZoneSpecificPeerListEntryBase Addr))
    (anchorPeers : List Addr) : (new cfg whitePeers grayPeers anchorPeers : Book Addr BanID).Indexed ∧
      (new cfg whitePeers grayPeers anchorPeers : Book Addr BanID).Grouped := by
  refine ⟨⟨indexed_new _, indexed_new _⟩, groups_empty fun addr => ?_⟩
  simp [Connected, new]

/-- The known addresses of the connected peers stay grouped by their ban id exactly if no new
connection changes the pruning seed the white list has for it. Then no poll panics. -/
theorem grouped_iff_keepsPruningSeed (cfg : AddressBookConfig)
    (whitePeers grayPeers : List (ZoneSpecificPeerListEntryBase Addr)) (anchorPeers : List Addr)
    {run : List (Transition (Book Addr BanID) (Event Addr BanID))}
    (hrun : Run Step (new cfg whitePeers grayPeers anchorPeers) run) :
    ((∀ b ∈ states (new cfg whitePeers grayPeers anchorPeers) run, b.Grouped) ↔
        ∀ t ∈ run, t.before.KeepsPruningSeed t.event) ∧
      ((∀ t ∈ run, t.before.KeepsPruningSeed t.event) →
        ∀ b ∈ states (new cfg whitePeers grayPeers anchorPeers) run, ∀ poll, Poll.Possible b poll →
          ∃ b', b.pollReady poll = .ok b') := by
  obtain ⟨hindexed, hgrouped⟩ := @grouped_new Addr BanID _ _ _ cfg whitePeers grayPeers anchorPeers
  have hindexed' := hrun.invariant Indexed (fun _ _ => True) (fun hstep _ => hstep.indexed) hindexed
    fun _ _ => trivial
  have hiff := hrun.invariant_iff (fun b => b.Indexed ∧ b.Grouped) KeepsPruningSeed
    (fun hstep h => (and_iff_right (hstep.indexed h.1)).trans (hstep.grouped_iff h.1 h.2))
      ⟨hindexed, hgrouped⟩
  refine ⟨⟨fun h => hiff.mp fun b hb => ⟨hindexed' b hb, h b hb⟩, fun h b hb => (hiff.mpr h b hb).2⟩, ?_⟩
  intro h b hb poll hposs
  obtain ⟨b', hpoll, -, -⟩ := (hiff.mpr h b hb).2.pollReady (hiff.mpr h b hb).1 hposs
  exact ⟨b', hpoll⟩

def hostAddr (port : UInt16) : SocketAddr := .v4 ⟨[10, 0, 0, 1], rfl⟩ port

def hostPeer (addr : Option SocketAddr) (handle : ConnectionHandle) (seed : PruningSeed) :
    ConnectionPeerEntry SocketAddr := ⟨addr, 0, handle, seed, 0, 0⟩

/-- A book whose white list has a peer that does not prune. -/
def hostBook : Book SocketAddr IpAddr :=
    .new ⟨1000, 5000⟩ [(hostPeer none 0 .notPruned).peb (hostAddr 1)] [] []

theorem grouped_host : ∃ run, Run Step hostBook run ∧ run ≠ [] ∧ ∀ b ∈ states hostBook run, b.Grouped := by
  refine ⟨[⟨_, .call (.newConnection (.knownAddr (hostAddr 1)) (hostPeer (some (hostAddr 1)) 1 .notPruned)), _⟩],
    .cons (.call rfl) (.nil _), by simp, ?_⟩
  refine (grouped_iff_keepsPruningSeed _ _ _ _ (.cons (.call rfl) (.nil _))).1.mpr fun t ht => ?_
  obtain rfl := mem_singleton.mp ht
  rintro - addr peb haddr hpeb
  cases haddr
  cases hpeb
  rfl

/-- A white peer comes back with another pruning seed and is refused, but stays with the peers of
its ban id. When another peer of its host is banned, the book looks for it and panics. -/
theorem banPeer_panics_after_changed_seed : ∃ run b poll, Run Step hostBook run ∧ b ∈ states hostBook run ∧
    ¬ b.Grouped ∧ Poll.Possible b poll ∧ b.pollReady poll = .error .peerNotConnected := by
  let stripe : PruningSeed := .pruned ⟨3, 1, by decide, by decide, by decide⟩
  refine ⟨[⟨_, .call (.newConnection (.knownAddr (hostAddr 1)) (hostPeer (some (hostAddr 1)) 1 stripe)), _⟩,
    ⟨_, .call (.newConnection (.knownAddr (hostAddr 2)) (hostPeer none 2 .notPruned)), _⟩], _,
    ⟨0, [], [⟨.knownAddr (hostAddr 2), some 60, true, 0⟩]⟩, .cons (.call rfl) (.cons (.call rfl) (.nil _)),
    .tail _ (.tail _ (mem_singleton_self _)), ?_, ?_, rfl⟩
  · intro h
    have hmem := h.mem (k := banId (hostAddr 1)) (a := hostAddr 1) rfl (by decide)
    have hconnected : false = true := hmem.2
    cases hconnected
  · refine ⟨nil_subperm, by simp, by simp, fun id => ?_, ?_, by simp⟩
    · show _ ↔ ((insert (.knownAddr (hostAddr 2)) _ ∅).lookup id).isSome
      rw [lookup_insert_ite]
      by_cases hid : id = .knownAddr (hostAddr 2)
      · simp [hid]
      · simp [hid]
    · intro visit hmem peer hlookup hsignal
      obtain rfl := mem_singleton.mp hmem
      rfl

end Book

end Cuprate.AddressBook
