import Cuprate.AddressBook.Proofs.ConnectedPeersProofs

/-!
# Bans

When the queue hands out a ban, its ban id is removed from the map, so the end of one ban of an id
also ends the others. A ban removes only the banned address itself from the anchors, and a new
connection is only checked by the address it comes from.
-/

namespace Cuprate.AddressBook

open Collections P2P Wire List Finmap Book

/-- An address book at some time, with all bans it has made. -/
structure Timed (Addr BanID : Type) where
  book : Book Addr BanID
  now : Instant
  bans : List (BanID × Instant)

namespace Book

variable {Addr BanID : Type} [DecidableEq Addr] [DecidableEq BanID] [NetZoneAddress Addr BanID]

/-- The ban ids and the unban times of the peers that are banned in a poll. -/
def newBans (visits : List (Visit Addr)) : List (BanID × Instant) :=
  (addrsToBan visits).map fun ban => (banId ban.1, ban.2.2 + ban.2.1)

/-- A step of a book whose clock does not go back. -/
inductive TimedStep : Timed Addr BanID → Event Addr BanID → Timed Addr BanID → Prop where
  | poll {s : Timed Addr BanID} {poll : Poll Addr BanID} {book : Book Addr BanID} {now : Instant} :
      Poll.Possible s.book poll → s.book.pollReady poll = .ok book → s.now ≤ poll.now → poll.now ≤ now →
      (∀ visit ∈ poll.visits, visit.now ≤ now) →
      TimedStep s (.poll poll) ⟨book, now, s.bans ++ newBans poll.visits⟩
  | call {s : Timed Addr BanID} {request : AddressBookRequest Addr} {book : Book Addr BanID}
      {now : Instant}
      {response : Except AddressBookError (AddressBookResponse Addr)} :
      s.book.call request = .ok (response, book) → s.now ≤ now →
      TimedStep s (.call request) ⟨book, now, s.bans⟩

/-- No list and no anchor has an address with the ban id. -/
structure Absent (b : Book Addr BanID) (id : BanID) : Prop where
  whiteList : ∀ addr : Addr, banId addr = id → b.whiteList.peers.lookup addr = none
  grayList : ∀ addr : Addr, banId addr = id → b.grayList.peers.lookup addr = none
  anchorList : ∀ addr : Addr, banId addr = id → addr ∉ b.anchorList

/-- The ban id is reported as banned, connections from known addresses with it are refused, and no
list has an address with it. -/
structure BanInForce (b : Book Addr BanID) (id : BanID) : Prop where
  reported : ∀ addr : Addr, banId addr = id → (b.peerUnbanInstant addr).isSome
  refused : ∀ addr : Addr, banId addr = id → ∀ peer, ∃ e,
    b.handleNewConnection (.knownAddr addr) peer = .ok (.error e, b)
  absent : b.Absent id

/-- Every connected peer with a known address is with the peers of its ban id. -/
def Covered (b : Book Addr BanID) : Prop := Covers banId b.Connected b.connectedPeersBanId

variable {b b' : Book Addr BanID} {addr : Addr}

/-- Banned peers, one after another. -/
structure AllBanned (b : Book Addr BanID) (bans : List (Addr × Duration × Instant))
    (b' : Book Addr BanID) : Prop where
  connectedPeers : b'.connectedPeers = b.connectedPeers
  connectedPeersBanId : b'.connectedPeersBanId = b.connectedPeersBanId
  bannedPeersQueue : b'.bannedPeersQueue = b.bannedPeersQueue ++ bans.map fun ban =>
    (banId ban.1, ban.2.2 + ban.2.1)
  bannedPeers : ∀ id, (b.bannedPeers.lookup id).isSome ∨ (∃ ban ∈ bans, banId ban.1 = id) →
    (b'.bannedPeers.lookup id).isSome
  indexed : b'.Indexed
  whiteList : b.whiteList.Shrinks b'.whiteList
  grayList : b.grayList.Shrinks b'.grayList
  not_white : ∀ ban ∈ bans, ∀ addr : Addr, banId addr = banId ban.1 → b'.whiteList.peers.lookup addr = none
  not_gray : ∀ ban ∈ bans, ∀ addr : Addr, banId addr = banId ban.1 → b'.grayList.peers.lookup addr = none
  anchorList : b'.anchorList ⊆ b.anchorList
  not_anchor : ∀ ban ∈ bans, b.Connected ban.1 → ban.1 ∉ b'.anchorList

theorem Covered.banPeers (h : b.Covered) (hindexed : b.Indexed) {bans : List (Addr × Duration × Instant)}
    (hbans : b.banPeers bans = .ok b') : AllBanned b bans b' := by
  induction bans generalizing b with
  | nil =>
    cases hbans
    refine ⟨rfl, rfl, by simp, fun id hid => ?_, hindexed, .refl _, .refl _, by simp, by simp, subset_rfl, by simp⟩
    simpa using hid
  | cons ban bans ih =>
    obtain ⟨b₁, hban, hrest⟩ := bind_eq_ok.mp hbans
    have h₁ := hindexed.banPeer_eq_ok hban
    have hconnected : b₁.Connected = b.Connected := by
      unfold Connected
      rw [h₁.connectedPeers]
    have hcovered : b₁.Covered := by
      unfold Covered
      rw [hconnected, h₁.connectedPeersBanId]
      exact h
    have h' := ih hcovered h₁.indexed hrest
    refine ⟨h'.connectedPeers.trans h₁.connectedPeers,
      h'.connectedPeersBanId.trans h₁.connectedPeersBanId, ?_, ?_,
      h'.indexed, h₁.whiteList.trans h'.whiteList, h₁.grayList.trans h'.grayList, ?_, ?_,
      h'.anchorList.trans h₁.anchorList, ?_⟩
    · rw [h'.bannedPeersQueue, h₁.bannedPeersQueue, append_assoc]
      rfl
    · intro id hid
      refine h'.bannedPeers id ?_
      rw [h₁.bannedPeers, lookup_insert_ite]
      rcases hid with hid | ⟨ban', hmem, rfl⟩
      · refine .inl ?_
        split
        · rfl
        · exact hid
      · rcases mem_cons.mp hmem with rfl | hmem
        · rw [if_pos rfl]
          exact .inl rfl
        · exact .inr ⟨ban', hmem, rfl⟩
    · intro ban' hmem addr haddr
      rcases mem_cons.mp hmem with rfl | hmem
      · exact h'.whiteList addr (h₁.not_white addr haddr)
      · exact h'.not_white ban' hmem addr haddr
    · intro ban' hmem addr haddr
      rcases mem_cons.mp hmem with rfl | hmem
      · exact h'.grayList addr (h₁.not_gray addr haddr)
      · exact h'.not_gray ban' hmem addr haddr
    · intro ban' hmem hconn
      rcases mem_cons.mp hmem with rfl | hmem
      · obtain ⟨group, hgroup, hin⟩ := h _ hconn
        exact fun hanchor => h₁.not_anchor hgroup ⟨_, hin⟩ (h'.anchorList hanchor)
      · exact h'.not_anchor ban' hmem (hconnected ▸ hconn)

theorem Covered.removeDisconnected (h : b.Covered) {id : InternalPeerID Addr}
    (hremove : b.removeDisconnected id = .ok b') : b'.Covered := by
  cases id with
  | unknown id =>
    cases hremove
    intro addr hconnected
    refine h addr ?_
    unfold Connected at hconnected ⊢
    rwa [lookup_erase_ne (by simp)] at hconnected
  | knownAddr addr =>
    cases hlookup : b.connectedPeersBanId.lookup (banId addr) with
    | none =>
      simp only [Book.removeDisconnected, hlookup] at hremove
      cases hremove
    | some peers =>
      rw [removeDisconnected_knownAddr hlookup] at hremove
      cases hremove
      intro addr' hconnected
      refine (Covers.erase h hlookup) addr' ?_
      unfold Connected at hconnected ⊢
      rw [lookup_erase_ite] at hconnected
      split at hconnected
      · cases hconnected
      · next hne => exact ⟨fun heq => hne (heq ▸ rfl), hconnected⟩

theorem Covered.removeAllDisconnected (h : b.Covered) {ids : List (InternalPeerID Addr)}
    (hremove : ids.foldlM Book.removeDisconnected b = .ok b') : b'.Covered := by
  induction ids generalizing b with
  | nil =>
    cases hremove
    exact h
  | cons id ids ih =>
    obtain ⟨b₁, hfirst, hrest⟩ := bind_eq_ok.mp hremove
    exact ih (h.removeDisconnected hfirst) hrest

theorem Covered.addConnectedBanId (h : b.Covered) (id : InternalPeerID Addr) :
    Covers banId (fun addr => id = .knownAddr addr ∨ b.Connected addr)
      (b.addConnectedBanId id).connectedPeersBanId := by
  cases id with
  | unknown id => exact fun addr haddr => h addr (haddr.resolve_left (by simp))
  | knownAddr addr =>
    refine fun addr' haddr' => (Covers.insert (a := addr) h) addr' ?_
    exact haddr'.imp_left fun heq => by cases heq; rfl

/-- The bans of one id that the queue holds have all reached their unban time, or none of them
has. -/
def BansEndTogether (b : Book Addr BanID) (now : Instant) : Prop :=
  ∀ ban ∈ b.bannedPeersQueue, ∀ ban' ∈ b.bannedPeersQueue, ban.1 = ban'.1 → ban.2 ≤ now → ban'.2 ≤ now

/-- An anchor with the ban id of a peer that is banned is itself the address of a peer that is
banned or closed. -/
def AnchorsLeave (b : Book Addr BanID) (visits : List (Visit Addr)) : Prop :=
  ∀ ban ∈ addrsToBan visits, ∀ addr ∈ b.anchorList, banId addr = banId ban.1 →
    ∃ visit ∈ visits, visit.internalAddr = .knownAddr addr ∧
      (visit.shouldBan.isSome ∨ visit.isClosed = true)

/-- The bans of an id end together, the anchors with a banned id leave, and no new connection is
reachable under an address with a banned id. -/
def KeepsBans (b : Book Addr BanID) : Event Addr BanID → Prop
  | .poll poll => b.BansEndTogether poll.now ∧ b.AnchorsLeave poll.visits
  | .call (.newConnection id peer) => b.Admits id → ∀ addr, peer.addr = some addr →
      b.isPeerBanned addr = false
  | .call _ => True

/-- What makes the bans that have not reached their unban time stay in force. -/
structure Upheld (s : Timed Addr BanID) : Prop where
  indexed : s.book.Indexed
  covered : s.book.Covered
  queued : ∀ ban ∈ s.bans, s.now < ban.2 → ban ∈ s.book.bannedPeersQueue
  banned : ∀ ban ∈ s.book.bannedPeersQueue, s.now < ban.2 → (s.book.bannedPeers.lookup ban.1).isSome
  absent : ∀ ban ∈ s.book.bannedPeersQueue, s.now < ban.2 → s.book.Absent ban.1

variable {visits : List (Visit Addr)} {now : Instant}

omit [DecidableEq Addr] in
theorem mem_addrsToBan {visit : Visit Addr} {time : Duration} (hmem : visit ∈ visits)
    (haddr : visit.internalAddr = .knownAddr addr) (hban : visit.shouldBan = some time) :
    (addr, time, visit.now) ∈ addrsToBan visits := by
  unfold addrsToBan
  rw [mem_filterMap]
  exact ⟨visit, hmem, by simp [haddr, hban]⟩

theorem mem_internalAddrDisconnected {visit : Visit Addr} (hmem : visit ∈ visits)
    (hclosed : visit.isClosed = true) : visit.internalAddr ∈ internalAddrDisconnected visits := by
  unfold internalAddrDisconnected
  rw [mem_filterMap]
  exact ⟨visit, hmem, by simp [hclosed]⟩

/-- What a poll does to the bans and to the lists. -/
structure Polled (b : Book Addr BanID) (poll : Poll Addr BanID) (b' : Book Addr BanID) : Prop where
  indexed : b'.Indexed
  covered : b'.Covered
  bannedPeersQueue : b'.bannedPeersQueue = b.bannedPeersQueue.diff poll.expired ++ newBans poll.visits
  bannedPeers : ∀ id, (b.bannedPeers.lookup id).isSome ∧ id ∉ poll.expired.map Prod.fst ∨
    (∃ ban ∈ addrsToBan poll.visits, banId ban.1 = id) → (b'.bannedPeers.lookup id).isSome
  whiteList : b.whiteList.Shrinks b'.whiteList
  grayList : b.grayList.Shrinks b'.grayList
  anchorList : b'.anchorList ⊆ b.anchorList
  not_white : ∀ ban ∈ addrsToBan poll.visits, ∀ addr : Addr, banId addr = banId ban.1 →
    b'.whiteList.peers.lookup addr = none
  not_gray : ∀ ban ∈ addrsToBan poll.visits, ∀ addr : Addr, banId addr = banId ban.1 →
    b'.grayList.peers.lookup addr = none
  not_anchor : ∀ visit ∈ poll.visits, visit.shouldBan.isSome ∨ visit.isClosed = true →
    ∀ addr, visit.internalAddr = .knownAddr addr → addr ∉ b'.anchorList

theorem Covered.pollReady (h : b.Covered) (hindexed : b.Indexed) {poll : Poll Addr BanID}
    (hposs : Poll.Possible b poll) (hpoll : b.pollReady poll = .ok b') : Polled b poll b' := by
  unfold Book.pollReady at hpoll
  rw [pollUnbanPeers_eq] at hpoll
  obtain ⟨b₁, hbans, hremove⟩ := bind_eq_ok.mp hpoll
  have h₁ := Covered.banPeers (b := { b with
    bannedPeersQueue := b.bannedPeersQueue.diff poll.expired
    bannedPeers := b.bannedPeers.eraseAll (poll.expired.map Prod.fst)
    closeSignals := b.closeSignals ∪ b.handles (unknownToClose poll.visits) }) h hindexed hbans
  have hcovered₁ : b₁.Covered := by
    unfold Covered Connected
    rw [h₁.connectedPeers, h₁.connectedPeersBanId]
    exact h
  have hcovered := hcovered₁.removeAllDisconnected hremove
  obtain ⟨peers, banIds, anchors, rfl, hsubset, hnot⟩ := removeAllDisconnected_frame hremove
  refine ⟨h₁.indexed, hcovered, h₁.bannedPeersQueue, fun id hid => ?_, h₁.whiteList, h₁.grayList,
    hsubset.trans h₁.anchorList, h₁.not_white, h₁.not_gray, ?_⟩
  · refine h₁.bannedPeers id (hid.imp_left fun ⟨hsome, hexpired⟩ => ?_)
    rw [lookup_eraseAll, if_neg hexpired]
    exact hsome
  · intro visit hvisit hleaves addr haddr
    rcases hleaves with hban | hclosed
    · obtain ⟨time, htime⟩ := Option.isSome_iff_exists.mp hban
      have hconnected : b.Connected addr := by
        refine (hposs.visited _).mp ?_
        exact haddr ▸ mem_map_of_mem hvisit
      exact fun hanchor => h₁.not_anchor _ (mem_addrsToBan hvisit haddr htime) hconnected (hsubset hanchor)
    · exact hnot addr (haddr ▸ mem_internalAddrDisconnected hvisit hclosed)

omit [DecidableEq Addr] [DecidableEq BanID] in
theorem mem_newBans {ban : BanID × Instant} (h : ban ∈ (newBans visits : List (BanID × Instant))) :
    ∃ ban' ∈ addrsToBan visits, banId ban'.1 = ban.1 := by
  obtain ⟨ban', hmem, rfl⟩ := mem_map.mp h
  exact ⟨ban', hmem, rfl⟩

variable {s s' : Timed Addr BanID} {event : Event Addr BanID}

/-- A ban in the queue that has not been reached after a poll is one that the poll has left there,
together with its place in the map, or a new one. -/
theorem Upheld.poll (h : Upheld s) {poll : Poll Addr BanID} {book : Book Addr BanID}
    (hposs : Poll.Possible s.book poll) (hpoll : s.book.pollReady poll = .ok book)
      (hstart : s.now ≤ poll.now)
    (hend : poll.now ≤ now) (hkeeps : s.book.KeepsBans (.poll poll)) :
    Upheld ⟨book, now, s.bans ++ newBans poll.visits⟩ := by
  obtain ⟨htogether, hanchors⟩ := hkeeps
  have hpolled := h.covered.pollReady h.indexed hposs hpoll
  have hold : ∀ ban ∈ s.book.bannedPeersQueue.diff poll.expired, now < ban.2 →
      ban ∈ s.book.bannedPeersQueue ∧ s.now < ban.2 ∧ ban.1 ∉ poll.expired.map Prod.fst := by
    intro ban hmem hlater
    have hqueue := diff_subset _ _ hmem
    refine ⟨hqueue, lt_of_le_of_lt (hstart.trans hend) hlater, fun hexpired => ?_⟩
    obtain ⟨ban', hban', heq⟩ := mem_map.mp hexpired
    have hdue := htogether ban' (hposs.expired.subset hban') ban hqueue heq (hposs.due ban' hban')
    exact absurd hlater (not_lt.mpr (hdue.trans hend))
  refine ⟨hpolled.indexed, hpolled.covered, ?_, ?_, ?_⟩
  · intro ban hmem hlater
    rw [hpolled.bannedPeersQueue, mem_append]
    refine (mem_append.mp hmem).imp_left fun hmem => ?_
    refine mem_diff_of_mem (h.queued ban hmem (lt_of_le_of_lt (hstart.trans hend) hlater))
      fun hexpired => ?_
    exact absurd hlater (not_lt.mpr ((hposs.due ban hexpired).trans hend))
  · intro ban hmem hlater
    rw [hpolled.bannedPeersQueue, mem_append] at hmem
    refine hpolled.bannedPeers ban.1 (hmem.imp (fun hmem => ?_) mem_newBans)
    obtain ⟨hqueue, hlater', hnot⟩ := hold ban hmem hlater
    exact ⟨h.banned ban hqueue hlater', hnot⟩
  · intro ban hmem hlater
    rw [hpolled.bannedPeersQueue, mem_append] at hmem
    rcases hmem with hmem | hmem
    · obtain ⟨hqueue, hlater', -⟩ := hold ban hmem hlater
      have habsent := h.absent ban hqueue hlater'
      exact ⟨fun addr haddr => hpolled.whiteList addr (habsent.whiteList addr haddr),
        fun addr haddr => hpolled.grayList addr (habsent.grayList addr haddr),
        fun addr haddr hanchor => habsent.anchorList addr haddr (hpolled.anchorList hanchor)⟩
    · obtain ⟨ban', hban', heq⟩ := mem_newBans hmem
      refine ⟨fun addr haddr => hpolled.not_white ban' hban' addr (haddr.trans heq.symm),
        fun addr haddr => hpolled.not_gray ban' hban' addr (haddr.trans heq.symm),
          fun addr haddr hanchor => ?_⟩
      -- an anchor with the banned id was visited, and so it was removed
      obtain ⟨visit, hvisit, hid, hleaves⟩ :=
        hanchors ban' hban' addr (hpolled.anchorList hanchor) (haddr.trans heq.symm)
      exact hpolled.not_anchor visit hvisit hleaves addr hid hanchor

theorem Upheld.call (h : Upheld s) {request : AddressBookRequest Addr} {book : Book Addr BanID}
    {response : Except AddressBookError (AddressBookResponse Addr)}
    (hcall : s.book.call request = .ok (response, book)) (hend : s.now ≤ now)
    (hkeeps : s.book.KeepsBans (.call request)) : Upheld ⟨book, now, s.bans⟩ := by
  have hlater : ∀ {ban : BanID × Instant}, now < ban.2 → s.now < ban.2 := fun hlater =>
      lt_of_le_of_lt hend hlater
  rcases h.indexed.call_cases hcall with ⟨id, peer, res, rfl, hnew⟩ | ⟨-, hlists⟩
  · have hcovers := h.covered.addConnectedBanId id
    obtain ⟨ids, hids⟩ := addConnectedBanId_eq s.book id
    rw [hids] at hcovers
    rcases handleNewConnection_cases h.indexed.1 hnew with ⟨-, -, rfl⟩ | ⟨-, -, rfl⟩ |
      ⟨hadmits, -, white, anchors, rfl, hwhite, hkeep, hanchors⟩
    · exact ⟨h.indexed, h.covered, fun ban hmem hlt => h.queued ban hmem (hlater hlt),
        fun ban hmem hlt => h.banned ban hmem (hlater hlt), fun ban hmem hlt =>
          h.absent ban hmem (hlater hlt)⟩
    · rw [hids]
      exact ⟨h.indexed, fun addr haddr => hcovers addr (.inr haddr),
        fun ban hmem hlt => h.queued ban hmem (hlater hlt), fun ban hmem hlt =>
          h.banned ban hmem (hlater hlt), fun ban hmem hlt =>
          let habsent := h.absent ban hmem (hlater hlt)
          ⟨habsent.whiteList, habsent.grayList, habsent.anchorList⟩⟩
    · rw [hids]
      refine ⟨⟨hwhite, h.indexed.2⟩, fun addr haddr => hcovers addr ?_,
        fun ban hmem hlt => h.queued ban hmem (hlater hlt), fun ban hmem hlt =>
          h.banned ban hmem (hlater hlt), fun ban hmem hlt => ?_⟩
      · unfold Connected at haddr
        rw [lookup_insert_ite] at haddr
        split at haddr
        · next heq => exact .inl heq.symm
        · exact .inr haddr
      · have habsent := h.absent ban hmem (hlater hlt)
        have hpublic : ∀ addr : Addr, banId addr = ban.1 → peer.addr ≠ some addr := by
          intro addr haddr hpeer
          have hbanned := h.banned ban hmem (hlater hlt)
          have hfalse := hkeeps hadmits addr hpeer
          rw [isPeerBanned, haddr, hbanned] at hfalse
          cases hfalse
        refine ⟨fun addr haddr => hkeep addr (hpublic addr haddr) (habsent.whiteList addr haddr),
          habsent.grayList, fun addr haddr hanchor => ?_⟩
        rcases hanchors addr hanchor with hold | hpeer
        · exact habsent.anchorList addr haddr hold
        · exact hpublic addr haddr hpeer
  · have hindexed := hlists.indexed
    have hwhite := hlists.whiteList
    have hgray := hlists.grayList
    obtain ⟨white, gray, rfl⟩ := hlists.frame
    refine ⟨hindexed, h.covered, fun ban hmem hlt => h.queued ban hmem (hlater hlt),
      fun ban hmem hlt => h.banned ban hmem (hlater hlt), fun ban hmem hlt => ?_⟩
    have habsent := h.absent ban hmem (hlater hlt)
    refine ⟨fun addr haddr => hwhite addr (habsent.whiteList addr haddr), fun addr haddr =>
      ?_, habsent.anchorList⟩
    refine hgray addr ?_ (habsent.grayList addr haddr)
    rw [isPeerBanned, haddr]
    exact h.banned ban hmem (hlater hlt)

theorem TimedStep.upheld (hstep : TimedStep s event s') (hkeeps : s.book.KeepsBans event) (h : Upheld s) :
    Upheld s' := by
  cases hstep with
  | poll hposs hpoll hstart hend _ => exact h.poll hposs hpoll hstart hend hkeeps
  | call hcall hend => exact h.call hcall hend hkeeps

/-- Every ban that has not reached its unban time is in force. -/
def BansInForce (s : Timed Addr BanID) : Prop := ∀ ban ∈ s.bans, s.now < ban.2 → s.book.BanInForce ban.1

theorem Upheld.bansInForce (h : Upheld s) : BansInForce s := by
  intro ban hmem hlater
  have hqueue := h.queued ban hmem hlater
  have hbanned := h.banned ban hqueue hlater
  refine ⟨fun addr haddr => ?_, fun addr haddr peer => ?_, h.absent ban hqueue hlater⟩
  · rw [peerUnbanInstant, haddr]
    exact hbanned
  · unfold handleNewConnection
    by_cases hconnected : (s.book.connectedPeers.lookup (.knownAddr addr)).isSome
    · exact ⟨_, if_pos hconnected⟩
    · have hid : s.book.isIdBanned (.knownAddr addr) = true := by
        rw [isIdBanned, isPeerBanned, haddr]
        exact hbanned
      rw [if_neg hconnected, if_pos hid]
      exact ⟨_, rfl⟩

theorem upheld_new (cfg : AddressBookConfig)
    (whitePeers grayPeers : List (ZoneSpecificPeerListEntryBase Addr))
    (anchorPeers : List Addr) (now : Instant) :
    Upheld (⟨new cfg whitePeers grayPeers anchorPeers, now, []⟩ : Timed Addr BanID) := by
  obtain ⟨hindexed, hgrouped⟩ := @grouped_new Addr BanID _ _ _ cfg whitePeers grayPeers anchorPeers
  exact ⟨hindexed, hgrouped.covers, by simp, by simp [new], by simp [new]⟩

/-- Along a run in which the bans of an id end together, the anchors with a banned id leave and no
new connection is reachable under an address with a banned id, every ban is in force until its unban
time. -/
theorem bansInForce_of_keepsBans (cfg : AddressBookConfig)
    (whitePeers grayPeers : List (ZoneSpecificPeerListEntryBase Addr)) (anchorPeers : List Addr)
      (now : Instant)
    {run : List (Transition (Timed Addr BanID) (Event Addr BanID))}
    (hrun : Run TimedStep ⟨new cfg whitePeers grayPeers anchorPeers, now, []⟩ run)
    (hkeeps : ∀ t ∈ run, t.before.book.KeepsBans t.event) :
    ∀ s ∈ states ⟨new cfg whitePeers grayPeers anchorPeers, now, []⟩ run, BansInForce s := by
  intro s hs
  refine Upheld.bansInForce
    (hrun.invariant Upheld (fun s event => s.book.KeepsBans event) ?_ ?_ hkeeps s hs)
  · exact fun hstep hkeeps h => hstep.upheld hkeeps h
  · exact upheld_new cfg whitePeers grayPeers anchorPeers now

theorem possible_of_keys {b : Book SocketAddr IpAddr} {visits : List (Visit SocketAddr)}
    {expired : List (IpAddr × Instant)} (hexpired : expired.Subperm b.bannedPeersQueue)
    (hdue : ∀ ban ∈ expired, ban.2 ≤ now) (hnodup : (visits.map (·.internalAddr)).Nodup)
    (hkeys : (visits.map (·.internalAddr)).toFinset = b.connectedPeers.keys)
    (hclosed : ∀ visit ∈ visits, visit.isClosed = true) (hlater : ∀ visit ∈ visits, now ≤ visit.now) :
    Poll.Possible b ⟨now, expired, visits⟩ := by
  refine ⟨hexpired, hdue, hnodup, fun id => ?_, fun visit hvisit _ _ _ => hclosed visit hvisit, hlater⟩
  rw [Finmap.lookup_isSome, ← Finmap.mem_keys, ← hkeys, mem_toFinset]

theorem bansInForce_host :
    ∃ run s, Run TimedStep ⟨hostBook, 0, []⟩ run ∧ s ∈ states ⟨hostBook, 0, []⟩ run ∧
    s.bans = [(banId (hostAddr 2), 60)] ∧ s.now = 0 ∧ BansInForce s := by
  have hrun : Run TimedStep ⟨hostBook, 0, []⟩ [
      ⟨_, .call (.newConnection (.knownAddr (hostAddr 2)) (hostPeer none 2 .notPruned)), _⟩,
      ⟨_, .poll ⟨0, [], [⟨.knownAddr (hostAddr 2), some 60, true, 0⟩]⟩, _⟩] :=
    .cons (.call rfl le_rfl) (.cons (.poll (possible_of_keys nil_subperm (by simp) (by simp) rfl (by simp)
      (by simp)) rfl le_rfl le_rfl (by simp)) (.nil _))
  refine ⟨_, _, hrun, .tail _ (.tail _ (mem_singleton_self _)), rfl, rfl, ?_⟩
  refine bansInForce_of_keepsBans _ _ _ _ _ hrun (fun t ht => ?_) _
    (.tail _ (.tail _ (mem_singleton_self _)))
  rcases mem_cons.mp ht with rfl | ht
  · intro _ addr haddr
    cases haddr
  · obtain rfl := mem_singleton.mp ht
    refine ⟨fun ban hmem => ?_, fun ban _ addr haddr => ?_⟩
    · cases hmem
    · have hnone : addr ∈ (∅ : Finset SocketAddr) := haddr
      simp at hnone

/-- Two peers of one host are banned, one for ten minutes and one for an hour. When the first ban
ends, the book no longer has the second one. -/
theorem bansInForce_fails_on_overlap : ∃ run s, Run TimedStep ⟨hostBook, 0, []⟩ run ∧
    s ∈ states ⟨hostBook, 0, []⟩ run ∧ (banId (hostAddr 2), 3600) ∈ s.bans ∧ s.now < 3600 ∧
    s.book.peerUnbanInstant (hostAddr 2) = none ∧ ¬ BansInForce s := by
  have hrun : Run TimedStep ⟨hostBook, 0, []⟩ [
      ⟨_, .call (.newConnection (.knownAddr (hostAddr 1)) (hostPeer none 1 .notPruned)), _⟩,
      ⟨_, .call (.newConnection (.knownAddr (hostAddr 2)) (hostPeer none 2 .notPruned)), _⟩,
      ⟨_, .poll ⟨0, [], [⟨.knownAddr (hostAddr 1), some 600, true, 0⟩,
        ⟨.knownAddr (hostAddr 2), some 3600, true, 0⟩]⟩, _⟩,
      ⟨_, .poll ⟨700, [(banId (hostAddr 1), 600)], []⟩, _⟩] :=
    .cons (.call rfl le_rfl)
      (.cons (.call rfl le_rfl) (.cons (.poll (possible_of_keys nil_subperm (by simp)
      (by decide) (by decide) (by simp) (by simp)) rfl le_rfl le_rfl (by simp))
      (.cons (.poll (possible_of_keys (singleton_subperm_iff.mpr (by decide)) (by simp)
        (by simp) rfl (by simp)
        (by simp)) rfl (by decide) le_rfl (by simp)) (.nil _))))
  refine ⟨_, _, hrun, .tail _ (.tail _ (.tail _ (mem_cons_of_mem _
    (mem_singleton_self _)))), .tail _ mem_cons_self, Nat.lt_of_sub_pos (by decide), rfl,
    fun h => ?_⟩
  have hban := h _ (.tail _ mem_cons_self) (Nat.lt_of_sub_pos (by decide))
  have hreported : false = true := hban.reported (hostAddr 2) rfl
  cases hreported

end Book

end Cuprate.AddressBook
