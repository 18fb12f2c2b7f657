import Cuprate.P2P.PeerSet

/-!
# The peers of the peer set

The future of a closed connection carries only the id of the peer. So when a peer connects again
under an id that the set still has, the future of the old connection removes the new client.
-/

namespace Cuprate.P2P

open Collections List Option PeerSetState IndexMap

namespace PeerSetState

variable {Addr : Type} [DecidableEq Addr]

def latest (s : PeerSetState Addr) (id : InternalPeerID Addr) : Option (Client Addr) :=
  (s.received.filter fun client => client.id = id).getLast?

def clientAt (s : PeerSetState Addr) (id : InternalPeerID Addr) : Option (Client Addr) :=
  (s.peers.lookup id).map (·.client)

/-- The set has exactly the latest received client of each id whose connection is open, and the
outbound peers are the outbound ones among them. -/
structure Exact (s : PeerSetState Addr) : Prop where
  peers : ∀ id client, s.clientAt id = some client ↔ s.latest id = some client ∧ client.handle ∉ s.closed
  outbound : ∀ id, id ∈ s.outboundPeers.keys ↔ ∃ client, s.clientAt id = some client ∧
    client.direction = .outbound

/-- The clients that a poll takes have ids that the set does not hold. -/
def NewIds (s : PeerSetState Addr) : Event Addr → Prop
  | .pollReady n _ => ((s.newPeers.take n).map (·.id)).Nodup ∧
      ∀ client ∈ s.newPeers.take n, s.peers.lookup client.id = none
  | _ => True

/-- Each client of the set has its own future, and every open connection of a latest client is in
the set. -/
structure Inv (s : PeerSetState Addr) : Prop where
  id : ∀ {id client}, s.clientAt id = some client → client.id = id
  futures : ∀ future, future ∈ s.closedConnections ↔
    ∃ client, s.clientAt future.id = some client ∧ client.handle = future.handle
  nodup : s.closedConnections.Nodup
  outbound : ∀ id, id ∈ s.outboundPeers.keys ↔ ∃ client, s.clientAt id = some client ∧
    client.direction = .outbound
  latest : ∀ {id client}, s.clientAt id = some client → s.latest id = some client
  live : ∀ {id client}, s.latest id = some client → client.handle ∉ s.closed → s.clientAt id = some client

variable {s s' : PeerSetState Addr}

theorem inv_new : (new : PeerSetState Addr).Inv := by
  have hnone : ∀ id, (new : PeerSetState Addr).clientAt id = none := fun _ => rfl
  refine ⟨fun h => ?_, fun future => ?_, nodup_nil, fun id => ?_, fun h => ?_, fun h => ?_⟩
  · rw [hnone] at h
    cases h
  · rw [hnone]
    simp [new]
  · rw [hnone]
    simp [new, IndexMap.keys, empty]
  · rw [hnone] at h
    cases h
  · simp [latest, new] at h

theorem latest_concat (received : List (Client Addr)) (client : Client Addr) (id : InternalPeerID Addr) :
    ((received ++ [client]).filter fun client => client.id = id).getLast? =
      if client.id = id then some client else (received.filter fun client => client.id = id).getLast? := by
  rw [filter_append, filter_singleton]
  by_cases hid : client.id = id
  · simp [hid]
  · simp [hid]

theorem clientAt_eq_none {id : InternalPeerID Addr} (h : s.peers.lookup id = none) :
    s.clientAt id = none := by
  rw [clientAt, h]
  rfl

theorem receive_of_lookup_eq_none {client : Client Addr} (hnew : s.peers.lookup client.id = none) :
    s.receive client = { s with
      outboundPeers := if client.direction = .outbound then s.outboundPeers.insert client.id ()
        else s.outboundPeers
      closedConnections := s.closedConnections ++ [⟨client.handle, client.id⟩]
      peers := s.peers.insert client.id (.new client)
      received := s.received ++ [client] } := by
  simp only [receive, dropStored, hnew]

theorem clientAt_receive (s : PeerSetState Addr) (client : Client Addr) (id : InternalPeerID Addr) :
    (s.receive client).clientAt id = if id = client.id then some client else s.clientAt id := by
  show ((s.peers.insert client.id (.new client)).lookup id).map (·.client) = _
  rw [lookup_insert]
  split
  · rfl
  · rfl

/-- A client under a new id is added with its future. -/
theorem Inv.receive (h : s.Inv) {client : Client Addr} (hnew : s.peers.lookup client.id = none) :
    (s.receive client).Inv := by
  have hat := clientAt_receive s client
  have hnone := clientAt_eq_none hnew
  have hreceive := receive_of_lookup_eq_none hnew
  have hlatest : ∀ id, (s.receive client).latest id = if client.id =
      id then some client else s.latest id := by
    intro id
    rw [hreceive]
    exact latest_concat _ _ _
  refine ⟨fun {id c} hc => ?_, fun future => ?_, ?_, fun id => ?_, fun {id c} hc =>
    ?_, fun {id c} hc hopen => ?_⟩
  · rw [hat] at hc
    split at hc
    · next heq =>
      cases hc
      exact heq.symm
    · exact h.id hc
  · rw [hat, hreceive, mem_append, mem_singleton, h.futures]
    by_cases hid : future.id = client.id
    · rw [if_pos hid, hid, hnone]
      constructor
      · rintro (⟨_, hsome, -⟩ | rfl)
        · cases hsome
        · exact ⟨_, rfl, rfl⟩
      · rintro ⟨c, hc, hhandle⟩
        cases hc
        refine .inr ?_
        obtain ⟨handle, id⟩ := future
        obtain rfl : id = client.id := hid
        obtain rfl : client.handle = handle := hhandle
        rfl
    · rw [if_neg hid]
      refine or_iff_left ?_
      rintro rfl
      exact hid rfl
  · rw [hreceive]
    refine nodup_append.mpr ⟨h.nodup, nodup_singleton _, fun future hmem future' hmem' heq => ?_⟩
    obtain rfl := mem_singleton.mp hmem'
    obtain ⟨c, hc, -⟩ := (h.futures future).mp hmem
    rw [heq, hnone] at hc
    cases hc
  · rw [hat, hreceive]
    have hold : client.id ∉ s.outboundPeers.keys := by
      rw [h.outbound, hnone]
      rintro ⟨_, hsome, -⟩
      cases hsome
    by_cases hid : id = client.id
    · subst hid
      rw [if_pos rfl]
      by_cases hdir : client.direction = .outbound
      · rw [if_pos hdir, mem_keys_insert]
        exact ⟨fun _ => ⟨_, rfl, hdir⟩, fun _ => .inl rfl⟩
      · rw [if_neg hdir]
        refine ⟨fun hmem => absurd hmem hold, ?_⟩
        rintro ⟨c, hc, hdir'⟩
        cases hc
        exact absurd hdir' hdir
    · rw [if_neg hid, ← h.outbound]
      split
      · rw [mem_keys_insert]
        exact or_iff_right hid
      · rfl
  · rw [hat] at hc
    rw [hlatest]
    split at hc
    · next heq => rw [if_pos heq.symm, hc]
    · next hne =>
      rw [if_neg (Ne.symm hne)]
      exact h.latest hc
  · rw [hlatest] at hc
    rw [hat]
    split at hc
    · next heq => rw [if_pos heq.symm, hc]
    · next hne =>
      rw [if_neg (Ne.symm hne)]
      refine h.live hc ?_
      rwa [hreceive] at hopen

theorem Inv.receiveAll (h : s.Inv) {clients : List (Client Addr)} (hnodup : (clients.map (·.id)).Nodup)
    (hnew : ∀ client ∈ clients, s.peers.lookup client.id = none) :
    (clients.foldl PeerSetState.receive s).Inv ∧
      (clients.foldl PeerSetState.receive s).closed = s.closed := by
  induction clients generalizing s with
  | nil => exact ⟨h, rfl⟩
  | cons client clients ih =>
    rw [map_cons, nodup_cons] at hnodup
    have hclient := hnew client mem_cons_self
    have hreceive := receive_of_lookup_eq_none hclient
    have hnew' : ∀ client' ∈ clients, (s.receive client).peers.lookup client'.id = none := by
      intro client' hmem
      rw [hreceive, lookup_insert, if_neg]
      · exact hnew client' (.tail _ hmem)
      · exact fun heq => hnodup.1 (heq ▸ mem_map_of_mem hmem)
    obtain ⟨hinv, hclosed⟩ := ih (h.receive hclient) hnodup.2 hnew'
    exact ⟨hinv, hclosed.trans (by rw [hreceive])⟩

theorem Inv.setNewPeers (h : s.Inv) (newPeers : List (Client Addr)) :
    Inv { s with newPeers := newPeers } :=
  ⟨h.id, h.futures, h.nodup, h.outbound, h.latest, h.live⟩

theorem removeDeadPeer_of_lookup_eq_some {deadPeer : ClosedConnectionFuture Addr}
    {peer : StoredClient Addr}
    (hpeer : s.peers.lookup deadPeer.id = some peer) :
    s.removeDeadPeer deadPeer = { s with
      closedConnections := s.closedConnections.erase deadPeer
      closed := insert peer.client.handle s.closed
      peers := s.peers.swapRemove deadPeer.id
      outboundPeers := if peer.client.direction = .outbound then s.outboundPeers.swapRemove peer.client.id
        else s.outboundPeers } := by
  simp only [removeDeadPeer, hpeer, dropClient]

/-- A future that is ready removes the client it was made for, whose connection is closed. -/
theorem Inv.removeDeadPeer (h : s.Inv)
    {deadPeer : ClosedConnectionFuture Addr} (hdead : deadPeer ∈ s.deadPeers) :
    (s.removeDeadPeer deadPeer).Inv ∧ (s.removeDeadPeer deadPeer).closed = s.closed ∧
      (s.removeDeadPeer deadPeer).closedConnections.length < s.closedConnections.length := by
  obtain ⟨hfuture, hclosed⟩ := mem_filter.mp hdead
  have hclosed := of_decide_eq_true hclosed
  obtain ⟨client, hclient, hhandle⟩ := (h.futures deadPeer).mp hfuture
  obtain ⟨peer, hpeer, rfl⟩ := map_eq_some_iff.mp hclient
  have hremove := removeDeadPeer_of_lookup_eq_some hpeer
  rw [h.id hclient, hhandle, Finset.insert_eq_self.mpr hclosed] at hremove
  have hat : ∀ id, (s.removeDeadPeer deadPeer).clientAt id = if id =
      deadPeer.id then none else s.clientAt id := by
    intro id
    rw [hremove, clientAt, lookup_swapRemove]
    split
    · rfl
    · rfl
  have hatDead : (s.removeDeadPeer deadPeer).clientAt deadPeer.id = none := by rw [hat, if_pos rfl]
  refine ⟨⟨fun {id c} hc => ?_, fun future => ?_, ?_, fun id => ?_, fun {id c} hc =>
    ?_, fun {id c} hc hopen => ?_⟩, by rw [hremove], ?_⟩
  · rw [hat] at hc
    split at hc
    · cases hc
    · exact h.id hc
  · rw [hat, hremove, h.nodup.mem_erase_iff, h.futures]
    by_cases heq : future.id = deadPeer.id
    · rw [if_pos heq, heq, hclient]
      refine ⟨?_, by rintro ⟨_, hnone, -⟩; cases hnone⟩
      rintro ⟨hne, c, hc, hhandle'⟩
      cases hc
      refine absurd ?_ hne
      obtain ⟨handle, id⟩ := future
      obtain ⟨handle', id'⟩ := deadPeer
      obtain rfl : id = id' := heq
      obtain rfl : handle' = handle := hhandle.symm.trans hhandle'
      rfl
    · rw [if_neg heq]
      exact and_iff_right fun heq' => heq (heq' ▸ rfl)
  · rw [hremove]
    exact h.nodup.erase _
  · rw [hat, hremove]
    by_cases heq : id = deadPeer.id
    · subst heq
      rw [if_pos rfl]
      refine ⟨fun hmem => ?_, by rintro ⟨_, hnone, -⟩; cases hnone⟩
      split at hmem
      · exact absurd rfl (mem_keys_swapRemove.mp hmem).1
      · next hdir =>
        obtain ⟨c, hc, hdir'⟩ := (h.outbound _).mp hmem
        rw [hclient] at hc
        cases hc
        exact absurd hdir' hdir
    · rw [if_neg heq, ← h.outbound]
      split
      · rw [mem_keys_swapRemove]
        exact and_iff_right heq
      · rfl
  · rw [hat] at hc
    split at hc
    · cases hc
    · rw [hremove]
      exact h.latest hc
  · rw [hremove] at hc hopen
    rw [hat, if_neg]
    · exact h.live hc hopen
    · rintro rfl
      -- the latest client under the id of the future is the one whose connection is closed
      obtain rfl := some.inj ((h.latest hclient).symm.trans hc)
      exact hopen (hhandle ▸ hclosed)
  · rw [hremove]
    rw [length_erase_of_mem hfuture]
    exact Nat.sub_lt (length_pos_of_mem hfuture) one_pos

theorem Inv.removeDeadPeersLoop (pick : Nat → Nat) {fuel : Nat} (h : s.Inv)
    (hfuel : s.closedConnections.length ≤ fuel) : (removeDeadPeersLoop pick fuel s).Inv ∧
      (removeDeadPeersLoop pick fuel s).closed = s.closed ∧
      (removeDeadPeersLoop pick fuel s).deadPeers = [] := by
  induction fuel generalizing s with
  | zero =>
    have hnil : s.closedConnections = [] := eq_nil_of_length_eq_zero (Nat.le_zero.mp hfuel)
    exact ⟨h, rfl, by simp only [removeDeadPeersLoop, deadPeers, hnil, filter_nil]⟩
  | succ fuel ih =>
    rw [removeDeadPeersLoop]
    split
    · next hnone =>
      refine ⟨h, rfl, ?_⟩
      by_contra hne
      have hlt := Nat.mod_lt (pick fuel) (length_pos_iff.mpr hne)
      rw [getElem?_eq_none_iff] at hnone
      omega
    · next deadPeer hdead =>
      obtain ⟨hinv, hclosed, hlength⟩ := h.removeDeadPeer (mem_of_getElem? hdead)
      obtain ⟨hinv', hclosed', hnil⟩ := ih hinv (by omega)
      exact ⟨hinv', hclosed'.trans hclosed, hnil⟩

theorem Inv.exact (h : s.Inv) (hdead : s.deadPeers = []) : s.Exact := by
  refine ⟨fun id client => ⟨fun hclient => ⟨h.latest hclient, fun hclosed => ?_⟩,
    fun ⟨hlatest, hopen⟩ => h.live hlatest hopen⟩, h.outbound⟩
  have hfuture := (h.futures ⟨client.handle, id⟩).mpr ⟨client, hclient, rfl⟩
  have hmem : (⟨client.handle, id⟩ : ClosedConnectionFuture Addr) ∈ s.deadPeers :=
    mem_filter.mpr ⟨hfuture, decide_eq_true hclosed⟩
  rw [hdead] at hmem
  simp at hmem

theorem Inv.pollReady (h : s.Inv) {n : Nat} {pick : Nat → Nat} (hnew : s.NewIds (.pollReady n pick)) :
    (s.pollReady n pick).Inv ∧ (s.pollReady n pick).closed = s.closed ∧ (s.pollReady n pick).Exact := by
  obtain ⟨hinv, hclosed⟩ := h.receiveAll hnew.1 hnew.2
  obtain ⟨hinv', hclosed', hdead⟩ := (hinv.setNewPeers (s.newPeers.drop n)).removeDeadPeersLoop pick le_rfl
  exact ⟨hinv', hclosed'.trans hclosed, hinv'.exact hdead⟩

theorem Inv.setPeers (h : s.Inv) {peers : IndexMap (InternalPeerID Addr) (StoredClient Addr)}
    (hpeers : ∀ id, (peers.lookup id).map (·.client) = s.clientAt id) : Inv { s with peers := peers } := by
  have hat : ∀ id, clientAt { s with peers := peers } id = s.clientAt id := hpeers
  refine ⟨fun hc => h.id ((hat _).symm.trans hc), fun future => ?_, h.nodup, fun id => ?_,
    fun hc => h.latest ((hat _).symm.trans hc), fun hc hopen => (hat _).trans (h.live hc hopen)⟩
  · rw [hat]
    exact h.futures future
  · rw [hat]
    exact h.outbound id

theorem map_client_insert {id : InternalPeerID Addr} {stored : StoredClient Addr} (stemPeer : Bool)
    (hstored : s.peers.lookup id = some stored) (id' : InternalPeerID Addr) :
    ((s.peers.insert id { stored with stemPeer := stemPeer }).lookup id').map (·.client) =
      s.clientAt id' := by
  rw [lookup_insert, clientAt]
  split
  · next heq => rw [heq, hstored]; rfl
  · rfl

theorem Inv.randomPeerForStem (h : s.Inv)
    {order : List Nat} (horder : ∀ i ∈ order, i < s.outboundPeers.len) :
    ∃ client s', s.randomPeerForStem order = .ok (client, s') ∧ s'.Inv := by
  induction order with
  | nil => exact ⟨none, s, rfl, h⟩
  | cons i order ih =>
    obtain ⟨hi, horder⟩ := forall_mem_cons.mp horder
    have hindex : s.outboundPeers.getIndex i = some s.outboundPeers.entries[i] := getElem?_eq_getElem hi
    have hkey : (s.outboundPeers.entries[i]).1 ∈ s.outboundPeers.keys := mem_map_of_mem (getElem_mem hi)
    obtain ⟨client, hclient, -⟩ := (h.outbound _).mp hkey
    obtain ⟨stored, hstored, rfl⟩ := map_eq_some_iff.mp hclient
    by_cases hstem : stored.stemPeer = true
    · obtain ⟨client, s', hrest, hs'⟩ := ih horder
      refine ⟨client, s', ?_, hs'⟩
      simp only [PeerSetState.randomPeerForStem, hindex, hstored, hstem, if_true, hrest]
    · refine ⟨some stored.client, _, ?_, h.setPeers (map_client_insert true hstored)⟩
      simp only [PeerSetState.randomPeerForStem, hindex, hstored, hstem, if_false, Bool.false_eq_true]

theorem Inv.dropStemGuard (h : s.Inv) (client : Client Addr) : (s.dropStemGuard client).Inv := by
  unfold PeerSetState.dropStemGuard
  split
  · exact h
  · next stored hstored =>
    split
    · exact h.setPeers (map_client_insert false hstored)
    · exact h

omit [DecidableEq Addr] in
theorem lt_of_mem_order {order : List Nat} (horder : order.Perm (List.range s.outboundPeers.len)) :
    ∀ i ∈ order, i < s.outboundPeers.len :=
  fun _ hi => mem_range.mp (horder.mem_iff.mp hi)

variable {event : Event Addr}

theorem Step.inv (hstep : Step s event s') (hnew : s.NewIds event) (h : s.Inv) : s'.Inv := by
  cases hstep with
  | connect => exact h.setNewPeers _
  | close =>
    exact ⟨h.id, h.futures, h.nodup, h.outbound, h.latest,
      fun hlatest hopen => h.live hlatest fun hclosed => hopen (Finset.mem_insert_of_mem hclosed)⟩
  | pollReady => exact (h.pollReady hnew).1
  | stemPeer horder hstem =>
    obtain ⟨client, s'', hstem', hinv⟩ := h.randomPeerForStem (lt_of_mem_order horder)
    rw [hstem] at hstem'
    cases hstem'
    exact hinv
  | dropStemGuard => exact h.dropStemGuard _

theorem Step.pollReady_eq {n : Nat} {pick : Nat → Nat} (hstep : Step s (.pollReady n pick) s') :
    s' = s.pollReady n pick := by
  cases hstep
  rfl

/-- Along a run in which each client comes under an id that the set does not hold: after every poll
the set is exact and the poll has closed no connection, and looking for a stem peer never panics. -/
theorem exact_of_newIds {run : List (Transition (PeerSetState Addr) (Event Addr))}
    (hrun : Run Step new run)
    (hnew : ∀ t ∈ run, t.before.NewIds t.event) :
    (∀ t ∈ run, ∀ n pick, t.event = .pollReady n pick → t.after.Exact ∧ t.after.closed = t.before.closed) ∧
      ∀ s ∈ states new run, ∀ order : List Nat, order.Perm (List.range s.outboundPeers.len) →
        ∃ found, s.randomPeerForStem order = .ok found := by
  have hinv := hrun.invariant Inv NewIds Step.inv inv_new hnew
  refine ⟨fun t ht n pick hevent => ?_, fun s hs order horder => ?_⟩
  · have hstep := hrun.step_of_mem ht
    have hmeets := hnew t ht
    have hbefore := hinv _ (hrun.before_mem ht)
    rw [hevent] at hstep hmeets
    have hafter := hstep.pollReady_eq
    obtain ⟨-, hclosed, hexact⟩ := hbefore.pollReady hmeets
    rw [hafter]
    exact ⟨hexact, hclosed⟩
  · obtain ⟨client, s', hstem, -⟩ := (hinv s hs).randomPeerForStem (lt_of_mem_order horder)
    exact ⟨_, hstem⟩

theorem exact_of_one_client : ∃ run s, Run Step (new : PeerSetState Nat) run ∧ s ∈ states new run ∧
    s.Exact ∧ s.clientAt (.knownAddr 0) = some ⟨.knownAddr 0, .outbound, 1⟩ := by
  have hrun : Run Step (new : PeerSetState Nat) [⟨_, .connect ⟨.knownAddr 0, .outbound, 1⟩, _⟩,
      ⟨_, .pollReady 1 id, _⟩] := .cons .connect (.cons .pollReady (.nil _))
  refine ⟨_, _, hrun, .tail _ (.tail _ (mem_singleton_self _)),
    ((exact_of_newIds hrun fun t ht => ?_).1 _ (.tail _ (mem_singleton_self _)) 1 id rfl).1, rfl⟩
  rcases mem_cons.mp ht with rfl | ht
  · trivial
  · obtain rfl := mem_singleton.mp ht
    exact ⟨by simp [new], fun _ _ => rfl⟩

/-- An outbound connection is closed, and the peer connects to us under the same id before the set
has removed it. The old future removes the new client, and the id stays with the outbound peers,
where looking for a stem peer panics. -/
theorem reconnect_drops_client : ∃ run s, Run Step (new : PeerSetState Nat) run ∧ s ∈ states new run ∧
    s.latest (.knownAddr 0) = some ⟨.knownAddr 0, .inbound, 2⟩ ∧ s.clientAt (.knownAddr 0) = none ∧
      ¬ s.Exact ∧ s.randomPeerForStem (List.range s.outboundPeers.len) = .error .noClient := by
  have hrun : Run Step (new : PeerSetState Nat) [⟨_, .connect ⟨.knownAddr 0, .outbound, 1⟩, _⟩,
      ⟨_, .pollReady 1 id, _⟩, ⟨_, .close 1, _⟩, ⟨_, .connect ⟨.knownAddr 0, .inbound, 2⟩, _⟩,
      ⟨_, .pollReady 1 id, _⟩] := .cons .connect (.cons .pollReady (.cons .close (.cons .connect
        (.cons .pollReady (.nil _)))))
  refine ⟨_, _, hrun, .tail _ (.tail _ (.tail _ (mem_cons_of_mem _
    (.tail _ (mem_singleton_self _))))), rfl, rfl, fun h => ?_, rfl⟩
  obtain ⟨client, hclient, -⟩ := (h.outbound (.knownAddr 0)).mp mem_cons_self
  cases hclient

end PeerSetState

end Cuprate.P2P
