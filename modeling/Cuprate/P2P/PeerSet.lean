import Cuprate.Collections.IndexMap
import Cuprate.Collections.Transitions
import Cuprate.P2P.NetworkZone

/-!
# The peer set

The connected peers of a network zone (`p2p/p2p/src/peer_set.rs`). For each client the set keeps a
future that resolves to the client's id when the connection is closed; dropping a client closes its
connection (`p2p/p2p-core/src/client.rs`). The clients that the channel holds back, the order in
which the futures resolve and the random order of the stem peers are arguments. The requests for the
most work seen and for peers with more work are left out.
-/

namespace Cuprate.P2P

open Collections

/-- A connected peer. -/
structure Client (Addr : Type) where
  id : InternalPeerID Addr
  direction : ConnectionDirection
  handle : ConnectionHandle
deriving DecidableEq

/-- A client and whether it is a stem peer. -/
structure StoredClient (Addr : Type) where
  client : Client Addr
  /-- Whether the peer is currently being used to stem transactions. -/
  stemPeer : Bool

def StoredClient.new {Addr : Type} (client : Client Addr) : StoredClient Addr := ⟨client, false⟩

/-- Waits for the end of a connection. -/
structure ClosedConnectionFuture (Addr : Type) where
  handle : ConnectionHandle
  id : InternalPeerID Addr
deriving DecidableEq

/-- The connected peers. -/
structure PeerSet (Addr : Type) where
  peers : IndexMap (InternalPeerID Addr) (StoredClient Addr)
  /-- The futures that resolve when a peer disconnects. -/
  closedConnections : List (ClosedConnectionFuture Addr)
  outboundPeers : IndexMap (InternalPeerID Addr) Unit
  newPeers : List (Client Addr)

/-- The set with the connections that have ended and the clients it has received. -/
structure PeerSetState (Addr : Type) extends PeerSet Addr where
  closed : Finset ConnectionHandle
  /-- The clients that the set has received so far. -/
  received : List (Client Addr)

/-- The panics of the set. -/
inductive PeerSetPanic where
  /-- The `unwrap` of the outbound peer at an index. -/
  | noOutboundPeer
  /-- The `unwrap` of the client of an outbound peer. -/
  | noClient
deriving DecidableEq, Repr

namespace PeerSetState

variable {Addr : Type} [DecidableEq Addr]

def new : PeerSetState Addr where
  peers := .empty
  closedConnections := []
  outboundPeers := .empty
  newPeers := []
  closed := ∅
  received := []

def dropClient (s : PeerSetState Addr) (client : Client Addr) : PeerSetState Addr :=
  { s with closed := insert client.handle s.closed }

/-- Drops the client that is stored under an id, if there is one. -/
def dropStored (s : PeerSetState Addr) (id : InternalPeerID Addr) : PeerSetState Addr :=
  match s.peers.lookup id with
  | none => s
  | some stored => s.dropClient stored.client

/-- Takes a client from the channel. A client that was stored under the same id is dropped. -/
def receive (s : PeerSetState Addr) (newPeer : Client Addr) : PeerSetState Addr :=
  { s.dropStored newPeer.id with
    outboundPeers := if newPeer.direction = .outbound then s.outboundPeers.insert newPeer.id ()
      else s.outboundPeers
    closedConnections := s.closedConnections ++ [⟨newPeer.handle, newPeer.id⟩]
    peers := s.peers.insert newPeer.id (.new newPeer)
    received := s.received ++ [newPeer] }

/-- Polls the channel, which gives `n` clients. -/
def pollNewPeers (s : PeerSetState Addr) (n : Nat) : PeerSetState Addr :=
  { (s.newPeers.take n).foldl receive s with newPeers := s.newPeers.drop n }

def deadPeers (s : PeerSetState Addr) : List (ClosedConnectionFuture Addr) :=
  s.closedConnections.filter fun future => future.handle ∈ s.closed

/-- Handles a future that is ready: removes the client under its id, whichever connection it belongs
to. -/
def removeDeadPeer (s : PeerSetState Addr) (deadPeer : ClosedConnectionFuture Addr) : PeerSetState Addr :=
  let s := { s with closedConnections := s.closedConnections.erase deadPeer }
  match s.peers.lookup deadPeer.id with
  | none => s
  | some peer =>
    { s.dropClient peer.client with
      peers := s.peers.swapRemove deadPeer.id
      outboundPeers := if peer.client.direction = .outbound then s.outboundPeers.swapRemove peer.client.id
        else s.outboundPeers }

/-- Handles the futures that are ready one after another, in the order that `pick` gives. -/
def removeDeadPeersLoop (pick : Nat → Nat) : Nat → PeerSetState Addr → PeerSetState Addr
  | 0, s => s
  | fuel + 1, s =>
    match s.deadPeers[pick fuel % s.deadPeers.length]? with
    | none => s
    | some deadPeer => removeDeadPeersLoop pick fuel (s.removeDeadPeer deadPeer)

/-- Removes the peers whose connections have ended. -/
def removeDeadPeers (s : PeerSetState Addr) (pick : Nat → Nat) : PeerSetState Addr :=
  removeDeadPeersLoop pick s.closedConnections.length s

/-- What a call of `poll_ready` does. -/
def pollReady (s : PeerSetState Addr) (n : Nat) (pick : Nat → Nat) : PeerSetState Addr :=
  (s.pollNewPeers n).removeDeadPeers pick

/-- Looks for a peer that is not a stem peer, in the given order of the outbound peers. -/
def randomPeerForStem (s : PeerSetState Addr) :
    List Nat → Except PeerSetPanic (Option (Client Addr) × PeerSetState Addr)
  | [] => .ok (none, s)
  | i :: order =>
    match s.outboundPeers.getIndex i with
    | none => .error .noOutboundPeer
    | some (peer, ()) =>
      match s.peers.lookup peer with
      | none => .error .noClient
      | some stored =>
        if stored.stemPeer then s.randomPeerForStem order
        else .ok (some stored.client,
          { s with peers := s.peers.insert peer { stored with stemPeer := true } })

def dropStemGuard (s : PeerSetState Addr) (client : Client Addr) : PeerSetState Addr :=
  match s.peers.lookup client.id with
  | none => s
  | some stored =>
    if stored.client = client then
      { s with peers := s.peers.insert client.id { stored with stemPeer := false } }
    else s

/-- What happens to the set. -/
inductive Event (Addr : Type) where
  /-- The client of a new connection is sent to the set. -/
  | connect (client : Client Addr)
  /-- A connection is closed. -/
  | close (handle : ConnectionHandle)
  | pollReady (n : Nat) (pick : Nat → Nat)
  | stemPeer (order : List Nat)
  | dropStemGuard (client : Client Addr)

/-- One step of the set that does not panic. -/
inductive Step : PeerSetState Addr → Event Addr → PeerSetState Addr → Prop where
  | connect {s : PeerSetState Addr} {client : Client Addr} :
      Step s (.connect client) { s with newPeers := s.newPeers ++ [client] }
  | close {s : PeerSetState Addr} {handle : ConnectionHandle} :
      Step s (.close handle) { s with closed := insert handle s.closed }
  | pollReady {s : PeerSetState Addr} {n : Nat} {pick : Nat → Nat} :
      Step s (.pollReady n pick) (s.pollReady n pick)
  | stemPeer {s s' : PeerSetState Addr} {order : List Nat} {client : Option (Client Addr)} :
      order.Perm (List.range s.outboundPeers.len) → s.randomPeerForStem order = .ok (client, s') →
      Step s (.stemPeer order) s'
  | dropStemGuard {s : PeerSetState Addr} {client : Client Addr} :
      Step s (.dropStemGuard client) (s.dropStemGuard client)

end PeerSetState

end Cuprate.P2P
