import Cuprate.Collections.IndexMap
import Cuprate.Collections.Table
import Cuprate.P2P.NetworkZone
import Cuprate.Pruning.PruningSeed

/-!
# Peer lists

The white and the gray list of the address book (`p2p/address-book/src/peer_list.rs`). A list keeps
its peers by address, with an index by pruning seed and one by ban id. Removing a peer panics if an
index does not have it. The random numbers that the source draws are arguments.
-/

namespace Cuprate.AddressBook

open Collections P2P Pruning

/-- The ways the address book can panic. -/
inductive Panic where
  /-- "Index must exist if a peer has that index" -/
  | indexMissing
  /-- "This function will only be called when the peer exists." -/
  | peerNotInIndex
  /-- "Block needed is higher than max block allowed." -/
  | blockTooHigh
  /-- A random number of an empty range. -/
  | emptyRange
  /-- "Peer must be in connected list if in connected_peers_with_ban_id" -/
  | peerNotConnected
  /-- The `unwrap` of the peers with a ban id. -/
  | noPeersWithBanId
deriving DecidableEq, Repr

/-- An entry of a peer list. -/
structure ZoneSpecificPeerListEntryBase (Addr : Type) where
  adr : Addr
  id : UInt64
  lastSeen : Int64
  pruningSeed : PruningSeed
  rpcPort : UInt16
  rpcCreditsPerHash : UInt32
deriving DecidableEq

/-- A list of peers with its two indexes. -/
structure PeerList (Addr BanID : Type) where
  peers : IndexMap Addr (ZoneSpecificPeerListEntryBase Addr)
  pruningSeeds : Std.TreeMap PruningSeed (List Addr) PruningSeed.cmp
  banIds : Table BanID (List Addr)

namespace PeerList

variable {Addr BanID : Type} [DecidableEq Addr] [DecidableEq BanID] [NetZoneAddress Addr BanID]

/-- Adds a peer to both indexes. -/
def pushIdxs (l : PeerList Addr BanID) (peer : ZoneSpecificPeerListEntryBase Addr) : PeerList Addr BanID :=
  { l with
    pruningSeeds := l.pruningSeeds.insert peer.pruningSeed
      (l.pruningSeeds.getD peer.pruningSeed [] ++ [peer.adr])
    banIds := l.banIds.insert (banId peer.adr) ((l.banIds.lookup (banId peer.adr)).getD [] ++ [peer.adr]) }

/-- A list can have an address twice, then the last entry counts and the indexes have the address
twice. -/
def new (list : List (ZoneSpecificPeerListEntryBase Addr)) : PeerList Addr BanID :=
  list.foldl (fun l peer => { l.pushIdxs peer with peers := l.peers.insert peer.adr peer })
    ⟨.empty, ∅, ∅⟩

def len (l : PeerList Addr BanID) : Nat := l.peers.len

/-- Adds a peer that the list does not have. -/
def addNewPeer (l : PeerList Addr BanID) (peer : ZoneSpecificPeerListEntryBase Addr) :
    PeerList Addr BanID :=
  let inserted := { l with peers := l.peers.insert peer.adr peer }
  if (l.peers.lookup peer.adr).isNone then inserted.pushIdxs peer else inserted

def containsPeer (l : PeerList Addr BanID) (peer : Addr) : Bool := (l.peers.lookup peer).isSome

/-- An index entry without one occurrence of `addr`. -/
def removePeerIdx (peerList : Option (List Addr)) (addr : Addr) : Except Panic (List Addr) :=
  match peerList with
  | some peerList =>
    if addr ∈ peerList then .ok (Collections.swapRemove peerList (peerList.idxOf addr))
    else .error .peerNotInIndex
  | none => .error .indexMissing

/-- Removes a peer from the index by pruning seed. -/
def removePeerPruningIdx (l : PeerList Addr BanID) (peer : ZoneSpecificPeerListEntryBase Addr) :
    Except Panic (PeerList Addr BanID) := do
  let rest ← removePeerIdx l.pruningSeeds[peer.pruningSeed]? peer.adr
  .ok { l with
    pruningSeeds := if rest.isEmpty then l.pruningSeeds.erase peer.pruningSeed
      else l.pruningSeeds.insert peer.pruningSeed rest }

/-- Removes a peer from the index by ban identifier. -/
def removePeerBanIdx (l : PeerList Addr BanID) (peer : ZoneSpecificPeerListEntryBase Addr) :
    Except Panic (PeerList Addr BanID) := do
  let rest ← removePeerIdx (l.banIds.lookup (banId peer.adr)) peer.adr
  .ok { l with
    banIds := if rest.isEmpty then l.banIds.erase (banId peer.adr)
      else l.banIds.insert (banId peer.adr) rest }

/-- Removes a peer from both indexes. -/
def removePeerFromAllIdxs (l : PeerList Addr BanID) (peer : ZoneSpecificPeerListEntryBase Addr) :
    Except Panic (PeerList Addr BanID) := do
  (← l.removePeerPruningIdx peer).removePeerBanIdx peer

/-- Removes a peer, which is returned if the list has it. -/
def removePeer (l : PeerList Addr BanID) (peer : Addr) :
    Except Panic (Option (ZoneSpecificPeerListEntryBase Addr) × PeerList Addr BanID) :=
  match l.peers.lookup peer with
  | none => .ok (none, l)
  | some peerEb => do
    .ok (some peerEb, ← { l with peers := l.peers.swapRemove peer }.removePeerFromAllIdxs peerEb)

def removePeers (l : PeerList Addr BanID) (addresses : List Addr) : Except Panic (PeerList Addr BanID) :=
  addresses.foldlM (fun l addr => do .ok (← l.removePeer addr).2) l

/-- Removes all peers of a host. -/
def removePeersWithBanId (l : PeerList Addr BanID) (banId : BanID) : Except Panic (PeerList Addr BanID) :=
  match l.banIds.lookup banId with
  | none => .ok l
  | some addresses => l.removePeers addresses

/-- The addresses with the first seed that keeps the block. -/
def addressesWithBlock (neededHeight : Nat) :
    List (PruningSeed × List Addr) → Except Panic (Option (List Addr))
  | [] => .ok none
  | (seed, addresses) :: rest =>
    match seed.getNextUnprunedBlock neededHeight MAX_BLOCK_HEIGHT_USIZE with
    | .error _ => .error .blockTooHigh
    | .ok next => if next = neededHeight then .ok (some addresses)
        else addressesWithBlock neededHeight rest

def randomAddr (addresses : List Addr) (n : Nat) : Except Panic Addr :=
  match addresses[n % addresses.length]? with
  | some addr => .ok addr
  | none => .error .emptyRange

/-- The addresses that a random peer is drawn from, given the block that is needed. -/
def candidates (l : PeerList Addr BanID) : Option Nat → Except Panic (Option (List Addr))
  | some neededHeight => addressesWithBlock neededHeight l.pruningSeeds.toList
  | none => .ok (if l.len = 0 then none else some l.peers.keys)

/-- Takes a random peer that is not to be kept, with one try for each random number. -/
def takeRandomPeer (l : PeerList Addr BanID) (blockNeeded : Option Nat) (mustKeepPeers : Finset Addr) :
    List Nat → Except Panic (Option (ZoneSpecificPeerListEntryBase Addr) × PeerList Addr BanID)
  | [] => .ok (none, l)
  | n :: ns => do
    match ← l.candidates blockNeeded with
    | none => .ok (none, l)
    | some addresses =>
      let peer ← randomAddr addresses n
      if peer ∈ mustKeepPeers then l.takeRandomPeer blockNeeded mustKeepPeers ns else l.removePeer peer

/-- Tries to reduce the list to `newLen` peers, in the order of the list. -/
def reduceList (l : PeerList Addr BanID) (mustKeepPeers : Finset Addr) (newLen : Nat) :
    Except Panic (PeerList Addr BanID) :=
  if newLen ≥ l.len then .ok l
  else l.removePeers ((l.peers.keys.filter (· ∉ mustKeepPeers)).take (l.len - newLen))

end PeerList

end Cuprate.AddressBook
