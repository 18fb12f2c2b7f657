import Cuprate.AddressBook.PeerList
import Cuprate.Collections.Grouping
import Cuprate.Collections.Transitions

/-!
# The address book

The address book of a network zone (`p2p/address-book/src/book.rs`): the white, gray and anchor
lists, the connected peers by their id and by their ban id, and the bans in a map and in a queue of
unban times. Saving the lists to disk is left out. The clock, the bans the delay queue hands out,
and the order in which connected peers are visited with the answers of their handles are arguments:
other tasks close and ban connections at any time.
-/

namespace Cuprate.AddressBook

open Collections P2P Pruning

/-- Seconds on the clock. -/
abbrev Instant := Nat

/-- A number of seconds. -/
abbrev Duration := Nat

/-- Why a request to the address book is refused. -/
inductive AddressBookError where
  | peerAlreadyConnected
  | peerNotFound
  | peersDataChanged (data : String)
  | peerIsBanned
deriving DecidableEq, Repr

/-- The sizes of the peer lists. -/
structure AddressBookConfig where
  maxWhiteListLength : Nat
  maxGrayListLength : Nat

/-- What the book keeps about a connected peer. -/
structure ConnectionPeerEntry (Addr : Type) where
  /-- The address under which we can reach the peer. -/
  addr : Option Addr
  id : UInt64
  handle : ConnectionHandle
  pruningSeed : PruningSeed
  rpcPort : UInt16
  rpcCreditsPerHash : UInt32
deriving DecidableEq

/-- The peer list entry of a connected peer. -/
def ConnectionPeerEntry.peb {Addr : Type} (peer : ConnectionPeerEntry Addr) (addr : Addr) :
    ZoneSpecificPeerListEntryBase Addr where
  adr := addr
  id := peer.id
  lastSeen := 0
  pruningSeed := peer.pruningSeed
  rpcPort := peer.rpcPort
  rpcCreditsPerHash := peer.rpcCreditsPerHash

/-- The entry of a peer with the newer values of its connection. -/
def ConnectionPeerEntry.updatePeb {Addr : Type} (peer : ConnectionPeerEntry Addr)
    (peb : ZoneSpecificPeerListEntryBase Addr) : ZoneSpecificPeerListEntryBase Addr :=
  { peb with lastSeen := 0, rpcPort := peer.rpcPort, rpcCreditsPerHash := peer.rpcCreditsPerHash }

/-- A connected peer that the book looks at, and what the peer's handle answers. -/
structure Visit (Addr : Type) where
  internalAddr : InternalPeerID Addr
  /-- The answer of `check_should_ban`. -/
  shouldBan : Option Duration
  /-- The answer of `is_closed`. -/
  isClosed : Bool
  /-- The time at which the peer is banned, if it is to be banned. -/
  now : Instant
deriving DecidableEq

/-- The address book of one network zone. -/
structure Book (Addr BanID : Type) where
  /-- The peers we have previously connected to. -/
  whiteList : PeerList Addr BanID
  /-- The peers we have been told about. -/
  grayList : PeerList Addr BanID
  /-- The connected peers that we can reach. -/
  anchorList : Finset Addr
  connectedPeers : Table (InternalPeerID Addr) (ConnectionPeerEntry Addr)
  connectedPeersBanId : Table BanID (Finset Addr)
  bannedPeers : Table BanID Instant
  bannedPeersQueue : List (BanID × Instant)
  /-- The handles that the book has sent a close signal to. -/
  closeSignals : Finset ConnectionHandle
  cfg : AddressBookConfig

namespace Book

variable {Addr BanID : Type} [DecidableEq Addr] [DecidableEq BanID] [NetZoneAddress Addr BanID]

/-- A book with the stored lists, without connections and bans. -/
def new (cfg : AddressBookConfig) (whitePeers grayPeers : List (ZoneSpecificPeerListEntryBase Addr))
    (anchorPeers : List Addr) : Book Addr BanID where
  whiteList := .new whitePeers
  grayList := .new grayPeers
  anchorList := anchorPeers.toFinset
  connectedPeers := ∅
  connectedPeersBanId := ∅
  bannedPeers := ∅
  bannedPeersQueue := []
  closeSignals := ∅
  cfg := cfg

/-- Unbans the peers whose bans the delay queue hands out. -/
def pollUnbanPeers (b : Book Addr BanID) (expired : List (BanID × Instant)) : Book Addr BanID :=
  expired.foldl (fun b ban => { b with
    bannedPeersQueue := b.bannedPeersQueue.erase ban
    bannedPeers := b.bannedPeers.erase ban.1 }) b

/-- The handles of the connected peers among `addresses`. -/
def handles (b : Book Addr BanID) (addresses : Finset (InternalPeerID Addr)) : Finset ConnectionHandle :=
  addresses.biUnion fun addr => ((b.connectedPeers.lookup addr).map fun peer => {peer.handle}).getD ∅

/-- Tells the connected peers with the ban id of `addr` to close. The anchor that is removed each
time is `addr` itself. -/
def closePeersWithBanId (b : Book Addr BanID) (addr : Addr) : Except Panic (Book Addr BanID) :=
  match b.connectedPeersBanId.lookup (banId addr) with
  | none => .ok b
  | some peers =>
    if ∀ peer ∈ peers, (b.connectedPeers.lookup (.knownAddr peer)).isSome then
      .ok { b with
        closeSignals := b.closeSignals ∪ b.handles (peers.image .knownAddr)
        anchorList := if peers = ∅ then b.anchorList else b.anchorList.erase addr }
    else .error .peerNotConnected

/-- Bans a peer: closes its connections, takes it from both lists and starts the timer of the
ban. -/
def banPeer (b : Book Addr BanID) (addr : Addr) (time : Duration) (now : Instant) :
    Except Panic (Book Addr BanID) := do
  let b ← b.closePeersWithBanId addr
  let whiteList ← b.whiteList.removePeersWithBanId (banId addr)
  let grayList ← b.grayList.removePeersWithBanId (banId addr)
  let unbanAt := now + time
  .ok { b with
    whiteList := whiteList
    grayList := grayList
    bannedPeersQueue := b.bannedPeersQueue ++ [(banId addr, unbanAt)]
    bannedPeers := b.bannedPeers.insert (banId addr) unbanAt }

/-- The bans that were asked for through connection handles, one after another. -/
def banPeers (b : Book Addr BanID) (bans : List (Addr × Duration × Instant)) :
    Except Panic (Book Addr BanID) :=
  bans.foldlM (fun b (addr, time, now) => b.banPeer addr time now) b

/-- Removes a connection that has ended. -/
def removeDisconnected (b : Book Addr BanID) (disconnectedAddr : InternalPeerID Addr) :
    Except Panic (Book Addr BanID) :=
  match disconnectedAddr with
  | .unknown id => .ok { b with connectedPeers := b.connectedPeers.erase (.unknown id) }
  | .knownAddr addr =>
    match b.connectedPeersBanId.lookup (banId addr) with
    | none => .error .noPeersWithBanId
    | some peers =>
      .ok { b with
        connectedPeers := b.connectedPeers.erase (.knownAddr addr)
        connectedPeersBanId := groupErase banId b.connectedPeersBanId peers addr
        anchorList := b.anchorList.erase addr }

/-- The peers to ban. A peer whose address is not known is disconnected instead. -/
def addrsToBan (visits : List (Visit Addr)) : List (Addr × Duration × Instant) :=
  visits.filterMap fun visit =>
    match visit.internalAddr with
    | .knownAddr addr => visit.shouldBan.map fun time => (addr, time, visit.now)
    | .unknown _ => none

/-- The peers with an unknown address that are told to close. -/
def unknownToClose (visits : List (Visit Addr)) : Finset (InternalPeerID Addr) :=
  (visits.filterMap fun visit =>
    match visit.internalAddr with
    | .knownAddr _ => none
    | .unknown id => visit.shouldBan.map fun _ => .unknown id).toFinset

/-- The peers whose connections are closed or were just told to close. -/
def internalAddrDisconnected (visits : List (Visit Addr)) : List (InternalPeerID Addr) :=
  visits.filterMap fun visit =>
    if visit.isClosed || decide (visit.internalAddr ∈ unknownToClose visits) then some visit.internalAddr
    else none

/-- Looks at the connections for closed handles and asked bans. -/
def pollConnectedPeers (b : Book Addr BanID) (visits : List (Visit Addr)) :
    Except Panic (Book Addr BanID) := do
  let b := { b with closeSignals := b.closeSignals ∪ b.handles (unknownToClose visits) }
  let b ← b.banPeers (addrsToBan visits)
  (internalAddrDisconnected visits).foldlM removeDisconnected b

/-- What one call of `poll_ready` finds: the fired timers and the visits of the connections. -/
structure Poll (Addr BanID : Type) where
  now : Instant
  expired : List (BanID × Instant)
  visits : List (Visit Addr)

def pollReady (b : Book Addr BanID) (poll : Poll Addr BanID) : Except Panic (Book Addr BanID) :=
  (b.pollUnbanPeers poll.expired).pollConnectedPeers poll.visits

/-- Adds a peer to the gray list if no list has it. -/
def addPeerToGrayList (b : Book Addr BanID) (peer : ZoneSpecificPeerListEntryBase Addr) :
    Book Addr BanID :=
  if b.whiteList.containsPeer peer.adr then b
  else if b.grayList.containsPeer peer.adr then b
  else { b with grayList := b.grayList.addNewPeer { peer with lastSeen := 0 } }

/-- Whether the host of the address is banned. -/
def isPeerBanned (b : Book Addr BanID) (peer : Addr) : Bool := (b.bannedPeers.lookup (banId peer)).isSome

/-- When the ban of the host ends. -/
def peerUnbanInstant (b : Book Addr BanID) (peer : Addr) :
    Option Instant := b.bannedPeers.lookup (banId peer)

/-- The peers of an incoming list that the gray list can take. -/
def retainPeers (b : Book Addr BanID) (peerList : List (ZoneSpecificPeerListEntryBase Addr)) :
    List (ZoneSpecificPeerListEntryBase Addr) :=
  (peerList.map fun peer => { peer with adr := makeCanonical peer.adr }).filter fun peer =>
    shouldAddToPeerList peer.adr && !b.isPeerBanned peer.adr

/-- Adds the peers that another peer sent to the gray list, without the banned ones. -/
def handleIncomingPeerList (b : Book Addr BanID) (peerList : List (ZoneSpecificPeerListEntryBase Addr)) :
    Except Panic (Book Addr BanID) := do
  let b := (b.retainPeers peerList).foldl addPeerToGrayList b
  .ok { b with grayList := ← b.grayList.reduceList ∅ b.cfg.maxGrayListLength }

/-- Takes a random peer from the white list. -/
def takeRandomWhitePeer (b : Book Addr BanID) (blockNeeded : Option Nat) (ns : List Nat) :
    Except Panic (Option (ZoneSpecificPeerListEntryBase Addr) × Book Addr BanID) := do
  let (peer, whiteList) ← b.whiteList.takeRandomPeer blockNeeded b.anchorList ns
  .ok (peer, { b with whiteList := whiteList })

/-- Takes a random peer from the gray list. -/
def takeRandomGrayPeer (b : Book Addr BanID) (blockNeeded : Option Nat) (ns : List Nat) :
    Except Panic (Option (ZoneSpecificPeerListEntryBase Addr) × Book Addr BanID) := do
  let (peer, grayList) ← b.grayList.takeRandomPeer blockNeeded ∅ ns
  .ok (peer, { b with grayList := grayList })

/-- Updates the peer's entry in the white list, which is added if it is missing. -/
def updateWhiteListPeerEntry (b : Book Addr BanID) (peer : ConnectionPeerEntry Addr) :
    Except AddressBookError (Book Addr BanID) :=
  match peer.addr with
  | none => .ok b
  | some addr =>
    match b.whiteList.peers.lookup addr with
    | some peb =>
      if peb.pruningSeed ≠ peer.pruningSeed then .error (.peersDataChanged "Pruning seed")
      else
        let peers := b.whiteList.peers.insert addr (peer.updatePeb peb)
        .ok { b with whiteList := { b.whiteList with peers := peers } }
    | none => .ok { b with whiteList := b.whiteList.addNewPeer (peer.peb addr) }

def isIdBanned (b : Book Addr BanID) : InternalPeerID Addr → Bool
  | .knownAddr addr => b.isPeerBanned addr
  | .unknown _ => false

/-- A known address is put with the connected peers of its ban id. -/
def addConnectedBanId (b : Book Addr BanID) : InternalPeerID Addr → Book Addr BanID
  | .knownAddr addr => { b with connectedPeersBanId := groupInsert banId b.connectedPeersBanId addr }
  | .unknown _ => b

/-- Takes a new connection. The book keeps what was changed before an error. -/
def handleNewConnection (b : Book Addr BanID) (internalPeerId : InternalPeerID Addr)
    (peer : ConnectionPeerEntry Addr) :
    Except Panic (Except AddressBookError Unit × Book Addr BanID) :=
  if (b.connectedPeers.lookup internalPeerId).isSome then .ok (.error .peerAlreadyConnected, b)
  else if b.isIdBanned internalPeerId then .ok (.error .peerIsBanned, b)
  else
    let b := b.addConnectedBanId internalPeerId
    match peer.addr with
    | none => .ok (.ok (), { b with connectedPeers := b.connectedPeers.insert internalPeerId peer })
    | some addr =>
      match b.updateWhiteListPeerEntry peer with
      | .error e => .ok (.error e, b)
      | .ok b => do
        let anchorList := insert addr b.anchorList
        let whiteList ← b.whiteList.reduceList anchorList b.cfg.maxWhiteListLength
        .ok (.ok (), { b with
          whiteList := whiteList
          anchorList := anchorList
          connectedPeers := b.connectedPeers.insert internalPeerId peer })

end Book

/-- The requests that can change the address book, and the request for a ban, with the random
numbers they draw. -/
inductive AddressBookRequest (Addr : Type) where
  | newConnection (internalPeerId : InternalPeerID Addr) (peer : ConnectionPeerEntry Addr)
  | incomingPeerList (peerList : List (ZoneSpecificPeerListEntryBase Addr))
  | takeRandomWhitePeer (height : Option Nat) (ns : List Nat)
  | takeRandomGrayPeer (height : Option Nat) (ns : List Nat)
  | takeRandomPeer (height : Option Nat) (ns ns' : List Nat)
  | getBan (addr : Addr)

/-- The answers of the address book. -/
inductive AddressBookResponse (Addr : Type) where
  | ok
  | peer (peer : ZoneSpecificPeerListEntryBase Addr)
  | getBan (unbanInstant : Option Instant)

namespace Book

variable {Addr BanID : Type} [DecidableEq Addr] [DecidableEq BanID] [NetZoneAddress Addr BanID]

def peerResponse (taken : Option (ZoneSpecificPeerListEntryBase Addr)) :
    Except AddressBookError (AddressBookResponse Addr) :=
  match taken with
  | some peer => .ok (.peer peer)
  | none => .error .peerNotFound

/-- Handles a request, as the service does. -/
def call (b : Book Addr BanID) : AddressBookRequest Addr →
    Except Panic (Except AddressBookError (AddressBookResponse Addr) × Book Addr BanID)
  | .newConnection internalPeerId peer => do
    let (res, b) ← b.handleNewConnection internalPeerId peer
    .ok (res.map fun _ => .ok, b)
  | .incomingPeerList peerList => do .ok (.ok .ok, ← b.handleIncomingPeerList peerList)
  | .takeRandomWhitePeer height ns => do
    let (peer, b) ← b.takeRandomWhitePeer height ns
    .ok (peerResponse peer, b)
  | .takeRandomGrayPeer height ns => do
    let (peer, b) ← b.takeRandomGrayPeer height ns
    .ok (peerResponse peer, b)
  | .takeRandomPeer height ns ns' => do
    let (peer, b) ← b.takeRandomWhitePeer height ns
    match peer with
    | some peer => .ok (.ok (.peer peer), b)
    | none => do
      let (peer, b) ← b.takeRandomGrayPeer height ns'
      .ok (peerResponse peer, b)
  | .getBan addr => .ok (.ok (.getBan (b.peerUnbanInstant addr)), b)

/-- What the delay queue and the handles can answer in a poll. The queue hands out bans it holds,
none of them early; every connected peer is visited once; a handle told to close is closed. -/
structure Poll.Possible (b : Book Addr BanID) (poll : Poll Addr BanID) : Prop where
  expired : poll.expired.Subperm b.bannedPeersQueue
  due : ∀ ban ∈ poll.expired, ban.2 ≤ poll.now
  nodup : (poll.visits.map (·.internalAddr)).Nodup
  visited : ∀ id, id ∈ poll.visits.map (·.internalAddr) ↔ (b.connectedPeers.lookup id).isSome
  closed : ∀ visit ∈ poll.visits, ∀ peer, b.connectedPeers.lookup visit.internalAddr = some peer →
    peer.handle ∈ b.closeSignals → visit.isClosed = true
  later : ∀ visit ∈ poll.visits, poll.now ≤ visit.now

/-- What happens to an address book. -/
inductive Event (Addr BanID : Type) where
  | poll (poll : Poll Addr BanID)
  | call (request : AddressBookRequest Addr)

/-- One step of the book that does not panic. -/
inductive Step : Book Addr BanID → Event Addr BanID → Book Addr BanID → Prop where
  | poll {b b' : Book Addr BanID} {poll : Poll Addr BanID} :
      Poll.Possible b poll → b.pollReady poll = .ok b' → Step b (.poll poll) b'
  | call {b b' : Book Addr BanID} {request : AddressBookRequest Addr}
      {response : Except AddressBookError (AddressBookResponse Addr)} :
      b.call request = .ok (response, b') → Step b (.call request) b'

end Book

end Cuprate.AddressBook
