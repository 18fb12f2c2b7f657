import Cuprate.Wire.NetworkAddress

/-!
# Network zones

The addresses of a network zone, and the ids of the peers in it (`p2p/p2p-core/src/lib.rs`,
`p2p/p2p-core/src/network_zones`, `p2p/p2p-core/src/client.rs`). Peers are banned by a part of their
address: a clear net peer by its IP address, an onion service by its domain.
-/

namespace Cuprate.P2P

open Cuprate.Epee Cuprate.Wire

/-- An address in a network zone. -/
class NetZoneAddress (Addr : Type) (BanID : outParam Type) where
  banId : Addr → BanID
  makeCanonical : Addr → Addr
  shouldAddToPeerList : Addr → Bool

export NetZoneAddress (banId makeCanonical shouldAddToPeerList)

/-- A peer's address if it is known, otherwise a random number. -/
inductive InternalPeerID (Addr : Type) where
  | knownAddr (addr : Addr)
  | unknown (id : BitVec 128)
deriving DecidableEq

/-- The token that the handles of a connection share (`p2p/p2p-core/src/handles.rs`): closed once it
is cancelled. -/
abbrev ConnectionHandle := Nat

/-- Which side has opened a connection. -/
inductive ConnectionDirection where
  | inbound | outbound
deriving DecidableEq, Repr

inductive IpAddr where
  | v4 (ip : Octets 4)
  | v6 (ip : Octets 16)
deriving DecidableEq

/-- An IPv4 address that is mapped to an IPv6 address, as itself. -/
def IpAddr.toCanonical : IpAddr → IpAddr
  | v4 ip => v4 ip
  | v6 ip =>
    if ip.1.take 12 = List.replicate 10 0 ++ [0xFF, 0xFF] then
      v4 ⟨ip.1.drop 12, by rw [List.length_drop, ip.2]⟩
    else v6 ip

def socketAddrIp : SocketAddr → IpAddr
  | .v4 ip _ => .v4 ip
  | .v6 ip _ _ _ => .v6 ip

/-- The address with its IP address replaced. One that stays an IPv6 address keeps its flow info and
scope. -/
def setIp : SocketAddr → IpAddr → SocketAddr
  | .v4 _ port, .v4 ip => .v4 ip port
  | .v4 _ port, .v6 ip => .v6 ip port 0 0
  | .v6 _ port _ _, .v4 ip => .v4 ip port
  | .v6 _ port flowinfo scopeId, .v6 ip => .v6 ip port flowinfo scopeId

instance : NetZoneAddress SocketAddr IpAddr where
  banId := socketAddrIp
  makeCanonical addr := setIp addr (socketAddrIp addr).toCanonical
  shouldAddToPeerList _ := true

instance : NetZoneAddress OnionAddr (List UInt8) where
  banId addr := addr.domain
  makeCanonical addr := addr
  shouldAddToPeerList _ := true

end Cuprate.P2P
