import Cuprate.Epee.Macros

/-!
# Network addresses

The addresses that peers send each other (`net/wire/src/network_address.rs` and
`net/wire/src/network_address/{epee_builder,onion_addr}.rs`, `types/types/src/address_type.rs`). On
the wire an address is a type and an object that has the fields of all types of addresses.
-/

namespace Cuprate.Wire

open Cuprate.Stream Cuprate.Epee

/-- The types of addresses. -/
inductive AddressType where
  | invalid | ipv4 | ipv6 | i2p | tor
deriving DecidableEq, Repr

namespace AddressType

def toU8 : AddressType → UInt8
  | .invalid => 0
  | .ipv4 => 1
  | .ipv6 => 2
  | .i2p => 3
  | .tor => 4

def fromU8 (u : UInt8) : Option AddressType :=
  match u.toNat with
  | 0 => some .invalid
  | 1 => some .ipv4
  | 2 => some .ipv6
  | 3 => some .i2p
  | 4 => some .tor
  | _ => none

def epeeValue : EpeeValue AddressType where
  marker := EpeeValue.u8.marker
  read marker := do
    let u ← EpeeValue.u8.read marker
    okOr (.format "u8 was greater than 4") (fromU8 u)
  write a := EpeeValue.u8.write a.toU8

end AddressType

/-- An IP address and a port. -/
inductive SocketAddr where
  | v4 (ip : Octets 4) (port : UInt16)
  | v6 (ip : Octets 16) (port : UInt16) (flowinfo scopeId : UInt32)
deriving DecidableEq

/-- Why an onion address is invalid. -/
inductive OnionAddrParsingError where
  | invalidLength (length : Nat)
  | nonUtf8Char (char : UInt8)
  | invalidTld (tld : List UInt8)
  | nonBase32Char
deriving DecidableEq, Repr

def isBase32 (c : UInt8) : Bool := (0x61 ≤ c && c ≤ 0x7A) || (0x32 ≤ c && c ≤ 0x37)

/-- A v3 onion address: its domain without `.onion`, and a port. -/
structure OnionAddr where
  domain : List UInt8
  port : UInt16
  length_domain : domain.length = 56
  isBase32_domain : domain.all isBase32 = true
deriving DecidableEq

namespace OnionAddr

/-- The domain of an address with `.onion`. -/
def checkAddr (addr : List UInt8) : Except OnionAddrParsingError
    { domain : List UInt8 // domain.length = 56 ∧ domain.all isBase32 = true } :=
  if h : addr.length ≠ 62 then .error (.invalidLength addr.length)
  else
    let domain := addr.take 56
    let tld := addr.drop 56
    -- the string cannot be split inside of a character
    if isContinuation (tld.headD 0) then .error (.nonUtf8Char (tld.headD 0))
    else if tld ≠ asciiBytes ".onion" then .error (.invalidTld tld)
    else if hbase : domain.all isBase32 = true then .ok ⟨domain, by simp [domain]; omega, hbase⟩
    else .error .nonBase32Char

def new (addr : Text) (port : UInt16) : Except OnionAddrParsingError OnionAddr :=
  (checkAddr addr.1).map fun domain => ⟨domain.1, port, domain.2.1, domain.2.2⟩

theorem lt_of_isBase32 {c : UInt8} (h : isBase32 c = true) : c < 0x80 := by
  simp only [isBase32, Bool.or_eq_true, Bool.and_eq_true, decide_eq_true_eq, UInt8.le_iff_toNat_le] at h
  rw [UInt8.lt_iff_toNat_lt]
  rcases h with ⟨-, h⟩ | ⟨-, h⟩ <;> exact lt_of_le_of_lt h (by decide)

theorem isUtf8_addr (addr : OnionAddr) : isUtf8 (addr.domain ++ asciiBytes ".onion") = true := by
  apply isUtf8_of_ascii
  intro c hc
  rcases List.mem_append.mp hc with hc | hc
  · exact lt_of_isBase32 (List.all_eq_true.mp addr.isBase32_domain c hc)
  · have hascii : ∀ c ∈ asciiBytes ".onion", c < 0x80 := by simp [asciiBytes]
    exact hascii c hc

/-- The address with `.onion`. -/
def addrString (addr : OnionAddr) : Text := ⟨addr.domain ++ asciiBytes ".onion", addr.isUtf8_addr⟩

end OnionAddr

/-- An address of a peer. -/
inductive NetworkAddress where
  | clear (addr : SocketAddr)
  | tor (addr : OnionAddr)
deriving DecidableEq

/-- All fields that an address may have. -/
structure AllFieldsNetworkAddress where
  mIp : Option UInt32
  mPort : Option UInt16
  addr : Option (Octets 16)
  host : Option Text
  port : Option UInt16

namespace AllFieldsNetworkAddress

def epeeObject : EpeeObject AllFieldsNetworkAddress :=
  .iso (fun a => (a.mIp, a.mPort, a.addr, a.host, a.port, ()))
    (fun (mIp, mPort, addr, host, port, ()) => ⟨mIp, mPort, addr, host, port⟩) <|
  .field (.new "m_ip" (.option .u32)) <|
  .field (.new "m_port" (.option .u16)) <|
  .field (.new "addr" (.option (.octets 16))) <|
  .field (.new "host" (.option .text)) <|
  .field (.new "port" (.option .u16)) .empty

def tryIntoNetworkAddress (a : AllFieldsNetworkAddress) : AddressType → Option NetworkAddress
  | .ipv4 => do
    let mIp ← a.mIp
    let mPort ← a.mPort
    return .clear (.v4 ⟨leBytes 4 mIp.toNat, length_leBytes _ _⟩ mPort)
  | .ipv6 => do
    let addr ← a.addr
    let mPort ← a.mPort
    return .clear (.v6 addr mPort 0 0)
  | .tor => do
    let host ← a.host
    let port ← a.port
    let addr ← (OnionAddr.new host port).toOption
    return .tor addr
  | .invalid | .i2p => none

end AllFieldsNetworkAddress

/-- An address with its type. -/
structure TaggedNetworkAddress where
  ty : Option AddressType
  addr : Option AllFieldsNetworkAddress

namespace TaggedNetworkAddress

def epeeObject : EpeeObject TaggedNetworkAddress :=
  .iso (fun a => (a.ty, a.addr, ())) (fun (ty, addr, ()) => ⟨ty, addr⟩) <|
  .field (.new "type" (.option AddressType.epeeValue)) <|
  .field (.new "addr" (.option (.ofObject AllFieldsNetworkAddress.epeeObject))) .empty

/-- How an address is collected when it is read. -/
def addField (b : TaggedNetworkAddress) (name : List UInt8) : Read (TaggedNetworkAddress × Bool) :=
  if name = asciiBytes "type" then do
    let ty ← readEpeeValue AddressType.epeeValue
    if b.ty.isSome then .fail (.format "Duplicate field in data.") else pure ({ b with ty := some ty }, true)
  else if name = asciiBytes "addr" then do
    let addr ← readEpeeValue (.option (.ofObject AllFieldsNetworkAddress.epeeObject))
    if b.addr.isSome then .fail (.format "Duplicate field in data.") else pure ({ b with addr := addr }, true)
  else pure (b, false)

def tryIntoNetworkAddress (value : TaggedNetworkAddress) : Option NetworkAddress := do
  let addr ← value.addr
  let ty ← value.ty
  addr.tryIntoNetworkAddress ty

def ofNetworkAddress : NetworkAddress → TaggedNetworkAddress
  | .clear (.v4 ip port) =>
    { ty := some .ipv4
      addr := some ⟨some (.ofNat (leValue ip.1)), some port, none, none, none⟩ }
  | .clear (.v6 ip port _ _) =>
    { ty := some .ipv6
      addr := some ⟨none, some port, some ip, none, none⟩ }
  | .tor onionAddr =>
    { ty := some .tor
      addr := some ⟨none, none, none, some onionAddr.addrString, some onionAddr.port⟩ }

end TaggedNetworkAddress

namespace NetworkAddress

def epeeObject : EpeeObject NetworkAddress where
  Builder := TaggedNetworkAddress
  default := ⟨none, none⟩
  addField := TaggedNetworkAddress.addField
  finish b :=
    match b.tryIntoNetworkAddress with
    | some addr => .ok addr
    | none => .error (.value "Invalid network address")
  numberOfFields _ := 2
  writeFields addr := TaggedNetworkAddress.epeeObject.writeFields (.ofNetworkAddress addr)

/-- The address that is left when it has been sent: an IPv6 address has no flow info and no
scope. -/
def normalise : NetworkAddress → NetworkAddress
  | .clear (.v6 ip port _ _) => .clear (.v6 ip port 0 0)
  | addr => addr

end NetworkAddress

end Cuprate.Wire
