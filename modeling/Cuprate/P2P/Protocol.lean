import Cuprate.Wire.Message

/-!
# Requests and responses

The requests and responses that network messages stand for (`p2p/p2p-core/src/protocol.rs` and
`protocol/try_from.rs`). Some messages are a request or a response, depending on what the connection
waits for.
-/

namespace Cuprate.P2P

open Cuprate.Wire

/-- A request together with its response. -/
inductive MessageID where
  | handshake | timedSync | ping | supportFlags
  | getObjects | getChain | fluffyMissingTxs | getTxPoolCompliment | newBlock | newFluffyBlock
      | newTransactions
deriving DecidableEq, Repr

/-- A message to all peers. -/
inductive BroadcastMessage where
  | newFluffyBlock (message : NewFluffyBlock)
  | newTransactions (message : NewTransactions)

/-- A request of the protocol. -/
inductive ProtocolRequest where
  | getObjects (message : GetObjectsRequest)
  | getChain (message : ChainRequest)
  | fluffyMissingTxs (message : FluffyMissingTransactionsRequest)
  | getTxPoolCompliment (message : GetTxPoolCompliment)
  | newBlock (message : NewBlock)
  | newFluffyBlock (message : NewFluffyBlock)
  | newTransactions (message : NewTransactions)

/-- A request to a peer. -/
inductive PeerRequest where
  | admin (message : AdminRequestMessage)
  | protocol (request : ProtocolRequest)

/-- A response of the protocol. -/
inductive ProtocolResponse where
  | getObjects (message : GetObjectsResponse)
  | getChain (message : ChainResponse)
  | newFluffyBlock (message : NewFluffyBlock)
  | newTransactions (message : NewTransactions)
  | fluffyMissingTransactionsRequest (message : FluffyMissingTransactionsRequest)
  | na

/-- A response of a peer. -/
inductive PeerResponse where
  | admin (message : AdminResponseMessage)
  | protocol (response : ProtocolResponse)

namespace PeerRequest

/-- The kind of a request. -/
def id : PeerRequest → MessageID
  | .admin (.handshake _) => .handshake
  | .admin (.timedSync _) => .timedSync
  | .admin .ping => .ping
  | .admin .supportFlags => .supportFlags
  | .protocol (.getObjects _) => .getObjects
  | .protocol (.getChain _) => .getChain
  | .protocol (.fluffyMissingTxs _) => .fluffyMissingTxs
  | .protocol (.getTxPoolCompliment _) => .getTxPoolCompliment
  | .protocol (.newBlock _) => .newBlock
  | .protocol (.newFluffyBlock _) => .newFluffyBlock
  | .protocol (.newTransactions _) => .newTransactions

/-- Whether a request has a response. -/
def needsResponse : PeerRequest → Bool
  | .protocol (.newBlock _) | .protocol (.newFluffyBlock _) | .protocol (.newTransactions _) => false
  | _ => true

def ofBroadcast : BroadcastMessage → PeerRequest
  | .newTransactions txs => .protocol (.newTransactions txs)
  | .newFluffyBlock block => .protocol (.newFluffyBlock block)

end PeerRequest

/-- The request in a message. -/
def ProtocolRequest.tryFrom : ProtocolMessage → Option ProtocolRequest
  | .getObjectsRequest val => some (.getObjects val)
  | .chainRequest val => some (.getChain val)
  | .fluffyMissingTransactionsRequest val => some (.fluffyMissingTxs val)
  | .getTxPoolCompliment val => some (.getTxPoolCompliment val)
  | .newBlock val => some (.newBlock val)
  | .newFluffyBlock val => some (.newFluffyBlock val)
  | .newTransactions val => some (.newTransactions val)
  | .getObjectsResponse _ | .chainEntryResponse _ => none

def PeerRequest.tryFrom : Message → Option PeerRequest
  | .request req => some (.admin req)
  | .protocol pro => (ProtocolRequest.tryFrom pro).map .protocol
  | .response _ => none

/-- The response in a message. -/
def ProtocolResponse.tryFrom : ProtocolMessage → Option ProtocolResponse
  | .newTransactions val => some (.newTransactions val)
  | .newFluffyBlock val => some (.newFluffyBlock val)
  | .chainEntryResponse val => some (.getChain val)
  | .getObjectsResponse val => some (.getObjects val)
  | .chainRequest _ | .fluffyMissingTransactionsRequest _ | .getObjectsRequest _ | .getTxPoolCompliment _
  | .newBlock _ => none

def PeerResponse.tryFrom : Message → Option PeerResponse
  | .response res => some (.admin res)
  | .protocol pro => (ProtocolResponse.tryFrom pro).map .protocol
  | .request _ => none

/-- Whether a message is a request. -/
def isRequest : Message → Bool
  | .request _ => true
  | _ => false

/-- Whether the command is the one of the response to a request
(`p2p/p2p-core/src/client/connection.rs`). -/
def levinCommandResponse : MessageID → LevinCommand → Bool
  | .handshake, .handshake => true
  | .timedSync, .timedSync => true
  | .ping, .ping => true
  | .supportFlags, .supportFlags => true
  | .getObjects, .getObjectsResponse => true
  | .getChain, .chainResponse => true
  | .fluffyMissingTxs, .newFluffyBlock => true
  | .getTxPoolCompliment, .newTransactions => true
  | _, _ => false

theorem exists_tryFrom_of_levinCommandResponse {requestId : MessageID} {mes : Message}
    (hcommand : levinCommandResponse requestId mes.command = true) (hrequest : isRequest mes = false) :
    ∃ resp, PeerResponse.tryFrom mes = some resp := by
  cases mes with
  | request req => cases hrequest
  | response res => exact ⟨_, rfl⟩
  | protocol pro =>
    cases pro with
    | newFluffyBlock val => exact ⟨_, rfl⟩
    | newTransactions val => exact ⟨_, rfl⟩
    | chainEntryResponse val => exact ⟨_, rfl⟩
    | getObjectsResponse val => exact ⟨_, rfl⟩
    | newBlock val => cases requestId <;> cases hcommand
    | getObjectsRequest val => cases requestId <;> cases hcommand
    | chainRequest val => cases requestId <;> cases hcommand
    | fluffyMissingTransactionsRequest val => cases requestId <;> cases hcommand
    | getTxPoolCompliment val => cases requestId <;> cases hcommand

theorem exists_tryFrom_of_isRequest {mes : Message} (h : isRequest mes = true) :
    ∃ req, PeerRequest.tryFrom mes = some req := by
  cases mes with
  | request req => exact ⟨_, rfl⟩
  | response res => cases h
  | protocol pro => cases h

theorem needsResponse_ofBroadcast (message : BroadcastMessage) :
    (PeerRequest.ofBroadcast message).needsResponse = false := by
  cases message with
  | newFluffyBlock block => rfl
  | newTransactions txs => rfl

end Cuprate.P2P
