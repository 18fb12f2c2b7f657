import Cuprate.Wire.NetworkAddress

/-!
# The types of the messages

The objects that messages are made of (`net/wire/src/p2p/{common,admin,protocol}.rs`,
`types/types/src/block_complete_entry.rs`), with their fields on the wire.
-/

namespace Cuprate.Wire

open Cuprate.Stream Cuprate.Epee

def EmptyMessage.epeeObject : EpeeObject Unit := .empty

/-- The flags of a peer. -/
structure PeerSupportFlags where
  bits : UInt32
deriving DecidableEq, Repr

/-- What a node says of itself. -/
structure BasicNodeData where
  myPort : UInt32
  networkId : Octets 16
  peerId : UInt64
  supportFlags : PeerSupportFlags
  rpcPort : UInt16
  rpcCreditsPerHash : UInt32
deriving DecidableEq

def BasicNodeData.epeeObject : EpeeObject BasicNodeData :=
  .iso (fun d => (d.myPort, d.networkId, d.peerId, d.supportFlags.bits, d.rpcPort,
    d.rpcCreditsPerHash, ()))
    (fun (myPort, networkId, peerId, bits, rpcPort, rpcCreditsPerHash, ()) =>
      ⟨myPort, networkId, peerId, ⟨bits⟩, rpcPort, rpcCreditsPerHash⟩) <|
  .field (.new "my_port" .u32) <|
  .field (.new "network_id" (.octets 16)) <|
  .field (.new "peer_id" .u64) <|
  .field (.withDefault "support_flags" .u32 0) <|
  .field (.withDefault "rpc_port" .u16 0) <|
  .field (.withDefault "rpc_credits_per_hash" .u32 0) .empty

/-- What a node says of its chain. -/
structure CoreSyncData where
  cumulativeDifficulty : UInt64
  cumulativeDifficultyTop64 : UInt64
  currentHeight : UInt64
  pruningSeed : UInt32
  topId : Octets 32
  topVersion : UInt8
deriving DecidableEq

def CoreSyncData.epeeObject : EpeeObject CoreSyncData :=
  .iso (fun d => (d.cumulativeDifficulty, d.cumulativeDifficultyTop64, d.currentHeight,
    d.pruningSeed, d.topId, d.topVersion, ()))
    (fun (cumulativeDifficulty, cumulativeDifficultyTop64, currentHeight, pruningSeed, topId,
      topVersion, ()) =>
      ⟨cumulativeDifficulty, cumulativeDifficultyTop64, currentHeight, pruningSeed, topId, topVersion⟩) <|
  .field (.new "cumulative_difficulty" .u64) <|
  .field (.withDefault "cumulative_difficulty_top64" .u64 0) <|
  .field (.new "current_height" .u64) <|
  .field (.withDefault "pruning_seed" .u32 0) <|
  .field (.new "top_id" (.octets 32)) <|
  .field (.withDefault "top_version" .u8 0) .empty

/-- A peer in a list that is sent. -/
structure PeerListEntryBase where
  adr : NetworkAddress
  id : UInt64
  lastSeen : Int64
  pruningSeed : UInt32
  rpcPort : UInt16
  rpcCreditsPerHash : UInt32
deriving DecidableEq

def PeerListEntryBase.epeeObject : EpeeObject PeerListEntryBase :=
  .iso (fun p => (p.adr, p.id, p.lastSeen, p.pruningSeed, p.rpcPort, p.rpcCreditsPerHash, ()))
    (fun (adr, id, lastSeen, pruningSeed, rpcPort, rpcCreditsPerHash, ()) =>
      ⟨adr, id, lastSeen, pruningSeed, rpcPort, rpcCreditsPerHash⟩) <|
  .field (.new "adr" (.ofObject NetworkAddress.epeeObject)) <|
  .field (.new "id" .u64) <|
  .field (.withDefault "last_seen" .i64 0) <|
  .field (.withDefault "pruning_seed" .u32 0) <|
  .field (.withDefault "rpc_port" .u16 0) <|
  .field (.withDefault "rpc_credits_per_hash" .u32 0) .empty

/-! ## Blocks with their transactions -/

/-- A pruned transaction with the hash of the missing prunable data. -/
structure PrunedTxBlobEntry where
  blob : List UInt8
  prunableHash : ByteArray 32
deriving DecidableEq

def PrunedTxBlobEntry.epeeObject : EpeeObject PrunedTxBlobEntry :=
  .iso (fun p => (p.blob, p.prunableHash, ())) (fun (blob, prunableHash, ()) => ⟨blob, prunableHash⟩) <|
  .field (.new "blob" .bytes) <|
  .field (.new "prunable_hash" (.byteArray 32)) .empty

/-- The transactions of a block. -/
inductive TransactionBlobs where
  | pruned (txs : List PrunedTxBlobEntry)
  | normal (txs : List (List UInt8))
  | none
deriving DecidableEq

namespace TransactionBlobs

def len : TransactionBlobs → Nat
  | .normal txs => txs.length
  | .pruned txs => txs.length
  | .none => 0

def isEmpty (blobs : TransactionBlobs) : Bool := blobs.len == 0

def shouldWriteTxBlobs (blobs : TransactionBlobs) : Bool := !blobs.isEmpty

def prunedValue : EpeeValue (List PrunedTxBlobEntry) := .vec (.ofObject PrunedTxBlobEntry.epeeObject)

def normalValue : EpeeValue (List (List UInt8)) := .vec .bytes

/-- The type of the values decides between pruned and normal transactions. -/
def txBlobRead : Read TransactionBlobs := do
  let marker ← readMarker
  match marker.innerMarker with
  | .Object => do
    let txs ← prunedValue.read marker
    pure (.pruned txs)
  | .String => do
    let txs ← normalValue.read marker
    pure (.normal txs)
  | _ => .fail (.value "Invalid marker for tx blobs")

def txBlobWrite (fieldName : String) (blobs : TransactionBlobs) : List UInt8 :=
  if blobs.shouldWriteTxBlobs then
    match blobs with
    | .normal bytes => writeField normalValue fieldName bytes
    | .pruned obj => writeField prunedValue fieldName obj
    | .none => []
  else []

/-- The field with functions of its own for reading and writing. -/
def epeeField (name : String) : Epee.Field TransactionBlobs where
  name := name
  read := txBlobRead
  written blobs := blobs != .none && blobs.shouldWriteTxBlobs
  write := txBlobWrite name
  default := some .none

end TransactionBlobs

/-- A block with its transactions. -/
structure BlockCompleteEntry where
  pruned : Bool
  block : List UInt8
  blockWeight : UInt64
  txs : TransactionBlobs
deriving DecidableEq

def BlockCompleteEntry.epeeObject : EpeeObject BlockCompleteEntry :=
  .iso (fun b => (b.pruned, b.block, b.blockWeight, b.txs, ()))
    (fun (pruned, block, blockWeight, txs, ()) => ⟨pruned, block, blockWeight, txs⟩) <|
  .field (.withDefault "pruned" .bool false) <|
  .field (.new "block" .bytes) <|
  .field (.withDefault "block_weight" .u64 0) <|
  .field (TransactionBlobs.epeeField "txs") .empty

/-! ## Admin messages -/

/-- The first request of a connection. -/
structure HandshakeRequest where
  nodeData : BasicNodeData
  payloadData : CoreSyncData
deriving DecidableEq

def HandshakeRequest.epeeObject : EpeeObject HandshakeRequest :=
  .iso (fun m => (m.nodeData, m.payloadData, ())) (fun (nodeData, payloadData, ()) =>
    ⟨nodeData, payloadData⟩) <|
  .field (.new "node_data" (.ofObject BasicNodeData.epeeObject)) <|
  .field (.new "payload_data" (.ofObject CoreSyncData.epeeObject)) .empty

/-- The answer to a handshake. -/
structure HandshakeResponse where
  nodeData : BasicNodeData
  payloadData : CoreSyncData
  localPeerlistNew : List PeerListEntryBase
deriving DecidableEq

def HandshakeResponse.epeeObject : EpeeObject HandshakeResponse :=
  .iso (fun m => (m.nodeData, m.payloadData, m.localPeerlistNew, ()))
    (fun (nodeData, payloadData, localPeerlistNew, ()) => ⟨nodeData, payloadData, localPeerlistNew⟩) <|
  .field (.new "node_data" (.ofObject BasicNodeData.epeeObject)) <|
  .field (.new "payload_data" (.ofObject CoreSyncData.epeeObject)) <|
  .field (.new "local_peerlist_new" (.vec (.ofObject PeerListEntryBase.epeeObject))) .empty

/-- The request that is sent at intervals. -/
structure TimedSyncRequest where
  payloadData : CoreSyncData
deriving DecidableEq

def TimedSyncRequest.epeeObject : EpeeObject TimedSyncRequest :=
  .iso (fun m => (m.payloadData, ())) (fun (payloadData, ()) => ⟨payloadData⟩) <|
  .field (.new "payload_data" (.ofObject CoreSyncData.epeeObject)) .empty

/-- The answer to a timed sync. -/
structure TimedSyncResponse where
  payloadData : CoreSyncData
  localPeerlistNew : List PeerListEntryBase
deriving DecidableEq

def TimedSyncResponse.epeeObject : EpeeObject TimedSyncResponse :=
  .iso (fun m => (m.payloadData, m.localPeerlistNew, ()))
    (fun (payloadData, localPeerlistNew, ()) => ⟨payloadData, localPeerlistNew⟩) <|
  .field (.new "payload_data" (.ofObject CoreSyncData.epeeObject)) <|
  .field (.new "local_peerlist_new" (.vec (.ofObject PeerListEntryBase.epeeObject))) .empty

/-- The answer to a ping. -/
structure PingResponse where
  status : List UInt8
  peerId : UInt64
deriving DecidableEq

def PingResponse.epeeObject : EpeeObject PingResponse :=
  .iso (fun m => (m.status, m.peerId, ())) (fun (status, peerId, ()) => ⟨status, peerId⟩) <|
  .field (.new "status" .bytes) <|
  .field (.new "peer_id" .u64) .empty

/-- The answer to a request for the flags. -/
structure SupportFlagsResponse where
  supportFlags : PeerSupportFlags
deriving DecidableEq

def SupportFlagsResponse.epeeObject : EpeeObject SupportFlagsResponse :=
  .iso (fun m => (m.supportFlags.bits, ())) (fun (bits, ()) => ⟨⟨bits⟩⟩) <|
  .field (.new "support_flags" .u32) .empty

/-! ## Protocol messages -/

/-- A new block. -/
structure NewBlock where
  b : BlockCompleteEntry
  currentBlockchainHeight : UInt64
deriving DecidableEq

def NewBlock.epeeObject : EpeeObject NewBlock :=
  .iso (fun m => (m.b, m.currentBlockchainHeight, ()))
    (fun (b, currentBlockchainHeight, ()) => ⟨b, currentBlockchainHeight⟩) <|
  .field (.new "b" (.ofObject BlockCompleteEntry.epeeObject)) <|
  .field (.new "current_blockchain_height" .u64) .empty

/-- New transactions. -/
structure NewTransactions where
  txs : List (List UInt8)
  dandelionppFluff : Bool
  padding : List UInt8
deriving DecidableEq

def NewTransactions.epeeObject : EpeeObject NewTransactions :=
  .iso (fun m => (m.txs, m.dandelionppFluff, m.padding, ()))
    (fun (txs, dandelionppFluff, padding, ()) => ⟨txs, dandelionppFluff, padding⟩) <|
  .field (.new "txs" (.vec .bytes)) <|
  .field (.withDefault "dandelionpp_fluff" .bool true) <|
  .field (.new "_" .bytes) .empty

/-- A request for blocks. -/
structure GetObjectsRequest where
  blocks : ByteArrayVec 32
  pruned : Bool
deriving DecidableEq

def GetObjectsRequest.epeeObject : EpeeObject GetObjectsRequest :=
  .iso (fun m => (m.blocks, m.pruned, ())) (fun (blocks, pruned, ()) => ⟨blocks, pruned⟩) <|
  .field (.new "blocks" (.byteArrayVec 32)) <|
  .field (.withDefault "pruned" .bool false) .empty

/-- The blocks that were requested. -/
structure GetObjectsResponse where
  blocks : List BlockCompleteEntry
  missedIds : ByteArrayVec 32
  currentBlockchainHeight : UInt64
deriving DecidableEq

def GetObjectsResponse.epeeObject : EpeeObject GetObjectsResponse :=
  .iso (fun m => (m.blocks, m.missedIds, m.currentBlockchainHeight, ()))
    (fun (blocks, missedIds, currentBlockchainHeight, ()) =>
      ⟨blocks, missedIds, currentBlockchainHeight⟩) <|
  .field (.new "blocks" (.vec (.ofObject BlockCompleteEntry.epeeObject))) <|
  .field (.new "missed_ids" (.byteArrayVec 32)) <|
  .field (.new "current_blockchain_height" .u64) .empty

/-- A request for a chain entry. -/
structure ChainRequest where
  blockIds : ByteArrayVec 32
  prune : Bool
deriving DecidableEq

def ChainRequest.epeeObject : EpeeObject ChainRequest :=
  .iso (fun m => (m.blockIds, m.prune, ())) (fun (blockIds, prune, ()) => ⟨blockIds, prune⟩) <|
  .field (.new "block_ids" (.byteArrayVec 32)) <|
  .field (.withDefault "prune" .bool false) .empty

/-- A chain entry. -/
structure ChainResponse where
  startHeight : UInt64
  totalHeight : UInt64
  cumulativeDifficultyLow64 : UInt64
  cumulativeDifficultyTop64 : UInt64
  mBlockIds : ByteArrayVec 32
  mBlockWeights : List UInt64
  firstBlock : List UInt8
deriving DecidableEq

def ChainResponse.epeeObject : EpeeObject ChainResponse :=
  .iso (fun m => (m.startHeight, m.totalHeight, m.cumulativeDifficultyLow64, m.cumulativeDifficultyTop64,
      m.mBlockIds, m.mBlockWeights, m.firstBlock, ()))
    (fun (startHeight, totalHeight, low64, top64, mBlockIds, mBlockWeights, firstBlock, ()) =>
      ⟨startHeight, totalHeight, low64, top64, mBlockIds, mBlockWeights, firstBlock⟩) <|
  .field (.new "start_height" .u64) <|
  .field (.new "total_height" .u64) <|
  .field (.new "cumulative_difficulty" .u64) <|
  .field (.withDefault "cumulative_difficulty_top64" .u64 0) <|
  .field (.new "m_block_ids" (.byteArrayVec 32)) <|
  .field (.new "m_block_weights" .containerAsBlob) <|
  .field (.new "first_block" .bytes) .empty

/-- A block that doesn't have transactions unless requested. -/
structure NewFluffyBlock where
  b : BlockCompleteEntry
  currentBlockchainHeight : UInt64
deriving DecidableEq

def NewFluffyBlock.epeeObject : EpeeObject NewFluffyBlock :=
  .iso (fun m => (m.b, m.currentBlockchainHeight, ()))
    (fun (b, currentBlockchainHeight, ()) => ⟨b, currentBlockchainHeight⟩) <|
  .field (.new "b" (.ofObject BlockCompleteEntry.epeeObject)) <|
  .field (.new "current_blockchain_height" .u64) .empty

/-- A request for the transactions of a block that are missing. -/
structure FluffyMissingTransactionsRequest where
  blockHash : ByteArray 32
  currentBlockchainHeight : UInt64
  missingTxIndices : List UInt64
deriving DecidableEq

def FluffyMissingTransactionsRequest.epeeObject : EpeeObject FluffyMissingTransactionsRequest :=
  .iso (fun m => (m.blockHash, m.currentBlockchainHeight, m.missingTxIndices, ()))
    (fun (blockHash, currentBlockchainHeight, missingTxIndices, ()) =>
      ⟨blockHash, currentBlockchainHeight, missingTxIndices⟩) <|
  .field (.new "block_hash" (.byteArray 32)) <|
  .field (.new "current_blockchain_height" .u64) <|
  .field (.new "missing_tx_indices" .containerAsBlob) .empty

/-- A request for the transactions of the pool. -/
structure GetTxPoolCompliment where
  hashes : ByteArrayVec 32
deriving DecidableEq

def GetTxPoolCompliment.epeeObject : EpeeObject GetTxPoolCompliment :=
  .iso (fun m => (m.hashes, ())) (fun (hashes, ()) => ⟨hashes⟩) <|
  .field (.new "hashes" (.byteArrayVec 32)) .empty

end Cuprate.Wire
