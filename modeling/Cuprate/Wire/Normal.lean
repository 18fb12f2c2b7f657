import Cuprate.Wire.Message

/-!
# What is left of a message that was sent

The format has no place for a list of transactions without entries and for the flow info and scope
of an address. A message fits the format if its byte strings have at most the length that is read,
and its byte arrays are not the default ones without any bytes. Lists stand for `Vec`s, which have
fewer than `2 ^ 62` entries that take two bytes or more.
-/

namespace Cuprate.Wire

open Cuprate.Epee

/-- The bytes can be written as a string. -/
def FitsBytes (bytes : List UInt8) : Prop := bytes.length ≤ MAX_STRING_LEN_POSSIBLE

/-- The list can be written, and so can its elements. -/
def FitsVec {α : Type} (fits : α → Prop) (l : List α) : Prop := l.length < 2 ^ 62 ∧ ∀ a ∈ l, fits a

def FitsArray {N : Nat} (array : ByteArray N) : Prop := array.bytes.length = N

def FitsBlob (l : List UInt64) : Prop := 8 * l.length ≤ MAX_STRING_LEN_POSSIBLE

def PeerListEntryBase.normalise (entry : PeerListEntryBase) : PeerListEntryBase :=
  { entry with adr := entry.adr.normalise }

def PrunedTxBlobEntry.Fits (entry : PrunedTxBlobEntry) : Prop :=
  FitsBytes entry.blob ∧ FitsArray entry.prunableHash

namespace TransactionBlobs

def Fits : TransactionBlobs → Prop
  | .pruned txs => FitsVec PrunedTxBlobEntry.Fits txs
  | .normal txs => FitsVec FitsBytes txs
  | .none => True

def normalise : TransactionBlobs → TransactionBlobs
  | .pruned [] => .none
  | .normal [] => .none
  | blobs => blobs

end TransactionBlobs

namespace BlockCompleteEntry

def Fits (entry : BlockCompleteEntry) : Prop := FitsBytes entry.block ∧ entry.txs.Fits

def normalise (entry : BlockCompleteEntry) :
    BlockCompleteEntry := { entry with txs := entry.txs.normalise }

end BlockCompleteEntry

namespace ProtocolMessage

def Fits : ProtocolMessage → Prop
  | .newBlock m => m.b.Fits
  | .newFluffyBlock m => m.b.Fits
  | .getObjectsRequest m => FitsBytes m.blocks.bytes
  | .getObjectsResponse m => FitsVec BlockCompleteEntry.Fits m.blocks ∧ FitsBytes m.missedIds.bytes
  | .chainRequest m => FitsBytes m.blockIds.bytes
  | .chainEntryResponse m => FitsBytes m.mBlockIds.bytes ∧ FitsBlob m.mBlockWeights ∧
      FitsBytes m.firstBlock
  | .newTransactions m => FitsVec FitsBytes m.txs ∧ FitsBytes m.padding
  | .fluffyMissingTransactionsRequest m => FitsArray m.blockHash ∧ FitsBlob m.missingTxIndices
  | .getTxPoolCompliment m => FitsBytes m.hashes.bytes

def normalise : ProtocolMessage → ProtocolMessage
  | .newBlock m => .newBlock { m with b := m.b.normalise }
  | .newFluffyBlock m => .newFluffyBlock { m with b := m.b.normalise }
  | .getObjectsResponse m =>
      .getObjectsResponse { m with blocks := m.blocks.map BlockCompleteEntry.normalise }
  | message => message

end ProtocolMessage

namespace AdminResponseMessage

def Fits : AdminResponseMessage → Prop
  | .handshake m => FitsVec (fun _ => True) m.localPeerlistNew
  | .ping m => FitsBytes m.status
  | .supportFlags _ => True
  | .timedSync m => FitsVec (fun _ => True) m.localPeerlistNew

def normalise : AdminResponseMessage → AdminResponseMessage
  | .handshake m => .handshake { m with localPeerlistNew := m.localPeerlistNew.map PeerListEntryBase.normalise }
  | .timedSync m => .timedSync { m with localPeerlistNew := m.localPeerlistNew.map PeerListEntryBase.normalise }
  | message => message

end AdminResponseMessage

namespace Message

def Fits : Message → Prop
  | .request _ => True
  | .response message => message.Fits
  | .protocol message => message.Fits

def normalise : Message → Message
  | .request message => .request message
  | .response message => .response message.normalise
  | .protocol message => .protocol message.normalise

end Message

end Cuprate.Wire
