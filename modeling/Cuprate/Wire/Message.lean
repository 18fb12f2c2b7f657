import Cuprate.Levin.Bucket
import Cuprate.Wire.Types

/-!
# Messages

Every message of the network and its command (`net/wire/src/p2p.rs`). The type and the command of a
levin bucket say which object its body is.
-/

namespace Cuprate.Wire

open Cuprate.Epee Cuprate.Levin

/-- The commands of the p2p protocol. -/
inductive LevinCommand where
  | handshake
  | timedSync
  | ping
  | supportFlags
  | newBlock
  | newTransactions
  | getObjectsRequest
  | getObjectsResponse
  | chainRequest
  | chainResponse
  | newFluffyBlock
  | fluffyMissingTxsRequest
  | getTxPoolCompliment
  | unknown (id : UInt32)
deriving DecidableEq, Repr

namespace LevinCommand

/-- The largest body for a command. -/
def bucketSizeLimit : LevinCommand → UInt64
  | .handshake => 65536
  | .timedSync => 65536
  | .ping => 4096
  | .supportFlags => 4096
  | .newBlock => 1024 * 1024 * 128
  | .newTransactions => 1024 * 1024 * 128
  | .getObjectsRequest => 1024 * 1024 * 2
  | .getObjectsResponse => 1024 * 1024 * 128
  | .chainRequest => 512 * 1024
  | .chainResponse => 1024 * 1024 * 4
  | .newFluffyBlock => 1024 * 1024 * 4
  | .fluffyMissingTxsRequest => 1024 * 1024
  | .getTxPoolCompliment => 1024 * 1024 * 4
  | .unknown _ => .ofNat (2 ^ 64 - 1)

/-- The command with a number. -/
def ofU32 (value : UInt32) : LevinCommand :=
  match value.toNat with
  | 1001 => .handshake
  | 1002 => .timedSync
  | 1003 => .ping
  | 1007 => .supportFlags
  | 2001 => .newBlock
  | 2002 => .newTransactions
  | 2003 => .getObjectsRequest
  | 2004 => .getObjectsResponse
  | 2006 => .chainRequest
  | 2007 => .chainResponse
  | 2008 => .newFluffyBlock
  | 2009 => .fluffyMissingTxsRequest
  | 2010 => .getTxPoolCompliment
  | _ => .unknown value

/-- The number of a command. -/
def toU32 : LevinCommand → UInt32
  | .handshake => 1001
  | .timedSync => 1002
  | .ping => 1003
  | .supportFlags => 1007
  | .newBlock => 2001
  | .newTransactions => 2002
  | .getObjectsRequest => 2003
  | .getObjectsResponse => 2004
  | .chainRequest => 2006
  | .chainResponse => 2007
  | .newFluffyBlock => 2008
  | .fluffyMissingTxsRequest => 2009
  | .getTxPoolCompliment => 2010
  | .unknown id => id

theorem toU32_ofU32 (value : UInt32) : (ofU32 value).toU32 = value := by
  unfold ofU32
  apply UInt32.toNat_inj.mp
  split <;> first | exact Eq.symm (by assumption) | rfl

instance : Levin.LevinCommand LevinCommand where
  fromU32 := ofU32
  toU32 := toU32
  toU32_fromU32 := toU32_ofU32
  bucketSizeLimit := bucketSizeLimit
  isHandshake command := command = .handshake

end LevinCommand

def bodyDecodingError : Epee.Error → BucketError
  | .io msg => .bodyDecodingError ("IO error: " ++ msg)
  | .format msg => .bodyDecodingError ("Format error: " ++ msg)
  | .value msg => .bodyDecodingError ("Value error: " ++ msg)

variable {T Ret : Type}

/-- Reads a message of one type. -/
def decodeMessage (o : EpeeObject T) (ret : T → Ret) (buf : List UInt8) : Except BucketError Ret :=
  ((fromBytes o.toEpeeObjectBuilder buf).mapError bodyDecodingError).map ret

/-- Writes a message of one type. -/
def buildMessage (o : EpeeObject T) (id : LevinCommand) (val : T) (builder : BucketBuilder LevinCommand) :
    Except BucketError (BucketBuilder LevinCommand) :=
  .ok { builder with command := some id, body := some (toBytes o val) }

/-- The notifications. -/
inductive ProtocolMessage where
  | newBlock (message : NewBlock)
  | newFluffyBlock (message : NewFluffyBlock)
  | getObjectsRequest (message : GetObjectsRequest)
  | getObjectsResponse (message : GetObjectsResponse)
  | chainRequest (message : ChainRequest)
  | chainEntryResponse (message : ChainResponse)
  | newTransactions (message : NewTransactions)
  | fluffyMissingTransactionsRequest (message : FluffyMissingTransactionsRequest)
  | getTxPoolCompliment (message : GetTxPoolCompliment)
deriving DecidableEq

namespace ProtocolMessage

def command : ProtocolMessage → LevinCommand
  | .newBlock _ => .newBlock
  | .newFluffyBlock _ => .newFluffyBlock
  | .getObjectsRequest _ => .getObjectsRequest
  | .getObjectsResponse _ => .getObjectsResponse
  | .chainRequest _ => .chainRequest
  | .chainEntryResponse _ => .chainResponse
  | .newTransactions _ => .newTransactions
  | .fluffyMissingTransactionsRequest _ => .fluffyMissingTxsRequest
  | .getTxPoolCompliment _ => .getTxPoolCompliment

def decode (buf : List UInt8) : LevinCommand → Except BucketError ProtocolMessage
  | .newBlock => decodeMessage NewBlock.epeeObject .newBlock buf
  | .newTransactions => decodeMessage NewTransactions.epeeObject .newTransactions buf
  | .getObjectsRequest => decodeMessage GetObjectsRequest.epeeObject .getObjectsRequest buf
  | .getObjectsResponse => decodeMessage GetObjectsResponse.epeeObject .getObjectsResponse buf
  | .chainRequest => decodeMessage ChainRequest.epeeObject .chainRequest buf
  | .chainResponse => decodeMessage ChainResponse.epeeObject .chainEntryResponse buf
  | .newFluffyBlock => decodeMessage NewFluffyBlock.epeeObject .newFluffyBlock buf
  | .fluffyMissingTxsRequest =>
    decodeMessage FluffyMissingTransactionsRequest.epeeObject .fluffyMissingTransactionsRequest buf
  | .getTxPoolCompliment => decodeMessage GetTxPoolCompliment.epeeObject .getTxPoolCompliment buf
  | .handshake | .timedSync | .ping | .supportFlags | .unknown _ => .error .unknownCommand

def build (message : ProtocolMessage) (builder : BucketBuilder LevinCommand) :
    Except BucketError (BucketBuilder LevinCommand) :=
  match message with
  | .newBlock val => buildMessage NewBlock.epeeObject .newBlock val builder
  | .newTransactions val => buildMessage NewTransactions.epeeObject .newTransactions val builder
  | .getObjectsRequest val => buildMessage GetObjectsRequest.epeeObject .getObjectsRequest val builder
  | .getObjectsResponse val => buildMessage GetObjectsResponse.epeeObject .getObjectsResponse val builder
  | .chainRequest val => buildMessage ChainRequest.epeeObject .chainRequest val builder
  | .chainEntryResponse val => buildMessage ChainResponse.epeeObject .chainResponse val builder
  | .newFluffyBlock val => buildMessage NewFluffyBlock.epeeObject .newFluffyBlock val builder
  | .fluffyMissingTransactionsRequest val =>
    buildMessage FluffyMissingTransactionsRequest.epeeObject .fluffyMissingTxsRequest val builder
  | .getTxPoolCompliment val =>
      buildMessage GetTxPoolCompliment.epeeObject .getTxPoolCompliment val builder

end ProtocolMessage

/-- The requests. -/
inductive AdminRequestMessage where
  | handshake (message : HandshakeRequest)
  | ping
  | supportFlags
  | timedSync (message : TimedSyncRequest)
deriving DecidableEq

namespace AdminRequestMessage

def command : AdminRequestMessage → LevinCommand
  | .handshake _ => .handshake
  | .ping => .ping
  | .supportFlags => .supportFlags
  | .timedSync _ => .timedSync

def decode (buf : List UInt8) : LevinCommand → Except BucketError AdminRequestMessage
  | .handshake => decodeMessage HandshakeRequest.epeeObject .handshake buf
  | .timedSync => decodeMessage TimedSyncRequest.epeeObject .timedSync buf
  | .ping => decodeMessage EmptyMessage.epeeObject (fun _ => .ping) buf
  | .supportFlags => decodeMessage EmptyMessage.epeeObject (fun _ => .supportFlags) buf
  | .newBlock | .newTransactions | .getObjectsRequest | .getObjectsResponse | .chainRequest
      | .chainResponse
  | .newFluffyBlock | .fluffyMissingTxsRequest | .getTxPoolCompliment | .unknown _ =>
      .error .unknownCommand

def build (message : AdminRequestMessage) (builder : BucketBuilder LevinCommand) :
    Except BucketError (BucketBuilder LevinCommand) :=
  match message with
  | .handshake val => buildMessage HandshakeRequest.epeeObject .handshake val builder
  | .timedSync val => buildMessage TimedSyncRequest.epeeObject .timedSync val builder
  | .ping => buildMessage EmptyMessage.epeeObject .ping () builder
  | .supportFlags => buildMessage EmptyMessage.epeeObject .supportFlags () builder

end AdminRequestMessage

/-- The responses. -/
inductive AdminResponseMessage where
  | handshake (message : HandshakeResponse)
  | ping (message : PingResponse)
  | supportFlags (message : SupportFlagsResponse)
  | timedSync (message : TimedSyncResponse)
deriving DecidableEq

namespace AdminResponseMessage

def command : AdminResponseMessage → LevinCommand
  | .handshake _ => .handshake
  | .ping _ => .ping
  | .supportFlags _ => .supportFlags
  | .timedSync _ => .timedSync

def decode (buf : List UInt8) : LevinCommand → Except BucketError AdminResponseMessage
  | .handshake => decodeMessage HandshakeResponse.epeeObject .handshake buf
  | .timedSync => decodeMessage TimedSyncResponse.epeeObject .timedSync buf
  | .ping => decodeMessage PingResponse.epeeObject .ping buf
  | .supportFlags => decodeMessage SupportFlagsResponse.epeeObject .supportFlags buf
  | .newBlock | .newTransactions | .getObjectsRequest | .getObjectsResponse | .chainRequest
      | .chainResponse
  | .newFluffyBlock | .fluffyMissingTxsRequest | .getTxPoolCompliment | .unknown _ =>
      .error .unknownCommand

def build (message : AdminResponseMessage) (builder : BucketBuilder LevinCommand) :
    Except BucketError (BucketBuilder LevinCommand) :=
  match message with
  | .handshake val => buildMessage HandshakeResponse.epeeObject .handshake val builder
  | .timedSync val => buildMessage TimedSyncResponse.epeeObject .timedSync val builder
  | .ping val => buildMessage PingResponse.epeeObject .ping val builder
  | .supportFlags val => buildMessage SupportFlagsResponse.epeeObject .supportFlags val builder

end AdminResponseMessage

/-- A message of the p2p protocol. -/
inductive Message where
  | request (message : AdminRequestMessage)
  | response (message : AdminResponseMessage)
  | protocol (message : ProtocolMessage)
deriving DecidableEq

namespace Message

def command : Message → LevinCommand
  | .request message => message.command
  | .response message => message.command
  | .protocol message => message.command

/-- The levin message type and the return code that a message is sent with. -/
def levinType : Message → MessageType × Int32
  | .request _ => (.request, 0)
  | .response _ => (.response, 1)
  | .protocol _ => (.notification, 0)

def decode (body : List UInt8) (ty : MessageType) (command : LevinCommand) : Except BucketError Message :=
  match ty with
  | .request => (AdminRequestMessage.decode body command).map .request
  | .response => (AdminResponseMessage.decode body command).map .response
  | .notification => (ProtocolMessage.decode body command).map .protocol

def encode (message : Message) (builder : BucketBuilder LevinCommand) :
    Except BucketError (BucketBuilder LevinCommand) :=
  match message with
  | .protocol pro => pro.build { builder with ty := some .notification, returnCode := some 0 }
  | .request req => req.build { builder with ty := some .request, returnCode := some 0 }
  | .response res => res.build { builder with ty := some .response, returnCode := some 1 }

instance : LevinBody Message LevinCommand where
  decodeMessage := decode
  encode := encode

end Message

end Cuprate.Wire
