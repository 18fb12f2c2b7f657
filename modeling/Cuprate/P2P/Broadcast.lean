import Cuprate.P2P.NetworkZone
import Cuprate.P2P.Protocol

/-!
# Broadcasts

The stream that gives a connection what is to be broadcast to its peer (`p2p/p2p/src/broadcast.rs`).
Its receiver does not lag, and the service is not dropped. The times at which a poll looks at the
clock and the sampled delay are arguments. A timer keeps the task's waker only if it is polled
before it has elapsed.
-/

namespace Cuprate.P2P

def SOFT_TX_MESSAGE_SIZE_SIZE_LIMIT : Nat := 10 * 1024 * 1024

/-- A block to broadcast. -/
structure NewBlockInfo where
  blockBytes : List UInt8
  currentBlockchainHeight : UInt64

/-- A transaction to broadcast. -/
structure BroadcastTxInfo (Peer : Type) where
  tx : List UInt8
  receivedFrom : Option Peer

/-- A request to broadcast. -/
inductive BroadcastRequest (Peer : Type) where
  | block (info : NewBlockInfo)
  /-- Without a direction the transaction goes to all peers. -/
  | transaction (info : BroadcastTxInfo Peer) (direction : Option ConnectionDirection)

/-- The broadcasts to one peer. -/
structure BroadcastMessageStream (Peer : Type) where
  /-- The peer that holds the stream. -/
  addr : Peer
  direction : ConnectionDirection
  /-- A block that the stream has not given out. -/
  newBlockWatch : Option NewBlockInfo
  txBroadcastChannel : List (BroadcastTxInfo Peer)
  /-- When the flush timer expires. -/
  nextFlush : Nat
  /-- Whether a new block, and whether the flush timer, wakes the task. -/
  blockWaker : Bool
  flushWaker : Bool

/-- The times of a poll: when the timer is polled, when the next one is made and when that one is
polled. -/
structure PollTimes where
  flushPolled : Nat
  created : Nat
  delay : Nat
  polledAgain : Nat

/-- The transactions for one message, whether there are more, and what stays in the channel. -/
def getTxsToBroadcast {Peer : Type} [DecidableEq Peer] (addr : Peer) :
    Nat → List (BroadcastTxInfo Peer) → List (List UInt8) × Bool × List (BroadcastTxInfo Peer)
  | _, [] => ([], false, [])
  | totalSize, info :: channel =>
    if info.receivedFrom = some addr then getTxsToBroadcast addr totalSize channel
    else if totalSize + info.tx.length > SOFT_TX_MESSAGE_SIZE_SIZE_LIMIT then ([info.tx], true, channel)
    else
      let (txs, more, rest) := getTxsToBroadcast addr (totalSize + info.tx.length) channel
      (info.tx :: txs, more, rest)

namespace BroadcastMessageStream

variable {Peer : Type} [DecidableEq Peer]

def new (addr : Peer) (direction : ConnectionDirection) (nextFlush : Nat) : BroadcastMessageStream Peer :=
  ⟨addr, direction, none, [], nextFlush, false, false⟩

/-- What a request to the broadcast service does to the stream. -/
def call (s : BroadcastMessageStream Peer) : BroadcastRequest Peer → BroadcastMessageStream Peer
  | .block info => { s with newBlockWatch := some info }
  | .transaction info direction =>
    if direction = none ∨ direction = some s.direction then
      { s with txBroadcastChannel := s.txBroadcastChannel ++ [info] }
    else s

/-- Polls the stream; no message is `Pending`. -/
def pollNext (s : BroadcastMessageStream Peer) (times : PollTimes) :
    Option BroadcastMessage × BroadcastMessageStream Peer :=
  match s.newBlockWatch with
  | some block =>
    (some (.newFluffyBlock ⟨⟨false, block.blockBytes, 0, .none⟩, block.currentBlockchainHeight⟩),
      { s with newBlockWatch := none })
  | none =>
    let s := { s with blockWaker := true }
    if times.flushPolled < s.nextFlush then (none, { s with flushWaker := true })
    else
      let (txs, moreAvailable, rest) := getTxsToBroadcast s.addr 0 s.txBroadcastChannel
      let nextFlush := if moreAvailable then times.created else times.created + times.delay
      let s := { s with txBroadcastChannel := rest, nextFlush := nextFlush, flushWaker := false }
      if txs = [] then (none, { s with flushWaker := times.polledAgain < nextFlush })
      else (some (.newTransactions ⟨txs, true, []⟩), s)

inductive Event (Peer : Type) where
  | request (request : BroadcastRequest Peer)
  | poll (times : PollTimes)

/-- The stream after an event, and the messages it has given out. -/
def step (s : BroadcastMessageStream Peer × List BroadcastMessage) :
    Event Peer → BroadcastMessageStream Peer × List BroadcastMessage
  | .request request => (s.1.call request, s.2)
  | .poll times => ((s.1.pollNext times).2, s.2 ++ (s.1.pollNext times).1.toList)

end BroadcastMessageStream

end Cuprate.P2P
