import Cuprate.Collections.Transitions

/-!
# The syncer and its stop signal

The batches of a block downloader on their way to the blockchain manager
(`binaries/cuprated/src/blockchain/syncer.rs` and `manager.rs`), and the signal by which the manager
stops the downloader (`manager/handler.rs`). A batch is the number of the download it is from.
`stopped` is a history: whether the signal was raised while the current downloader was active.
-/

namespace Cuprate.Blockchain

/-- Where the syncer is. -/
inductive Syncer where
  /-- Waits for a reason to check if we are behind. -/
  | idle
  /-- At the start of a turn of the loop over the batches, before the `select!` and its `notified()`
  are made. -/
  | turn
  /-- Waits in the `select!`, which has been notified or not. -/
  | select (notified : Bool)
  /-- Has taken a batch and waits for room in the channel. -/
  | sending
  /-- Waits until the batches it has sent are handled. -/
  | permit
deriving DecidableEq, Repr

/-- `notify_waiters` only wakes a task that already waits. -/
def Syncer.notifyWaiters : Syncer → Syncer
  | .select _ => .select true
  | syncer => syncer

def Syncer.active : Syncer → Bool
  | .turn | .select _ | .sending => true
  | _ => false

/-- The syncer, the channel, the manager and the downloads so far. -/
structure SyncState where
  syncer : Syncer
  channel : List Nat
  handling : Option Nat
  download : Nat
  stopped : Bool
deriving DecidableEq, Repr

/-- What happens in a step. -/
inductive SyncEvent where
  | start | select | take | send | stop | finished | permit | receive | handled | raise
deriving DecidableEq, Repr

def BATCH_CHANNEL_SIZE : Nat := 1

def SyncState.new : SyncState := ⟨.idle, [], none, 0, false⟩

/-- One step of the syncer or the manager. -/
inductive SyncStep (s : SyncState) : SyncEvent → SyncState → Prop where
  | start (h : s.syncer = .idle) :
      SyncStep s .start { s with syncer := .turn, download := s.download + 1, stopped := false }
  | select (h : s.syncer = .turn) : SyncStep s .select { s with syncer := .select false }
  /-- Between branches that are ready the `select!` chooses at random. -/
  | take {notified : Bool} (h : s.syncer = .select notified) :
      SyncStep s .take { s with syncer := .sending }
  | send (h : s.syncer = .sending) (hroom : s.channel.length < BATCH_CHANNEL_SIZE) :
      SyncStep s .send { s with syncer := .turn, channel := s.channel ++ [s.download] }
  | stop (h : s.syncer = .select true) : SyncStep s .stop { s with syncer := .permit }
  /-- The downloader has no more batches. -/
  | finished {notified : Bool} (h : s.syncer = .select notified) :
      SyncStep s .finished { s with syncer := .permit }
  | permit (h : s.syncer = .permit) (hchannel : s.channel = []) (hhandling : s.handling = none) :
      SyncStep s .permit { s with syncer := .idle }
  | receive {batch : Nat} {channel : List Nat} (h : s.handling = none)
      (hchannel : s.channel = batch :: channel) :
      SyncStep s .receive { s with channel := channel, handling := some batch }
  | handled {batch : Nat} (h : s.handling = some batch) : SyncStep s .handled { s with handling := none }
  /-- The batch is invalid. -/
  | raise {batch : Nat} (h : s.handling = some batch) :
      SyncStep s .raise { s with
        handling := none
        syncer := s.syncer.notifyWaiters
        stopped := s.stopped || s.syncer.active }

end Cuprate.Blockchain
