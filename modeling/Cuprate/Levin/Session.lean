import Cuprate.Levin.Codec
import Cuprate.Collections.Transitions

/-!
# Sessions

A message codec together with the bytes it has not read yet, the messages it has returned, and a
record of what it has let pass. Bytes arrive in any chunks, and `decode` may be called again after
any result; a step is one iteration of its loop.
-/

namespace Cuprate.Levin

/-- What a codec lets pass. -/
inductive Event (C : Type) where
  /-- The header of a bucket was read and is below the limits. -/
  | header (head : BucketHead C)
  /-- A whole bucket was received. -/
  | bucket (bucket : Bucket C)
  /-- A fragmented message with this header is complete, and its body is decoded. -/
  | fragmented (head : BucketHead C)

section

variable {T C : Type} [LevinCommand C]

/-- The header that the next call of the bucket decoder accepts. -/
def LevinBucketCodec.acceptedHeader (codec : LevinBucketCodec C) (src : List UInt8) :
    Option (BucketHead C) :=
  match codec.state with
  | .waitingForHeader =>
    let head := (BucketHead.fromBytes src).1
    if src.length < HEADER_SIZE || codec.exceedsMaxSize head then none else some head
  | .waitingForBody _ => none

/-- The header of the fragmented message that `bucket` completes, when its body is decoded. -/
def completedHeader (codec : LevinBucketCodec C) (state : MessageState) (bucket : Bucket C) :
    Option (BucketHead C) :=
  match state with
  | .waitingForBucket => none
  | .waitingForRestOfFragment bytes =>
    let combined := bytes ++ bucket.body
    let head := (BucketHead.fromBytes (combined.take HEADER_SIZE)).1
    if bucket.header.flags.contains .DUMMY || !bucket.header.flags.contains .END_FRAGMENT ||
        maxFragmentedSize codec < combined.length || combined.length < HEADER_SIZE ||
        bucketSizeLimit head.command < head.size || combined.length - HEADER_SIZE < head.size.toNat ||
        (MessageType.fromFlagsAndHaveToReturn head.flags head.haveToReturnData).toOption.isNone then none
    else some head

/-- Whether a header with a handshake command was let pass. -/
def Event.isHandshake : Event C → Bool
  | .header head => LevinCommand.isHandshake head.command
  | .bucket _ => false
  | .fragmented head => LevinCommand.isHandshake head.command

/-- The message in a result of `decode`. -/
def decodedMessage : Except BucketError (Option T) → Option T
  | .ok message => message
  | .error _ => none

@[simp] theorem decodedMessage_ok (message : Option T) : decodedMessage (.ok message) = message := rfl

@[simp] theorem decodedMessage_error (e : BucketError) :
    decodedMessage (.error e : Except _ (Option T)) = none := rfl

end

/-- A codec with its unread bytes and what it has returned. -/
structure Session (T C : Type) where
  codec : LevinMessageCodec C
  /-- Received, but not read. -/
  buffer : List UInt8
  /-- Returned by `decode`, in order. -/
  messages : List T
  history : List (Event C)

namespace Session

variable {T C : Type}

def new (protocol : Protocol) : Session T C where
  codec := .new protocol
  buffer := []
  messages := []
  history := []

def receive (s : Session T C) (chunk : List UInt8) : Session T C :=
  { s with buffer := s.buffer ++ chunk }

variable [LevinCommand C] [LevinBody T C]

def handleNext (s : Session T C) (bucket : Bucket C) : Session T C :=
  let handled := handle (T := T) s.codec.1 s.codec.2 bucket
  { s with
    codec := handled.2
    messages := s.messages ++ (decodedMessage handled.1).toList
    history := s.history ++ ((completedHeader s.codec.1 s.codec.2 bucket).map .fragmented).toList }

/-- One iteration of the loop of `decode`. -/
def iterate (s : Session T C) : Session T C :=
  let history := s.history ++ ((s.codec.1.acceptedHeader s.buffer).map .header).toList
  match s.codec.1.decode s.buffer with
  | (.ok (some bucket), codec, rest) =>
    handleNext { s with codec := (codec, s.codec.2), buffer := rest, history :=
      history ++ [.bucket bucket] }
      bucket
  | (_, codec, rest) => { s with codec := (codec, s.codec.2), buffer := rest, history := history }

/-- Bytes arrive, or one iteration of the loop is made. -/
inductive Step : Session T C → Session T C → Prop where
  | receive (s : Session T C) (chunk : List UInt8) : Step s (s.receive chunk)
  | iterate (s : Session T C) : Step s s.iterate

/-- The sessions that begin with a new codec. -/
def Reachable (protocol : Protocol) (s : Session T C) : Prop :=
  Relation.ReflTransGen Step (new protocol) s

/-- A run in which these chunks arrive, with any iterations in between. -/
inductive Receives : Session T C → List (List UInt8) → Session T C → Prop where
  | done (s : Session T C) : Receives s [] s
  | receive {s s' : Session T C} {chunk : List UInt8} {chunks : List (List UInt8)} :
    Receives (s.receive chunk) chunks s' → Receives s (chunk :: chunks) s'
  | iterate {s s' : Session T C} {chunks : List (List UInt8)} :
    Receives s.iterate chunks s' → Receives s chunks s'

end Session

end Cuprate.Levin
