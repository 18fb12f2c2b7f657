import Cuprate.Levin.Message

/-!
# A small levin body

The command and body types of `net/levin/tests/fragmented_message.rs`: the body of a message is its
length as a `u64`, followed by its bytes. The results about levin codecs are evaluated on them.
-/

namespace Cuprate.Levin

open Cuprate.Stream

structure TestCommands where
  value : UInt32
deriving DecidableEq, Repr

instance : LevinCommand TestCommands where
  fromU32 := TestCommands.mk
  toU32 := TestCommands.value
  toU32_fromU32 := fun _ => rfl
  bucketSizeLimit := fun _ => 0xFFFFFFFFFFFFFFFF
  isHandshake := fun command => command.value == 1

inductive TestBody where
  | bytes (len : UInt64) (bytes : List UInt8)
deriving DecidableEq, Repr

instance : LevinBody TestBody TestCommands where
  decodeMessage body _ _ :=
    let size := leValue (body.take 8)
    -- reading past the end of the body panics
    if body.length < 8 + size then .error (.bodyDecodingError "out of bounds")
    else .ok (.bytes (.ofNat size) ((body.drop 8).take size))
  encode
    | .bytes len bytes, builder => .ok { builder with
        command := some ⟨1⟩
        ty := some .notification
        returnCode := some 0
        body := some (leBytes 8 len.toNat ++ bytes) }

def emptyBucket : Bucket TestCommands where
  header := {
    signature := Protocol.default.signature
    size := 8
    haveToReturnData := false
    command := ⟨1⟩
    returnCode := 0
    flags := .REQUEST
    protocolVersion := 1 }
  body := List.replicate 8 0

end Cuprate.Levin
