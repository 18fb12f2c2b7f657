import Mathlib.Tactic

/-!
# JSON-RPC responses

The (de)serialization of `Response` (`rpc/json-rpc/src/response.rs`). A JSON object is the list of
its key-value pairs.
-/

namespace Cuprate.Rpc.JsonRpc

/-- A `serde_json` value. A number is an integer, or a float with the given bits. -/
inductive Value where
  | null
  | bool (b : Bool)
  | number (n : Int)
  | float (bits : UInt64)
  | string (s : String)
  | array (values : List Value)
  | object (pairs : List (String × Value))

/-- Why reading fails. -/
inductive SerdeError where
  | invalidValue (expected : String)
  | duplicateField (field : String)
  | missingField (field : String)

/-- Types that are written as and read from JSON values. -/
class Serde (T : Type) where
  serialize : T → Value
  deserialize : Value → Except SerdeError T

open Serde SerdeError

instance : Serde Value := ⟨id, .ok⟩

/-- The version marker `"2.0"`. -/
structure Version where

instance : Serde Version where
  serialize _ := .string "2.0"
  deserialize
    | .string "2.0" => .ok ⟨⟩
    | _ => .error (invalidValue "Identifier must be the exact string: \"2.0\"")

/-- The id of a request. -/
inductive Id where
  | null
  | num (n : UInt64)
  | str (s : String)

/-- The enum is untagged. -/
instance : Serde Id where
  serialize
    | .null => .null
    | .num n => .number n.toNat
    | .str s => .string s
  deserialize
    | .null => .ok .null
    | .string s => .ok (.str s)
    | .number n =>
      if 0 ≤ n ∧ n < 2 ^ 64 then .ok (.num (.ofNat n.toNat)) else .error (invalidValue "untagged enum Id")
    | _ => .error (invalidValue "untagged enum Id")

/-- The codes of JSON-RPC errors. -/
inductive ErrorCode where
  | parseError | invalidRequest | methodNotFound | invalidParams | internalError
  | serverError (code : Int32)

namespace ErrorCode

/-- The variant for a code. -/
def fromCode (code : Int32) : ErrorCode :=
  if code = -32700 then parseError
  else if code = -32600 then invalidRequest
  else if code = -32601 then methodNotFound
  else if code = -32602 then invalidParams
  else if code = -32603 then internalError
  else serverError code

/-- The number of a code. -/
def code : ErrorCode → Int32
  | parseError => -32700
  | invalidRequest => -32600
  | methodNotFound => -32601
  | invalidParams => -32602
  | internalError => -32603
  | serverError code => code

end ErrorCode

instance : Serde ErrorCode where
  serialize c := .number c.code.toInt
  deserialize
    | .number n =>
      if -2 ^ 31 ≤ n ∧ n < 2 ^ 31 then .ok (.fromCode (.ofInt n)) else .error (invalidValue "i32")
    | _ => .error (invalidValue "i32")

instance : Serde String where
  serialize := .string
  deserialize
    | .string s => .ok s
    | _ => .error (invalidValue "a string")

/-- A missing or a null value is `None`. -/
instance : Serde (Option Value) where
  serialize data := data.getD .null
  deserialize
    | .null => .ok none
    | value => .ok (some value)

/-- The error of a response. -/
structure ErrorObject where
  code : ErrorCode
  message : String
  data : Option Value

/-- Reads a field of a struct for which `Deserialize` is derived. -/
def readField {A : Type} [Serde A] (field : String) (pairs : List (String × Value))
    (missing : Except SerdeError A) : Except SerdeError A :=
  match pairs.filter (·.1 == field) with
  | [] => missing
  | [p] => deserialize p.2
  | _ => .error (duplicateField field)

instance : Serde ErrorObject where
  serialize e :=
    .object ([("code", serialize e.code), ("message", serialize e.message)] ++
      -- `skip_serializing_if = "Option::is_none"`
      e.data.toList.map fun data => ("data", data))
  deserialize
    | .object pairs => do
      let code ← readField "code" pairs (.error (missingField "code"))
      let message ← readField "message" pairs (.error (missingField "message"))
      let data ← readField "data" pairs (.ok none)
      .ok ⟨code, message, data⟩
    | _ => .error (invalidValue "struct ErrorObject")

/-- A response with its version, id and payload. -/
@[ext]
structure Response (T : Type) where
  jsonrpc : Version
  id : Id
  payload : Except ErrorObject T

/-- What `visit_map` has read so far. -/
structure Fields (T : Type) where
  jsonrpc : Option Version
  payload : Option (Except ErrorObject T)
  id : Option Id

variable {T : Type} [Serde T]

/-- The pairs a response is written as. -/
def Response.serialize (r : Response T) : List (String × Value) :=
  [("jsonrpc", Serde.serialize r.jsonrpc), ("id", Serde.serialize r.id),
    match r.payload with
    | .ok t => ("result", Serde.serialize t)
    | .error e => ("error", Serde.serialize e)]

/-- The response, if all parts were found. -/
def finish : Fields T → Except SerdeError (Response T)
  | ⟨some jsonrpc, some payload, some id⟩ => .ok ⟨jsonrpc, id, payload⟩
  | ⟨none, none, none⟩ => .error (missingField "jsonrpc + id + result/error")
  | ⟨none, _, _⟩ => .error (missingField "jsonrpc")
  | ⟨_, _, none⟩ => .error (missingField "id")
  | ⟨_, none, _⟩ => .error (missingField "result/error")

end Cuprate.Rpc.JsonRpc
