import Cuprate.Rpc.JsonRpc

/-!
# What the visitor of a response accepts

A response is read back from its serialization, unless its error object has a form that its
serialization does not keep.
-/

namespace Cuprate.Rpc.JsonRpc

open Serde

variable {T : Type} [Serde T]

/-- The code is not a `ServerError` with the code of another error, and the data is not null. -/
def ErrorObject.WellFormed (e : ErrorObject) :
    Prop := ErrorCode.fromCode e.code.code = e.code ∧ e.data ≠ some .null

end Cuprate.Rpc.JsonRpc
