import Cuprate.Helper.Num

/-!
# The sanity check of a sent transaction

`tx_sanity_check` of `send_raw_transaction` (`binaries/cuprated/src/rpc/handlers/other_json.rs`) in
a release build, where sums wrap around. A panic is `none`.
-/

namespace Cuprate.Rpc

/-- The sums of the offsets; an empty list fails an assertion. -/
def relativeOutputOffsetsToAbsolute : List UInt64 → Option (List UInt64)
  | [] => none
  | offset :: offsets => some (offsets.scanl (· + ·) offset)

/-- The loop over the inputs, with `rct_indices` and `n_indices`. -/
def rctIndices (indices : List UInt64) (n : Nat) : List Input → Option (Except String (List UInt64 × Nat))
  | [] => some (.ok (indices, n))
  | .gen _ :: _ => some (.error "Transaction is coinbase")
  | .toKey none _ _ :: inputs => rctIndices indices n inputs
  | .toKey (some _) keyOffsets _ :: inputs => do
    let absolute ← relativeOutputOffsetsToAbsolute keyOffsets
    rctIndices (indices ++ absolute) (n + keyOffsets.length) inputs

/-- The check of a transaction before it is sent; `none` is a panic. -/
def txSanityCheck (tx : Transaction) (rctOutsAvailable : UInt64) : Option (Except String Unit) :=
  if tx.txPrefix.inputs = [] then some (.error "No inputs")
  else (rctIndices [] 0 tx.txPrefix.inputs).bind fun
    | .error e => some (.error e)
    | .ok (indices, n) =>
      let len := indices.length
      if n ≤ 10 ∨ rctOutsAvailable < 10000 then some (.ok ())
      else if len < n * 8 / 10 then
        some (.error s!"amount of unique indices is too low (amount of rct indices is {len} out of total {n} indices.")
      else (Helper.median indices).map fun median =>
        if median < rctOutsAvailable * 6 / 10 then
          .error (s!"median offset index is too low (median is {median} out of total {rctOutsAvailable} offsets). " ++
            "Transactions should contain a higher fraction of recent outputs.")
        else .ok ()

end Cuprate.Rpc
