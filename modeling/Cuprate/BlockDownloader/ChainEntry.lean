import Cuprate.Types.Transaction

/-!
# Chain entries

The lists of block ids that peers tell us about (`p2p/p2p/src/block_downloader/chain_tracker.rs`). A
peer is known by its id in `P` and the handle of its connection in `H`.
-/

namespace Cuprate.BlockDownloader

open List

variable {P H : Type}

/-- A list of block ids, with the peer who told us about them. -/
structure ChainEntry (P H : Type) where
  ids : List Hash
  peer : P
  handle : H
deriving DecidableEq, Repr

/-- The ids of all entries, in order. -/
def allIds (entries : List (ChainEntry P H)) : List Hash := entries.flatMap fun e => e.ids

/-- The number of ids in all entries. -/
def amountOfHashes (entries : List (ChainEntry P H)) : Nat := (entries.map fun e => e.ids.length).sum

/-- The block ids of a list of entries, each with the peer who sent it. -/
def sentIds (entries : List (ChainEntry P H)) : List (Hash × P × H) :=
  entries.flatMap fun e => e.ids.map fun id => (id, e.peer, e.handle)

section Lemmas

variable (e : ChainEntry P H) (xs ys : List (ChainEntry P H))

@[simp] theorem allIds_nil : allIds ([] : List (ChainEntry P H)) = [] := rfl

@[simp] theorem allIds_cons : allIds (e :: xs) = e.ids ++ allIds xs := rfl

@[simp] theorem allIds_append : allIds (xs ++ ys) = allIds xs ++ allIds ys := flatMap_append ..

@[simp] theorem amountOfHashes_nil : amountOfHashes ([] : List (ChainEntry P H)) = 0 := rfl

@[simp] theorem amountOfHashes_cons : amountOfHashes (e :: xs) = e.ids.length + amountOfHashes xs := by
  simp [amountOfHashes]

@[simp] theorem amountOfHashes_append :
    amountOfHashes (xs ++ ys) = amountOfHashes xs + amountOfHashes ys := by
  simp [amountOfHashes]

@[simp] theorem amountOfHashes_reverse : amountOfHashes xs.reverse = amountOfHashes xs := by
  simp [amountOfHashes, sum_reverse]

@[simp] theorem sentIds_nil : sentIds ([] : List (ChainEntry P H)) = [] := rfl

@[simp] theorem sentIds_cons :
    sentIds (e :: xs) = (e.ids.map fun id => (id, e.peer, e.handle)) ++ sentIds xs := rfl

@[simp] theorem sentIds_append : sentIds (xs ++ ys) = sentIds xs ++ sentIds ys := flatMap_append ..

theorem length_allIds :
    (allIds xs).length = amountOfHashes xs := by simp [allIds, amountOfHashes, length_flatMap]

theorem map_fst_sentIds : (sentIds xs).map Prod.fst = allIds xs := by
  induction xs with
  | nil => rfl
  | cons e xs ih =>
    rw [sentIds_cons, map_append, ih, map_map, allIds_cons]
    exact congrArg (· ++ allIds xs) (map_id e.ids)

theorem allIds_split {xs ys zs : List (ChainEntry P H)} (h : sentIds ys ++ sentIds zs = sentIds xs) :
    allIds xs = allIds ys ++ allIds zs ∧ amountOfHashes xs = amountOfHashes ys + amountOfHashes zs := by
  have hids : allIds xs = allIds ys ++ allIds zs := by
    rw [← allIds_append, ← map_fst_sentIds, ← map_fst_sentIds, sentIds_append, h]
  refine ⟨hids, ?_⟩
  rw [← length_allIds, hids, length_append, length_allIds, length_allIds]

end Lemmas

end Cuprate.BlockDownloader
