import Cuprate.Consensus.AltBlock
import Mathlib.Data.List.Perm.Basic

/-!
# Putting the transactions of a block in order

`order_transactions` swaps the transactions of a list into the order of the block, and
`pull_ordered_transactions` takes them in this order from a map. Only the list may have transactions
of equal hashes.
-/

namespace Cuprate.Consensus

open Collections List Finmap

theorem swapFirst_perm {α : Type} (l : List α) (i : Nat) : (swapFirst l i).Perm l := by
  unfold swapFirst
  cases l with
  | nil => exact .refl _
  | cons first rest =>
    cases i with
    | zero => exact .refl _
    | succ i =>
      by_cases hi : i < rest.length
      · rw [getElem?_cons_succ, getElem?_eq_getElem hi]
        -- the two swapped elements, and the rest without the place
        have hplaced := (set_perm_cons_eraseIdx hi first).cons rest[i]
        exact hplaced.trans ((List.Perm.swap ..).trans ((getElem_cons_eraseIdx_perm hi).cons first))
      · rw [getElem?_cons_succ, getElem?_eq_none (by omega)]

variable {txs : Table Hash TransactionVerificationData} {txHash : Hash}

theorem swapFirst_findIdx? {txs : List TransactionVerificationData} {i : Nat}
    (h : txs.findIdx? (·.txHash == txHash) = some i) :
    ∃ tx rest, swapFirst txs i = tx :: rest ∧ tx.txHash = txHash ∧ (tx :: rest).Perm txs := by
  obtain ⟨hi, hhash, -⟩ := findIdx?_eq_some_iff_getElem.mp h
  have hperm := swapFirst_perm txs i
  cases txs with
  | nil => cases h
  | cons first rest =>
    have hswap : swapFirst (first :: rest) i = (first :: rest)[i] ::
        ((first :: rest).set i first).tail := by
      unfold swapFirst
      rw [getElem?_eq_getElem hi]
    rw [hswap] at hperm
    exact ⟨_, _, hswap, beq_iff_eq.mp hhash, hperm⟩

/-- The loop succeeds on the transactions that are named, and puts them in order. -/
theorem orderTransactionsLoop_spec (txHashes : List Hash) :
    ∀ txs : List TransactionVerificationData, txHashes.length = txs.length →
      ((orderTransactionsLoop txHashes txs).isSome ↔ (txs.map (·.txHash)).Perm txHashes) ∧
        ∀ ordered, orderTransactionsLoop txHashes txs = some ordered →
          ordered.map (·.txHash) = txHashes ∧ ordered.Perm txs := by
  induction txHashes with
  | nil =>
    intro txs hlength
    obtain rfl := eq_nil_of_length_eq_zero hlength.symm
    refine ⟨iff_of_true rfl .nil, fun ordered h => ?_⟩
    cases h
    exact ⟨rfl, .refl _⟩
  | cons txHash txHashes ih =>
    intro txs hlength
    rw [orderTransactionsLoop]
    cases hfind : txs.findIdx? (·.txHash == txHash) with
    | none =>
      -- the hash is named, but no transaction has it
      refine ⟨iff_of_false nofun fun hperm => ?_, nofun⟩
      obtain ⟨tx, hmem, hhash⟩ := mem_map.mp (hperm.mem_iff.mpr (.head _))
      have hnone := findIdx?_eq_none_iff.mp hfind tx hmem
      rw [hhash, beq_self_eq_true] at hnone
      cases hnone
    | some i =>
      obtain ⟨tx, rest, hswap, rfl, hperm⟩ := swapFirst_findIdx? hfind
      have hrest : txHashes.length = rest.length := by
        have := hperm.length_eq
        rw [length_cons] at this hlength
        omega
      obtain ⟨hsome, hordered⟩ := ih rest hrest
      rw [Option.bind_eq_bind, Option.bind_some, hswap]
      dsimp only
      constructor
      · rw [Option.isSome_map, hsome, ← (hperm.map _).congr_left, map_cons, perm_cons]
      · intro ordered h
        obtain ⟨tail, htail, rfl⟩ := Option.map_eq_some_iff.mp h
        obtain ⟨hhashes, htailPerm⟩ := hordered tail htail
        exact ⟨by rw [map_cons, hhashes], (htailPerm.cons tx).trans hperm⟩

theorem orderTransactions_spec (block : Block) (txs : List TransactionVerificationData) :
    ((orderTransactions block txs).isSome ↔ (txs.map (·.txHash)).Perm block.transactions) ∧
      ∀ ordered, orderTransactions block txs = some ordered →
        ordered.map (·.txHash) = block.transactions ∧ ordered.Perm txs := by
  unfold orderTransactions
  by_cases hlength : block.transactions.length = txs.length
  · rw [if_neg (not_not_intro hlength)]
    exact orderTransactionsLoop_spec _ _ hlength
  · rw [if_pos hlength]
    refine ⟨iff_of_false nofun fun hperm => hlength ?_, nofun⟩
    rw [← hperm.length_eq, length_map]

def byHash (txs : List TransactionVerificationData) : Table Hash TransactionVerificationData :=
  fromList (txs.map fun tx => (tx.txHash, tx))

theorem mem_byHash {txs : List TransactionVerificationData} :
    txHash ∈ byHash txs ↔ txHash ∈ txs.map (·.txHash) := by
  rw [byHash, mem_fromList, map_map]
  rfl

theorem lookup_byHash {txs : List TransactionVerificationData} {tx : TransactionVerificationData}
    (h : (byHash txs).lookup txHash = some tx) : tx ∈ txs ∧ tx.txHash = txHash := by
  obtain ⟨tx', hmem, heq⟩ := mem_map.mp (mem_of_lookup_fromList h)
  cases heq
  exact ⟨hmem, rfl⟩

theorem pullOrderedTransactions_eq_ok_iff {block : Block} {ordered : List TransactionVerificationData} :
    pullOrderedTransactions block txs = .ok ordered ↔ block.transactions.length = txs.len ∧
      block.transactions.Nodup ∧
        List.Forall₂ (fun txHash tx => txs.lookup txHash = some tx) block.transactions ordered := by
  rw [← takeAll_eq_some_iff]
  unfold pullOrderedTransactions
  by_cases hlength : block.transactions.length = txs.len
  · rw [if_neg (not_not_intro hlength)]
    cases txs.takeAll block.transactions with
    | none => exact iff_of_false nofun nofun
    | some taken => exact ⟨fun h => ⟨hlength, congrArg some (Except.ok.inj h)⟩, fun h =>
        congrArg _ (Option.some.inj h.2)⟩
  · rw [if_pos hlength]
    exact iff_of_false nofun fun h => hlength h.1

theorem length_eq_len_iff {hashes : List Hash} (hnodup : hashes.Nodup)
    (hmem : ∀ txHash ∈ hashes, txHash ∈ txs) :
    hashes.length = txs.len ↔ ∀ txHash ∈ txs, txHash ∈ hashes := by
  have hsubset : hashes.toFinset ⊆ txs.keys := fun txHash h => mem_keys.mpr (hmem _ (mem_toFinset.mp h))
  rw [len, ← toFinset_card_of_nodup hnodup]
  constructor
  · intro hcard txHash h
    rw [← mem_toFinset, Finset.eq_of_subset_of_card_le hsubset hcard.ge]
    exact mem_keys.mpr h
  · intro h
    refine congrArg Finset.card (hsubset.antisymm fun txHash hkey => ?_)
    exact mem_toFinset.mpr (h _ (mem_keys.mp hkey))

theorem exists_forall₂_lookup {hashes : List Hash} :
    (∃ ordered, List.Forall₂ (fun txHash tx => txs.lookup txHash = some tx) hashes ordered) ↔
      ∀ txHash ∈ hashes, txHash ∈ txs := by
  constructor
  · rintro ⟨ordered, h⟩
    have hmem : List.Forall₂ (fun txHash tx => txHash ∈ txs ∧ txs.lookup txHash = some tx)
        hashes ordered :=
      h.imp fun txHash tx hlookup => ⟨mem_iff.mpr ⟨tx, hlookup⟩, hlookup⟩
    exact ((forall₂_and_left _ _).mp hmem).1
  · intro h
    induction hashes with
    | nil => exact ⟨[], .nil⟩
    | cons txHash hashes ih =>
      obtain ⟨tx, hlookup⟩ := mem_iff.mp (h txHash (.head _))
      obtain ⟨ordered, hrest⟩ := ih fun txHash hmem => h txHash (.tail _ hmem)
      exact ⟨tx :: ordered, .cons hlookup hrest⟩

/-- The transactions are put in order exactly if their hashes are those of the block; none is lost
or repeated. From a map they are taken exactly if every listed hash can be taken once and nothing is
left, with the same result. -/
theorem orderTransactions_and_pull_spec (block : Block) (txs : List TransactionVerificationData) :
    ((orderTransactions block txs).isSome ↔ (txs.map (·.txHash)).Perm block.transactions) ∧
      (∀ ordered, orderTransactions block txs = some ordered →
        ordered.map (·.txHash) = block.transactions ∧ ordered.Perm txs) ∧
      ((∃ ordered, pullOrderedTransactions block (byHash txs) = .ok ordered) ↔
        (block.transactions.Nodup ∧ ∀ txHash ∈ block.transactions, txHash ∈ byHash txs) ∧
          ∀ txHash ∈ byHash txs, txHash ∈ block.transactions) ∧
      ∀ pulled, pullOrderedTransactions block (byHash txs) = .ok pulled →
        pulled.map (·.txHash) = block.transactions ∧
          ∀ ordered, orderTransactions block txs = some ordered → ordered = pulled := by
  obtain ⟨hsome, hordered⟩ := orderTransactions_spec block txs
  refine ⟨hsome, hordered, ?_, fun pulled hpulled => ?_⟩
  · simp only [pullOrderedTransactions_eq_ok_iff, exists_and_left, exists_forall₂_lookup]
    constructor
    · rintro ⟨hlength, hnodup, hmem⟩
      exact ⟨⟨hnodup, hmem⟩, (length_eq_len_iff hnodup hmem).mp hlength⟩
    · rintro ⟨⟨hnodup, hmem⟩, hall⟩
      exact ⟨(length_eq_len_iff hnodup hmem).mpr hall, hnodup, hmem⟩
  · obtain ⟨hlength, hnodup, hlookup⟩ := pullOrderedTransactions_eq_ok_iff.mp hpulled
    have hhashes : List.Forall₂ (· = ·) block.transactions (pulled.map (·.txHash)) :=
      forall₂_map_right_iff.mpr (hlookup.imp fun _ _ h => (lookup_byHash h).2.symm)
    rw [forall₂_eq_eq_eq] at hhashes
    refine ⟨hhashes.symm, fun ordered h => ?_⟩
    obtain ⟨horder, hperm⟩ := hordered ordered h
    -- no two transactions have the same hash, so each is found under its own
    have hkeys : ((txs.map fun tx => (tx.txHash, tx)).map Prod.fst).Nodup := by
      rw [map_map]
      exact (hsome.mp (h ▸ rfl)).nodup_iff.mpr hnodup
    have hfound : List.Forall₂ (fun txHash tx => (byHash txs).lookup txHash = some tx)
        block.transactions ordered := by
      rw [← horder, forall₂_map_left_iff, forall₂_same]
      intro tx hmem
      exact lookup_fromList_of_mem hkeys (mem_map.mpr ⟨tx, hperm.mem_iff.mp hmem, rfl⟩)
    exact Except.ok.inj ((pullOrderedTransactions_eq_ok_iff.mpr
      ⟨hlength, hnodup, hfound⟩).symm.trans hpulled)

def namedTx (txHash : Hash) : TransactionVerificationData :=
  { tx := .v2 ⟨.none, [], [], []⟩ none, version := .ringCT, txBlob := [], txWeight := 0, fee := 0,
    txHash := txHash, cachedVerificationState := .notVerified }

/-- The listed hash can be taken from the map, but another transaction would be left. -/
theorem pullOrderedTransactions_left_over :
    let block : Block := ⟨⟨1, 1, 0, 0, 0⟩, .v2 ⟨.none, [], [], []⟩ none, [1]⟩
    (block.transactions.Nodup ∧ ∀ txHash ∈ block.transactions, txHash ∈ byHash [namedTx 1, namedTx 2]) ∧
      ¬ ∃ ordered, pullOrderedTransactions block (byHash [namedTx 1, namedTx 2]) = .ok ordered := by
  intro block
  have hlisted : ∀ txHash ∈ block.transactions, txHash ∈ byHash [namedTx 1, namedTx 2] := by
    intro txHash hmem
    rw [mem_byHash, mem_singleton.mp hmem]
    exact .head _
  refine ⟨⟨nodup_singleton _, hlisted⟩, ?_⟩
  rintro ⟨ordered, h⟩
  have hall := (length_eq_len_iff (nodup_singleton _) hlisted).mp
      (pullOrderedTransactions_eq_ok_iff.mp h).1
  have hsecond : (2 : Hash) ∈ byHash [namedTx 1, namedTx 2] := mem_byHash.mpr (by decide)
  exact absurd (mem_singleton.mp (hall 2 hsecond)) (by decide)

end Cuprate.Consensus
