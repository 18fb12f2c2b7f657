import Cuprate.Storage.Proofs.AddProofs

/-!
# Popping blocks

`pop_block` removes the transactions in the order they were added and always takes the highest index
of an amount; so while it runs the tables hold no content at all. In the end only the number of
outputs taken of each amount matters.
-/

namespace Cuprate.Storage

open Collections Finmap List Option

def preRctAmounts : Transaction → List UInt64
  | .v1 txPrefix _ => txPrefix.outputs.map fun out => out.amount.getD 0
  | .v2 .. => []

variable {f : UInt64 → List Output} {t : Tables} {l : List RctOutput} {env : StorageEnv}

theorem removeOutput_spec {amount : UInt64} (h : IsStacks t.numOutputs t.outputs f) (hne : f amount ≠ []) :
    ∃ num items, IsStacks num items (popStack f amount) ∧
      ((t.numOutputs.lookup amount).bind fun n => removeOutput (amount, n - 1) t) =
        some { t with numOutputs := num, outputs := items } := by
  have hnum : t.numOutputs.lookup amount = some (f amount).length := by rw [h.num, if_neg hne]
  refine ⟨_, _, h.pop hne, ?_⟩
  unfold removeOutput
  simp only [hnum, bind_some, map_some]

theorem removePreRctOutputs_spec (tx : Transaction) (hversion : tx.version = 1)
    (outs : List Cuprate.Output)
    (hsome : ∀ out ∈ outs, out.amount.isSome) (h : IsStacks t.numOutputs t.outputs f)
    (hcount : ∀ a, (outs.map fun out => out.amount.getD 0).count a ≤ (f a).length) :
    ∃ num items, IsStacks num items (popAll f (outs.map fun out => out.amount.getD 0)) ∧
      outs.foldlM (removeTxOutput tx) t = some { t with numOutputs := num, outputs := items } := by
  induction outs generalizing t f with
  | nil => exact ⟨t.numOutputs, t.outputs, h, rfl⟩
  | cons out outs ih =>
    obtain ⟨amount, hamount⟩ := isSome_iff_exists.mp (hsome out (.head _))
    simp only [map_cons, hamount, getD_some] at hcount ⊢
    have hne : f amount ≠ [] := by
      have := hcount amount
      rw [count_cons_self] at this
      exact length_pos_iff.mp (by omega)
    obtain ⟨num, items, hpop, hremove⟩ := removeOutput_spec h hne
    have hstep : removeTxOutput tx t out = some { t with numOutputs := num, outputs := items } := by
      unfold removeTxOutput
      simp only [hamount, hversion]
      rw [if_neg (by simp)]
      exact hremove
    have hcount' : ∀ a, (outs.map fun out => out.amount.getD 0).count a ≤
        (popStack f amount a).length := by
      intro a
      have hle := hcount a
      unfold popStack
      by_cases heq : amount = a
      · subst heq
        rw [count_cons_self] at hle
        rw [Function.update_self, length_dropLast]
        omega
      · rwa [Function.update_of_ne (Ne.symm heq), ← count_cons_of_ne heq]
    obtain ⟨num', items', hpop', hrest⟩ := ih
      (t := { t with numOutputs := num, outputs := items })
      (fun out' hmem => hsome out' (.tail _ hmem)) hpop hcount'
    refine ⟨num', items', hpop', ?_⟩
    rw [foldlM_cons, hstep]
    exact hrest

theorem removeRctOutputs_spec (tx : Transaction) (hversion : tx.version = 2) (outs : List Cuprate.Output)
    (hgen : ∀ out ∈ outs, out.amount.isSome → tx.hasGen) (h : t.rctOutputs.IsSeq l) :
    ∃ s : Table Nat RctOutput, s.IsSeq (l.take (l.length - outs.length)) ∧
      outs.foldlM (removeTxOutput tx) t = some { t with rctOutputs := s } := by
  induction outs generalizing t l with
  | nil => exact ⟨t.rctOutputs, by rwa [length_nil, Nat.sub_zero, take_length], rfl⟩
  | cons out outs ih =>
    have hstep : removeTxOutput tx t out = some { t with rctOutputs := t.rctOutputs.erase (l.length - 1) } := by
      unfold removeTxOutput removeLastRctOutput
      rw [h.len]
      cases hamount : out.amount with
      | none => rfl
      | some amount =>
        have := hgen out (.head _) (by rw [hamount]; rfl)
        exact if_pos ⟨this, hversion⟩
    obtain ⟨s, hs, hrest⟩ := ih (t := { t with rctOutputs := t.rctOutputs.erase (l.length - 1) })
      (fun out' hmem => hgen out' (.tail _ hmem)) h.erase_last
    refine ⟨s, ?_, ?_⟩
    · rw [length_dropLast, dropLast_eq_take, take_take] at hs
      rw [length_cons]
      have hmin : min (l.length - 1 - outs.length) (l.length - 1) = l.length - (outs.length + 1) := by omega
      rwa [hmin] at hs
    · rw [foldlM_cons, hstep]
      exact hrest

theorem removeTxOutputs_spec {tx : Transaction} (hamounts : AmountsMatchVersion tx)
    (hout : IsStacks t.numOutputs t.outputs f) (hcount : ∀ a, (preRctAmounts tx).count a ≤ (f a).length)
    (hrct : t.rctOutputs.IsSeq l) :
    ∃ num items s, IsStacks num items (popAll f (preRctAmounts tx)) ∧
      IsSeq s (l.take (l.length - rctCount tx)) ∧ tx.txPrefix.outputs.foldlM (removeTxOutput tx) t =
        some { t with numOutputs := num, outputs := items, rctOutputs := s } := by
  cases tx with
  | v1 txPrefix signatures =>
    obtain ⟨num, items, hpop, hremove⟩ := removePreRctOutputs_spec (.v1 txPrefix signatures) rfl
      txPrefix.outputs hamounts hout hcount
    refine ⟨num, items, t.rctOutputs, hpop, ?_, hremove⟩
    rwa [rctCount, Nat.sub_zero, take_length]
  | v2 txPrefix proofs =>
    obtain ⟨s, hs, hremove⟩ := removeRctOutputs_spec (.v2 txPrefix proofs) rfl
      txPrefix.outputs hamounts hrct
    exact ⟨t.numOutputs, t.outputs, s, hout, hs, hremove⟩

/-- The tables without the data of some transactions, given with their ids; the tables of outputs
are given too. -/
def withoutTxs (t : Tables) (xs : List (StoredTx × Nat)) (num : Table UInt64 Nat)
    (items : Table PreRctOutputId Output) (rct : Table Nat RctOutput) : Tables :=
  { t with
    txIds := t.txIds.eraseAll (xs.map (·.1.hash))
    txBlobs := t.txBlobs.eraseAll (xs.map (·.2))
    txHeights := t.txHeights.eraseAll (xs.map (·.2))
    txOutputs := t.txOutputs.eraseAll (xs.map (·.2))
    txUnlockTime := t.txUnlockTime.eraseAll (xs.map (·.2))
    keyImages := t.keyImages.eraseAll (xs.flatMap fun x => x.1.tx.keyImages)
    numOutputs := num
    outputs := items
    rctOutputs := rct }

theorem removeTx_spec {x : StoredTx} {txId : Nat} (hid : t.txIds.lookup x.hash = some txId)
    (hblob : t.txBlobs.lookup txId = some x.blob) (hread : env.readTx x.blob = some x.tx)
    (hout : IsStacks t.numOutputs t.outputs f) (hcount : ∀ a, (preRctAmounts x.tx).count a ≤ (f a).length)
    (hrct : t.rctOutputs.IsSeq l) :
    ∃ num items s, IsStacks num items (popAll f (preRctAmounts x.tx)) ∧
      IsSeq s (l.take (l.length - rctCount x.tx)) ∧
      removeTx env x.hash t = some (x.tx, withoutTxs t [(x, txId)] num items s) := by
  obtain ⟨num, items, s, hpop, hs, hremove⟩ := removeTxOutputs_spec
    (t := { removeTxData x.hash txId t with keyImages := t.keyImages.eraseAll x.tx.keyImages })
    (env.readTx_readable _ _ hread).amounts hout hcount hrct
  refine ⟨num, items, s, hpop, hs, ?_⟩
  have hkeys : [(x, txId)].flatMap (fun x => x.1.tx.keyImages) = x.tx.keyImages := flatMap_singleton ..
  unfold removeTx
  rw [hid]
  show (t.txBlobs.lookup txId).bind _ = _
  rw [hblob]
  show (env.readTx x.blob).bind _ = _
  rw [hread]
  show (List.foldlM (removeTxOutput x.tx)
    { removeTxData x.hash txId t with keyImages := t.keyImages.eraseAll x.tx.keyImages } _).bind _ = _
  rw [hremove]
  unfold withoutTxs
  rw [hkeys]
  rfl

/-- Removing transactions in any order: none of the lookups is affected by the removals before
it. -/
theorem removeTxs_spec (env : StorageEnv) (xs : List (StoredTx × Nat))
    (hids : ∀ x ∈ xs, t.txIds.lookup x.1.hash = some x.2)
      (hblobs : ∀ x ∈ xs, t.txBlobs.lookup x.2 = some x.1.blob)
    (hread : ∀ x ∈ xs, env.readTx x.1.blob = some x.1.tx) (hhashes : (xs.map (·.1.hash)).Nodup)
    (hnodup : (xs.map (·.2)).Nodup) (hout : IsStacks t.numOutputs t.outputs f)
    (hcount : ∀ a, (xs.flatMap fun x => preRctAmounts x.1.tx).count a ≤ (f a).length)
      (hrct : t.rctOutputs.IsSeq l) :
    ∃ num items s, IsStacks num items (popAll f (xs.flatMap fun x => preRctAmounts x.1.tx)) ∧
      IsSeq s (l.take (l.length - (xs.map fun x => rctCount x.1.tx).sum)) ∧
      removeTxs env (xs.map (·.1.hash)) t = some (xs.map (·.1.tx), withoutTxs t xs num items s) := by
  induction xs generalizing t f l with
  | nil => exact ⟨t.numOutputs, t.outputs, t.rctOutputs, hout, by simpa using hrct, rfl⟩
  | cons x xs ih =>
    rw [map_cons, nodup_cons] at hhashes hnodup
    simp only [flatMap_cons, count_append] at hcount
    obtain ⟨num, items, s, hpop, hs, hremove⟩ := removeTx_spec (hids x (.head _))
      (hblobs x (.head _)) (hread x (.head _)) hout
      (fun a => by have := hcount a; omega) hrct
    have hids' : ∀ x' ∈ xs, (withoutTxs t [x] num items s).txIds.lookup x'.1.hash = some x'.2 := by
      intro x' hmem
      have hne : x'.1.hash ≠ x.1.hash := fun heq =>
        hhashes.1 (mem_map.mpr ⟨x', hmem, heq⟩)
      show (t.txIds.eraseAll [x.1.hash]).lookup x'.1.hash = _
      rw [lookup_eraseAll, if_neg (fun hin => hne (mem_singleton.mp hin))]
      exact hids x' (.tail _ hmem)
    have hblobs' : ∀ x' ∈ xs, (withoutTxs t [x] num items s).txBlobs.lookup x'.2 = some x'.1.blob := by
      intro x' hmem
      have hne : x'.2 ≠ x.2 := fun heq => hnodup.1 (mem_map.mpr ⟨x', hmem, heq⟩)
      show (t.txBlobs.eraseAll [x.2]).lookup x'.2 = _
      rw [lookup_eraseAll, if_neg (fun hin => hne (mem_singleton.mp hin))]
      exact hblobs x' (.tail _ hmem)
    have hcount' : ∀ a, (xs.flatMap fun x => preRctAmounts x.1.tx).count a ≤
        (popAll f (preRctAmounts x.1.tx) a).length := by
      intro a
      have := hcount a
      rw [popAll_apply, length_take]
      omega
    obtain ⟨num', items', s', hpop', hs', hrest⟩ := ih hids' hblobs'
      (fun x' hmem => hread x' (.tail _ hmem)) hhashes.2 hnodup.2 hpop hcount' hs
    refine ⟨num', items', s', ?_, ?_, ?_⟩
    · rw [flatMap_cons]
      unfold popAll at hpop' ⊢
      rwa [foldl_append]
    · rw [take_take, length_take] at hs'
      rw [map_cons, sum_cons]
      have hmin : min (min (l.length - rctCount x.1.tx) l.length -
          (xs.map fun x => rctCount x.1.tx).sum) (l.length - rctCount x.1.tx) =
          l.length - (rctCount x.1.tx + (xs.map fun x => rctCount x.1.tx).sum) := by omega
      rwa [hmin] at hs'
    · rw [map_cons]
      unfold removeTxs
      rw [hremove]
      show (removeTxs env (xs.map (·.1.hash)) (withoutTxs t [x] num items s)).bind _ = _
      rw [hrest]
      unfold withoutTxs
      simp only [flatMap_cons, flatMap_nil, append_nil, eraseAll_append, map_cons, map_nil]
      rfl

theorem lastEntry_of_isSeq {V : Type} {t : Table Nat V} {l : List V} {v : V} (h : t.IsSeq (l ++ [v])) :
    lastEntry t = some (l.length, v) := by
  have hsup : t.keys.sup id = l.length := by
    rw [h.keys, length_append, length_singleton]
    refine le_antisymm (Finset.sup_le fun i hi => ?_) (Finset.le_sup (f := id) (by simp))
    exact Nat.lt_succ_iff.mp (Finset.mem_range.mp hi)
  have hlookup : t.lookup (t.keys.sup id) = some v := by rw [hsup, h, getElem?_concat_length]
  show (t.lookup (t.keys.sup id)).map (fun v => (t.keys.sup id, v)) = _
  rw [hlookup, hsup]
  rfl

theorem map_fst_preRctOutputsFrom (txId : Nat) (xs : List StoredTx) :
    (preRctOutputsFrom txId xs).map Prod.fst =
      (xs.zipIdx txId).flatMap fun x => preRctAmounts x.1.tx := by
  unfold preRctOutputsFrom
  rw [map_flatMap]
  refine flatMap_congr fun x _ => ?_
  obtain ⟨⟨tx, blob, hash, height⟩, id⟩ := x
  cases tx with
  | v1 txPrefix signatures =>
    show List.map _ (List.map _ _) = List.map _ _
    rw [List.map_map]
    rfl
  | v2 txPrefix proofs => rfl

/-- Removing the transactions of the top block. -/
theorem removeTxs_of_added {c c' : Contents} {xs : List StoredTx} (hadded : Added c xs c')
    (hread : ∀ x ∈ xs, env.readTx x.blob = some x.tx) (hids : t.txIds.IsIndex (c'.txs.map (·.hash)))
    (hblobs : t.txBlobs.IsSeq (c'.txs.map (·.blob))) (hout : IsStacks t.numOutputs t.outputs c'.outputs)
    (hrct : t.rctOutputs.IsSeq c'.rctOutputs) :
    ∃ num items s, IsStacks num items c.outputs ∧ IsSeq s c.rctOutputs ∧
      removeTxs env (xs.map (·.hash)) t =
        some (xs.map (·.tx), withoutTxs t (xs.zipIdx c.txs.length) num items s) := by
  have hget : ∀ p ∈ xs.zipIdx c.txs.length, c'.txs[p.2]? = some p.1 := by
    rintro ⟨x, i⟩ hmem
    obtain ⟨hle, hx⟩ := mk_mem_zipIdx_iff_le_and_getElem?_sub.mp hmem
    rw [hadded.txs, getElem?_append_right hle, hx]
  have hfst : (xs.zipIdx c.txs.length).map Prod.fst = xs := zipIdx_map_fst ..
  have hnodup : (xs.map (·.hash)).Nodup := by
    have h := hids.nodup
    rw [hadded.txs, map_append] at h
    exact (nodup_append.mp h).2.1
  obtain ⟨rct, hrcts, hlen, -⟩ := hadded.rctOutputs
  have hids' : ∀ p ∈ xs.zipIdx c.txs.length, t.txIds.lookup p.1.hash = some p.2 := by
    intro p hmem
    refine (hids _ _).mpr ?_
    rw [getElem?_map, hget p hmem]
    rfl
  have hblobs' : ∀ p ∈ xs.zipIdx c.txs.length, t.txBlobs.lookup p.2 = some p.1.blob := by
    intro p hmem
    rw [hblobs, getElem?_map, hget p hmem]
    rfl
  have hread' : ∀ p ∈ xs.zipIdx c.txs.length, env.readTx p.1.blob = some p.1.tx := by
    intro p hmem
    exact hread p.1 (hfst ▸ mem_map_of_mem hmem)
  have hhashes : ((xs.zipIdx c.txs.length).map (·.1.hash)).Nodup :=
      by rwa [map_zipIdx_fst fun x : StoredTx => x.hash]
  have hpositions : ((xs.zipIdx c.txs.length).map (·.2)).Nodup := by
    rw [zipIdx_map_snd]
    exact nodup_range'
  have hcount : ∀ a, ((xs.zipIdx c.txs.length).flatMap fun x => preRctAmounts x.1.tx).count a ≤
      (c'.outputs a).length := by
    intro a
    rw [← map_fst_preRctOutputsFrom, hadded.outputs, length_pushAll]
    omega
  have hspec := removeTxs_spec env (xs.zipIdx c.txs.length) hids' hblobs' hread' hhashes hpositions hout
    hcount hrct
  rw [← map_fst_preRctOutputsFrom, hadded.outputs, popAll_pushAll,
    map_zipIdx_fst fun x : StoredTx => x.hash, map_zipIdx_fst fun x : StoredTx => x.tx,
    map_zipIdx_fst fun x : StoredTx => rctCount x.tx, ← hlen, hrcts, length_append,
    Nat.add_sub_cancel, take_left] at hspec
  exact hspec

section WithoutTxs

variable {V : Type} {u : Table Nat V} {c c' : Contents} {xs : List StoredTx}

theorem Added.isSeq_eraseAll (hadded : Added c xs c') (g : StoredTx → V) (hu : u.IsSeq (c'.txs.map g)) :
    (u.eraseAll ((xs.zipIdx c.txs.length).map Prod.snd)).IsSeq (c.txs.map g) := by
  rw [hadded.txs, map_append] at hu
  refine hu.eraseAll ?_
  intro i
  rw [length_map, length_map]
  exact mem_map_snd_zipIdx xs c.txs.length i

theorem Added.lookup_eraseAll_bind (hadded : Added c xs c') (g : StoredTx → Option V)
    (hu : ∀ i, u.lookup i = c'.txs[i]?.bind g) (i : Nat) :
    (u.eraseAll ((xs.zipIdx c.txs.length).map Prod.snd)).lookup i = c.txs[i]?.bind g := by
  have hids := mem_map_snd_zipIdx xs c.txs.length i
  rw [lookup_eraseAll, hu i, hadded.txs]
  split
  · next hmem =>
    rw [getElem?_eq_none (hids.mp hmem).1]
    rfl
  · next hmem =>
    by_cases hlt : i < c.txs.length
    · rw [getElem?_append_left hlt]
    · have hle : (c.txs ++ xs).length ≤ i := by
        rw [length_append]
        by_contra hgt
        exact hmem (hids.mpr ⟨by omega, by omega⟩)
      rw [getElem?_eq_none hle, getElem?_eq_none (by omega)]

theorem isSeq_erase_block {blocks : List StoredBlock} {sb : StoredBlock} (g : StoredBlock → V)
    (hu : u.IsSeq ((blocks ++ [sb]).map g)) : (u.erase blocks.length).IsSeq (blocks.map g) := by
  have herase := hu.erase_last
  rwa [map_append, map_singleton, dropLast_concat, length_append, length_map,
    length_singleton, Nat.add_sub_cancel] at herase

/-- The tables without the top block hold the content below it. -/
theorem represents_withoutTxs {sb : StoredBlock} {num : Table UInt64 Nat}
    {items : Table PreRctOutputId Output}
    {s : Table Nat RctOutput} (h : Represents t { c' with blocks := c.blocks ++ [sb] })
      (hadded : Added c xs c')
    (hkeys : ∀ x ∈ xs, ∀ k ∈ x.tx.keyImages, k ∉ c.txs.flatMap fun x => x.tx.keyImages)
    (hout : IsStacks num items c.outputs) (hrct : s.IsSeq c.rctOutputs) :
    Represents (withoutTxs
      { t with
        blockInfos := t.blockInfos.erase c.blocks.length
        blockHeights := t.blockHeights.erase sb.info.blockHash
        blockHeaderBlobs := t.blockHeaderBlobs.erase c.blocks.length
        blockTxsHashes := t.blockTxsHashes.erase c.blocks.length }
      (xs.zipIdx c.txs.length) num items s) c := by
  obtain ⟨indices, hlen, hindices⟩ := hadded.txOutputs
  have hlength : c.txOutputs.length = c.txs.length := by
    have := h.txOutputs_length
    simp only [hindices, hadded.txs, length_append, hlen] at this
    exact Nat.add_right_cancel this
  exact
    { txIds := by
        have hi := h.txIds
        simp only [hadded.txs, map_append] at hi
        have herase := hi.eraseAll
        rwa [← map_zipIdx_fst (fun x : StoredTx => x.hash) xs c.txs.length] at herase
      txBlobs := hadded.isSeq_eraseAll _ h.txBlobs
      txHeights := hadded.isSeq_eraseAll _ h.txHeights
      txOutputs := by
        have ho := h.txOutputs
        simp only [hindices] at ho
        refine ho.eraseAll ?_
        intro i
        rw [hlength, hlen]
        exact mem_map_snd_zipIdx xs c.txs.length i
      txOutputs_length := hlength
      txUnlockTime := hadded.lookup_eraseAll_bind _ h.txUnlockTime
      keyImages := by
        have hk := h.keyImages
        simp only [hadded.txs, flatMap_append] at hk
        have herase := hk.eraseAll fun k hmem => by
          obtain ⟨x, hx, hk⟩ := mem_flatMap.mp hmem
          exact hkeys x hx k hk
        rwa [← flatMap_zipIdx_fst (fun x : StoredTx => x.tx.keyImages) xs c.txs.length] at herase
      outputs := hout
      rctOutputs := hrct
      blockInfos := isSeq_erase_block _ h.blockInfos
      blockHeaderBlobs := isSeq_erase_block _ h.blockHeaderBlobs
      blockTxsHashes := isSeq_erase_block _ h.blockTxsHashes
      blockHeights := by
        have hb := h.blockHeights
        simp only [map_append, map_singleton] at hb
        exact hb.eraseAll }

end WithoutTxs

theorem blockNew_of_minerInput (header : BlockHeader) {minerTx : Transaction} (hashes : List Hash)
    (h : ∃ height, minerTx.txPrefix.inputs = [.gen height]) :
    Block.new header minerTx hashes = some ⟨header, minerTx, hashes⟩ := by
  obtain ⟨height, hinputs⟩ := h
  unfold Block.new
  rw [hinputs]

/-- The top block is popped, and the tables then hold the content below it. -/
theorem popBlock_spec {b : VerifiedBlockInformation} {c c' : Contents} (h : Represents t c')
    (hvalid : ValidOn env c b) (hadd : c.addBlock env b = some c') :
    ∃ coins rctOuts txId t', Represents t' c ∧ popBlock env t =
        some (⟨b.height, blockInfoOf b coins rctOuts txId, b.block, b.txs.map (·.tx)⟩, t') := by
  obtain ⟨c₁, hc₁, rfl⟩ := map_eq_some_iff.mp hadd
  have hadded := added_of_foldlM hc₁
  have hwf := hvalid.wellFormed
  -- what is stored for the top block
  have hinfos := h.blockInfos
  simp only [map_append, map_singleton] at hinfos
  have hlast := lastEntry_of_isSeq hinfos
  rw [length_map] at hlast
  have hheader : t.blockHeaderBlobs.lookup c.blocks.length =
      some (env.serializeHeader b.block.header) := by
    rw [h.blockHeaderBlobs, getElem?_map, getElem?_concat_length]
    rfl
  have hhashes : t.blockTxsHashes.lookup c.blocks.length = some b.block.transactions := by
    rw [h.blockTxsHashes, getElem?_map, getElem?_concat_length]
    rfl
  have hminer : t.txBlobs.lookup c.txs.length = some (env.oxide.serializeTx b.block.minerTransaction) := by
    rw [h.txBlobs, getElem?_map]
    rw [hadded.txs, getElem?_append_right (le_rfl), Nat.sub_self]
    rfl
  obtain ⟨num, items, s, hout, hrct, hremove⟩ := removeTxs_of_added
    (t := { t with
      blockInfos := t.blockInfos.erase c.blocks.length
      blockHeights := t.blockHeights.erase b.blockHash
      blockHeaderBlobs := t.blockHeaderBlobs.erase c.blocks.length
      blockTxsHashes := t.blockTxsHashes.erase c.blocks.length })
    hadded hwf.readTx h.txIds h.txBlobs h.outputs h.rctOutputs
  have hrep := represents_withoutTxs h hadded hvalid.keyImages_new hout hrct
  -- the miner transaction is removed first, as the first transaction of the block
  unfold storedTxs at hremove
  rw [map_cons, map_cons, List.map_map, List.map_map] at hremove
  obtain ⟨⟨tx, t₁⟩, hremoveMiner, hremove⟩ := bind_eq_some_iff.mp hremove
  obtain ⟨⟨txs, t₂⟩, hremoveTxs, hremove⟩ := bind_eq_some_iff.mp hremove
  obtain ⟨hcons, rfl⟩ := Prod.mk.inj (some.inj hremove)
  obtain ⟨-, rfl⟩ := List.cons.inj hcons
  refine ⟨c.generatedCoins, c₁.rctOutputs.length, c.txs.length, _, hrep, ?_⟩
  rw [hvalid.height_eq]
  have hreadMiner : env.readTx (env.oxide.serializeTx b.block.minerTransaction) =
      some b.block.minerTransaction := hwf.readTx _ (.head _)
  have htransactions : b.block.transactions = b.txs.map fun tx => tx.txHash := hwf.transactions
  refine bind_eq_some_iff.mpr ⟨_, hlast, ?_⟩
  refine bind_eq_some_iff.mpr ⟨_, hheader, ?_⟩
  refine bind_eq_some_iff.mpr ⟨_, hhashes, ?_⟩
  refine bind_eq_some_iff.mpr ⟨_, hminer, ?_⟩
  refine bind_eq_some_iff.mpr ⟨_, hwf.readHeader, ?_⟩
  refine bind_eq_some_iff.mpr ⟨_, hreadMiner, ?_⟩
  refine bind_eq_some_iff.mpr ⟨_, blockNew_of_minerInput _ _ hwf.minerInput, ?_⟩
  refine bind_eq_some_iff.mpr ⟨_, hremoveMiner, ?_⟩
  have hremoveRest := (congrArg (removeTxs env · t₁) htransactions).trans hremoveTxs
  refine bind_eq_some_iff.mpr ⟨_, hremoveRest, ?_⟩
  rfl

end Cuprate.Storage
