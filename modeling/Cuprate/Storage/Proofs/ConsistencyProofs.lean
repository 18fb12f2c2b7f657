import Cuprate.Storage.Proofs.RunProofs

/-!
# Every run leads to consistent tables

The content of a chain is consistent, which is shown block by block; the tables of a run hold the
content of its chain.
-/

namespace Cuprate.Storage

open Collections Finmap List Option

theorem length_stackIndices {A V : Type} [DecidableEq A] (f : A → List V) (l : List (A × V)) :
    (stackIndices f l).length = l.length := by
  induction l generalizing f with
  | nil => rfl
  | cons p l ih =>
    show (stackIndices (pushStack f p.1 p.2) l).length + 1 = _
    rw [ih, length_cons]

theorem getElem?_pushAll {A V : Type} [DecidableEq A]
    {f : A → List V} {a : A} {k : Nat} {v : V} (l : List (A × V))
    (h : (f a)[k]? = some v) : (pushAll f l a)[k]? = some v := by
  obtain ⟨hlt, -⟩ := List.getElem?_eq_some_iff.mp h
  rw [pushAll_apply, List.getElem?_append_left hlt, h]

theorem getElem?_stackIndices {A V : Type} [DecidableEq A]
    {f : A → List V} {l : List (A × V)} {j k : Nat} {p : A × V}
    (hp : l[j]? = some p) (hk : (stackIndices f l)[j]? = some k) : (pushAll f l p.1)[k]? = some p.2 := by
  induction l generalizing f j with
  | nil => cases hp
  | cons q l ih =>
    show (pushAll (pushStack f q.1 q.2) l p.1)[k]? = some p.2
    cases j with
    | zero =>
      obtain rfl : q = p := some.inj hp
      obtain rfl : (f q.1).length = k := some.inj hk
      refine getElem?_pushAll l ?_
      rw [pushStack, Function.update_self, getElem?_concat_length]
    | succ j => exact ih hp hk

variable {chain : List VerifiedBlockInformation} {env : StorageEnv} {c c' : Contents} {x : StoredTx}

theorem getElem?_rctOutputsFrom {tx : Transaction} {proofs : Option RctProofs} {txId height i j : Nat}
    {outs : List Cuprate.Output} {rct : List RctOutput} {out : Cuprate.Output}
    (h : rctOutputsFrom env tx proofs txId height i outs = some rct) (hout : outs[j]? = some out) :
    ∃ commitment, commitmentOf env tx proofs (i + j) out = some commitment ∧
      rct[j]? = some (rctOutput tx txId height out commitment) := by
  obtain ⟨rfl, hsome⟩ := rctOutputsFrom_eq h
  have hget : (outs.zipIdx i)[j]? = some (out, i + j) := by rw [getElem?_zipIdx, hout, Option.map_some]
  obtain ⟨commitment, hcommitment⟩ := Option.isSome_iff_exists.mp (hsome _ (mem_of_getElem? hget))
  refine ⟨commitment, hcommitment, ?_⟩
  rw [getElem?_map, hget, Option.map_some, hcommitment]
  rfl

def Contents.outputAt (c : Contents) (id : PreRctOutputId) : Option Output := (c.outputs id.1)[id.2]?

theorem IndexesOutputs.mono {outputs outputs' : PreRctOutputId → Option Output} {rct rct' : Nat →
    Option RctOutput}
    {txId : Nat} {indices : List Nat} (h : IndexesOutputs env outputs rct x txId indices)
    (hout : ∀ id o, outputs id = some o → outputs' id = some o)
      (hrct : ∀ k o, rct k = some o → rct' k = some o) :
    IndexesOutputs env outputs' rct' x txId indices := by
  refine ⟨h.1, fun j out k hj hk => ?_⟩
  have hstored := h.2 j out k hj hk
  obtain ⟨tx, blob, hash, height⟩ := x
  cases tx with
  | v1 txPrefix signatures => exact hout _ _ hstored
  | v2 txPrefix proofs =>
    obtain ⟨commitment, hcommitment, hget⟩ := hstored
    exact ⟨commitment, hcommitment, hrct _ _ hget⟩

/-- A transaction that is added gets the indices of its outputs. -/
theorem indexesOutputs_addTx (h : c.addTx env x = some c') :
    IndexesOutputs env c'.outputAt (c'.rctOutputs[·]?) x c.txs.length (c.indices x) := by
  obtain ⟨rct, hrct, rfl⟩ := map_eq_some_iff.mp h
  obtain ⟨tx, blob, hash, height⟩ := x
  cases tx with
  | v1 txPrefix signatures =>
    refine ⟨?_, fun j out k hj hk => ?_⟩
    · show (stackIndices _ _).length = _
      rw [length_stackIndices]
      exact length_map ..
    · have hp : (preRctOutputsOf ⟨.v1 txPrefix signatures, blob, hash, height⟩ c.txs.length)[j]? =
          some (out.amount.getD 0, preRctOutput (.v1 txPrefix signatures) c.txs.length height out) := by
        have hj : txPrefix.outputs[j]? = some out := hj
        show (List.map _ _)[j]? = _
        rw [getElem?_map, hj]
        rfl
      exact getElem?_stackIndices hp hk
  | v2 txPrefix proofs =>
    refine ⟨length_range', fun j out k hj hk => ?_⟩
    have hj : txPrefix.outputs[j]? = some out := hj
    obtain ⟨hlt, -⟩ := List.getElem?_eq_some_iff.mp hj
    have hk : (List.range' c.rctOutputs.length txPrefix.outputs.length)[j]? = some k := hk
    rw [getElem?_range' hlt, one_mul] at hk
    cases hk
    obtain ⟨commitment, hcommitment, hget⟩ := getElem?_rctOutputsFrom hrct hj
    rw [zero_add] at hcommitment
    refine ⟨commitment, hcommitment, ?_⟩
    show (c.rctOutputs ++ rct)[c.rctOutputs.length + j]? = _
    rw [getElem?_append_right (Nat.le_add_right ..), Nat.add_sub_cancel_left, hget]

/-- The indices of every transaction are those of its outputs. -/
structure Indexed (env : StorageEnv) (c : Contents) : Prop where
  length_eq : c.txOutputs.length = c.txs.length
  indexes : ∀ i x indices, c.txs[i]? = some x → c.txOutputs[i]? = some indices →
    IndexesOutputs env c.outputAt (c.rctOutputs[·]?) x i indices

theorem Indexed.addTx (h : Indexed env c) (hadd : c.addTx env x = some c') : Indexed env c' := by
  have hnew := indexesOutputs_addTx hadd
  obtain ⟨rct, -, rfl⟩ := map_eq_some_iff.mp hadd
  refine ⟨?_, fun i x' indices hx hindices => ?_⟩
  · show (c.txOutputs ++ [_]).length = (c.txs ++ [_]).length
    rw [length_append, length_append, h.length_eq]
    rfl
  · have hx : (c.txs ++ [x])[i]? = some x' := hx
    have hindices : (c.txOutputs ++ [c.indices x])[i]? = some indices := hindices
    by_cases hi : i = c.txs.length
    · subst hi
      rw [getElem?_concat_length] at hx
      rw [← h.length_eq, getElem?_concat_length] at hindices
      cases hx
      cases hindices
      exact hnew
    · rw [getElem?_concat_of_ne hi] at hx
      rw [getElem?_concat_of_ne (h.length_eq ▸ hi)] at hindices
      refine (h.indexes i x' indices hx hindices).mono (fun id o hget => ?_) fun k o hget => ?_
      · exact getElem?_pushAll _ hget
      · obtain ⟨hlt, -⟩ := List.getElem?_eq_some_iff.mp hget
        rw [List.getElem?_append_left hlt, hget]

/-! ## The content of a chain -/

theorem chainTxs_concat (env : StorageEnv) (chain : List VerifiedBlockInformation)
    (b : VerifiedBlockInformation) :
    chainTxs env (chain ++ [b]) = chainTxs env chain ++ storedTxs env b := by
  unfold chainTxs
  rw [flatMap_append, flatMap_singleton]

theorem chainRctCount_concat (env : StorageEnv) (chain : List VerifiedBlockInformation)
    (b : VerifiedBlockInformation) :
    chainRctCount env (chain ++ [b]) =
      chainRctCount env chain + ((storedTxs env b).map fun x => rctCount x.tx).sum := by
  unfold chainRctCount
  rw [chainTxs_concat, map_append, sum_append]

theorem height_of_mem_storedTxs {b : VerifiedBlockInformation} (h : x ∈ storedTxs env b) :
    x.height = b.height := by
  rcases mem_cons.mp h with rfl | h
  · rfl
  · obtain ⟨tx, -, rfl⟩ := mem_map.mp h
    rfl

/-- The RingCT outputs up to a block are those with the indices below the count of the block. -/
def CountsRctOutputs (rctOutputs : List RctOutput) (height count : Nat) : Prop :=
  count ≤ rctOutputs.length ∧ ∀ k out, rctOutputs[k]? = some out → (out.height ≤ height ↔ k < count)

theorem CountsRctOutputs.append {l rct : List RctOutput} {height count : Nat}
    (h : CountsRctOutputs l height count)
    (hrct : ∀ out ∈ rct, height < out.height) :
    CountsRctOutputs (l ++ rct) height count := by
  refine ⟨?_, fun k out hget => ?_⟩
  · rw [length_append]
    exact Nat.le_add_right_of_le h.1
  · by_cases hlt : k < l.length
    · rw [List.getElem?_append_left hlt] at hget
      exact h.2 k out hget
    · rw [getElem?_append_right (not_lt.mp hlt)] at hget
      have hheight := hrct out (mem_of_getElem? hget)
      have hcount := h.1
      constructor <;> intro <;> omega

/-- What the content of a chain has to do with its blocks. -/
structure ContentsOf (env : StorageEnv) (chain : List VerifiedBlockInformation) (c : Contents) : Prop where
  txs : c.txs = chainTxs env chain
  blockHashes : c.blocks.map (·.info.blockHash) = chain.map (·.blockHash)
  rctLength : c.rctOutputs.length = chainRctCount env chain
  rctHeights : ∀ out ∈ c.rctOutputs, out.height < chain.length
  cumulativeRctOuts : ∀ height block, c.blocks[height]? = some block →
    block.info.cumulativeRctOuts = chainRctCount env (chain.take (height + 1))
  rctOutputs_below : ∀ height block, c.blocks[height]? = some block →
    CountsRctOutputs c.rctOutputs height block.info.cumulativeRctOuts
  indexed : Indexed env c

theorem ContentsOf.blocks_length (h : ContentsOf env chain c) : c.blocks.length = chain.length := by
  have := congrArg List.length h.blockHashes
  rwa [length_map, length_map] at this

theorem ContentsOf.addBlock {b : VerifiedBlockInformation} (h : ContentsOf env chain c)
    (hheight : b.height = c.blocks.length) (hadd : c.addBlock env b = some c') :
    ContentsOf env (chain ++ [b]) c' := by
  obtain ⟨c₁, hc₁, rfl⟩ := map_eq_some_iff.mp hadd
  have hadded := added_of_foldlM hc₁
  have hblocks := h.blocks_length
  obtain ⟨rct, hrcts, hrctLength, hheights⟩ := hadded.rctOutputs
  have hrctHeight : ∀ out ∈ rct, out.height = chain.length := by
    intro out hmem
    obtain ⟨x, hx, hout⟩ := hheights out hmem
    rw [hout, height_of_mem_storedTxs hx, hheight, hblocks]
  have hlength : c₁.rctOutputs.length = chainRctCount env (chain ++ [b]) := by
    rw [hrcts, length_append, h.rctLength, hrctLength, chainRctCount_concat]
  have hrctHeights : ∀ out ∈ c₁.rctOutputs, out.height < (chain ++ [b]).length := by
    intro out hmem
    rw [hrcts] at hmem
    rw [length_append, length_singleton]
    rcases mem_append.mp hmem with hmem | hmem
    · exact Nat.lt_succ_of_lt (h.rctHeights out hmem)
    · exact Nat.lt_succ_of_le (hrctHeight out hmem).le
  -- a block of the new content is the new one or one of those before
  have hcases : ∀ height block, (c.blocks ++ [storedBlock env b c c₁.rctOutputs.length])[height]? =
      some block → (height = chain.length ∧ block.info.cumulativeRctOuts = c₁.rctOutputs.length) ∨
        (height < chain.length ∧ c.blocks[height]? = some block) := by
    intro height block hget
    by_cases heq : height = c.blocks.length
    · subst heq
      rw [getElem?_concat_length] at hget
      cases hget
      exact .inl ⟨hblocks, rfl⟩
    · rw [getElem?_concat_of_ne heq] at hget
      obtain ⟨hlt, -⟩ := List.getElem?_eq_some_iff.mp hget
      exact .inr ⟨hblocks ▸ hlt, hget⟩
  refine
    { txs := by rw [chainTxs_concat, ← h.txs]; exact hadded.txs
      blockHashes := ?_
      rctLength := hlength
      rctHeights := hrctHeights
      cumulativeRctOuts := fun height block hget => ?_
      rctOutputs_below := fun height block hget => ?_
      indexed := ?_ }
  · show (c.blocks ++ [_]).map _ = _
    rw [map_append, map_append, h.blockHashes]
    rfl
  · rcases hcases height block hget with ⟨rfl, hcount⟩ | ⟨hlt, hget⟩
    · rw [hcount, hlength, take_of_length_le]
      rw [length_append, length_singleton]
    · rw [h.cumulativeRctOuts height block hget, take_append_of_le_length hlt]
  · rcases hcases height block hget with ⟨rfl, hcount⟩ | ⟨hlt, hget⟩
    · rw [hcount]
      refine ⟨le_rfl, fun k out hk => iff_of_true ?_ ?_⟩
      · have := hrctHeights out (mem_of_getElem? hk)
        rw [length_append, length_singleton] at this
        exact Nat.le_of_lt_succ this
      · exact (List.getElem?_eq_some_iff.mp hk).1
    · show CountsRctOutputs c₁.rctOutputs _ _
      rw [hrcts]
      exact (h.rctOutputs_below height block hget).append fun out hmem => by rwa [hrctHeight out hmem]
  · have hindexed := foldlM_addTx_keeps (fun _ _ _ => Indexed.addTx) h.indexed hc₁
    exact ⟨hindexed.length_eq, hindexed.indexes⟩

theorem ChainContents.contentsOf (h : ChainContents env chain c) : ContentsOf env chain c := by
  induction h with
  | empty =>
    exact
      { txs := rfl
        blockHashes := rfl
        rctLength := rfl
        rctHeights := fun out hmem => absurd hmem not_mem_nil
        cumulativeRctOuts := fun height block hget => absurd hget (by simp [Contents.empty])
        rctOutputs_below := fun height block hget => absurd hget (by simp [Contents.empty])
        indexed := ⟨rfl, fun i x indices hx => absurd hx (by simp [Contents.empty])⟩ }
  | add hchain hvalid hadd ih => exact ih.addBlock hvalid.height_eq hadd

/-- The tables that a run of added and popped blocks leads to are those of the blocks that were
added and not popped. -/
theorem run_consistent (env : StorageEnv) (chain : List VerifiedBlockInformation) (t : Tables)
    (hrun : Run env chain t) : Consistent env chain t := by
  obtain ⟨c, hchain, h⟩ := hrun.contents
  have hc := hchain.contentsOf
  have hinfo : ∀ height info, t.blockInfos.lookup height = some info →
      ∃ block, c.blocks[height]? = some block ∧ block.info = info := by
    intro height info hget
    rw [h.blockInfos, getElem?_map] at hget
    exact map_eq_some_iff.mp hget
  have houtputs : t.outputs.lookup = c.outputAt := funext fun id => h.outputs.items id.1 id.2
  have hrctOutputs : t.rctOutputs.lookup = (c.rctOutputs[·]?) := funext h.rctOutputs
  exact
    { txIds := by
        intro hash i
        rw [h.txIds, hc.txs, getElem?_map]
      txBlobs := by
        intro i
        rw [h.txBlobs, hc.txs, getElem?_map]
      txHeights := by
        intro i
        rw [h.txHeights, hc.txs, getElem?_map]
      txOutputs_isSome := by
        intro i
        rw [← hc.txs, ← h.txOutputs_length]
        exact h.txOutputs.isSome_lookup i
      txOutputs := by
        intro i x indices hx hindices
        rw [← hc.txs] at hx
        rw [h.txOutputs] at hindices
        rw [houtputs, hrctOutputs]
        exact hc.indexed.indexes i x indices hx hindices
      outputs := h.outputs.isSome_lookup
      rctOutputs := by
        intro k
        rw [h.rctOutputs.len]
        exact h.rctOutputs.isSome_lookup k
      cumulativeRctOuts := by
        intro height info hget
        obtain ⟨block, hblock, rfl⟩ := hinfo height info hget
        exact hc.cumulativeRctOuts height block hblock
      rctOutputs_below := by
        intro height info hget
        obtain ⟨block, hblock, rfl⟩ := hinfo height info hget
        have hbelow := hc.rctOutputs_below height block hblock
        refine ⟨h.rctOutputs.len ▸ hbelow.1, fun k out hk => hbelow.2 k out ?_⟩
        rwa [← h.rctOutputs]
      keyImages := by
        intro k
        rw [h.keyImages, hc.txs]
        exact mem_flatMap
      blockHeights := by
        intro hash height
        rw [h.blockHeights, h.blockInfos, getElem?_map, getElem?_map, Option.map_map]
        rfl
      blockInfos := by
        intro height
        rw [h.blockInfos, ← getElem?_map, ← getElem?_map, List.map_map, ← hc.blockHashes]
        rfl
      chainHeight_eq := by rw [chainHeight, h.blockHeights.len, length_map, hc.blocks_length] }

theorem run_consistent_mixedBlock :
    ∃ t, addBlock mixedEnv mixedBlock .empty = some t ∧ Consistent mixedEnv [mixedBlock] t := by
  obtain ⟨c, t, -, hadd, -⟩ := addBlock_spec represents_empty mixedBlock_validToAdd
  exact ⟨t, hadd, run_consistent mixedEnv [mixedBlock] t (.add .empty mixedBlock_validToAdd hadd)⟩

end Cuprate.Storage
