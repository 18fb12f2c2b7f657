import Cuprate.Storage.Proofs.OutputCacheProofs

/-!
# When the output cache agrees with the database

An output cache that follows the chain answers as one that is requested anew, up to the commitments
of a miner transaction with RingCT proofs: the database computes them from the amounts.
-/

namespace Cuprate.Storage

open Collections Finmap List Option Prod

/-- What is known of the transactions of verified blocks. -/
structure VerifiedTx (x : StoredTx) : Prop where
  readable : Readable x.tx
  commitments : HasCommitments x.tx
  nonZero : NonZeroOutputs x

variable {bs : List VerifiedBlockInformation} {env : StorageEnv} {t' t : Tables}

theorem Extends.verifiedTx (h : Extends env t bs t') : ∀ x ∈ chainTxs env bs, VerifiedTx x := by
  induction h with
  | nil t =>
    intro x hmem
    cases hmem
  | cons hvalid hverified hadd hrest ih =>
    intro x hmem
    rcases mem_append.mp hmem with hmem | hmem
    · exact ⟨hvalid.wellFormed.readable x hmem, hvalid.wellFormed.hasCommitments x hmem,
        hverified.nonZero x hmem⟩
    · exact ih x hmem

theorem Extends.cache (hext : Extends env t bs t')
    {requested : Table UInt64 (Finset Nat)} {cache : OutputCache}
    {f : UInt64 → List OutputOnChain} (h : Answers cache requested f) :
    ∃ cache', addBlocksToCache env bs cache = some cache' ∧
      Answers cache' requested (pushAll f (newOutputs (cachedCommitment env) (chainTxs env bs))) := by
  induction hext generalizing cache f with
  | nil t => exact ⟨cache, rfl, h⟩
  | @cons t t₁ t' b bs hvalid hverified hadd hrest ih =>
    obtain ⟨cache₁, hcache₁, h₁⟩ := h.addBlock hvalid.wellFormed hverified
    obtain ⟨cache', hcache', h'⟩ := ih h₁
    refine ⟨cache', bind_eq_some_iff.mpr ⟨cache₁, hcache₁, hcache'⟩, ?_⟩
    unfold chainTxs newOutputs at h' ⊢
    rwa [flatMap_cons, flatMap_append, pushAll_append]

theorem Extends.shows (hext : Extends env t bs t') {c : Contents} {preRct : UInt64 → List OutputOnChain}
    {rct : List OutputOnChain} (h : Represents t c) (hs : Shows env c preRct rct) :
    ∃ c' preRct' rct', Represents t' c' ∧ Shows env c' preRct' rct' ∧
      byAmount preRct' rct' =
        pushAll (byAmount preRct rct) (newOutputs (storedCommitment env) (chainTxs env bs)) := by
  induction hext generalizing c preRct rct with
  | nil t => exact ⟨c, preRct, rct, h, hs, rfl⟩
  | @cons t t₁ t' b bs hvalid hverified hadd hrest ih =>
    obtain ⟨c₁, t₁', hc₁, hadd₁, h₁⟩ := addBlock_spec h hvalid
    obtain rfl := some.inj (hadd₁.symm.trans hadd)
    obtain ⟨preRct₁, rct₁, hs₁, hnew₁⟩ := hs.addBlock hvalid.wellFormed hc₁
    obtain ⟨c', preRct', rct', h', hs', hnew⟩ := ih h₁ hs₁
    refine ⟨c', preRct', rct', h', hs', ?_⟩
    rw [hnew, hnew₁ hverified.nonZero]
    unfold chainTxs newOutputs
    rw [flatMap_cons, flatMap_append, pushAll_append]

/-! ## Comparing the two -/

theorem sameAnswers_iff {cache cache' : OutputCache} {requested : Table UInt64 (Finset Nat)}
    {f f' : UInt64 → List OutputOnChain} (h : Answers cache requested f) (h' : Answers cache' requested f')
    (hlength : ∀ a, (f a).length = (f' a).length) :
    SameAnswers requested cache cache' ↔ ∀ a indices, requested.lookup a = some indices →
      ∀ i ∈ indices, (f a)[i]? = (f' a)[i]? := by
  refine forall_congr' fun a => forall_congr' fun indices => imp_congr_right fun ha => ?_
  have hnumber : cache.numberOutsWithAmount a = cache'.numberOutsWithAmount a := by
    unfold OutputCache.numberOutsWithAmount
    rw [h.number, h'.number, hlength]
  rw [and_iff_right hnumber]
  refine forall_congr' fun i => imp_congr_right fun hi => ?_
  rw [h.cached, h'.cached, ha, bind_some, bind_some, if_pos hi, if_pos hi]

section
variable (commitment : Transaction → Nat → Cuprate.Output → CompressedPoint)
include commitment

theorem map_fst_newOutputs (xs : List StoredTx) : (newOutputs commitment xs).map fst =
      xs.flatMap fun x => x.tx.txPrefix.outputs.map (numberedAmount x.tx) := by
  unfold newOutputs
  rw [map_flatMap]
  refine flatMap_congr fun x _ => ?_
  unfold onChainOutputs onChainOutputsFrom
  rw [List.map_map]
  exact map_zipIdx_fst (numberedAmount x.tx) _ _

theorem filter_newOutputs (xs : List StoredTx) (a : UInt64) :
    ((newOutputs commitment xs).filter fun p => p.1 = a).map snd =
      xs.flatMap fun x => ((onChainOutputs commitment x).filter fun p => p.1 = a).map snd := by
  unfold newOutputs
  rw [filter_flatMap, map_flatMap]

theorem filter_onChainOutputs_zero {x : StoredTx} (hnonZero : NonZeroOutputs x) :
    ((onChainOutputs commitment x).filter fun p => p.1 = 0).map snd =
      (rctPositions x).map fun p => onChainOutput p.1 p.2.1 (commitment p.1.tx p.2.2 p.2.1) := by
  obtain ⟨tx, blob, hash, height⟩ := x
  cases tx with
  | v1 txPrefix signatures =>
    rw [filter_eq_nil_iff.mpr]
    · rfl
    · intro p hmem
      obtain ⟨q, hq, rfl⟩ := mem_map.mp hmem
      have hne := hnonZero rfl q.1 (fst_mem_of_mem_zipIdx hq)
      exact fun heq => hne (of_decide_eq_true heq)
  | v2 txPrefix proofs =>
    rw [filter_eq_self.mpr]
    · show List.map _ (List.map _ _) = List.map _ (List.map _ _)
      rw [List.map_map, List.map_map]
      rfl
    · intro p hmem
      obtain ⟨q, -, rfl⟩ := mem_map.mp hmem
      rfl

end

theorem cachedCommitment_v1 (env : StorageEnv) {txPrefix : TransactionPrefix} {signatures : List UInt8}
    {out : Cuprate.Output} {j : Nat} (hout : txPrefix.outputs[j]? = some out) :
    cachedCommitment env (.v1 txPrefix signatures) j out = storedCommitment env
      (.v1 txPrefix signatures) j out := by
  show ((txPrefix.outputs[j]?.map fun out => env.computeZeroCommitment (out.amount.getD 0)).getD 0) = _
  rw [hout]
  rfl

theorem filter_onChainOutputs_of_ne (env : StorageEnv) (x : StoredTx) {a : UInt64} (ha : a ≠ 0) :
    (onChainOutputs (cachedCommitment env) x).filter (fun p => p.1 = a) =
      (onChainOutputs (storedCommitment env) x).filter fun p => p.1 = a := by
  obtain ⟨tx, blob, hash, height⟩ := x
  cases tx with
  | v1 txPrefix signatures =>
    refine congrArg _ (map_congr_left fun p hmem => ?_)
    have hout : txPrefix.outputs[p.2]? = some p.1 := mem_zipIdx_iff_getElem?.mp hmem
    exact congrArg (fun commitment => (_, onChainOutput _ _ commitment)) (cachedCommitment_v1 env hout)
  | v2 txPrefix proofs =>
    rw [filter_eq_nil_iff.mpr, filter_eq_nil_iff.mpr]
    all_goals
      intro p hmem
      obtain ⟨q, -, rfl⟩ := mem_map.mp hmem
      exact fun heq => ha (of_decide_eq_true heq).symm

/-- The cache and the database give the same commitment to an output, unless a miner transaction has
another one in its proofs. -/
theorem cachedCommitment_eq_iff {tx : Transaction} (hread : Readable tx) (hcommitments : HasCommitments tx)
    {out : Cuprate.Output} {j : Nat} (hout : tx.txPrefix.outputs[j]? = some out) :
    cachedCommitment env tx j out = storedCommitment env tx j out ↔ CommitsToAmount env tx out j := by
  rcases tx with ⟨txPrefix, signatures⟩ | ⟨txPrefix, _ | proofs⟩
  · exact iff_of_true (cachedCommitment_v1 env hout) trivial
  · refine iff_of_true ?_ trivial
    have hgen : (Transaction.v2 txPrefix none).hasGen = true := by
      rcases hcommitments with hgen | ⟨proofs, hproofs, -⟩
      · exact hgen
      · cases hproofs
    have hout : txPrefix.outputs[j]? = some out := hout
    show (Option.map _ txPrefix.outputs[j]?).getD 0 = (commitmentOf env _ _ j out).getD 0
    unfold commitmentOf
    rw [hout, if_pos hgen]
    rfl
  · have hlength : proofs.base.commitments.length = txPrefix.outputs.length := hread.commitments
    obtain ⟨hlt, -⟩ := List.getElem?_eq_some_iff.mp hout
    obtain ⟨commitment, hcommitment⟩ : ∃ commitment, proofs.base.commitments[j]? = some commitment :=
      ⟨_, getElem?_eq_getElem (hlength ▸ hlt)⟩
    show proofs.base.commitments[j]?.getD 0 = (commitmentOf env _ _ j out).getD 0 ↔
      (Transaction.hasGen _ → proofs.base.commitments[j]? = _)
    unfold commitmentOf
    rw [hcommitment]
    by_cases hgen : (Transaction.v2 txPrefix (some proofs)).hasGen = true
    · rw [if_pos hgen]
      exact ⟨fun heq _ => congrArg some heq, fun h => some.inj (h hgen)⟩
    · rw [if_neg hgen]
      refine iff_of_true ?_ fun h => absurd h hgen
      show _ = proofs.base.commitments[j]?.getD 0
      rw [hcommitment]

theorem getElem?_append_map_eq_iff {α β : Type} (F : List β) (P : List α) (u v : α → β) (i : Nat) :
    (F ++ P.map u)[i]? = (F ++ P.map v)[i]? ↔ ∀ p, F.length ≤ i → P[i - F.length]? = some p →
      u p = v p := by
  by_cases hlt : i < F.length
  · rw [getElem?_append_left hlt, getElem?_append_left hlt]
    exact iff_of_true rfl fun p hle => absurd hle (Nat.not_le.mpr hlt)
  · have hle := Nat.le_of_not_lt hlt
    rw [getElem?_append_right hle, getElem?_append_right hle, getElem?_map, getElem?_map]
    cases P[i - F.length]? with
    | none => exact iff_of_true rfl fun p _ h => absurd h (some_ne_none _).symm
    | some p =>
      refine ⟨fun h p' _ hp => ?_, fun h => congrArg some (h p hle rfl)⟩
      cases hp
      exact some.inj h

/-- What the cache and the database answer for a new RingCT output differs in the commitment
only. -/
theorem getElem?_pushAll_zero_eq_iff {xs : List StoredTx} (hxs : ∀ x ∈ xs, VerifiedTx x)
    (F : UInt64 → List OutputOnChain) (i : Nat) :
      (pushAll F (newOutputs (cachedCommitment env) xs) 0)[i]? =
        (pushAll F (newOutputs (storedCommitment env) xs) 0)[i]? ↔
      ∀ x out j, (F 0).length ≤ i → (xs.flatMap rctPositions)[i - (F 0).length]? = some (x, out, j) →
        CommitsToAmount env x.tx out j := by
  have hzero : ∀ commitment : Transaction → Nat → Cuprate.Output → CompressedPoint,
      ((newOutputs commitment xs).filter fun p => p.1 = 0).map Prod.snd =
        (xs.flatMap rctPositions).map fun p =>
          onChainOutput p.1 p.2.1 (commitment p.1.tx p.2.2 p.2.1) := by
    intro commitment
    rw [filter_newOutputs, map_flatMap]
    exact flatMap_congr fun x hx => filter_onChainOutputs_zero commitment (hxs x hx).nonZero
  have hposition : ∀ x out j, (x, out, j) ∈ xs.flatMap rctPositions →
      VerifiedTx x ∧ x.tx.txPrefix.outputs[j]? = some out := by
    intro x out j hmem
    obtain ⟨x', hx', hmem⟩ := mem_flatMap.mp hmem
    unfold rctPositions at hmem
    split at hmem
    · cases hmem
    · next txPrefix proofs htx =>
      obtain ⟨q, hq, heq⟩ := mem_map.mp hmem
      obtain ⟨rfl, rfl, rfl⟩ : x' = x ∧ q.1 = out ∧ q.2 = j := by simpa only [Prod.mk.injEq] using heq
      rw [htx]
      exact ⟨hxs x' hx', mem_zipIdx_iff_getElem?.mp hq⟩
  rw [pushAll_apply, pushAll_apply, hzero, hzero, getElem?_append_map_eq_iff]
  constructor
  · intro h x out j hle hget
    obtain ⟨hx, hout⟩ := hposition x out j (mem_of_getElem? hget)
    refine (cachedCommitment_eq_iff hx.readable hx.commitments hout).mp ?_
    exact congrArg OutputOnChain.commitment (h (x, out, j) hle hget)
  · rintro h ⟨x, out, j⟩ hle hget
    obtain ⟨hx, hout⟩ := hposition x out j (mem_of_getElem? hget)
    refine congrArg (onChainOutput x out) ?_
    exact (cachedCommitment_eq_iff hx.readable hx.commitments hout).mpr (h x out j hle hget)

/-- A cache that is requested before verified blocks and updated with them answers as one that is
requested after them, exactly if no requested RingCT output of their miner transactions has another
commitment in the proofs than the one computed from the amount. -/
theorem outputCache_sameAnswers_iff (env : StorageEnv) (chain : List VerifiedBlockInformation) (t : Tables)
    (hrun : Run env chain t) (bs : List VerifiedBlockInformation) (t' : Tables)
      (hext : Extends env t bs t')
    (requested : Table UInt64 (Finset Nat)) :
    (∃ cache, addBlocksToCache env bs (outputs env requested t) = some cache ∧
        SameAnswers requested cache (outputs env requested t')) ↔
      ∀ indices, requested.lookup 0 = some indices → ∀ i ∈ indices, ∀ x out j, t.rctOutputs.len ≤ i →
        ((chainTxs env bs).flatMap rctPositions)[i - t.rctOutputs.len]? = some (x, out, j) →
          CommitsToAmount env x.tx out j := by
  obtain ⟨c, hchain, h⟩ := hrun.contents
  obtain ⟨preRct, rct, hs⟩ := hchain.shows
  obtain ⟨c', preRct', rct', h', hs', hnew⟩ := hext.shows h hs
  obtain ⟨cache, hcache, hanswers⟩ := hext.cache (hs.answers h requested)
  have hanswers' := hs'.answers h' requested
  rw [hnew] at hanswers'
  have hlength : ∀ a, (pushAll (byAmount preRct rct)
      (newOutputs (cachedCommitment env) (chainTxs env bs)) a).length =
      (pushAll (byAmount preRct rct) (newOutputs (storedCommitment env) (chainTxs env bs)) a).length := by
    intro a
    rw [length_pushAll, length_pushAll, map_fst_newOutputs, map_fst_newOutputs]
  have hlen : t.rctOutputs.len = (byAmount preRct rct 0).length := hs.amountOfOuts h 0
  have hsome : (∃ cache, addBlocksToCache env bs (outputs env requested t) = some cache ∧
      SameAnswers requested cache (outputs env requested t')) ↔
      SameAnswers requested cache (outputs env requested t') := by
    constructor
    · rintro ⟨cache', hcache', hsame⟩
      obtain rfl := some.inj (hcache'.symm.trans hcache)
      exact hsame
    · exact fun hsame => ⟨cache, hcache, hsame⟩
  rw [hsome, sameAnswers_iff hanswers hanswers' hlength, hlen]
  constructor
  · intro hsame indices hindices i hi
    exact (getElem?_pushAll_zero_eq_iff hext.verifiedTx _ i).mp (hsame 0 indices hindices i hi)
  · intro hcommits a indices hindices i hi
    by_cases ha : a = 0
    · subst ha
      exact (getElem?_pushAll_zero_eq_iff hext.verifiedTx _ i).mpr (hcommits indices hindices i hi)
    · rw [pushAll_apply, pushAll_apply, filter_newOutputs, filter_newOutputs]
      have hsame : ∀ x ∈ chainTxs env bs,
          ((onChainOutputs (cachedCommitment env) x).filter fun p => p.1 = a).map snd =
            ((onChainOutputs (storedCommitment env) x).filter fun p => p.1 = a).map snd :=
        fun x _ => congrArg _ (filter_onChainOutputs_of_ne env x ha)
      rw [flatMap_congr hsame]

/-- Outputs of both kinds, of which some are not on the chain. -/
def mixedRequest : Table UInt64 (Finset Nat) := (insert 3 {0, 1, 5} ∅ : Table _ _).insert 0 {0, 2}

theorem mixedBlock_verifiedOutputs : VerifiedOutputs mixedEnv mixedBlock where
  nonZero := by decide
  noGen := by decide

theorem mixedBlock_commitsToAmount : ∀ x ∈ chainTxs mixedEnv [mixedBlock], ∀ p ∈ rctPositions x,
    CommitsToAmount mixedEnv p.1.tx p.2.1 p.2.2 := by
  intro x hx p hp
  have hx : x = ⟨mixedMinerTx, [0], 40, 0⟩ ∨ x = ⟨mixedTxV1, [1], 41, 0⟩ ∨
      x = ⟨mixedTxV2, [2], 42, 0⟩ := by
    simpa [chainTxs, storedTxs, mixedBlock, mixedEnv] using hx
  rcases hx with rfl | rfl | rfl
  · obtain ⟨q, -, rfl⟩ := mem_map.mp hp
    trivial
  · cases hp
  · obtain ⟨q, -, rfl⟩ := mem_map.mp hp
    exact fun hgen : mixedTxV2.hasGen = true => absurd hgen (by decide)

theorem outputCache_sameAnswers_mixedBlock : ∃ t' cache, addBlock mixedEnv mixedBlock .empty = some t' ∧
      addBlocksToCache mixedEnv [mixedBlock] (outputs mixedEnv mixedRequest .empty) = some cache ∧
      SameAnswers mixedRequest cache (outputs mixedEnv mixedRequest t') := by
  obtain ⟨c, t', -, hadd, -⟩ := addBlock_spec represents_empty mixedBlock_validToAdd
  have hext : Extends mixedEnv .empty [mixedBlock] t' :=
    .cons mixedBlock_validToAdd mixedBlock_verifiedOutputs hadd (.nil t')
  obtain ⟨cache, hcache, hsame⟩ := (outputCache_sameAnswers_iff mixedEnv [] .empty .empty [mixedBlock] t'
    hext mixedRequest).mpr fun indices _ i _ x out j _ hget => by
      obtain ⟨x', hx', hmem⟩ := mem_flatMap.mp (mem_of_getElem? hget)
      exact mixedBlock_commitsToAmount x' hx' (x, out, j) hmem
  exact ⟨t', cache, hadd, hcache, hsame⟩

/-! ## A miner transaction with RingCT proofs -/

def genesisMinerTx : Transaction :=
  .v1 ⟨.block 60, [.gen 0], [⟨some 17592186044415, 10, none⟩], []⟩ []

/-- The miner transaction of the second block, of version 2 and with proofs. -/
def rctMinerTx : Transaction :=
  .v2 ⟨.block 61, [.gen 1], [⟨some 17592169267200, 11, none⟩], []⟩ (some ⟨⟨0, [20], []⟩, []⟩)

def rctMinerReadTx : List UInt8 → Option Transaction
  | [0] => some genesisMinerTx
  | [1] => some rctMinerTx
  | _ => none

theorem rctMinerReadTx_readable (bytes : List UInt8) (tx : Transaction)
    (h : rctMinerReadTx bytes = some tx) : Readable tx := by
  unfold rctMinerReadTx at h
  split at h
  · cases h
    refine ⟨?_, ⟨by decide, by decide⟩, trivial⟩
    show ∀ out ∈ genesisMinerTx.txPrefix.outputs, out.amount.isSome
    decide
  · cases h
    exact ⟨fun out _ _ => rfl, ⟨by decide, by decide⟩, rfl⟩
  · cases h

def secondHeader : BlockHeader := ⟨1, 1, 60, 30, 0⟩

def rctMinerEnv : StorageEnv where
  oxide :=
    { serializeBlock := fun _ => []
      hashBlock := fun block => if block.header = mixedHeader then 30 else 31
      serializePowHash := fun _ => []
      serializeTx := fun tx => if tx = genesisMinerTx then [0] else [1]
      hashTx := fun tx => if tx = genesisMinerTx then 40 else 41
      txWeight := fun _ => 80 }
  serializeHeader := fun header => if header = mixedHeader then [0] else [1]
  readHeader := fun bytes => if bytes = [0] then some mixedHeader else some secondHeader
  readTx := rctMinerReadTx
  computeZeroCommitment := fun amount => BitVec.ofNat 256 amount.toNat
  readTx_readable := rctMinerReadTx_readable

def minerBlock (header : BlockHeader) (minerTx : Transaction) (blockHash : Hash) (height : Nat)
    (generatedCoins : UInt64) : VerifiedBlockInformation where
  block := ⟨header, minerTx, []⟩
  blockBlob := []
  txs := []
  blockHash := blockHash
  powHash := 0
  height := height
  generatedCoins := generatedCoins
  weight := 80
  longTermWeight := 80
  cumulativeDifficulty := height + 1

def genesisBlock : VerifiedBlockInformation :=
  minerBlock mixedHeader genesisMinerTx 30 0 17592186044415

def rctMinerBlock : VerifiedBlockInformation :=
  minerBlock secondHeader rctMinerTx 31 1 17592169267200

def genesisTables : Tables := (addBlock rctMinerEnv genesisBlock .empty).getD .empty

theorem genesisBlock_validToAdd : ValidToAdd rctMinerEnv .empty genesisBlock :=
  .first ⟨rfl, by decide, ⟨0, rfl⟩, rfl, nofun⟩ rfl (by decide) (by decide)

theorem addBlock_genesisBlock : addBlock rctMinerEnv genesisBlock .empty = some genesisTables := by
  obtain ⟨c, t, -, hadd, -⟩ := addBlock_spec represents_empty genesisBlock_validToAdd
  unfold genesisTables
  rw [hadd]
  rfl

theorem rctMinerBlock_wellFormed : WellFormed rctMinerEnv rctMinerBlock where
  readHeader := by decide
  readTx := by decide
  minerInput := ⟨1, rfl⟩
  transactions := rfl
  commitments := nofun

theorem genesisTables_chainHeight : chainHeight genesisTables = 1 := by decide +kernel

theorem genesisTables_txIds : genesisTables.txIds.lookup 41 = none := by decide +kernel

theorem genesisTables_blockHeights : genesisTables.blockHeights.lookup 31 = none := by decide +kernel

theorem storedTxs_rctMinerBlock : storedTxs rctMinerEnv rctMinerBlock = [⟨rctMinerTx, [1], 41, 1⟩] := rfl

theorem rctMinerBlock_validToAdd : ValidToAdd rctMinerEnv genesisTables rctMinerBlock where
  wellFormed := rctMinerBlock_wellFormed
  height_eq := genesisTables_chainHeight.symm
  height_lt := by decide
  hashes_nodup := nodup_singleton _
  hashes_new := by
    rw [storedTxs_rctMinerBlock]
    intro x hmem
    obtain rfl := mem_singleton.mp hmem
    exact genesisTables_txIds
  keyImages_nodup := nodup_nil
  keyImages_new := by
    rw [storedTxs_rctMinerBlock]
    intro x hmem k hk
    obtain rfl := mem_singleton.mp hmem
    cases hk
  blockHash_new := genesisTables_blockHeights

theorem rctMinerBlock_verifiedOutputs : VerifiedOutputs rctMinerEnv rctMinerBlock where
  nonZero := by
    rw [storedTxs_rctMinerBlock]
    intro x hmem hversion
    obtain rfl := mem_singleton.mp hmem
    exact absurd hversion (by decide)
  noGen := nofun

def firstRctOutput : Table UInt64 (Finset Nat) := insert 0 {0} (∅ : Table UInt64 (Finset Nat))

theorem getOutput_addBlocksToCache_rctMinerBlock :
    (addBlocksToCache rctMinerEnv [rctMinerBlock] (outputs rctMinerEnv firstRctOutput genesisTables)).map
      (fun cache => cache.getOutput 0 0) = some (some ⟨1, .block 61, 11, 20⟩) := by decide +kernel

theorem getOutput_outputs_rctMinerBlock : (addBlock rctMinerEnv rctMinerBlock genesisTables).map
      (fun t => (outputs rctMinerEnv firstRctOutput t).getOutput 0 0) =
        some (some ⟨1, .block 61, 11, 17592169267200⟩) := by decide +kernel

theorem checkMinerTx_rctMinerTx :
    Consensus.checkMinerTx rctMinerTx 0 1 80 300000 17592186044415 .V1 = .ok 17592169267200 := by
  decide +kernel

/-- The second block of a chain may have a miner transaction with RingCT proofs. The cache then
gives its output the commitment of the proofs, and the database another one. -/
theorem outputCache_differs_rctMinerBlock :
    Consensus.checkMinerTx rctMinerTx 0 1 80 300000 17592186044415 .V1 = .ok 17592169267200 ∧
    ∃ t t' cache, Run rctMinerEnv [genesisBlock] t ∧ Extends rctMinerEnv t [rctMinerBlock] t' ∧
      addBlocksToCache rctMinerEnv [rctMinerBlock] (outputs rctMinerEnv firstRctOutput t) = some cache ∧
      cache.getOutput 0 0 ≠ (outputs rctMinerEnv firstRctOutput t').getOutput 0 0 ∧
      ¬ SameAnswers firstRctOutput cache (outputs rctMinerEnv firstRctOutput t') := by
  obtain ⟨cache, hcache, hcached⟩ := map_eq_some_iff.mp getOutput_addBlocksToCache_rctMinerBlock
  obtain ⟨t', hadd, hstored⟩ := map_eq_some_iff.mp getOutput_outputs_rctMinerBlock
  have hne : cache.getOutput 0 0 ≠ (outputs rctMinerEnv firstRctOutput t').getOutput 0 0 := by
    rw [hcached, hstored]
    decide
  refine ⟨checkMinerTx_rctMinerTx, genesisTables, t', cache, ?_, ?_, hcache, hne, fun hsame => ?_⟩
  · exact .add .empty genesisBlock_validToAdd addBlock_genesisBlock
  · exact .cons rctMinerBlock_validToAdd rctMinerBlock_verifiedOutputs hadd (.nil t')
  · exact hne ((hsame 0 {0} (lookup_insert _)).2 0 (Finset.mem_singleton_self 0))

end Cuprate.Storage
