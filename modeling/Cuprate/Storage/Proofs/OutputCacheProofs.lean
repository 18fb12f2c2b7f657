import Cuprate.Storage.Outputs
import Cuprate.Storage.Proofs.RunProofs

/-!
# The output cache and the database

The cache and the database both number the outputs of an amount in the order of the chain.
-/

namespace Cuprate.Storage

open Collections Finmap List Option Function OutputCache Contents

/-! ## What the cache answers -/

/-- The cache answers requests from the outputs `f` of each amount. -/
structure Answers (cache : OutputCache) (requested : Table UInt64 (Finset Nat))
    (f : UInt64 → List OutputOnChain) : Prop where
  number : ∀ a, cache.numberOfOutputs.lookup a = (requested.lookup a).map fun _ => (f a).length
  wanted : ∀ a, cache.wantedOutputs.lookup a =
    (requested.lookup a).map fun indices => indices.filter fun i => (f a).length ≤ i
  cached : ∀ a i, cache.getOutput a i =
    (requested.lookup a).bind fun indices => if i ∈ indices then (f a)[i]? else none

variable {requested : Table UInt64 (Finset Nat)} {f : UInt64 → List OutputOnChain} {cache : OutputCache}

theorem Answers.push_of_none (h : Answers cache requested f) {a : UInt64} (o : OutputOnChain)
    (ha : requested.lookup a = none) : Answers cache requested (pushStack f a o) := by
  refine ⟨fun a' => ?_, fun a' => ?_, fun a' i => ?_⟩
  all_goals
    by_cases heq : a' = a
    · subst heq
      simp only [h.number, h.wanted, h.cached, ha, map_none, bind_none]
    · simp only [h.number, h.wanted, h.cached, pushStack, update_of_ne heq]

section Push

variable {cache : OutputCache} {requested : Table UInt64 (Finset Nat)} {f : UInt64 → List OutputOnChain}
  {a : UInt64} {indices : Finset Nat}

section
variable (h : Answers cache requested f)
include h

section
variable (o : OutputOnChain)
include o

theorem Answers.number_push (ha : requested.lookup a = some indices) (a' : UInt64) :
    (cache.numberOfOutputs.insert a ((f a).length + 1)).lookup a' =
      (requested.lookup a').map fun _ => (pushStack f a o a').length := by
  rw [lookup_insert_ite]
  by_cases heq : a' = a
  · subst heq
    rw [if_pos rfl, ha, pushStack, update_self, length_append]
    rfl
  · rw [if_neg heq, h.number, pushStack, update_of_ne heq]

theorem Answers.wanted_erase (ha : requested.lookup a = some indices) (a' : UInt64) :
    (cache.wantedOutputs.insert a
        ((indices.filter fun i => (f a).length ≤ i).erase (f a).length)).lookup a' =
      (requested.lookup a').map fun indices =>
        indices.filter fun i => (pushStack f a o a').length ≤ i := by
  rw [lookup_insert_ite]
  by_cases heq : a' = a
  · subst heq
    have hlength : (f a' ++ [o]).length = (f a').length + 1 := length_append
    rw [if_pos rfl, ha, pushStack, update_self, hlength]
    refine congrArg some (Finset.ext fun i => ?_)
    rw [Finset.mem_erase, Finset.mem_filter, Finset.mem_filter]
    constructor
    · rintro ⟨hne, hi, hle⟩
      exact ⟨hi, by omega⟩
    · rintro ⟨hi, hle⟩
      exact ⟨by omega, hi, by omega⟩
  · rw [if_neg heq, h.wanted, pushStack, update_of_ne heq]

theorem Answers.cached_insert
    (ha : requested.lookup a = some indices) (hmem : (f a).length ∈ indices) (a' : UInt64) (i : Nat) :
    ((cache.cachedOutputs.insert a
        (((cache.cachedOutputs.lookup a).getD ∅).insert (f a).length o)).lookup a').bind (·.lookup i) =
      (requested.lookup a').bind fun indices =>
        if i ∈ indices then (pushStack f a o a')[i]? else none := by
  rw [lookup_insert_ite]
  by_cases heq : a' = a
  · subst heq
    have hcached := h.cached a' i
    unfold getOutput at hcached
    rw [if_pos rfl, ha, pushStack, update_self]
    simp only [bind_some]
    rw [lookup_insert_ite]
    by_cases hi : i = (f a').length
    · subst hi
      rw [if_pos rfl, if_pos hmem, getElem?_concat_length]
    · rw [if_neg hi, getElem?_concat_of_ne hi]
      rw [ha] at hcached
      simp only [bind_some] at hcached
      rw [← hcached]
      cases cache.cachedOutputs.lookup a' with
      | none => exact lookup_empty _
      | some table => rfl
  · rw [if_neg heq, pushStack, update_of_ne heq]
    exact h.cached a' i

theorem Answers.wanted_skip (ha : requested.lookup a = some indices) (hmem : (f a).length ∉ indices)
    (a' : UInt64) : cache.wantedOutputs.lookup a' = (requested.lookup a').map fun indices =>
      indices.filter fun i => (pushStack f a o a').length ≤ i := by
  rw [h.wanted]
  by_cases heq : a' = a
  · subst heq
    have hlength : (f a' ++ [o]).length = (f a').length + 1 := length_append
    rw [ha, pushStack, update_self, hlength]
    refine congrArg some (Finset.filter_congr fun i hi => ?_)
    have hne : i ≠ (f a').length := fun he => hmem (he ▸ hi)
    omega
  · rw [pushStack, update_of_ne heq]

theorem Answers.cached_skip
    (ha : requested.lookup a = some indices) (hmem : (f a).length ∉ indices) (a' : UInt64) (i : Nat) :
    cache.getOutput a' i =
      (requested.lookup a').bind fun indices =>
        if i ∈ indices then (pushStack f a o a')[i]? else none := by
  rw [h.cached]
  by_cases heq : a' = a
  · subst heq
    rw [ha, pushStack, update_self]
    simp only [bind_some]
    split
    · next hi => rw [getElem?_concat_of_ne fun he => hmem (he ▸ hi)]
    · rfl
  · rw [pushStack, update_of_ne heq]

end

theorem Answers.addOut (a : UInt64) (o : OutputOnChain) :
    ∃ cache', OutputCache.addOut a (some o) cache = some cache' ∧
      Answers cache' requested (pushStack f a o) := by
  unfold OutputCache.addOut
  rw [h.number]
  cases ha : requested.lookup a with
  | none => exact ⟨cache, rfl, h.push_of_none o ha⟩
  | some indices =>
    have hwanted := h.wanted a
    rw [ha] at hwanted
    simp only [map_some, hwanted]
    by_cases hmem : (f a).length ∈ indices
    · rw [if_pos (Finset.mem_filter.mpr ⟨hmem, le_rfl⟩)]
      exact ⟨_, rfl, h.number_push o ha, h.wanted_erase o ha, h.cached_insert o ha hmem⟩
    · rw [if_neg fun hin => hmem (Finset.mem_filter.mp hin).1]
      exact ⟨_, rfl, h.number_push o ha, h.wanted_skip o ha hmem, h.cached_skip o ha hmem⟩

end

end Push

def numberedAmount (tx : Transaction) (out : Cuprate.Output) : UInt64 :=
  if tx.version = 2 then 0 else out.amount.getD 0

def onChainOutput (x : StoredTx) (out : Cuprate.Output) (commitment : CompressedPoint) : OutputOnChain :=
  ⟨x.height, x.tx.txPrefix.additionalTimelock, out.key, commitment⟩

/-- The outputs of a transaction from output `i` on, with their amounts. -/
def onChainOutputsFrom (commitment : Nat → Cuprate.Output → CompressedPoint) (x : StoredTx) (i : Nat)
    (outs : List Cuprate.Output) : List (UInt64 × OutputOnChain) :=
  (outs.zipIdx i).map fun p => (numberedAmount x.tx p.1, onChainOutput x p.1 (commitment p.2 p.1))

def onChainOutputs (commitment : Transaction → Nat → Cuprate.Output → CompressedPoint) (x : StoredTx) :
    List (UInt64 × OutputOnChain) :=
  onChainOutputsFrom (commitment x.tx) x 0 x.tx.txPrefix.outputs

def cachedCommitment (env : StorageEnv) (tx : Transaction) (j : Nat) (_ : Cuprate.Output) :
    CompressedPoint :=
  (getOutputCommitment env.computeZeroCommitment tx j).getD 0

variable {preRct : UInt64 → List OutputOnChain} {env : StorageEnv} {rct : List OutputOnChain}
    {c c' : Contents}
  {b : VerifiedBlockInformation} {x : StoredTx} {tx : Transaction} {t : Tables}

theorem getOutputCommitment_isSome (env : StorageEnv) (h : Readable tx) {j : Nat}
    (hj : j < tx.txPrefix.outputs.length) :
    ∃ commitment, getOutputCommitment env.computeZeroCommitment tx j = some commitment := by
  have hout : ∃ out, tx.txPrefix.outputs[j]? = some out := ⟨_, getElem?_eq_getElem hj⟩
  obtain ⟨out, hout⟩ := hout
  have hzero : ∃ commitment, (tx.txPrefix.outputs[j]?.map fun out =>
      env.computeZeroCommitment (out.amount.getD 0)) = some commitment := by
    rw [hout]
    exact ⟨_, rfl⟩
  rcases tx with ⟨txPrefix, signatures⟩ | ⟨txPrefix, _ | proofs⟩
  · exact hzero
  · exact hzero
  · have hlength : proofs.base.commitments.length = txPrefix.outputs.length := h.commitments
    exact ⟨_, getElem?_eq_getElem (hlength ▸ hj)⟩

/-- Adding a transaction appends its outputs to what the cache answers from. -/
theorem Answers.addTxFrom (env : StorageEnv) (minerTx : Bool)
    (hread : Readable x.tx) (outs : List Cuprate.Output) (i : Nat) (h : Answers cache requested f)
    (hlength : i + outs.length ≤ x.tx.txPrefix.outputs.length)
    (hamount : ∀ out ∈ outs, cacheAmount minerTx x.tx out = numberedAmount x.tx out) :
    ∃ cache', addTxFrom env.computeZeroCommitment minerTx x.height x.tx i outs cache = some cache' ∧
      Answers cache' requested (pushAll f (onChainOutputsFrom (cachedCommitment env x.tx) x i outs)) := by
  induction outs generalizing i cache f with
  | nil => exact ⟨cache, rfl, h⟩
  | cons out outs ih =>
    rw [length_cons] at hlength
    obtain ⟨commitment, hcommitment⟩ := getOutputCommitment_isSome env hread (j := i) (by omega)
    have hcached : cachedCommitment env x.tx i out = commitment := by
      unfold cachedCommitment
      rw [hcommitment]
      rfl
    obtain ⟨cache₁, hadd, h₁⟩ := h.addOut (numberedAmount x.tx out) (onChainOutput x out commitment)
    obtain ⟨cache', hrest, h'⟩ := ih (i + 1) h₁ (by omega)
      fun out' hmem => hamount out' (.tail _ hmem)
    refine ⟨cache', ?_, ?_⟩
    · unfold addTxFrom
      rw [hamount out (.head _), hcommitment]
      exact bind_eq_some_iff.mpr ⟨cache₁, hadd, hrest⟩
    · unfold onChainOutputsFrom
      rw [zipIdx_cons, map_cons]
      rw [hcached]
      exact h'

theorem Answers.addTx (env : StorageEnv) (minerTx : Bool) (hread : Readable x.tx)
    (h : Answers cache requested f)
    (hamount : ∀ out ∈ x.tx.txPrefix.outputs, OutputCache.cacheAmount minerTx x.tx out =
      numberedAmount x.tx out) :
    ∃ cache', OutputCache.addTx env.computeZeroCommitment minerTx x.height x.tx cache = some cache' ∧
      Answers cache' requested (pushAll f (onChainOutputs (cachedCommitment env) x)) :=
  h.addTxFrom env minerTx hread _ 0 (by omega) hamount

theorem cacheAmount_of_noGen (hread : Readable tx) (hgen : tx.hasGen = false) :
    ∀ out ∈ tx.txPrefix.outputs, cacheAmount false tx out = numberedAmount tx out := by
  intro out hmem
  unfold cacheAmount numberedAmount
  rw [if_neg (by simp)]
  cases tx with
  | v1 txPrefix signatures => rfl
  | v2 txPrefix proofs =>
    have hnone : out.amount = none := by
      by_contra hsome
      have := hread.amounts out hmem (Option.isSome_iff_ne_none.mpr hsome)
      rw [hgen] at this
      exact Bool.false_ne_true this
    rw [hnone]
    rfl

/-- The outputs of transactions that are added one after another. -/
def newOutputs (commitment : Transaction → Nat → Cuprate.Output → CompressedPoint) (xs : List StoredTx) :
    List (UInt64 × OutputOnChain) :=
  xs.flatMap (onChainOutputs commitment)

theorem pushAll_append {A V : Type} [DecidableEq A] (f : A → List V) (l l' : List (A × V)) :
    pushAll f (l ++ l') = pushAll (pushAll f l) l' := foldl_append

theorem Answers.addTxs (env : StorageEnv) (height : Nat) (txs : List VerifiedTransactionInformation)
    (h : Answers cache requested f) (hread : ∀ tx ∈ txs, Readable tx.tx)
      (hgen : ∀ tx ∈ txs, tx.tx.hasGen = false) : ∃ cache', txs.foldlM (fun cache tx =>
        OutputCache.addTx env.computeZeroCommitment false height tx.tx cache) cache = some cache' ∧
      Answers cache' requested (pushAll f (newOutputs (cachedCommitment env)
        (txs.map fun tx => ⟨tx.tx, tx.txBlob, tx.txHash, height⟩))) := by
  induction txs generalizing cache f with
  | nil => exact ⟨cache, rfl, h⟩
  | cons tx txs ih =>
    have hreadTx := hread tx (.head _)
    obtain ⟨cache₁, hadd, h₁⟩ := h.addTx env false
      (x := ⟨tx.tx, tx.txBlob, tx.txHash, height⟩) hreadTx
      (cacheAmount_of_noGen hreadTx (hgen tx (.head _)))
    obtain ⟨cache', hrest, h'⟩ := ih h₁ (fun tx' hmem => hread tx' (.tail _ hmem))
      fun tx' hmem => hgen tx' (.tail _ hmem)
    refine ⟨cache', bind_eq_some_iff.mpr ⟨cache₁, hadd, hrest⟩, ?_⟩
    unfold newOutputs at h' ⊢
    rwa [map_cons, flatMap_cons, pushAll_append]

theorem WellFormed.readable (h : WellFormed env b) : ∀ x ∈ storedTxs env b, Readable x.tx :=
  fun x hmem => env.readTx_readable _ _ (h.readTx x hmem)

theorem Answers.addBlock (hwf : WellFormed env b) (hverified : VerifiedOutputs env b)
    (h : Answers cache requested f) :
    ∃ cache', OutputCache.addBlockToCache env.computeZeroCommitment b cache = some cache' ∧
      Answers cache' requested (pushAll f (newOutputs (cachedCommitment env) (storedTxs env b))) := by
  have hread := hwf.readable
  obtain ⟨cache₁, hminer, h₁⟩ := h.addTx env true
    (hread _ (.head _)) fun out _ => by
      unfold OutputCache.cacheAmount numberedAmount
      simp only [true_and]
  obtain ⟨cache', htxs, h'⟩ := h₁.addTxs env b.height b.txs
    (fun tx hmem => hread _ (.tail _ (mem_map_of_mem hmem))) hverified.noGen
  refine ⟨cache', bind_eq_some_iff.mpr ⟨cache₁, hminer, htxs⟩, ?_⟩
  unfold storedTxs
  unfold newOutputs at h' ⊢
  rwa [flatMap_cons, pushAll_append]

/-! ## What the database answers -/

def Contents.timeLock (c : Contents) (nonZeroUnlockTime : Bool) (txIdx : Nat) : Option Timelock :=
  if nonZeroUnlockTime then (c.txs[txIdx]?.bind fun x => unlockTime x.tx).map u64ToTimelock
  else some .none

def Contents.preRctOnChain (env : StorageEnv) (c : Contents) (amount : UInt64) (o : Output) :
    Option OutputOnChain :=
  (c.timeLock o.nonZeroUnlockTime o.txIdx).map fun timeLock =>
    ⟨o.height, timeLock, o.key, env.computeZeroCommitment amount⟩

def Contents.rctOnChain (c : Contents) (o : RctOutput) : Option OutputOnChain :=
  (c.timeLock o.nonZeroUnlockTime o.txIdx).map fun timeLock =>
    ⟨o.height, timeLock, o.key, o.commitment⟩

/-- The outputs of the content, as they are on the chain. -/
structure Shows (env : StorageEnv) (c : Contents) (preRct : UInt64 → List OutputOnChain)
    (rct : List OutputOnChain) : Prop where
  preRct : ∀ a, (c.outputs a).map (c.preRctOnChain env a) = (preRct a).map some
  rct : c.rctOutputs.map c.rctOnChain = rct.map some

/-- The outputs that are requested under an amount: the RingCT outputs under 0. -/
def byAmount (preRct : UInt64 → List OutputOnChain) (rct : List OutputOnChain) (a : UInt64) :
    List OutputOnChain :=
  if a = 0 then rct else preRct a

theorem outputTimeLock_eq (h : Represents t c) (nonZero : Bool) (txIdx : Nat) :
    outputTimeLock nonZero txIdx t = c.timeLock nonZero txIdx := by
  unfold outputTimeLock timeLock
  rw [h.txUnlockTime]

theorem getElem?_bind_of_map_eq {α β : Type} {l : List α} {l' : List β} {g : α →
    Option β} (h : l.map g = l'.map some)
    (i : Nat) : l[i]?.bind g = l'[i]? := by
  have hget : (l.map g)[i]? = (l'.map some)[i]? := by rw [h]
  rw [getElem?_map, getElem?_map] at hget
  cases hl : l[i]? with
  | none =>
    rw [hl] at hget
    exact (Option.map_eq_none_iff.mp hget.symm).symm
  | some a =>
    rw [hl] at hget
    obtain ⟨b, hb, heq⟩ := map_eq_some_iff.mp hget.symm
    rw [hb]
    exact heq.symm

section
variable (hs : Shows env c preRct rct)
include hs

theorem Shows.idToOutputOnChain (h : Represents t c) (a : UInt64) (i : Nat) :
    idToOutputOnChain env (a, i) t = (byAmount preRct rct a)[i]? := by
  unfold Storage.idToOutputOnChain byAmount
  by_cases ha : a = 0
  · rw [if_pos ha, if_pos ha, ← getElem?_bind_of_map_eq hs.rct i, h.rctOutputs]
    refine congrArg _ (funext fun o => ?_)
    unfold rctOutputToOutputOnChain rctOnChain
    rw [outputTimeLock_eq h]
  · rw [if_neg ha, if_neg ha, ← getElem?_bind_of_map_eq (hs.preRct a) i, h.outputs.items]
    refine congrArg _ (funext fun o => ?_)
    unfold outputToOutputOnChain preRctOnChain
    rw [outputTimeLock_eq h]

theorem Shows.amountOfOuts (h : Represents t c) (a : UInt64) :
    amountOfOuts a t = (byAmount preRct rct a).length := by
  unfold Storage.amountOfOuts byAmount
  by_cases ha : a = 0
  · have hlength := congrArg List.length hs.rct
    rw [length_map, length_map] at hlength
    rw [if_pos ha, if_pos ha, h.rctOutputs.len, hlength]
  · have hlength := congrArg List.length (hs.preRct a)
    rw [length_map, length_map] at hlength
    rw [if_neg ha, if_neg ha, h.outputs.getD_num, hlength]

theorem Shows.answers (h : Represents t c) (requested : Table UInt64 (Finset Nat)) :
    Answers (outputs env requested t) requested (byAmount preRct rct) := by
  refine ⟨fun a => ?_, fun a => ?_, fun a i => ?_⟩
  · show (requested.mapValues _).lookup a = _
    rw [lookup_mapValues, hs.amountOfOuts h]
  · show (requested.mapValues _).lookup a = _
    rw [lookup_mapValues]
    refine congrArg (Option.map · _) (funext fun indices => Finset.filter_congr fun i _ => ?_)
    rw [hs.idToOutputOnChain h, getElem?_eq_none_iff]
  · show ((requested.mapValues _).lookup a).bind _ = _
    rw [lookup_mapValues, Option.bind_map]
    refine congrArg _ (funext fun indices => ?_)
    show (tabulate indices _).lookup i = _
    rw [lookup_tabulate, hs.idToOutputOnChain h]

end

def storedCommitment (env : StorageEnv) (tx : Transaction) (j : Nat) (out : Cuprate.Output) :
    CompressedPoint :=
  match tx with
  | .v1 .. => env.computeZeroCommitment (out.amount.getD 0)
  | .v2 _ proofs => (commitmentOf env tx proofs j out).getD 0

theorem u64ToTimelock_unlockTime (h : CanonicalTimelock tx.txPrefix.additionalTimelock) :
    (if (unlockTime tx).isSome then (unlockTime tx).map u64ToTimelock else some .none) =
      some tx.txPrefix.additionalTimelock := by
  unfold unlockTime
  cases hlock : tx.txPrefix.additionalTimelock with
  | none => rfl
  | block height =>
    rw [hlock] at h
    obtain ⟨hpos, hlt⟩ := h
    have hnat : (UInt64.ofNat height).toNat = height := UInt64.toNat_ofNat_of_lt' (hlt.trans (by decide))
    have hne : UInt64.ofNat height ≠ 0 := by
      intro heq
      rw [heq] at hnat
      exact hpos.ne hnat
    have hlt' : UInt64.ofNat height < 500000000 := by
      rw [UInt64.lt_iff_toNat_lt, hnat]
      exact hlt
    show some (u64ToTimelock (UInt64.ofNat height)) = _
    unfold u64ToTimelock
    rw [if_neg hne, if_pos hlt', hnat]
  | time timestamp =>
    rw [hlock] at h
    have hle : (500000000 : UInt64) ≤ timestamp := h
    have hnlt : ¬ timestamp < 500000000 := UInt64.not_lt.mpr hle
    have hne : timestamp ≠ 0 := by
      rintro rfl
      exact absurd hle (by decide)
    show some (u64ToTimelock timestamp) = _
    unfold u64ToTimelock
    rw [if_neg hne, if_neg hnlt]

theorem timeLock_concat (hc : c'.txs = c.txs ++ [x]) {nonZero : Bool} {i : Nat} {timeLock : Timelock}
    (h : c.timeLock nonZero i = some timeLock) : c'.timeLock nonZero i = some timeLock := by
  unfold Contents.timeLock at h ⊢
  cases nonZero with
  | false => exact h
  | true =>
    obtain ⟨time, htime, -⟩ := map_eq_some_iff.mp h
    obtain ⟨x', hx', -⟩ := bind_eq_some_iff.mp htime
    obtain ⟨hlt, -⟩ := List.getElem?_eq_some_iff.mp hx'
    rwa [hc, List.getElem?_append_left hlt]

theorem timeLock_new (hc : c'.txs = c.txs ++ [x])
    (hlock : CanonicalTimelock x.tx.txPrefix.additionalTimelock) :
    c'.timeLock (unlockTime x.tx).isSome c.txs.length = some x.tx.txPrefix.additionalTimelock := by
  unfold timeLock
  rw [hc, getElem?_concat_length]
  exact u64ToTimelock_unlockTime hlock

theorem map_eq_map_some_mono {α β : Type} {l : List α} {l' : List β} {g g' : α →
    Option β} (h : l.map g = l'.map some)
    (hmono : ∀ a b, g a = some b → g' a = some b) :
    l.map g' = l'.map some := by
  rw [← h]
  refine map_congr_left fun a ha => ?_
  have hmem : g a ∈ l'.map some := h ▸ mem_map_of_mem ha
  obtain ⟨b, -, hb⟩ := mem_map.mp hmem
  rw [← hb, hmono a b hb.symm]

theorem Shows.mono (hs : Shows env c preRct rct) (hc : c'.txs = c.txs ++ [x]) :
    (∀ a, (c.outputs a).map (c'.preRctOnChain env a) = (preRct a).map some) ∧
      c.rctOutputs.map c'.rctOnChain = rct.map some := by
  refine ⟨fun a => map_eq_map_some_mono (hs.preRct a) fun o v h =>
    ?_, map_eq_map_some_mono hs.rct fun o v h => ?_⟩
  all_goals
    obtain ⟨timeLock, hlock, rfl⟩ := map_eq_some_iff.mp h
    exact map_eq_some_iff.mpr ⟨timeLock, timeLock_concat hc hlock, rfl⟩

def NonZeroOutputs (x : StoredTx) : Prop :=
  x.tx.version = 1 → ∀ out ∈ x.tx.txPrefix.outputs, out.amount.getD 0 ≠ 0

theorem txs_addTx (h : c.addTx env x = some c') : c'.txs = c.txs ++ [x] := by
  obtain ⟨rct, -, rfl⟩ := map_eq_some_iff.mp h
  rfl

theorem map_filter_eq_map_some {α A V W : Type} [DecidableEq A]
    {l : List α} {amount : α → A} {u : α → V} {v : α → W}
    {g : V → Option W} {a : A} (h : ∀ x ∈ l, amount x = a → g (u x) = some (v x)) :
    (((l.map fun x => (amount x, u x)).filter fun p => p.1 = a).map Prod.snd).map g =
      (((l.map fun x => (amount x, v x)).filter fun p => p.1 = a).map Prod.snd).map some := by
  induction l with
  | nil => rfl
  | cons x l ih =>
    have ih := ih fun x' hmem => h x' (.tail _ hmem)
    rw [map_cons, map_cons]
    by_cases heq : amount x = a
    · rw [filter_cons_of_pos (by simpa using heq), filter_cons_of_pos (by simpa using heq)]
      simp only [map_cons]
      rw [h x (.head _) heq, ih]
    · rw [filter_cons_of_neg (by simpa using heq), filter_cons_of_neg (by simpa using heq), ih]

section
variable (hs : Shows env c preRct rct)
include hs

section
variable {txPrefix : TransactionPrefix} (hlock : CanonicalTimelock x.tx.txPrefix.additionalTimelock)
include hlock

theorem Shows.addTx_v1 {signatures : List UInt8} (hx : x.tx = .v1 txPrefix signatures)
    (hadd : c.addTx env x = some c') :
    Shows env c' (pushAll preRct (onChainOutputs (storedCommitment env) x)) rct ∧ (NonZeroOutputs x →
      byAmount (pushAll preRct (onChainOutputs (storedCommitment env) x)) rct =
        pushAll (byAmount preRct rct) (onChainOutputs (storedCommitment env) x)) := by
  obtain ⟨hpre, hrct⟩ := hs.mono (txs_addTx hadd)
  obtain ⟨new, hnew, rfl⟩ := map_eq_some_iff.mp hadd
  obtain ⟨tx, blob, hash, height⟩ := x
  subst hx
  cases hnew
  have hshown : onChainOutputs (storedCommitment env) ⟨.v1 txPrefix signatures, blob, hash, height⟩ = _ :=
    map_zipIdx_fst (fun out : Cuprate.Output => (out.amount.getD 0,
        onChainOutput ⟨.v1 txPrefix signatures, blob, hash, height⟩ out
          (env.computeZeroCommitment (out.amount.getD 0)))) _ _
  rw [hshown]
  refine ⟨⟨fun a => ?_, ?_⟩, fun hnonZero => funext fun a => ?_⟩
  · show (pushAll c.outputs _ a).map _ = _
    rw [pushAll_apply, pushAll_apply, map_append, map_append]
    refine congrArg₂ (· ++ ·) (hpre a) (map_filter_eq_map_some fun out _ hamount => ?_)
    rw [← hamount]
    exact map_eq_some_iff.mpr ⟨_, timeLock_new rfl hlock, rfl⟩
  · show (c.rctOutputs ++ []).map _ = _
    rw [append_nil]
    exact hrct
  · rw [pushAll_apply]
    unfold byAmount
    by_cases ha : a = 0
    · rw [if_pos ha, if_pos ha, filter_eq_nil_iff.mpr, map_nil, append_nil]
      intro p hmem
      obtain ⟨out, hout, rfl⟩ := mem_map.mp hmem
      rw [ha]
      simpa using hnonZero rfl out hout
    · rw [if_neg ha, if_neg ha, pushAll_apply]

theorem Shows.addTx_v2 {proofs : Option RctProofs} (hx : x.tx = .v2 txPrefix proofs)
    (hadd : c.addTx env x = some c') :
    Shows env c' preRct (rct ++ (onChainOutputs (storedCommitment env) x).map Prod.snd) ∧
      byAmount preRct (rct ++ (onChainOutputs (storedCommitment env) x).map Prod.snd) =
        pushAll (byAmount preRct rct) (onChainOutputs (storedCommitment env) x) := by
  obtain ⟨hpre, hrct⟩ := hs.mono (txs_addTx hadd)
  obtain ⟨new, hnew, rfl⟩ := map_eq_some_iff.mp hadd
  obtain ⟨tx, blob, hash, height⟩ := x
  subst hx
  obtain rfl := (rctOutputsFrom_eq hnew).1
  refine ⟨⟨hpre, ?_⟩, funext fun a => ?_⟩
  · show (c.rctOutputs ++ _).map _ = _
    rw [map_append, map_append]
    refine congrArg₂ (· ++ ·) hrct ?_
    unfold onChainOutputs onChainOutputsFrom
    rw [List.map_map, List.map_map, List.map_map]
    refine map_congr_left fun p _ => ?_
    exact map_eq_some_iff.mpr ⟨_, timeLock_new rfl hlock, rfl⟩
  · have hamount : ∀ p ∈ onChainOutputs (storedCommitment env)
        ⟨.v2 txPrefix proofs, blob, hash, height⟩, p.1 = 0 := by
      intro p hmem
      obtain ⟨q, -, rfl⟩ := mem_map.mp hmem
      rfl
    rw [pushAll_apply]
    unfold byAmount
    by_cases ha : a = 0
    · rw [if_pos ha, if_pos ha, filter_eq_self.mpr]
      intro p hmem
      rw [ha]
      simpa using hamount p hmem
    · rw [if_neg ha, if_neg ha, filter_eq_nil_iff.mpr, map_nil, append_nil]
      intro p hmem
      rw [hamount p hmem]
      simpa using Ne.symm ha

end

theorem Shows.addTx (hread : Readable x.tx) (hadd : c.addTx env x = some c') :
    ∃ preRct' rct', Shows env c' preRct' rct' ∧ (NonZeroOutputs x →
      byAmount preRct' rct' = pushAll (byAmount preRct rct)
        (onChainOutputs (storedCommitment env) x)) := by
  cases htx : x.tx with
  | v1 txPrefix signatures => exact ⟨_, _, hs.addTx_v1 hread.timelock htx hadd⟩
  | v2 txPrefix proofs =>
    obtain ⟨hs', hnew⟩ := hs.addTx_v2 hread.timelock htx hadd
    exact ⟨_, _, hs', fun _ => hnew⟩

theorem Shows.addTxs {xs : List StoredTx} (hread : ∀ x ∈ xs, Readable x.tx)
    (hadd : xs.foldlM (Contents.addTx env) c = some c') :
    ∃ preRct' rct', Shows env c' preRct' rct' ∧ ((∀ x ∈ xs, NonZeroOutputs x) →
      byAmount preRct' rct' = pushAll (byAmount preRct rct) (newOutputs (storedCommitment env) xs)) := by
  induction xs generalizing c preRct rct with
  | nil =>
    cases hadd
    exact ⟨preRct, rct, hs, fun _ => rfl⟩
  | cons x xs ih =>
    obtain ⟨c₁, hc₁, hadd⟩ := bind_eq_some_iff.mp hadd
    obtain ⟨preRct₁, rct₁, hs₁, hnew₁⟩ := hs.addTx (hread x (.head _)) hc₁
    obtain ⟨preRct', rct', hs', hnew⟩ := ih hs₁
      (fun x' hmem => hread x' (.tail _ hmem)) hadd
    refine ⟨preRct', rct', hs', fun hnonZero => ?_⟩
    rw [hnew fun x' hmem => hnonZero x' (.tail _ hmem), hnew₁ (hnonZero x (.head _))]
    unfold newOutputs
    rw [flatMap_cons, pushAll_append]

theorem Shows.addBlock (hwf : WellFormed env b) (hadd : c.addBlock env b = some c') :
    ∃ preRct' rct', Shows env c' preRct' rct' ∧ ((∀ x ∈ storedTxs env b, NonZeroOutputs x) →
      byAmount preRct' rct' =
        pushAll (byAmount preRct rct) (newOutputs (storedCommitment env) (storedTxs env b))) := by
  obtain ⟨c₁, hc₁, rfl⟩ := map_eq_some_iff.mp hadd
  obtain ⟨preRct', rct', hs', hnew⟩ := hs.addTxs hwf.readable hc₁
  exact ⟨preRct', rct', ⟨hs'.preRct, hs'.rct⟩, hnew⟩

end

theorem ChainContents.shows {chain : List VerifiedBlockInformation} (h : ChainContents env chain c) :
    ∃ preRct rct, Shows env c preRct rct := by
  induction h with
  | empty => exact ⟨fun _ => [], [], fun _ => rfl, rfl⟩
  | add hchain hvalid hadd ih =>
    obtain ⟨preRct, rct, hs⟩ := ih
    obtain ⟨preRct', rct', hs', -⟩ := hs.addBlock hvalid.wellFormed hadd
    exact ⟨preRct', rct', hs'⟩

end Cuprate.Storage
