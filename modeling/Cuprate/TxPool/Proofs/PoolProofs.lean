import Cuprate.TxPool.Pool

/-!
# The tables of the transaction pool stay in step

What the pool is for: a set of transactions, no two of which spend the same key image. The five
tables hold such a set, and each request does to the tables what it does to the set.
-/

namespace Cuprate.TxPool

open Collections Finmap List Option Except Function
open RawCachedVerificationState (ofState toState)

/-- The block hash and the time lock of a state are not zero. -/
def NonZero : CachedVerificationState → Prop
  | .validAtHashAndHF blockHash _ => blockHash ≠ 0
  | .validAtHashAndHFWithTimeBasedLock blockHash _ timeLock => blockHash ≠ 0 ∧ timeLock ≠ .time 0
  | _ => True

theorem toOption_fromVersion_asU8 (hf : HardFork) : (HardFork.fromVersion hf.asU8).toOption = some hf := by
  rw [HardFork.fromVersion_asU8]
  rfl

/-- What is stored for a state is read back as the state. -/
theorem toState_ofState {state : CachedVerificationState} {raw : RawCachedVerificationState}
    (h : ofState state = some raw) (hne : NonZero state) :
    raw.toState = some state := by
  have hzero : UInt64.ofNat (Stream.leValue (Stream.leBytes 8 0)) = 0 := by decide
  cases state with
  | notVerified =>
    cases h
    rfl
  | onlySemantic hf =>
    cases h
    have hpos : hf.asU8 ≠ 0 := by cases hf <;> decide
    simp only [toState, if_pos, if_neg hpos, toOption_fromVersion_asU8, map_some]
  | validAtHashAndHF blockHash hf =>
    cases h
    have hblock : blockHash ≠ 0 := hne
    simp only [toState, if_neg hblock, toOption_fromVersion_asU8, map_some, hzero, if_pos]
  | validAtHashAndHFWithTimeBasedLock blockHash hf timeLock =>
    obtain ⟨hblock, htime⟩ := hne
    cases timeLock with
    | none => exact absurd h (by simp [ofState])
    | block height => exact absurd h (by simp [ofState])
    | time time =>
      cases h
      have hvalue : UInt64.ofNat (Stream.leValue (Stream.leBytes 8 time.toNat)) = time := by
        rw [Stream.leValue_leBytes (time.toNat_lt.trans_eq (by norm_num)), UInt64.ofNat_toNat]
      have hne : time ≠ 0 := fun heq => htime (congrArg Timelock.time heq)
      simp only [toState, if_neg hblock, toOption_fromVersion_asU8, map_some, hvalue, if_neg hne]

/-- The key images of inputs. -/
def keyImagesOf (inputs : List Input) : List CompressedPoint :=
  inputs.filterMap fun input =>
    match input with
    | .toKey _ _ keyImage => some keyImage
    | .gen _ => none

variable {tx' : TransactionVerificationData} {stateStem : Bool} {now : UInt64} {k : CompressedPoint}
  {hash : Hash}

theorem mem_keyImagesOf_cons {amount : Option UInt64} {offsets : List UInt64} {k' : CompressedPoint}
    {inputs : List Input} :
    k' ∈ keyImagesOf (.toKey amount offsets k :: inputs) ↔ k' = k ∨ k' ∈ keyImagesOf inputs :=
  mem_cons

variable {txHash : Hash} {inputs : List Input} {kis kis' : Table CompressedPoint Hash}

theorem addTxKeyImages_cons_toKey {amount : Option UInt64} {offsets : List UInt64} :
    addTxKeyImages (.toKey amount offsets k :: inputs) txHash kis =
      match kis.lookup k with
      | some doubleSpendTxHash => .error (.error (.doubleSpend doubleSpendTxHash))
      | none => addTxKeyImages inputs txHash (kis.insert k txHash) := by
  unfold addTxKeyImages
  rw [foldlM_cons]
  unfold addKeyImage kiFromInput
  cases hlookup : kis.lookup k with
  | some h => simp [hlookup, bind, Except.bind]
  | none => simp [hlookup, bind, Except.bind]

/-- What it means that the key images of a transaction were added. -/
theorem addTxKeyImages_ok (h : addTxKeyImages inputs txHash kis = .ok kis') :
    (∀ height, .gen height ∉ inputs) ∧ (keyImagesOf inputs).Nodup ∧
      (∀ k ∈ keyImagesOf inputs, kis.lookup k = none) ∧
      ∀ k, kis'.lookup k = if k ∈ keyImagesOf inputs then some txHash else kis.lookup k := by
  induction inputs generalizing kis with
  | nil =>
    cases h
    exact ⟨fun _ => not_mem_nil, nodup_nil, fun k hk => absurd hk not_mem_nil, fun k => rfl⟩
  | cons input inputs ih =>
    cases input with
    | gen height => cases h
    | toKey amount offsets k =>
      rw [addTxKeyImages_cons_toKey] at h
      cases hlookup : kis.lookup k with
      | some owner =>
        rw [hlookup] at h
        cases h
      | none =>
        rw [hlookup] at h
        obtain ⟨hgen, hnodup, hnew, hafter⟩ := ih h
        have hnot : k ∉ keyImagesOf inputs := by
          intro hmem
          have hnone := hnew k hmem
          rw [lookup_insert] at hnone
          exact some_ne_none _ hnone
        refine ⟨fun height hmem => ?_, nodup_cons.mpr ⟨hnot, hnodup⟩, fun k' hk' => ?_, fun k' => ?_⟩
        · rcases mem_cons.mp hmem with heq | hmem
          · cases heq
          · exact hgen height hmem
        · rcases mem_keyImagesOf_cons.mp hk' with rfl | hmem
          · exact hlookup
          · have hne : k' ≠ k := fun heq => hnot (heq ▸ hmem)
            have hnone := hnew k' hmem
            rwa [lookup_insert_ite, if_neg hne] at hnone
        · rw [hafter, lookup_insert_ite]
          simp only [mem_keyImagesOf_cons]
          by_cases hmem : k' ∈ keyImagesOf inputs
          · rw [if_pos hmem, if_pos (.inr hmem)]
          · by_cases heq : k' = k
            · rw [if_neg hmem, if_pos heq, if_pos (.inl heq)]
            · rw [if_neg hmem, if_neg heq, if_neg (by tauto)]

/-- Key images are refused only if one of them is already spent or occurs twice. A miner input is a
panic. -/
theorem addTxKeyImages_error {e : Fault TxPoolWriteError}
    (h : addTxKeyImages inputs txHash kis = .error e) :
    (e = .panic ∧ ∃ height, .gen height ∈ inputs) ∨ ∃ owner, e = .error (.doubleSpend owner) ∧
        ((∃ k ∈ keyImagesOf inputs, kis.lookup k = some owner) ∨
          (owner = txHash ∧ ¬(keyImagesOf inputs).Nodup)) := by
  induction inputs generalizing kis with
  | nil => cases h
  | cons input inputs ih =>
    cases input with
    | gen height => exact .inl ⟨(error.inj h).symm, height, .head _⟩
    | toKey amount offsets k =>
      rw [addTxKeyImages_cons_toKey] at h
      cases hlookup : kis.lookup k with
      | some owner =>
        rw [hlookup] at h
        exact .inr ⟨owner, (error.inj h).symm, .inl ⟨k, .head _, hlookup⟩⟩
      | none =>
        rw [hlookup] at h
        rcases ih h with ⟨he, height, hgen⟩ | ⟨owner, he, hcases⟩
        · exact .inl ⟨he, height, .tail _ hgen⟩
        · refine .inr ⟨owner, he, ?_⟩
          rcases hcases with ⟨k', hk', hspent⟩ | ⟨howner, hdup⟩
          · rw [lookup_insert_ite] at hspent
            by_cases heq : k' = k
            · -- the key image that was just added
              rw [if_pos heq] at hspent
              refine .inr ⟨(some.inj hspent).symm, fun hnodup => ?_⟩
              exact (nodup_cons.mp hnodup).1 (heq ▸ hk')
            · rw [if_neg heq] at hspent
              exact .inl ⟨k', mem_keyImagesOf_cons.mpr (.inr hk'), hspent⟩
          · exact .inr ⟨howner, fun hnodup => hdup (nodup_cons.mp hnodup).2⟩

theorem removeTxKeyImages_eq (hgen : ∀ height, .gen height ∉ inputs) :
    removeTxKeyImages inputs kis = .ok (kis.eraseAll (keyImagesOf inputs)) := by
  induction inputs generalizing kis with
  | nil => rfl
  | cons input inputs ih =>
    cases input with
    | gen height => exact absurd (.head _) (hgen height)
    | toKey amount offsets k => exact ih fun height hmem => hgen height (.tail _ hmem)

/-! ## The pool -/

variable {env : PoolEnv} {Tx : Transaction → Prop}

/-- A transaction that can be stored and read back. -/
structure Poolable (env : PoolEnv) (Tx : Transaction → Prop) (tx : TransactionVerificationData) :
    Prop where
  fields : DataFields env tx
  kind : Tx tx.tx
  keyInputs : ∀ height, .gen height ∉ tx.tx.txPrefix.inputs
  stored : (ofState tx.cachedVerificationState).isSome

/-- The transactions in the pool, by their hashes. No two of them spend the same key image. -/
@[ext]
structure Pool (env : PoolEnv) (Tx : Transaction → Prop) where
  txs : Hash → Option TransactionVerificationData
  keyed : ∀ hash tx, txs hash = some tx → tx.txHash = hash
  poolable : ∀ hash tx, txs hash = some tx → Poolable env Tx tx
  disjoint : ∀ hash tx hash' tx' k, txs hash = some tx → txs hash' = some tx' →
    k ∈ tx.tx.keyImages → k ∈ tx'.tx.keyImages → hash = hash'

namespace Pool

def empty : Pool env Tx where
  txs _ := none
  keyed _ _ h := absurd h (some_ne_none _).symm
  poolable _ _ h := absurd h (some_ne_none _).symm
  disjoint _ _ _ _ _ h := absurd h (some_ne_none _).symm

/-- The transactions of the pool that have a property. -/
def retain (pool : Pool env Tx) (p : TransactionVerificationData → Bool) : Pool env Tx where
  txs hash := (pool.txs hash).filter p
  keyed hash tx h := pool.keyed hash tx (Option.filter_eq_some_iff.mp h).1
  poolable hash tx h := pool.poolable hash tx (Option.filter_eq_some_iff.mp h).1
  disjoint hash tx hash' tx' k h h' :=
    pool.disjoint hash tx hash' tx' k (Option.filter_eq_some_iff.mp h).1
      (Option.filter_eq_some_iff.mp h').1

def erase (pool : Pool env Tx) (txHash : Hash) : Pool env Tx := pool.retain fun tx => tx.txHash ≠ txHash

theorem txs_erase (pool : Pool env Tx) (txHash hash : Hash) :
    (pool.erase txHash).txs hash = if hash = txHash then none else pool.txs hash := by
  show (pool.txs hash).filter _ = _
  cases htx : pool.txs hash with
  | none => simp
  | some tx =>
    obtain rfl := pool.keyed hash tx htx
    by_cases heq : tx.txHash = txHash
    · simp [heq]
    · simp [heq]

/-- A transaction whose key images no transaction of the pool spends. -/
def New (pool : Pool env Tx) (tx : TransactionVerificationData) : Prop :=
  ∀ hash tx', pool.txs hash = some tx' → ∀ k ∈ tx.tx.keyImages, k ∉ tx'.tx.keyImages

theorem update_cases {txs : Hash → Option TransactionVerificationData} {tx : TransactionVerificationData}
    (h : Function.update txs tx.txHash (some tx) hash = some tx') :
    (hash = tx.txHash ∧ tx' = tx) ∨ (hash ≠ tx.txHash ∧ txs hash = some tx') := by
  by_cases heq : hash = tx.txHash
  · rw [heq, update_self] at h
    exact .inl ⟨heq, (some.inj h).symm⟩
  · rw [update_of_ne heq] at h
    exact .inr ⟨heq, h⟩

def insert (pool : Pool env Tx) (tx : TransactionVerificationData) (htx : Poolable env Tx tx)
    (hnew : pool.New tx) : Pool env Tx where
  txs := Function.update pool.txs tx.txHash (some tx)
  keyed hash tx' h := by
    rcases update_cases h with ⟨rfl, rfl⟩ | ⟨-, h⟩
    · rfl
    · exact pool.keyed hash tx' h
  poolable hash tx' h := by
    rcases update_cases h with ⟨-, rfl⟩ | ⟨-, h⟩
    · exact htx
    · exact pool.poolable hash tx' h
  disjoint hash₁ tx₁ hash₂ tx₂ k h₁ h₂ hk₁ hk₂ := by
    rcases update_cases h₁ with ⟨rfl, rfl⟩ | ⟨-, hold₁⟩
    · rcases update_cases h₂ with ⟨rfl, rfl⟩ | ⟨-, hold₂⟩
      · rfl
      · exact absurd hk₂ (hnew hash₂ tx₂ hold₂ k hk₁)
    · rcases update_cases h₂ with ⟨rfl, rfl⟩ | ⟨-, hold₂⟩
      · exact absurd hk₁ (hnew hash₁ tx₁ hold₁ k hk₂)
      · exact pool.disjoint hash₁ tx₁ hash₂ tx₂ k hold₁ hold₂ hk₁ hk₂

end Pool

variable {pool : Pool env Tx} {tables tables' : Tables} {tx : TransactionVerificationData}

/-- The tables hold the transactions of the pool and nothing else. -/
structure Holds (pool : Pool env Tx) (tables : Tables) : Prop where
  blobs : ∀ hash, tables.transactionBlobs.lookup hash = (pool.txs hash).map (·.txBlob)
  infos : ∀ hash, (tables.transactionInfos.lookup hash).map (fun info => (info.fee, info.weight)) =
    (pool.txs hash).map fun tx => (tx.fee, tx.txWeight)
  states : ∀ hash, tables.cachedVerificationState.lookup hash =
    (pool.txs hash).bind fun tx => ofState tx.cachedVerificationState
  spent : ∀ k hash, tables.spentKeyImages.lookup k = some hash ↔ ∃ tx, pool.txs hash = some tx ∧
    k ∈ tx.tx.keyImages
  known : ∀ blobHash hash, tables.knownBlobHashes.lookup blobHash = some hash ↔
    ∃ tx, pool.txs hash = some tx ∧ env.transactionBlobHash tx.txBlob = blobHash

theorem holds_empty : Holds (Pool.empty : Pool env Tx) .empty where
  blobs _ := rfl
  infos _ := rfl
  states _ := rfl
  spent k hash := by simp [Tables.empty, Pool.empty]
  known blobHash hash := by simp [Tables.empty, Pool.empty]

theorem Holds.getTransactionVerificationData_eq (h : Holds pool tables) (htx : pool.txs txHash = some tx)
    (hne : NonZero tx.cachedVerificationState) :
    getTransactionVerificationData env txHash tables = some tx := by
  have hpoolable := pool.poolable txHash tx htx
  obtain rfl := pool.keyed txHash tx htx
  have hblob := h.blobs tx.txHash
  have hinfo := h.infos tx.txHash
  have hstate := h.states tx.txHash
  rw [htx] at hblob hinfo hstate
  obtain ⟨info, hlookup, hpair⟩ := map_eq_some_iff.mp hinfo
  obtain ⟨hfee, hweight⟩ := Prod.mk.inj hpair
  obtain ⟨raw, hraw⟩ := isSome_iff_exists.mp hpoolable.stored
  rw [bind_some, hraw] at hstate
  unfold getTransactionVerificationData
  simp only [hblob, hlookup, hstate, map_some, bind_eq_bind, bind_some,
    toState_ofState hraw hne, hpoolable.fields.readTx, hpoolable.fields.version, hfee, hweight]

/-! ## Requests -/

/-- The tables without a transaction. -/
def Tables.without (env : PoolEnv) (tables : Tables) (txHash : Hash)
    (tx : TransactionVerificationData) : Tables where
  transactionBlobs := tables.transactionBlobs.erase txHash
  transactionInfos := tables.transactionInfos.erase txHash
  cachedVerificationState := tables.cachedVerificationState.erase txHash
  spentKeyImages := tables.spentKeyImages.eraseAll tx.tx.keyImages
  knownBlobHashes := tables.knownBlobHashes.erase (env.transactionBlobHash tx.txBlob)

theorem Holds.removeTransaction_eq (h : Holds pool tables) (htx : pool.txs txHash = some tx) :
    removeTransaction env txHash tables = .ok (tables.without env txHash tx) := by
  have hpoolable := pool.poolable txHash tx htx
  have hblob := h.blobs txHash
  rw [htx, map_some] at hblob
  unfold removeTransaction
  simp only [hblob, hpoolable.fields.readTx, orPanic]
  show (removeTxKeyImages tx.tx.txPrefix.inputs tables.spentKeyImages).bind _ = _
  rw [removeTxKeyImages_eq hpoolable.keyInputs]
  rfl

theorem Holds.removeTransaction_none (h : Holds pool tables) (htx : pool.txs txHash = none) :
    removeTransaction env txHash tables = .error (.error .keyNotFound) := by
  have hblob := h.blobs txHash
  rw [htx] at hblob
  unfold removeTransaction
  rw [hblob]
  rfl

theorem Pool.eq_of_blobHash_eq (hdiff : HashesDiffer env Tx) (htx : pool.txs txHash = some tx)
    (htx' : pool.txs hash = some tx')
      (heq : env.transactionBlobHash tx'.txBlob = env.transactionBlobHash tx.txBlob) :
    hash = txHash := by
  have hpoolable := pool.poolable txHash tx htx
  have hpoolable' := pool.poolable hash tx' htx'
  rw [hpoolable.fields.txBlob, hpoolable'.fields.txBlob] at heq
  have hsame := hdiff.blobHash _ _ hpoolable'.kind hpoolable.kind heq
  rw [← pool.keyed hash tx' htx', ← pool.keyed txHash tx htx, hpoolable.fields.txHash,
    hpoolable'.fields.txHash, hsame]

/-- A transaction of the pool is removed. -/
theorem Holds.without (h : Holds pool tables) (hdiff : HashesDiffer env Tx)
    (htx : pool.txs txHash = some tx) :
    Holds (pool.erase txHash) (tables.without env txHash tx) := by
  refine ⟨fun hash => ?_, fun hash => ?_, fun hash => ?_, fun k hash => ?_, fun blobHash hash => ?_⟩
  · show (tables.transactionBlobs.erase txHash).lookup hash = _
    rw [lookup_erase_ite, Pool.txs_erase, h.blobs]
    split <;> rfl
  · show ((tables.transactionInfos.erase txHash).lookup hash).map _ = _
    rw [lookup_erase_ite, Pool.txs_erase]
    split
    · rfl
    · exact h.infos hash
  · show (tables.cachedVerificationState.erase txHash).lookup hash = _
    rw [lookup_erase_ite, Pool.txs_erase, h.states]
    split <;> rfl
  · show (tables.spentKeyImages.eraseAll tx.tx.keyImages).lookup k = some hash ↔ _
    rw [lookup_eraseAll]
    simp only [Pool.txs_erase]
    by_cases hk : k ∈ tx.tx.keyImages
    · rw [if_pos hk]
      refine iff_of_false (some_ne_none _).symm ?_
      rintro ⟨tx', htx', hk'⟩
      split at htx'
      · cases htx'
      · next hne => exact hne (pool.disjoint hash tx' txHash tx k htx' htx hk' hk)
    · rw [if_neg hk, h.spent]
      refine exists_congr fun tx' => and_congr_left fun hk' => ?_
      split
      · next heq =>
        refine iff_of_false (fun htx' => hk ?_) (some_ne_none _).symm
        rw [heq, htx] at htx'
        rwa [some.inj htx']
      · rfl
  · show (tables.knownBlobHashes.erase _).lookup blobHash = some hash ↔ _
    rw [lookup_erase_ite]
    simp only [Pool.txs_erase]
    split
    · next heq =>
      refine iff_of_false (some_ne_none _).symm ?_
      rintro ⟨tx', htx', hhash⟩
      split at htx'
      · cases htx'
      · next hne => exact hne (pool.eq_of_blobHash_eq hdiff htx htx' (hhash.trans heq))
    · next hne =>
      rw [h.known]
      refine exists_congr fun tx' => and_congr_left fun hhash => ?_
      split
      · next heq =>
        refine iff_of_false (fun htx' => hne ?_) (some_ne_none _).symm
        rw [heq, htx] at htx'
        rw [← hhash, some.inj htx']
      · rfl

/-- The tables with one more transaction. -/
def Tables.withTx (env : PoolEnv) (tables : Tables) (tx : TransactionVerificationData)
    (info : TransactionInfo)
    (rawState : RawCachedVerificationState) (spentKeyImages : Table CompressedPoint Hash) : Tables where
  transactionBlobs := tables.transactionBlobs.insert tx.txHash tx.txBlob
  transactionInfos := tables.transactionInfos.insert tx.txHash info
  cachedVerificationState := tables.cachedVerificationState.insert tx.txHash rawState
  spentKeyImages := spentKeyImages
  knownBlobHashes := tables.knownBlobHashes.insert (env.transactionBlobHash tx.txBlob) tx.txHash

theorem addTransaction_eq_ok (h : addTransaction env now tx stateStem tables = .ok tables') :
    ∃ rawState spentKeyImages, ofState tx.cachedVerificationState = some rawState ∧
      addTxKeyImages tx.tx.txPrefix.inputs tx.txHash tables.spentKeyImages = .ok spentKeyImages ∧
      tables' = tables.withTx env tx ⟨tx.fee, tx.txWeight, now, stateStem, false⟩
        rawState spentKeyImages := by
  obtain ⟨raw, hraw, hadd⟩ := bind_eq_ok.mp h
  obtain ⟨spentKeyImages, hkis, hadd⟩ := bind_eq_ok.mp hadd
  exact ⟨raw, spentKeyImages, orPanic_eq_ok.mp hraw, hkis, (ok.inj hadd).symm⟩

theorem Pool.insert_apply (pool : Pool env Tx) (htx : Poolable env Tx tx) (hnew : pool.New tx)
    (hash : Hash) :
    (pool.insert tx htx hnew).txs hash = if hash = tx.txHash then some tx else pool.txs hash :=
  update_apply ..

theorem Pool.tx_eq_of_hash (pool : Pool env Tx) (hdiff : HashesDiffer env Tx) (htx : Poolable env Tx tx)
    (htx' : pool.txs tx.txHash = some tx') : tx'.tx = tx.tx := by
  have hpoolable := pool.poolable _ tx' htx'
  have hhash := pool.keyed _ tx' htx'
  rw [hpoolable.fields.txHash, htx.fields.txHash] at hhash
  exact hdiff.hashTx _ _ hpoolable.kind htx.kind hhash

section
variable (h : Holds pool tables)
include h

/-- A transaction is added. -/
theorem Holds.withTx (hdiff : HashesDiffer env Tx) (htx : Poolable env Tx tx)
    (hnew : pool.New tx) {info : TransactionInfo} (hinfo : (info.fee, info.weight) = (tx.fee, tx.txWeight))
    {rawState : RawCachedVerificationState} {spentKeyImages : Table CompressedPoint Hash}
    (hstate : ofState tx.cachedVerificationState = some rawState) (hkis : ∀ k, spentKeyImages.lookup k =
      if k ∈ tx.tx.keyImages then some tx.txHash else tables.spentKeyImages.lookup k) :
    Holds (pool.insert tx htx hnew) (tables.withTx env tx info rawState spentKeyImages) := by
  refine ⟨fun hash => ?_, fun hash => ?_, fun hash => ?_, fun k hash => ?_, fun blobHash hash => ?_⟩
  · show (tables.transactionBlobs.insert tx.txHash tx.txBlob).lookup hash = _
    rw [lookup_insert_ite, Pool.insert_apply, h.blobs]
    split <;> rfl
  · show ((tables.transactionInfos.insert tx.txHash info).lookup hash).map _ = _
    rw [lookup_insert_ite, Pool.insert_apply]
    split
    · exact congrArg some hinfo
    · exact h.infos hash
  · show (tables.cachedVerificationState.insert tx.txHash rawState).lookup hash = _
    rw [lookup_insert_ite, Pool.insert_apply, h.states]
    split
    · rw [bind_some, hstate]
    · rfl
  · show spentKeyImages.lookup k = some hash ↔ _
    rw [hkis]
    by_cases hk : k ∈ tx.tx.keyImages
    · rw [if_pos hk]
      constructor
      · intro heq
        cases heq
        exact ⟨tx, update_self .., hk⟩
      · rintro ⟨tx', htx', hk'⟩
        rcases Pool.update_cases htx' with ⟨rfl, -⟩ | ⟨-, hold⟩
        · rfl
        · exact absurd hk' (hnew hash tx' hold k hk)
    · rw [if_neg hk, h.spent]
      refine exists_congr fun tx' => and_congr_left fun hk' => ?_
      rw [Pool.insert_apply]
      split
      · next heq =>
        refine iff_of_false (fun hold => hk ?_) fun heq' => hk ?_
        · rw [heq] at hold
          rwa [← pool.tx_eq_of_hash hdiff htx hold]
        · rwa [some.inj heq']
      · rfl
  · show (tables.knownBlobHashes.insert (env.transactionBlobHash tx.txBlob) tx.txHash).lookup
      blobHash = some hash ↔ _
    rw [lookup_insert_ite]
    split
    · next hblob =>
      constructor
      · intro heq
        cases heq
        exact ⟨tx, update_self .., hblob.symm⟩
      · rintro ⟨tx', htx', hblob'⟩
        have hpoolable := (pool.insert tx htx hnew).poolable hash tx' htx'
        rw [hblob, hpoolable.fields.txBlob, htx.fields.txBlob] at hblob'
        have hsame := hdiff.blobHash _ _ hpoolable.kind htx.kind hblob'
        rw [← (pool.insert tx htx hnew).keyed hash tx' htx', hpoolable.fields.txHash, hsame,
          htx.fields.txHash]
    · next hblob =>
      rw [h.known]
      refine exists_congr fun tx' => and_congr_left fun hblob' => ?_
      rw [Pool.insert_apply]
      split
      · next heq =>
        refine iff_of_false (fun hold => hblob ?_) fun heq' => hblob ?_
        · rw [heq] at hold
          rw [← hblob', (pool.poolable _ tx' hold).fields.txBlob, pool.tx_eq_of_hash hdiff htx hold,
            ← htx.fields.txBlob]
        · rw [← hblob', some.inj heq']
      · rfl

theorem Holds.addTransaction_ok (hdiff : HashesDiffer env Tx) (hfields : DataFields env tx)
    (hkind : Tx tx.tx) (hadd : addTransaction env now tx stateStem tables = .ok tables') :
    ∃ (htx : Poolable env Tx tx) (hnew : pool.New tx), Holds (pool.insert tx htx hnew) tables' := by
  obtain ⟨raw, spentKeyImages, hstate, hkis, rfl⟩ := addTransaction_eq_ok hadd
  obtain ⟨hgen, -, hunspent, hafter⟩ := addTxKeyImages_ok hkis
  have htx : Poolable env Tx tx := ⟨hfields, hkind, hgen, by rw [hstate]; rfl⟩
  have hnew : pool.New tx := by
    intro hash tx' htx' k hk hk'
    have hnone := hunspent k hk
    rw [(h.spent k hash).mpr ⟨tx', htx', hk'⟩] at hnone
    exact some_ne_none _ hnone
  exact ⟨htx, hnew, h.withTx hdiff htx hnew rfl hstate hafter⟩

theorem Holds.addTransaction_error {e : Fault TxPoolWriteError}
    (hadd : addTransaction env now tx stateStem tables = .error e) :
    (e = .panic ∧ ¬Poolable env Tx tx) ∨ ∃ owner, e = .error (.doubleSpend owner) ∧
        ((∃ tx', pool.txs owner = some tx' ∧ ∃ k ∈ tx.tx.keyImages, k ∈ tx'.tx.keyImages) ∨
          (owner = tx.txHash ∧ ¬tx.tx.keyImages.Nodup)) := by
  unfold addTransaction at hadd
  cases hraw : ofState tx.cachedVerificationState with
  | none =>
    rw [hraw] at hadd
    refine .inl ⟨(error.inj hadd).symm, fun htx => ?_⟩
    have hstored := htx.stored
    rw [hraw] at hstored
    exact Bool.false_ne_true hstored
  | some raw =>
    rw [hraw] at hadd
    cases hkis : addTxKeyImages tx.tx.txPrefix.inputs tx.txHash tables.spentKeyImages with
    | ok kis =>
      rw [hkis] at hadd
      cases hadd
    | error e' =>
      rw [hkis] at hadd
      cases hadd
      rcases addTxKeyImages_error hkis with ⟨he, height, hgen⟩ | ⟨owner, he, hcases⟩
      · exact .inl ⟨he, fun htx => htx.keyInputs height hgen⟩
      · refine .inr ⟨owner, he, hcases.imp_left ?_⟩
        rintro ⟨k, hk, hspent⟩
        obtain ⟨tx', htx', hk'⟩ := (h.spent k owner).mp hspent
        exact ⟨tx', htx', k, hk, hk'⟩

theorem Holds.promote (hpromote : TxPool.promote now txHash tables = .ok tables') :
    Holds pool tables' := by
  unfold TxPool.promote at hpromote
  split at hpromote
  · cases hpromote
  · next info hinfo =>
    cases hpromote
    refine { h with infos := fun hash => ?_ }
    rw [← h.infos hash]
    rw [lookup_insert_ite]
    split
    · next heq => rw [heq, hinfo]; rfl
    · rfl

end

/-- The transaction spends one of the key images. -/
def Spends (kis : List CompressedPoint) (tx : TransactionVerificationData) : Prop :=
  ∃ k ∈ kis, k ∈ tx.tx.keyImages

instance (kis : List CompressedPoint) (tx : TransactionVerificationData) : Decidable (Spends kis tx) :=
  inferInstanceAs (Decidable (∃ k ∈ kis, k ∈ tx.tx.keyImages))

/-- The pool without what a block has spent. -/
def Pool.afterBlock (pool : Pool env Tx) (kis : List CompressedPoint) : Pool env Tx :=
  pool.retain fun tx => ¬Spends kis tx

variable {kis : List CompressedPoint}

theorem Pool.afterBlock_eq_some :
    (pool.afterBlock kis).txs hash = some tx ↔ pool.txs hash = some tx ∧ ¬Spends kis tx := by
  show (pool.txs hash).filter _ = some tx ↔ _
  rw [Option.filter_eq_some_iff, decide_eq_true_iff]

theorem spends_concat : Spends (kis ++ [k]) tx ↔ Spends kis tx ∨ k ∈ tx.tx.keyImages := by
  simp [Spends, or_and_right, exists_or]

/-- What a round of the loop has done: the hashes that were reported are those of the removed
transactions. -/
structure Removed (pool : Pool env Tx) (kis : List CompressedPoint) (state : List Hash × Tables) :
    Prop where
  holds : Holds (pool.afterBlock kis) state.2
  nodup : state.1.Nodup
  reported : ∀ hash, hash ∈ state.1 ↔ ∃ tx, pool.txs hash = some tx ∧ Spends kis tx

theorem Removed.round (hdiff : HashesDiffer env Tx) {state : List Hash × Tables}
    (h : Removed pool kis state) (k : CompressedPoint) :
    ∃ state', newBlockRound env state k = .ok state' ∧ Removed pool (kis ++ [k]) state' := by
  cases hlookup : state.2.spentKeyImages.lookup k with
  | none =>
    have hspends : ∀ hash tx, pool.txs hash = some tx → (Spends (kis ++ [k]) tx ↔ Spends kis tx) := by
      intro hash tx htx
      rw [spends_concat]
      refine ⟨fun hor => by_contra fun hnot => ?_, .inl⟩
      have hkept := Pool.afterBlock_eq_some.mpr ⟨htx, hnot⟩
      have hspent := (h.holds.spent k hash).mpr ⟨tx, hkept, hor.resolve_left hnot⟩
      rw [hlookup] at hspent
      exact some_ne_none _ hspent.symm
    have hpool : pool.afterBlock (kis ++ [k]) = pool.afterBlock kis := by
      refine Pool.ext (funext fun hash => Option.ext fun tx => ?_)
      rw [Pool.afterBlock_eq_some, Pool.afterBlock_eq_some]
      exact and_congr_right fun htx => not_congr (hspends hash tx htx)
    refine ⟨state, by unfold newBlockRound; rw [hlookup], by rw [hpool]; exact h.holds, h.nodup, fun hash => ?_⟩
    rw [h.reported]
    exact exists_congr fun tx => and_congr_right fun htx => (hspends hash tx htx).symm
  | some txHash =>
    obtain ⟨tx, hkept, hk⟩ := (h.holds.spent k txHash).mp hlookup
    obtain ⟨htx, hnot⟩ := Pool.afterBlock_eq_some.mp hkept
    -- no other transaction of the pool spends the key image
    have honly : ∀ hash tx', pool.txs hash = some tx' → (k ∈ tx'.tx.keyImages ↔ hash = txHash) := by
      intro hash tx' htx'
      constructor
      · exact fun hk' => pool.disjoint hash tx' txHash tx k htx' htx hk' hk
      · rintro rfl
        rwa [some.inj (htx'.symm.trans htx)]
    have hpool : pool.afterBlock (kis ++ [k]) = (pool.afterBlock kis).erase txHash := by
      refine Pool.ext (funext fun hash => Option.ext fun tx' => ?_)
      rw [Pool.txs_erase, Pool.afterBlock_eq_some, spends_concat, not_or]
      split
      · next heq =>
        refine iff_of_false ?_ (some_ne_none _).symm
        rintro ⟨htx', -, hk'⟩
        exact hk' ((honly hash tx' htx').mpr heq)
      · next hne =>
        rw [Pool.afterBlock_eq_some]
        refine and_congr_right fun htx' => and_iff_left fun hk' => ?_
        exact hne ((honly hash tx' htx').mp hk')
    refine ⟨_, by unfold newBlockRound; rw [hlookup]; simp only [h.holds.removeTransaction_eq hkept]; rfl, ?_, ?_,
      fun hash => ?_⟩
    · rw [hpool]
      exact h.holds.without hdiff hkept
    · refine nodup_append.mpr ⟨h.nodup, nodup_singleton _, ?_⟩
      intro hash hmem hash' hmem' heq
      rw [List.mem_singleton.mp hmem'] at heq
      obtain ⟨tx', htx', hspends⟩ := (h.reported hash).mp hmem
      rw [heq, htx] at htx'
      exact hnot (some.inj htx' ▸ hspends)
    · rw [List.mem_append, List.mem_singleton, h.reported]
      constructor
      · rintro (⟨tx', htx', hspends⟩ | rfl)
        · exact ⟨tx', htx', spends_concat.mpr (.inl hspends)⟩
        · exact ⟨tx, htx, spends_concat.mpr (.inr hk)⟩
      · rintro ⟨tx', htx', hspends⟩
        refine (spends_concat.mp hspends).imp (fun hold => ⟨tx', htx', hold⟩) fun hk' => ?_
        exact (honly hash tx' htx').mp hk'

theorem Holds.newBlock (h : Holds pool tables) (hdiff : HashesDiffer env Tx) (kis : List CompressedPoint) :
    ∃ state, TxPool.newBlock env kis tables = .ok state ∧ Removed pool kis state := by
  induction kis using reverseRecOn with
  | nil =>
    have hpool : pool.afterBlock [] = pool := by
      refine Pool.ext (funext fun hash => Option.ext fun tx => ?_)
      rw [Pool.afterBlock_eq_some]
      exact and_iff_left (by simp [Spends])
    refine ⟨([], tables), rfl, by rw [hpool]; exact h, nodup_nil, fun hash => ?_⟩
    simp [Spends]
  | append_singleton kis k ih =>
    obtain ⟨state, hstate, hremoved⟩ := ih
    obtain ⟨state', hround, hremoved'⟩ := hremoved.round hdiff k
    refine ⟨state', ?_, hremoved'⟩
    unfold TxPool.newBlock at hstate ⊢
    rw [foldlM_append, hstate]
    show (newBlockRound env state k).bind pure = _
    rw [hround]
    rfl

/-- A request keeps the tables in step with a pool. Its transactions are those that were added. -/
theorem Holds.request (h : Holds pool tables) (hdiff : HashesDiffer env Tx) {added : Added}
    (hadded : ∀ hash tx, pool.txs hash = some tx → added hash = some tx) (now : UInt64)
      (req : TxpoolWriteRequest)
    (hfields : ∀ tx stateStem, req = .addTransaction tx stateStem → DataFields env tx ∧ Tx tx.tx) :
    ∃ pool' : Pool env Tx, Holds pool' (handleTxpoolRequest env now tables req).2 ∧
      ∀ hash tx, pool'.txs hash = some tx →
        added.after req (handleTxpoolRequest env now tables req).1 hash = some tx := by
  cases req with
  | addTransaction tx stateStem =>
    obtain ⟨hdata, hkind⟩ := hfields tx stateStem rfl
    simp only [handleTxpoolRequest]
    split
    · next tables' hadd =>
      obtain ⟨htx, hnew, hholds⟩ := h.addTransaction_ok hdiff hdata hkind hadd
      refine ⟨_, hholds, fun hash tx' htx' => ?_⟩
      show Function.update added tx.txHash (some tx) hash = some tx'
      rw [Pool.insert_apply] at htx'
      rw [update_apply]
      split at htx'
      · next heq => rwa [if_pos heq]
      · next hne => rw [if_neg hne]; exact hadded hash tx' htx'
    · exact ⟨pool, h, hadded⟩
    · exact ⟨pool, h, hadded⟩
  | removeTransaction txHash =>
    simp only [handleTxpoolRequest]
    cases htx : pool.txs txHash with
    | none =>
      simp only [h.removeTransaction_none htx]
      exact ⟨pool, h, hadded⟩
    | some tx =>
      simp only [h.removeTransaction_eq htx]
      refine ⟨_, h.without hdiff htx, fun hash tx' htx' => hadded hash tx' ?_⟩
      rw [Pool.txs_erase] at htx'
      split at htx'
      · cases htx'
      · exact htx'
  | promote txHash =>
    simp only [handleTxpoolRequest]
    split
    · next tables' hpromote => exact ⟨pool, h.promote hpromote, hadded⟩
    · exact ⟨pool, h, hadded⟩
  | newBlock kis =>
    obtain ⟨state, hstate, hremoved⟩ := h.newBlock hdiff kis
    simp only [handleTxpoolRequest, hstate]
    exact ⟨_, hremoved.holds, fun hash tx htx => hadded hash tx (Pool.afterBlock_eq_some.mp htx).1⟩

theorem Reachable.holds (hdiff : HashesDiffer env Tx) {added : Added} (h : Reachable env Tx added tables) :
    ∃ pool : Pool env Tx, Holds pool tables ∧ ∀ hash tx, pool.txs hash = some tx →
      added hash = some tx := by
  induction h with
  | empty => exact ⟨.empty, holds_empty, fun hash tx htx => absurd htx (some_ne_none _).symm⟩
  | request now req hreach hfields ih =>
    obtain ⟨pool, hholds, hadded⟩ := ih
    exact hholds.request hdiff hadded now req hfields

/-- What a request to add a transaction does: the response, and the tables afterwards. -/
inductive AddOutcome (pool : Pool env Tx) (tables : Tables) (tx : TransactionVerificationData) :
    Except (Fault TxPoolWriteError) TxpoolWriteResponse × Tables → Prop where
  /-- A transaction of the pool shares a key image. -/
  | shared (owner : Hash) (tx' : TransactionVerificationData) (k : CompressedPoint)
      (howner : pool.txs owner = some tx') (hk : k ∈ tx.tx.keyImages) (hk' : k ∈ tx'.tx.keyImages) :
      AddOutcome pool tables tx (.ok (.addTransaction (some owner)), tables)
  /-- The transaction spends a key image twice, and is reported itself. -/
  | repeated (hdup : ¬tx.tx.keyImages.Nodup) :
      AddOutcome pool tables tx (.ok (.addTransaction (some tx.txHash)), tables)
  | added (tables' : Tables) (htx : Poolable env Tx tx) (hnew : pool.New tx)
      (hholds : Holds (pool.insert tx htx hnew) tables') :
      AddOutcome pool tables tx (.ok (.addTransaction none), tables')
  /-- The transaction has a miner input, or a verification state that cannot be stored. -/
  | panicked (hnot : ¬Poolable env Tx tx) : AddOutcome pool tables tx (.error .panic, tables)

theorem Holds.addOutcome (h : Holds pool tables) (hdiff : HashesDiffer env Tx)
    (hfields : DataFields env tx)
    (hkind : Tx tx.tx) (now : UInt64) (stateStem : Bool) :
    AddOutcome pool tables tx (handleTxpoolRequest env now tables (.addTransaction tx stateStem)) := by
  simp only [handleTxpoolRequest]
  cases hadd : addTransaction env now tx stateStem tables with
  | ok tables' =>
    obtain ⟨htx, hnew, hholds⟩ := h.addTransaction_ok hdiff hfields hkind hadd
    exact .added tables' htx hnew hholds
  | error e =>
    rcases h.addTransaction_error hadd with ⟨rfl, hnot⟩ | ⟨owner, rfl, hcases⟩
    · exact .panicked hnot
    · rcases hcases with ⟨tx', howner, k, hk, hk'⟩ | ⟨rfl, hdup⟩
      · exact .shared owner tx' k howner hk hk'
      · exact .repeated hdup

/-- In every reachable state the tables hold the transactions of a pool, whose data is read back. A
new block removes exactly the transactions that spend one of its key images and reports each
once. -/
theorem Reachable.tables_in_step (hdiff : HashesDiffer env Tx)
    {added : Added} (h : Reachable env Tx added tables) :
    ∃ pool : Pool env Tx, Holds pool tables ∧ (∀ hash tx, pool.txs hash = some tx → added hash = some tx ∧
        (NonZero tx.cachedVerificationState → getTransactionVerificationData env hash tables = some tx)) ∧
      (∀ now tx stateStem, DataFields env tx → Tx tx.tx →
        AddOutcome pool tables tx (handleTxpoolRequest env now tables (.addTransaction tx stateStem))) ∧
      ∀ now kis, ∃ txsRemoved tables',
        handleTxpoolRequest env now tables (.newBlock kis) = (.ok (.newBlock txsRemoved), tables') ∧
        Holds (pool.afterBlock kis) tables' ∧ txsRemoved.Nodup ∧
        ∀ hash, hash ∈ txsRemoved ↔ ∃ tx, pool.txs hash = some tx ∧ Spends kis tx := by
  obtain ⟨pool, hholds, hadded⟩ := h.holds hdiff
  refine ⟨pool, hholds, fun hash tx htx => ?_, fun now tx stateStem hfields hkind => ?_, fun now kis => ?_⟩
  · exact ⟨hadded hash tx htx, hholds.getTransactionVerificationData_eq htx⟩
  · exact hholds.addOutcome hdiff hfields hkind now stateStem
  · obtain ⟨⟨txsRemoved, tables'⟩, hblock, hremoved⟩ := hholds.newBlock hdiff kis
    refine ⟨txsRemoved, tables', ?_, hremoved.holds, hremoved.nodup, hremoved.reported⟩
    simp only [handleTxpoolRequest, hblock]

def onceTx : Transaction := .v1 ⟨.none, [.toKey (some 9) [0] 5], [⟨some 3, 11, none⟩], []⟩ []

def twiceTx : Transaction :=
  .v1 ⟨.none, [.toKey (some 9) [0] 6, .toKey (some 9) [1] 6], [⟨some 3, 12, none⟩], []⟩ []

/-- The bytes of a transaction are a tag. -/
def tagEnv : PoolEnv where
  oxide :=
    { serializeBlock := fun _ => []
      hashBlock := fun _ => 0
      serializePowHash := fun _ => []
      serializeTx := fun tx => if tx = onceTx then [0] else [1]
      hashTx := fun tx => if tx = onceTx then 40 else 41
      txWeight := fun _ => 80 }
  readTx := fun bytes => some (if bytes = [0] then onceTx else twiceTx)
  transactionBlobHash := fun bytes => if bytes = [0] then 50 else 51

def onceData : TransactionVerificationData := ⟨onceTx, .ringSignatures, [0], 80, 6, 40, .notVerified⟩

def twiceData : TransactionVerificationData := ⟨twiceTx, .ringSignatures, [1], 80, 15, 41, .notVerified⟩

theorem twiceData_fields : DataFields tagEnv twiceData := ⟨by decide, by decide, by decide, by decide⟩

/-- The empty pool refuses the transaction and reports its own hash. -/
theorem addTransaction_twiceData : DataFields tagEnv twiceData ∧
      handleTxpoolRequest tagEnv 0 .empty (.addTransaction twiceData false) =
        (.ok (.addTransaction (some twiceData.txHash)), .empty) ∧
      Tables.empty.transactionBlobs.lookup twiceData.txHash = none := by
  refine ⟨twiceData_fields, ?_, lookup_empty _⟩
  simp [handleTxpoolRequest, addTransaction, addTxKeyImages, addKeyImage, kiFromInput, twiceData, twiceTx,
    ofState, orPanic, Transaction.txPrefix, Tables.empty, bind, Except.bind]

theorem tagEnv_hashesDiffer : HashesDiffer tagEnv (· ∈ [onceTx, twiceTx]) := by
  have hhash : ∀ tx ∈ [onceTx, twiceTx], ∀ tx' ∈ [onceTx, twiceTx],
      tagEnv.oxide.hashTx tx = tagEnv.oxide.hashTx tx' → tx = tx' := by decide
  have hblob : ∀ tx ∈ [onceTx, twiceTx], ∀ tx' ∈ [onceTx, twiceTx],
      tagEnv.transactionBlobHash (tagEnv.oxide.serializeTx tx) =
        tagEnv.transactionBlobHash (tagEnv.oxide.serializeTx tx') → tx = tx' := by decide
  exact ⟨fun tx tx' htx htx' => hhash tx htx tx' htx', fun tx tx' htx htx' => hblob tx htx tx' htx'⟩

/-- A transaction that spends a key image once is added to the empty pool. -/
theorem tables_in_step_onceData : ∃ pool : Pool tagEnv (· ∈ [onceTx, twiceTx]), Holds pool .empty ∧
      AddOutcome pool .empty onceData
        (handleTxpoolRequest tagEnv 0 .empty (.addTransaction onceData false)) := by
  have hfields : DataFields tagEnv onceData := ⟨by decide, by decide, by decide, by decide⟩
  obtain ⟨pool, hholds, -, hadd, -⟩ := Reachable.tables_in_step tagEnv_hashesDiffer .empty
  exact ⟨pool, hholds, hadd 0 onceData false hfields (.head _)⟩

end Cuprate.TxPool
