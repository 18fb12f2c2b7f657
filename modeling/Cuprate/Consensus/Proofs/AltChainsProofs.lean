import Cuprate.Consensus.AltChains
import Cuprate.Consensus.Proofs.RandomXProofs
import Cuprate.Storage.Proofs.AltBlocksProofs

/-!
# The RandomX seeds of alternative blocks

The VM of an alternative block is built from a block of the chain that its context names as its
parent. That is the chain the branch started on, also when the branch gets longer.
-/

namespace Cuprate.Consensus

open Collections Storage Finmap List Option Except ChainDb RandomXVmCache
open BitVec (ofNat)

namespace RandomXVmCache

variable {H : Type} {chain : List H} {c : RandomXVmCache H}

/-- The seeds and the VMs are those of blocks of the chain, also when the cache has lost a seed or a
VM. -/
structure Sound (chain : List H) (c : RandomXVmCache H) : Prop where
  seeds : ∀ s ∈ c.seeds, chain[s.1]? = some s.2
  vms : ∀ height vm, c.vms.lookup height = some vm → chain[height]? = some vm.seed
  cached : ∀ p, c.cachedVm = some p → p.2 = .new p.1

theorem sound_addVm (h : Sound chain c) (seed : H) : Sound chain (c.addVm (seed, .new seed)) := by
  refine ⟨h.seeds, h.vms, fun p hp => ?_⟩
  cases hp
  rfl

theorem sound_initFromChainHeight {hf : HardFork} {chainHeight : Nat}
    (hinit : initFromChainHeight chainHeight hf chain = some c) : Sound chain c := by
  obtain ⟨heights, -, hinit⟩ := bind_eq_some_iff.mp hinit
  obtain ⟨hashes, hget, heq⟩ := bind_eq_some_iff.mp hinit
  cases heq
  have hseeds := (getBlockHashes_zip hget).2
  refine ⟨hseeds, fun height vm hvm => ?_, fun p hp => nomatch hp⟩
  have hvm : (if HardFork.V12 ≤ hf then newVms _ else ∅ : Table Nat (RandomXVm H)).lookup height =
      some vm := hvm
  split at hvm
  · exact hseeds _ (mem_of_lookup_newVms hvm)
  · cases hvm

theorem sound_newBlock (h : Sound chain c) (hash : H) :
    Sound (chain ++ [hash]) (c.newBlock chain.length hash) := by
  have hseeds : ∀ s ∈ (chain.length, hash) :: c.seeds, (chain ++ [hash])[s.1]? = some s.2 := by
    refine forall_mem_cons.mpr ⟨getElem?_concat_length, fun s hs => ?_⟩
    exact getElem?_concat_of_eq_some (h.seeds s hs)
  have hvms (height : Nat) (vm : RandomXVm H) (hvm : c.vms.lookup height = some vm) :
      (chain ++ [hash])[height]? = some vm.seed := getElem?_concat_of_eq_some (h.vms height vm hvm)
  unfold newBlock
  split
  · dsimp only
    split
    · refine ⟨fun s hs => hseeds s (mem_of_mem_dropLast hs), fun height vm hvm => ?_, h.cached⟩
      rw [lookup_retain] at hvm
      exact hvms height vm (Option.filter_eq_some_iff.mp hvm).1
    · exact ⟨hseeds, hvms, h.cached⟩
  · exact ⟨fun s hs => hseeds s (.tail _ hs), hvms, h.cached⟩

theorem sound_popBlocksMainChain {newHeight : Nat} {c' : RandomXVmCache H} (h : Sound chain c)
    (hpop : c.popBlocksMainChain newHeight (chain.take (newHeight + 1)) = some c') :
    Sound (chain.take (newHeight + 1)) c' := by
  have htake {i : Nat} {x : H} (hi : i < newHeight) (hx : chain[i]? = some x) :
      (chain.take (newHeight + 1))[i]? = some x := by
    rw [getElem?_take_of_lt (Nat.lt_succ_of_lt hi), hx]
  have hseeds : ∀ s ∈ c.seeds.filter fun s =>
      s.1 < newHeight, (chain.take (newHeight + 1))[s.1]? = some s.2 := by
    intro s hs
    obtain ⟨hmem, hlt⟩ := mem_filter.mp hs
    exact htake (of_decide_eq_true hlt) (h.seeds s hmem)
  have hvms (height : Nat) (vm : RandomXVm H)
      (hvm : (c.vms.retain fun height _ => height < newHeight).lookup height = some vm) :
      (chain.take (newHeight + 1))[height]? = some vm.seed := by
    rw [lookup_retain] at hvm
    obtain ⟨hlookup, hlt⟩ := Option.filter_eq_some_iff.mp hvm
    exact htake (of_decide_eq_true hlt) (h.vms height vm hlookup)
  unfold popBlocksMainChain at hpop
  dsimp only at hpop
  split at hpop
  · obtain ⟨lastHeights, -, hpop⟩ := bind_eq_some_iff.mp hpop
    split at hpop
    · cases hpop
    · obtain ⟨hashes, hget, heq⟩ := bind_eq_some_iff.mp hpop
      cases heq
      refine ⟨fun s hs => ?_, hvms, h.cached⟩
      rcases mem_append.mp hs with hmem | hmem
      · exact hseeds s hmem
      · exact (getBlockHashes_zip hget).2 s hmem
  · cases hpop
    exact ⟨hseeds, hvms, h.cached⟩

theorem sound_getVms [DecidableEq H] (h : Sound chain c) : Sound chain c.getVms.2 := by
  show Sound chain (if c.seeds.length = c.vms.len then c else _)
  split
  · exact h
  · split
    · split
      · exact h
      · next seedHeight nextSeedHash seeds hseeds =>
        refine ⟨h.seeds, fun height vm hvm => ?_, fun p hp => nomatch hp⟩
        have hvm : (c.vms.insert seedHeight (c.takeCachedVm nextSeedHash)).lookup height = some vm := hvm
        rw [lookup_insert_ite, takeCachedVm_eq h.cached] at hvm
        split at hvm
        · next heq =>
          rw [heq, ← some.inj hvm]
          exact h.seeds (seedHeight, nextSeedHash) (by rw [hseeds]; exact .head _)
        · exact h.vms height vm hvm
    · exact ⟨h.seeds, fun height vm hvm => h.seeds _ (mem_of_lookup_newVms hvm), h.cached⟩

theorem getAltVm_eq {db : ChainDb} {c : RandomXVmCache Hash} (h : Sound db.mainChain c) (height : Nat)
    (chain : Chain) :
    c.getAltVm height chain db = (db.blockHash (randomxSeedHeight height) chain).map .new := by
  unfold getAltVm
  cases db.blockHash (randomxSeedHeight height) chain with
  | none => rfl
  | some seedHash =>
    dsimp only [bind, Option.bind]
    cases hfind : c.seeds.find? fun s => s.2 = seedHash with
    | none => rfl
    | some s =>
      have hseed : s.2 = seedHash := by simpa using find?_some hfind
      dsimp only
      cases hvm : c.vms.lookup s.1 with
      | none => rfl
      | some vm =>
        -- the seed and the VM of a height are both those of the block there
        have heq := (h.vms s.1 vm hvm).symm.trans (h.seeds s (mem_of_find?_eq_some hfind))
        rw [hseed] at heq
        cases heq
        rfl

end RandomXVmCache

namespace AltNode

variable {A : Ancestry Hash} {oxide : MoneroOxide} {n : AltNode} {db : ChainDb}
  {cache : AltChainContextCache}

/-! ## The contexts -/

/-- What a context says fits the branch of its top block. -/
structure ContextOk (A : Ancestry Hash) (db : ChainDb) (cache : AltChainContextCache) : Prop where
  parent_known : db.Known cache.parentChain
  length_eq : (A.chain cache.topHash).length = cache.chainHeight
  vm : ∀ seedHeight vm, cache.cachedRxVm = some (seedHeight, vm) →
    (db.branchOf A cache.parentChain)[seedHeight]? = some vm.seed

/-- The context is for the stored alternative chain that ends with its top block. -/
def OnTip (db : ChainDb) (cache : AltChainContextCache) : Prop :=
  ∃ id, cache.chainId = some id ∧ db.altTip id = some cache.topHash

/-- The context is for a new chain on top of a known block. -/
def OnKnown (db : ChainDb) (cache : AltChainContextCache) : Prop :=
  cache.chainId = none ∧
    ∃ chain height, db.findBlock cache.topHash = some (chain, height) ∧ cache.chainHeight = height + 1

/-- The contexts agree with the stored chains. -/
structure Inv (A : Ancestry Hash) (n : AltNode) : Prop where
  tables : ∃ rank, ChainDb.Inv A n.db rank
  main_ne : n.db.mainChain ≠ []
  rxVmCache : n.rxVmCache.Sound n.db.mainChain
  contexts : ∀ hash cache, n.altChainMap.lookup hash = some cache →
    cache.topHash = hash ∧ ContextOk A n.db cache ∧ OnTip n.db cache

theorem ContextOk.mono {db' : ChainDb} (h : ContextOk A db cache) (hgrows : Grows A db db') :
    ContextOk A db' cache where
  parent_known := (hgrows _ h.parent_known).1
  length_eq := h.length_eq
  vm seedHeight vm hvm := hgrows.getElem? h.parent_known (h.vm seedHeight vm hvm)

variable {altChainMap : AltChainMap} {cache' : AltChainContextCache} {rank : ChainId → Nat} {k : Nat}
  {hash : Hash}

theorem getAltChainContext_of_lookup {prevId : Hash} (h : altChainMap.lookup prevId = some cache) :
    getAltChainContext prevId altChainMap db = some (cache, altChainMap.erase prevId) := by
  unfold getAltChainContext
  rw [h]

theorem getAltChainContext_spec (h : Inv A n) {prevId : Hash}
    (hget : getAltChainContext prevId n.altChainMap n.db = some (cache, altChainMap)) :
    cache.topHash = prevId ∧ ContextOk A n.db cache ∧ (OnTip n.db cache ∨ OnKnown n.db cache) ∧
      ∀ hash cache', altChainMap.lookup hash = some cache' →
        hash ≠ prevId ∧ n.altChainMap.lookup hash = some cache' := by
  unfold getAltChainContext at hget
  split at hget
  · next cache' hcache' =>
    cases hget
    obtain ⟨htop, hok, htip⟩ := h.contexts prevId _ hcache'
    refine ⟨htop, hok, .inl htip, fun hash cache' hlookup => ?_⟩
    rw [lookup_erase_ite] at hlookup
    split at hlookup
    · cases hlookup
    · next hne => exact ⟨hne, hlookup⟩
  · next hnone =>
    obtain ⟨⟨chain, height⟩, hfind, heq⟩ := map_eq_some_iff.mp hget
    cases heq
    obtain ⟨rank, htables⟩ := h.tables
    obtain ⟨hknown, hprev⟩ := htables.findBlock_spec hfind
    obtain ⟨hlt, -⟩ := List.getElem?_eq_some_iff.mp hprev
    refine ⟨rfl, ⟨hknown, ?_, nofun⟩, .inr ⟨rfl, chain, height, hfind, rfl⟩,
      fun hash cache' hlookup => ⟨?_, hlookup⟩⟩
    · show (A.chain prevId).length = height + 1
      rw [htables.isBranch chain height prevId hprev, length_take, min_eq_left hlt]
    · rintro rfl
      exact absurd (hnone.symm.trans hlookup) (some_ne_none _).symm

theorem altRxVm_eq (h : Inv A n) (hok : ContextOk A n.db cache) {hf : Nat} (hhf : 12 ≤ hf) (blockHeight : Nat) :
    n.altRxVm blockHeight hf cache.parentChain cache =
      match (n.db.branchOf A cache.parentChain)[randomxSeedHeight blockHeight]? with
      | some seed =>
        .ok (some (.new seed), { cache with cachedRxVm := some (randomxSeedHeight blockHeight, .new seed) })
      | none => .error (.error .dbErr) := by
  obtain ⟨rank, htables⟩ := h.tables
  unfold altRxVm
  rw [if_neg (not_lt.mpr hhf)]
  dsimp only
  rw [getAltVm_eq h.rxVmCache, htables.blockHash_eq _ hok.parent_known]
  cases hcached : cachedVmFor (randomxSeedHeight blockHeight) cache with
  | none => cases (n.db.branchOf A cache.parentChain)[randomxSeedHeight blockHeight]? <;> rfl
  | some vm =>
    unfold cachedVmFor at hcached
    split at hcached
    · next cachedSeedHeight vm' hvm =>
      split at hcached
      · next heq =>
        cases hcached
        rw [heq, hok.vm _ _ hvm]
      · cases hcached
    · cases hcached

theorem altRxVm_ok (h : Inv A n) (hok : ContextOk A n.db cache) {blockHeight hf : Nat} {vm : Option (RandomXVm Hash)}
    (hvm : n.altRxVm blockHeight hf cache.parentChain cache = .ok (vm, cache')) :
    ContextOk A n.db cache' ∧ cache' = { cache with cachedRxVm := cache'.cachedRxVm } := by
  by_cases hhf : hf < 12
  · unfold altRxVm at hvm
    rw [if_pos hhf] at hvm
    cases hvm
    exact ⟨hok, rfl⟩
  · rw [altRxVm_eq h hok (not_lt.mp hhf)] at hvm
    split at hvm
    · next seed hseed =>
      cases hvm
      refine ⟨⟨hok.parent_known, hok.length_eq, ?_⟩, rfl⟩
      intro seedHeight vm' hvm'
      cases hvm'
      exact hseed
    · cases hvm

theorem prepAltBlock_ok (h : Inv A n) (hok : ContextOk A n.db cache) {block : Block}
    {prepped : Option (RandomXVm Hash) × AltChainContextCache}
      (hprep : n.prepAltBlock block cache = .ok prepped) :
    ContextOk A n.db prepped.2 ∧ prepped.2 = { cache with cachedRxVm := prepped.2.cachedRxVm } := by
  unfold prepAltBlock at hprep
  split at hprep
  · split at hprep
    · cases hprep
    · exact altRxVm_ok h hok hprep
  · cases hprep

theorem ContextOk.addAltBlock_spec (hok : ContextOk A db cache) (htables : ChainDb.Inv A db rank)
    {newChainId : ChainId} (hnew : db.altChainInfos.lookup newChainId = none)
    (hchain : A.chain hash = A.chain cache.topHash ++ [hash]) (hon : OnTip db cache ∨ OnKnown db cache) :
    ∃ info rank', ChainDb.Inv A db rank' ∧
      ChainDb.FitsOn A db rank' (cache.chainId.getD newChainId) info cache.chainHeight hash ∧
      db.addAltBlock ⟨cache.topHash, hash, cache.chainHeight, cache.chainId.getD newChainId⟩ =
        some (db.withAltBlock (cache.chainId.getD newChainId) info cache.chainHeight hash) := by
  rcases hon with ⟨id, hid, htip⟩ | ⟨hid, chain, height, hfind, hheight⟩
  · obtain ⟨info, hinfo, -⟩ := bind_eq_some_iff.mp htip
    have hlen : cache.chainHeight = info.chainHeight := by
      rw [← hok.length_eq, ← (htables.chains id info hinfo).length_eq, ChainDb.branchOf_alt htip]
    rw [hid, getD_some, hlen]
    exact ⟨_, rank, htables, htables.fitsOn_extend hinfo htip hchain, ChainDb.addAltBlock_extend hinfo⟩
  · have hne : cache.topHash ≠ hash := by
      intro heq
      have hlen := congrArg List.length hchain
      rw [heq, length_append, length_singleton] at hlen
      omega
    rw [hid, getD_none, hheight]
    exact ⟨_, _, htables.update_rank hnew _, htables.fitsOn_new hnew hfind hchain,
      ChainDb.addAltBlock_new hnew hne⟩

theorem ContextOk.length_pos (hok : ContextOk A db cache) (htables : ChainDb.Inv A db rank)
    (hon : OnTip db cache ∨ OnKnown db cache) : 0 < (A.chain cache.topHash).length := by
  rcases hon with ⟨id, hid, htip⟩ | ⟨hid, chain, height, hfind, hheight⟩
  · obtain ⟨info, hinfo, -⟩ := bind_eq_some_iff.mp htip
    have hchain := htables.chains id info hinfo
    rw [← ChainDb.branchOf_alt htip, hchain.length_eq]
    exact Nat.zero_lt_of_lt hchain.lt
  · rw [hok.length_eq, hheight]
    exact Nat.succ_pos _

theorem OnTip.withAltBlock {newChainId : ChainId} {info : AltChainInfo} {height : Nat}
    (htip : OnTip db cache')
    (hne : cache'.topHash ≠ cache.topHash) (hnew : db.altChainInfos.lookup newChainId = none)
    (hon : OnTip db cache ∨ OnKnown db cache) :
    OnTip (db.withAltBlock (cache.chainId.getD newChainId) info height hash) cache' := by
  obtain ⟨id', hid', htip'⟩ := htip
  refine ⟨id', hid', (altTip_of_ne db ?_).trans htip'⟩
  rintro rfl
  rcases hon with ⟨id, hid, htip⟩ | ⟨hid, -⟩
  · rw [hid] at htip'
    exact hne (some.inj (htip'.symm.trans htip))
  · rw [hid] at htip'
    obtain ⟨info', hinfo', -⟩ := bind_eq_some_iff.mp htip'
    exact absurd (hnew.symm.trans hinfo') (some_ne_none _).symm

theorem Inv.withMap (h : Inv A n)
    (hsub : ∀ hash cache, altChainMap.lookup hash = some cache → n.altChainMap.lookup hash = some cache) :
    Inv A { n with altChainMap := altChainMap } where
  tables := h.tables
  main_ne := h.main_ne
  rxVmCache := h.rxVmCache
  contexts hash cache hlookup := h.contexts hash cache (hsub hash cache hlookup)

variable {checks : AltBlockChecks} {newChainId : ChainId} {block : Block}

def nextContext (cache : AltChainContextCache) (vm : Option (Nat × RandomXVm Hash)) (chainId : ChainId)
    (blockHash : Hash) : AltChainContextCache :=
  { cachedRxVm := vm
    chainHeight := cache.chainHeight + 1
    topHash := blockHash
    chainId := some chainId
    parentChain := cache.parentChain }

def checkedBlock (oxide : MoneroOxide) (newChainId : ChainId) (block : Block)
    (cache : AltChainContextCache) : AltBlockInformation :=
  ⟨block.header.previous, oxide.hashBlock block, cache.chainHeight, cache.chainId.getD newChainId⟩

def putNext (altChainMap : AltChainMap) (oxide : MoneroOxide) (newChainId : ChainId) (block : Block)
    (cache : AltChainContextCache) (vm : Option (Nat × RandomXVm Hash)) : AltChainMap :=
  altChainMap.insert (oxide.hashBlock block)
    (nextContext cache vm (cache.chainId.getD newChainId) (oxide.hashBlock block))

section
variable (h : Inv A n)
include h

theorem sanityCheckAltBlock_passed {vm : Option (RandomXVm Hash)} {u : Unit}
    (hget : getAltChainContext block.header.previous n.altChainMap n.db = some (cache, altChainMap))
    (hprep : prepAltBlock block cache { n with altChainMap := altChainMap } = .ok (vm, cache'))
    (hchecks : checks vm = .ok u) :
    ContextOk A n.db { cache with cachedRxVm := cache'.cachedRxVm } ∧
      n.sanityCheckAltBlock oxide checks newChainId block =
        (.ok (checkedBlock oxide newChainId block cache),
        { n with altChainMap := putNext altChainMap oxide newChainId block cache cache'.cachedRxVm }) := by
  obtain ⟨-, hok, -, hsub⟩ := getAltChainContext_spec h hget
  have h' := h.withMap fun hash cache' hlookup => (hsub hash cache' hlookup).2
  obtain ⟨hok', hcache'⟩ := prepAltBlock_ok h' hok hprep
  have hcache' : cache' = { cache with cachedRxVm := cache'.cachedRxVm } := hcache'
  refine ⟨hcache' ▸ hok', ?_⟩
  unfold sanityCheckAltBlock
  rw [hget]
  simp only [hprep, Except.bind, hchecks, Except.map]
  rw [hcache']
  rfl

/-- A check has no context, or it takes one and fails, or it puts the context for the next block
back. -/
theorem sanityCheckAltBlock_cases (oxide : MoneroOxide) (checks : AltBlockChecks) (newChainId : ChainId)
    (block : Block) : (∃ e, n.sanityCheckAltBlock oxide checks newChainId block = (.error e, n)) ∨
    ∃ cache altChainMap, getAltChainContext block.header.previous n.altChainMap n.db =
      some (cache, altChainMap) ∧ ((∃ e, n.sanityCheckAltBlock oxide checks newChainId block =
          (.error e, { n with altChainMap := altChainMap })) ∨
        ∃ vm, ContextOk A n.db { cache with cachedRxVm := vm } ∧
          n.sanityCheckAltBlock oxide checks newChainId block =
            (.ok (checkedBlock oxide newChainId block cache),
            { n with altChainMap := putNext altChainMap oxide newChainId block cache vm })) := by
  cases hget : getAltChainContext block.header.previous n.altChainMap n.db with
  | none =>
    refine .inl ⟨.error .dbErr, ?_⟩
    unfold sanityCheckAltBlock
    rw [hget]
  | some found =>
    obtain ⟨cache, altChainMap⟩ := found
    refine .inr ⟨cache, altChainMap, rfl, ?_⟩
    cases hprep : prepAltBlock block cache { n with altChainMap := altChainMap } with
    | error e =>
      refine .inl ⟨e, ?_⟩
      simp only [sanityCheckAltBlock, hget, hprep, Except.bind]
    | ok prepped =>
      obtain ⟨vm, cache'⟩ := prepped
      cases hchecks : checks vm with
      | error e =>
        refine .inl ⟨e, ?_⟩
        simp only [sanityCheckAltBlock, hget, hprep, Except.bind, hchecks, Except.map]
      | ok u => exact .inr ⟨_, sanityCheckAltBlock_passed h hget hprep hchecks⟩

/-- A new block on top of its context keeps the invariant. -/
theorem Inv.addAltBlock {vm : Option (Nat × RandomXVm Hash)} {info : AltChainInfo}
    (hget : getAltChainContext cache.topHash n.altChainMap n.db = some (cache, altChainMap))
    (hok : ContextOk A n.db { cache with cachedRxVm := vm })
      (hchain : A.chain hash = A.chain cache.topHash ++ [hash])
    (hnew : n.db.altChainInfos.lookup newChainId = none) (htables : ChainDb.Inv A n.db rank)
    (hfits : ChainDb.FitsOn A n.db rank (cache.chainId.getD newChainId) info cache.chainHeight hash) :
    Inv A
      { n with
        db := n.db.withAltBlock (cache.chainId.getD newChainId) info cache.chainHeight hash
        altChainMap := altChainMap.insert hash
          (nextContext cache vm (cache.chainId.getD newChainId) hash) } := by
  obtain ⟨-, -, hon, hsub⟩ := getAltChainContext_spec h hget
  have hgrows := hfits.grows_withAltBlock
  refine ⟨⟨rank, htables.withAltBlock hfits⟩, h.main_ne, h.rxVmCache, ?_⟩
  intro hash' cache' hlookup
  have hlookup : (altChainMap.insert hash _).lookup hash' = some cache' := hlookup
  rw [lookup_insert_ite] at hlookup
  split at hlookup
  · next heq =>
    cases hlookup
    refine ⟨heq.symm, ?_, _, rfl, hfits.altTip_eq⟩
    have hok' := hok.mono hgrows
    refine ⟨hok'.parent_known, ?_, hok'.vm⟩
    show (A.chain hash).length = cache.chainHeight + 1
    rw [hchain, length_append, ← hok.length_eq, length_singleton]
  · obtain ⟨hne, hold⟩ := hsub hash' cache' hlookup
    obtain ⟨htop, hok', htip⟩ := h.contexts hash' cache' hold
    exact ⟨htop, hok'.mono hgrows, htip.withAltBlock (htop.symm ▸ hne) hnew hon⟩

/-- A new block that passes goes into the database. -/
theorem handleIncomingAltBlock_passed {vm : Option (Nat × RandomXVm Hash)}
    (hfind : n.db.findBlock (oxide.hashBlock block) = none)
    (hget : getAltChainContext block.header.previous n.altChainMap n.db = some (cache, altChainMap))
    (hcheck : n.sanityCheckAltBlock oxide checks newChainId block =
      (.ok (checkedBlock oxide newChainId block cache),
      { n with altChainMap := putNext altChainMap oxide newChainId block cache vm }))
    (hblock : A.chain (oxide.hashBlock block) = A.chain block.header.previous ++ [oxide.hashBlock block])
    (hnew : n.db.altChainInfos.lookup newChainId = none) :
    ∃ info rank, ChainDb.Inv A n.db rank ∧
      ChainDb.FitsOn A n.db rank (cache.chainId.getD newChainId) info cache.chainHeight
        (oxide.hashBlock block) ∧
      n.handleIncomingAltBlock oxide checks newChainId block =
        { n with
          db := n.db.withAltBlock (cache.chainId.getD newChainId) info cache.chainHeight
            (oxide.hashBlock block)
          altChainMap := putNext altChainMap oxide newChainId block cache vm } := by
  obtain ⟨htop, hok, hon, -⟩ := getAltChainContext_spec h hget
  obtain ⟨rank, htables⟩ := h.tables
  rw [← htop] at hblock
  obtain ⟨info, rank', htables', hfits, hadd⟩ := hok.addAltBlock_spec htables hnew hblock hon
  refine ⟨info, rank', htables', hfits, ?_⟩
  unfold handleIncomingAltBlock
  rw [hfind, hcheck]
  dsimp only [checkedBlock]
  rw [← htop, hadd]

theorem handleIncomingAltBlock_inv
    (hblock : A.chain (oxide.hashBlock block) = A.chain block.header.previous ++ [oxide.hashBlock block])
    (hnew : n.db.altChainInfos.lookup newChainId = none) :
    Inv A (n.handleIncomingAltBlock oxide checks newChainId block) := by
  cases hfind : n.db.findBlock (oxide.hashBlock block) with
  | some found =>
    unfold handleIncomingAltBlock
    rw [hfind]
    exact h
  | none =>
    rcases sanityCheckAltBlock_cases h oxide checks newChainId block with
      ⟨e, heq⟩ | ⟨cache, altChainMap, hget, ⟨e, heq⟩ | ⟨vm, hok, heq⟩⟩
    · unfold handleIncomingAltBlock
      rw [hfind, heq]
      exact h
    · obtain ⟨-, -, -, hsub⟩ := getAltChainContext_spec h hget
      unfold handleIncomingAltBlock
      rw [hfind, heq]
      exact h.withMap fun hash cache' hlookup => (hsub hash cache' hlookup).2
    · obtain ⟨info, rank, htables, hfits, hresult⟩ :=
        handleIncomingAltBlock_passed h hfind hget heq hblock hnew
      obtain ⟨htop, -⟩ := getAltChainContext_spec h hget
      rw [← htop] at hblock hget
      rw [hresult]
      exact h.addAltBlock hget hok hblock hnew htables hfits

theorem popBlocks_inv {n' : AltNode} {numbBlocks : Nat} {oldMainChainId : ChainId}
    (hpop : n.popBlocks numbBlocks oldMainChainId = some n') : Inv A n' := by
  obtain ⟨db, hdb, hpop⟩ := bind_eq_some_iff.mp hpop
  obtain ⟨rxVmCache, hrx, heq⟩ := bind_eq_some_iff.mp hpop
  cases heq
  obtain ⟨rank, htables⟩ := h.tables
  obtain ⟨htables', hpos, hmain⟩ := htables.popBlocks h.main_ne hdb
  have hheight : n.db.mainChain.length - numbBlocks - 1 + 1 = n.db.mainChain.length - numbBlocks :=
    Nat.sub_add_cancel hpos
  have hmain' : db.mainChain ≠ [] := by
    rw [hmain, ← length_pos_iff, length_take]
    omega
  refine ⟨⟨_, htables'⟩, hmain', ?_, fun hash cache hlookup => absurd hlookup (by simp)⟩
  rw [hmain, ← hheight] at hrx
  rw [hmain, ← hheight]
  exact sound_popBlocksMainChain h.rxVmCache hrx

theorem addMainBlock_inv {blockHash : Hash}
    (hblock : A.chain blockHash = n.db.mainChain ++ [blockHash]) : Inv A (n.addMainBlock blockHash) := by
  obtain ⟨rank, htables⟩ := h.tables
  refine ⟨⟨rank, htables.addMain hblock⟩, by simp [addMainBlock],
    sound_newBlock h.rxVmCache blockHash, ?_⟩
  intro hash cache hlookup
  obtain ⟨htop, hok, htip⟩ := h.contexts hash cache hlookup
  exact ⟨htop, hok.mono (ChainDb.grows_addMain A n.db blockHash), htip⟩

end

theorem Reachable.inv (hreach : Reachable A oxide n) : Inv A n := by
  induction hreach with
  | start hne hchain hinit =>
    refine ⟨⟨fun _ => 0, hchain, ?_, ?_, ?_, ?_⟩, hne, sound_initFromChainHeight hinit, ?_⟩
    · exact fun id info hid => absurd hid (by simp)
    · exact fun id info hid => absurd hid (by simp)
    · exact fun id h hash hstored => absurd hstored (by simp)
    · exact fun hash height hheight => absurd hheight (by simp)
    · exact fun hash cache hlookup => absurd hlookup (by simp)
  | addMainBlock hn hblock ih => exact addMainBlock_inv ih hblock
  | getVms hn ih => exact ⟨ih.tables, ih.main_ne, sound_getVms ih.rxVmCache, ih.contexts⟩
  | addVm hn seed ih => exact ⟨ih.tables, ih.main_ne, sound_addVm ih.rxVmCache seed, ih.contexts⟩
  | popBlocks hn hpop ih => exact popBlocks_inv ih hpop
  | flushAltBlocks hn hmap ih =>
    obtain ⟨rank, htables⟩ := ih.tables
    refine ⟨⟨rank, htables.flushAltBlocks⟩, ih.main_ne, ih.rxVmCache, ?_⟩
    intro hash cache hlookup
    simp [hmap] at hlookup
  | altBlock hn hblock hnew ih => exact handleIncomingAltBlock_inv ih hblock hnew

/-! ## The seed of an alternative block -/

theorem randomxSeedHeight_lt {height : Nat} (hpos : 0 < height) : randomxSeedHeight height < height := by
  obtain ⟨top, rfl⟩ := Nat.exists_eq_succ_of_ne_zero (Nat.ne_of_gt hpos)
  exact Nat.lt_succ_of_le (le_of_mem_seedHeights (randomxSeedHeight_mem top))

theorem prepAltBlock_eq (h : Inv A n) (hok : ContextOk A n.db cache)
    (hinputs : block.minerTransaction.txPrefix.inputs = [.gen cache.chainHeight])
    (hversion : 12 ≤ block.header.hardforkVersion) :
    n.prepAltBlock block cache =
      match (n.db.branchOf A cache.parentChain)[randomxSeedHeight cache.chainHeight]? with
      | some seed =>
        .ok (some (.new seed), { cache with cachedRxVm := some (randomxSeedHeight cache.chainHeight, .new seed) })
      | none => .error (.error .dbErr) := by
  unfold prepAltBlock
  rw [hinputs]
  dsimp only
  rw [if_neg (not_not.mpr rfl), altRxVm_eq h hok hversion]

theorem altBlockRxVm_eq (h : Inv A n)
    (hget : getAltChainContext block.header.previous n.altChainMap n.db = some (cache, altChainMap))
    (hinputs : block.minerTransaction.txPrefix.inputs = [.gen (A.chain block.header.previous).length])
    (hversion : 12 ≤ block.header.hardforkVersion) :
    n.altBlockRxVm block =
      match (n.db.branchOf A cache.parentChain)[
        randomxSeedHeight (A.chain block.header.previous).length]? with
      | some seed => .ok (some (.new seed))
      | none => .error (.error .dbErr) := by
  obtain ⟨htop, hok, -, -⟩ := getAltChainContext_spec h hget
  have hheight := hok.length_eq
  rw [htop] at hheight
  rw [hheight] at hinputs ⊢
  unfold altBlockRxVm
  rw [hget]
  dsimp only
  rw [prepAltBlock_eq h hok hinputs hversion]
  cases (n.db.branchOf A cache.parentChain)[randomxSeedHeight cache.chainHeight]? <;> rfl

/-- In every reachable state, the VM of an alternative block of version 12 or later is built from
its own ancestor exactly when the branch leaves the chain that its context has as the parent above
the seed height. -/
theorem altBlockRxVm_ancestor_iff (hreach : Reachable A oxide n) {altChainMap : AltChainMap}
    (hget : getAltChainContext block.header.previous n.altChainMap n.db = some (cache, altChainMap))
    (hinputs : block.minerTransaction.txPrefix.inputs = [.gen (A.chain block.header.previous).length])
    (hversion : 12 ≤ block.header.hardforkVersion) :
    (∃ vm, n.altBlockRxVm block = .ok (some vm) ∧
      (A.chain block.header.previous)[randomxSeedHeight (A.chain block.header.previous).length]? =
        some vm.seed) ↔ randomxSeedHeight (A.chain block.header.previous).length <
        commonLength (A.chain block.header.previous) (n.db.branchOf A cache.parentChain) := by
  have h := hreach.inv
  obtain ⟨rank, htables⟩ := h.tables
  obtain ⟨htop, hok, hon, -⟩ := getAltChainContext_spec h hget
  have hlt := randomxSeedHeight_lt (hok.length_pos htables hon)
  rw [htop] at hlt
  rw [← (A.isBranch_chain _).getElem?_eq_iff (htables.isBranch cache.parentChain) hlt,
    altBlockRxVm_eq h hget hinputs hversion]
  have hancestor := getElem?_eq_getElem hlt
  rw [hancestor]
  cases hseed : (n.db.branchOf A cache.parentChain)[
      randomxSeedHeight (A.chain block.header.previous).length]? with
  | none =>
    constructor
    · rintro ⟨vm, hvm, -⟩
      cases hvm
    · intro heq
      cases heq
  | some seed =>
    constructor
    · rintro ⟨vm, hvm, heq⟩
      obtain rfl := some.inj (ok.inj hvm)
      exact heq.symm
    · intro heq
      exact ⟨.new seed, rfl, heq.symm⟩

/-! ## A branch that outgrows its parent chain  A branch that leaves the main chain above block
2047. Its blocks up to height 2112 have the genesis block as their seed. The seed height of the
block at 2113 is 2048, which is the first height of the branch. -/

/-- The numbers of the blocks up to a block: those of the branch are numbered from `base` on, and
the first of them is at the height `split`. -/
def forkChain (split base number : Nat) : List Nat :=
  if number < base then List.range (number + 1)
  else List.range split ++ (List.range (number + 1 - base)).map (base + ·)

variable {split base number i j : Nat}

theorem forkChain_of_lt (h : number < base) :
    forkChain split base number = List.range (number + 1) := if_pos h

theorem forkChain_add (k : Nat) :
    forkChain split base (base + k) = List.range split ++ (List.range (k + 1)).map (base + ·) := by
  unfold forkChain
  rw [if_neg (by omega), add_assoc, Nat.add_sub_cancel_left]

theorem getElem?_range_eq_some {n : Nat} : (List.range n)[i]? = some j ↔ i < n ∧ i = j := by
  rw [List.getElem?_eq_some_iff]
  simp

theorem forkChain_getElem? (hsplit : split ≤ base) (h : (forkChain split base number)[i]? = some j) :
    j ≤ number ∧ forkChain split base j = (forkChain split base number).take (i + 1) := by
  by_cases hlt : number < base
  · rw [forkChain_of_lt hlt] at h ⊢
    obtain ⟨hi, rfl⟩ := getElem?_range_eq_some.mp h
    rw [forkChain_of_lt (by omega), take_range, min_eq_left hi]
    exact ⟨Nat.le_of_lt_succ hi, rfl⟩
  · obtain ⟨k, rfl⟩ := Nat.exists_eq_add_of_le (not_lt.mp hlt)
    rw [forkChain_add] at h ⊢
    rw [take_append, length_range]
    by_cases hi : i < split
    · rw [getElem?_append_left (by simpa using hi)] at h
      obtain ⟨-, rfl⟩ := getElem?_range_eq_some.mp h
      refine ⟨by omega, ?_⟩
      rw [forkChain_of_lt (by omega), take_range, min_eq_left hi, Nat.sub_eq_zero_of_le hi,
        take_zero, append_nil]
    · rw [getElem?_append_right (by simpa using hi), length_range, getElem?_map] at h
      obtain ⟨k', hk', rfl⟩ := map_eq_some_iff.mp h
      obtain ⟨hk, rfl⟩ := getElem?_range_eq_some.mp hk'
      refine ⟨by omega, ?_⟩
      rw [forkChain_add, take_range, min_eq_right (by omega), ← map_take, take_range,
        min_eq_left (by omega), Nat.sub_add_comm (not_lt.mp hi)]

/-- The hash of a block is its number. -/
def forkAncestry : Ancestry Hash where
  chain hash := (forkChain 2048 4096 hash.toNat).map (ofNat 256)
  chain_eq x i y h := by
    rw [List.getElem?_map] at h
    obtain ⟨j, hj, rfl⟩ := map_eq_some_iff.mp h
    obtain ⟨hle, hchain⟩ := forkChain_getElem? (by decide) hj
    have hnumber : (ofNat 256 j).toNat = j := by
      rw [BitVec.toNat_ofNat]
      exact Nat.mod_eq_of_lt (lt_of_le_of_lt hle x.isLt)
    rw [hnumber, hchain, List.map_take]

theorem forkAncestry_chain (hnumber : number < 2 ^ 256) : forkAncestry.chain (ofNat 256 number) =
      (forkChain 2048 4096 number).map (ofNat 256) := by
  show (forkChain 2048 4096 (ofNat 256 number).toNat).map _ = _
  rw [BitVec.toNat_ofNat, Nat.mod_eq_of_lt hnumber]

/-- The top of the branch when it has `k` blocks. -/
def forkTip : Nat → Hash
  | 0 => ofNat 256 2047
  | k + 1 => ofNat 256 (4096 + k)

def forkBlock (k : Nat) : Block where
  header :=
    { hardforkVersion := 16
      hardforkSignal := 16
      timestamp := 0
      previous := forkTip k
      nonce := UInt32.ofNat k }
  minerTransaction := .v2 ⟨.block (2048 + k + 60), [.gen (2048 + k)], [], []⟩ none
  transactions := []

theorem forkBlock_version (k : Nat) : 12 ≤ (forkBlock k).header.hardforkVersion := by
  show 12 ≤ 16
  decide

def forkOxide : MoneroOxide where
  serializeBlock _ := []
  hashBlock block := forkTip (block.header.nonce.toNat + 1)
  serializePowHash _ := []
  serializeTx _ := []
  hashTx _ := 0
  txWeight _ := 0

def forkChecks : AltBlockChecks := fun _ => .ok ()

@[irreducible] def forkMain : List Hash := (List.range 2113).map (ofNat 256)

theorem hashBlock_forkBlock (hk : k < 66) : forkOxide.hashBlock (forkBlock k) = forkTip (k + 1) := by
  have hnonce : (UInt32.ofNat k).toNat = k := UInt32.toNat_ofNat_of_lt (lt_trans hk (by decide))
  show forkTip ((UInt32.ofNat k).toNat + 1) = _
  rw [hnonce]

theorem forkAncestry_forkTip (hk : k < 67) : forkAncestry.chain (forkTip k) =
      (List.range 2048 ++ (List.range k).map (4096 + ·)).map (ofNat 256) := by
  cases k with
  | zero =>
    show forkAncestry.chain (ofNat 256 2047) = _
    rw [forkAncestry_chain (by decide), forkChain_of_lt (by decide), range_zero, map_nil, append_nil]
  | succ k =>
    show forkAncestry.chain (ofNat 256 (4096 + k)) = _
    rw [forkAncestry_chain (by omega), forkChain_add]

theorem length_forkTip (hk : k < 67) : (forkAncestry.chain (forkTip k)).length = 2048 + k := by
  rw [forkAncestry_forkTip hk, length_map, length_append, length_map, length_range, length_range]

theorem forkAncestry_forkTip_succ (hk : k < 66) :
    forkAncestry.chain (forkTip (k + 1)) = forkAncestry.chain (forkTip k) ++ [forkTip (k + 1)] := by
  rw [forkAncestry_forkTip (Nat.succ_lt_succ hk), forkAncestry_forkTip (Nat.lt_succ_of_lt hk),
    range_succ (n := k)]
  simp only [map_append, append_assoc, map_cons, map_nil, forkTip]

theorem isBranch_forkMain : forkAncestry.IsBranch forkMain := by
  refine Ancestry.isBranch_of_chain_eq (x := ofNat 256 2112) ?_
  have hlen : 2112 + 1 = 2113 := rfl
  rw [forkAncestry_chain (by decide), forkChain_of_lt (by decide), hlen]
  unfold forkMain
  rfl

theorem ofNat_inj {a b : Nat} (ha : a < 8192) (hb : b < 8192) (h : ofNat 256 a = ofNat 256 b) : a = b := by
  have := congrArg BitVec.toNat h
  rw [BitVec.toNat_ofNat, BitVec.toNat_ofNat] at this
  omega

theorem forkMain_getElem? (hi : i < 2113) : forkMain[i]? = some (ofNat 256 i) := by
  unfold forkMain
  rw [getElem?_map, getElem?_range hi]
  rfl

theorem forkTip_notMem (hk : k < 66) : forkTip (k + 1) ∉ forkMain := by
  intro hmem
  unfold forkMain at hmem
  obtain ⟨number, hnumber, heq⟩ := List.mem_map.mp hmem
  have hlt := mem_range.mp hnumber
  have := ofNat_inj (by omega) (by omega) heq
  omega

/-- The branch has `k` blocks, and the context of its top still has the main chain as the parent. -/
structure ForkState (k : Nat) (n : AltNode) : Prop where
  reachable : Reachable forkAncestry forkOxide n
  main : n.db.mainChain = forkMain
  context : ∃ cache altChainMap, getAltChainContext (forkTip k) n.altChainMap n.db =
    some (cache, altChainMap) ∧ cache.parentChain = .main
  fresh : ∀ j, k ≤ j → j < 66 → n.db.altBlockHeights.lookup (forkTip (j + 1)) = none

theorem idxOf?_forkMain (hi : i < 2113) : forkMain.idxOf? (ofNat 256 i) = some i := by
  obtain ⟨hlt, hget⟩ := List.getElem?_eq_some_iff.mp (forkMain_getElem? hi)
  refine List.idxOf?_eq_some_iff.mpr ⟨hlt, hget, fun j hj => ?_⟩
  obtain ⟨hlt', hget'⟩ := List.getElem?_eq_some_iff.mp (forkMain_getElem? (lt_trans hj hi))
  rw [hget']
  intro heq
  have := ofNat_inj (by omega) (by omega) heq
  omega

theorem exists_forkState_zero : ∃ n, ForkState 0 n := by
  have hne : forkMain ≠ [] := ne_nil_of_mem (mem_of_getElem? (forkMain_getElem? (i := 0) (by decide)))
  obtain ⟨rxVmCache, hinit, -⟩ := inv_initFromChainHeight (length_pos_iff.mpr hne) .V16
  have hreach : Reachable forkAncestry forkOxide ⟨⟨forkMain, ∅, ∅, ∅⟩, rxVmCache, ∅⟩ :=
    .start hne isBranch_forkMain hinit
  refine ⟨_, hreach, rfl, ?_, fun j _ _ => lookup_empty _⟩
  have hidx : forkMain.idxOf? (forkTip 0) = some 2047 := idxOf?_forkMain (by decide)
  refine ⟨⟨none, 2048, forkTip 0, none, .main⟩, ∅, ?_, rfl⟩
  unfold getAltChainContext findBlock
  rw [lookup_empty]
  simp only [hidx, map_some]

theorem findBlock_forkTip (hk : k < 66) (hstate : ForkState k n) :
    n.db.findBlock (forkTip (k + 1)) = none := by
  have hidx : n.db.mainChain.idxOf? (forkTip (k + 1)) = none := by
    rw [idxOf?_eq_none_iff, hstate.main]
    exact forkTip_notMem hk
  unfold findBlock
  rw [hidx, hstate.fresh k le_rfl hk]
  rfl

/-- The branch grows, and its context keeps the main chain as the parent. -/
theorem ForkState.next (hk : k < 65) (hstate : ForkState k n) : ∃ n', ForkState (k + 1) n' := by
  have h := hstate.reachable.inv
  have hk' : k < 66 := Nat.lt_succ_of_lt hk
  obtain ⟨cache, altChainMap, hget, hparent⟩ := hstate.context
  obtain ⟨htop, hok, -, hsub⟩ := getAltChainContext_spec h hget
  have hheight : cache.chainHeight = 2048 + k :=
      by rw [← hok.length_eq, htop, length_forkTip (Nat.lt_succ_of_lt hk')]
  have hhash := hashBlock_forkBlock hk'
  obtain ⟨newChainId, hnotMem⟩ := Infinite.exists_notMem_finset n.db.altChainInfos.keys
  have hnew : n.db.altChainInfos.lookup newChainId = none :=
    lookup_eq_none.mpr fun hmem => hnotMem (mem_keys.mpr hmem)
  have hblock : forkAncestry.chain (forkOxide.hashBlock (forkBlock k)) =
      forkAncestry.chain (forkBlock k).header.previous ++ [forkOxide.hashBlock (forkBlock k)] := by
    rw [hhash]
    exact forkAncestry_forkTip_succ hk'
  -- the seed height is 0 up to the height 2112
  have hseed : (n.db.branchOf forkAncestry cache.parentChain)[randomxSeedHeight cache.chainHeight]? =
      some (ofNat 256 0) := by
    have hzero : randomxSeedHeight cache.chainHeight = 0 := by
      rw [hheight]
      exact if_pos (by show 2048 + k ≤ 2112; omega)
    rw [hzero, hparent]
    show n.db.mainChain[0]? = _
    rw [hstate.main, forkMain_getElem? (by decide)]
  have hinputs : (forkBlock k).minerTransaction.txPrefix.inputs = [.gen cache.chainHeight] := by
    rw [hheight]
    rfl
  have hprep := prepAltBlock_eq (h.withMap fun hash cache' hlookup => (hsub hash cache' hlookup).2) hok
    hinputs (forkBlock_version k)
  rw [hseed] at hprep
  have hchecks : forkChecks (some (.new (ofNat 256 0))) = .ok () := rfl
  have hfind : n.db.findBlock (forkOxide.hashBlock (forkBlock k)) = none := by
    rw [hhash]
    exact findBlock_forkTip hk' hstate
  obtain ⟨info, rank, -, -, hresult⟩ := handleIncomingAltBlock_passed h hfind hget
    (sanityCheckAltBlock_passed h hget hprep hchecks).2 hblock hnew
  have hreach : Reachable forkAncestry forkOxide
      (n.handleIncomingAltBlock forkOxide forkChecks newChainId (forkBlock k)) :=
    .altBlock hstate.reachable hblock hnew
  rw [hresult, putNext, hhash] at hreach
  refine ⟨_, hreach, hstate.main, ?_, ?_⟩
  · exact ⟨_, _, getAltChainContext_of_lookup (lookup_insert _), hparent⟩
  · intro j hj hj'
    have hne : forkTip (j + 1) ≠ forkTip (k + 1) := by
      intro heq
      have := ofNat_inj (by omega) (by omega) heq
      omega
    exact (lookup_insert_of_ne _ hne).trans (hstate.fresh j (Nat.le_of_succ_le hj) hj')

theorem exists_forkState (hk : k ≤ 65) : ∃ n, ForkState k n := by
  induction k with
  | zero => exact exists_forkState_zero
  | succ k ih =>
    obtain ⟨n, hstate⟩ := ih (Nat.le_of_succ_le hk)
    exact hstate.next hk

theorem forkBlock_inputs (hk : k < 67) : (forkBlock k).minerTransaction.txPrefix.inputs =
      [.gen (forkAncestry.chain (forkBlock k).header.previous).length] := by
  show [Input.gen (2048 + k)] = [.gen (forkAncestry.chain (forkTip k)).length]
  rw [length_forkTip hk]

theorem forkTip_getElem?_of_lt (hk : k < 67) (hi : i < 2048) :
    (forkAncestry.chain (forkTip k))[i]? = some (ofNat 256 i) := by
  rw [forkAncestry_forkTip hk, getElem?_map, getElem?_append_left (by rwa [length_range]),
    getElem?_range hi]
  rfl

theorem forkTip_getElem?_split (hk : k < 66) :
    (forkAncestry.chain (forkTip (k + 1)))[2048]? = some (ofNat 256 4096) := by
  rw [forkAncestry_forkTip (Nat.succ_lt_succ hk), getElem?_map,
    getElem?_append_right (le_of_eq length_range), length_range, Nat.sub_self,
    getElem?_map, getElem?_range (Nat.succ_pos k)]
  rfl

/-- The block at height 2112 gets the VM of its ancestor, the genesis block. -/
theorem altBlockRxVm_ancestor_forkBlock :
    ∃ n vm, Reachable forkAncestry forkOxide n ∧ n.altBlockRxVm (forkBlock 64) = .ok (some vm) ∧
      (forkAncestry.chain (forkTip 64))[
        randomxSeedHeight (forkAncestry.chain (forkTip 64)).length]? = some vm.seed := by
  obtain ⟨n, hstate⟩ := exists_forkState (k := 64) (by decide)
  obtain ⟨cache, altChainMap, hget, hparent⟩ := hstate.context
  have hget : getAltChainContext (forkBlock 64).header.previous n.altChainMap n.db =
      some (cache, altChainMap) := hget
  have hlen : (forkAncestry.chain (forkTip 64)).length = 2112 := length_forkTip (by decide)
  have hseedHeight : randomxSeedHeight 2112 = 0 := by decide
  have hcommon : 0 < commonLength (forkAncestry.chain (forkTip 64)) forkMain := by
    refine ((forkAncestry.isBranch_chain _).getElem?_eq_iff isBranch_forkMain (by rw [hlen]; decide)).mp ?_
    rw [forkMain_getElem? (by decide), forkTip_getElem?_of_lt (by decide) (by decide)]
  have hfork : randomxSeedHeight (forkAncestry.chain (forkTip 64)).length <
      commonLength (forkAncestry.chain (forkTip 64)) (n.db.branchOf forkAncestry cache.parentChain) := by
    rw [hlen, hseedHeight, hparent]
    show 0 < commonLength _ n.db.mainChain
    rw [hstate.main]
    exact hcommon
  obtain ⟨vm, hvm, hseed⟩ := (altBlockRxVm_ancestor_iff hstate.reachable hget
    (forkBlock_inputs (by decide)) (forkBlock_version 64)).mpr hfork
  exact ⟨n, vm, hstate.reachable, hvm, hseed⟩

/-- The block at height 2113 gets the VM of the main-chain block at height 2048, which is not its
ancestor. -/
theorem altBlockRxVm_forkBlock_main : ∃ n, Reachable forkAncestry forkOxide n ∧
      n.altBlockRxVm (forkBlock 65) = .ok (some (.new (ofNat 256 2048))) ∧
      (forkAncestry.chain (forkTip 65))[
        randomxSeedHeight (forkAncestry.chain (forkTip 65)).length]? = some (ofNat 256 4096) ∧
      ¬ ∃ vm, n.altBlockRxVm (forkBlock 65) = .ok (some vm) ∧ (forkAncestry.chain (forkTip 65))[
          randomxSeedHeight (forkAncestry.chain (forkTip 65)).length]? = some vm.seed := by
  obtain ⟨n, hstate⟩ := exists_forkState (k := 65) (by decide)
  obtain ⟨cache, altChainMap, hget, hparent⟩ := hstate.context
  have hget : getAltChainContext (forkBlock 65).header.previous n.altChainMap n.db =
      some (cache, altChainMap) := hget
  have hlen : (forkAncestry.chain (forkTip 65)).length = 2113 := length_forkTip (by decide)
  have hseedHeight : randomxSeedHeight 2113 = 2048 := by decide
  have hmain : (n.db.branchOf forkAncestry cache.parentChain)[
      randomxSeedHeight (forkAncestry.chain (forkTip 65)).length]? = some (ofNat 256 2048) := by
    rw [hlen, hseedHeight, hparent]
    show n.db.mainChain[2048]? = _
    rw [hstate.main, forkMain_getElem? (by decide)]
  have hancestor : (forkAncestry.chain (forkTip 65))[
      randomxSeedHeight (forkAncestry.chain (forkTip 65)).length]? = some (ofNat 256 4096) := by
    rw [hlen, hseedHeight, forkTip_getElem?_split (by decide)]
  have hvm : n.altBlockRxVm (forkBlock 65) = .ok (some (.new (ofNat 256 2048))) := by
    have heq := altBlockRxVm_eq hstate.reachable.inv hget (forkBlock_inputs (by decide))
      (forkBlock_version 65)
    have hmain' : (n.db.branchOf forkAncestry cache.parentChain)[randomxSeedHeight
      (forkAncestry.chain (forkBlock 65).header.previous).length]? = some (ofNat 256 2048) := hmain
    rw [hmain'] at heq
    exact heq
  refine ⟨n, hstate.reachable, hvm, hancestor, ?_⟩
  rintro ⟨vm, hvm', hseed⟩
  rw [hvm] at hvm'
  rw [hancestor] at hseed
  obtain rfl := some.inj (ok.inj hvm')
  have := ofNat_inj (by decide) (by decide) (some.inj hseed)
  omega

end AltNode

end Cuprate.Consensus
