import Cuprate.Consensus.Proofs.SeedHeightsProofs
import Cuprate.Collections.Result

/-!
# The seeds and VMs of the RandomX cache

New blocks, `getVms` and VMs from outside keep the cache exact. A pop that stops at a seed height
whose epoch the chain is still in loses that seed and repeats the one before it; a pop into the
previous epoch can leave the older of the two seeds without a VM. `PopKeeps` excludes exactly these.
-/

namespace Cuprate.Consensus

open Collections List Option Prod

namespace RandomXVmCache

variable {H : Type}

/-- The seeds are exactly those of the chain, each with the hash of its block. -/
def SeedsExact (chain : List H) (seeds : List (Nat × H)) : Prop :=
  seeds.map fst = seedHeights (chain.length - 1) ∧ ∀ s ∈ seeds, chain[s.1]? = some s.2

variable {chain : List H}

theorem getBlockHashes_zip {heights : List Nat} {hashes : List H}
    (h : getBlockHashes heights chain = some hashes) :
    (heights.zip hashes).map fst = heights ∧ ∀ s ∈ heights.zip hashes, chain[s.1]? = some s.2 := by
  obtain ⟨hlen, hall⟩ := forall₂_iff_zip.mp (mapM_eq_some.mp h)
  exact ⟨map_fst_zip (le_of_eq hlen), fun s hs => hall hs⟩

theorem exists_getBlockHashes {heights : List Nat} (h : ∀ height ∈ heights, height < chain.length) :
    ∃ hashes, getBlockHashes heights chain = some hashes := by
  induction heights with
  | nil => exact ⟨[], rfl⟩
  | cons height heights ih =>
    obtain ⟨hashes, hget⟩ := ih fun k hk => h k (.tail _ hk)
    have hhead := getElem?_eq_getElem (h height mem_cons_self)
    exact ⟨_, mapM_eq_some.mpr (.cons hhead (mapM_eq_some.mp hget))⟩

variable {seeds : List (Nat × H)}

theorem SeedsExact.of_lt (h : SeedsExact chain seeds)
    (hlow : chain.length - 1 < 2048) : ∃ h₀, seeds = [(0, h₀)] ∧ chain[0]? = some h₀ := by
  obtain ⟨hfst, hmem⟩ := h
  rw [seedHeights_of_lt hlow] at hfst
  obtain ⟨⟨height, h₀⟩, rfl, rfl⟩ := map_eq_singleton_iff.mp hfst
  exact ⟨h₀, rfl, hmem _ (mem_singleton_self _)⟩

theorem map_fst_eq_pair {a b : Nat} (h : seeds.map fst = [a, b]) :
    ∃ h₁ h₂, seeds = [(a, h₁), (b, h₂)] := by
  match seeds, h with
  | [(_, h₁), (_, h₂)], rfl => exact ⟨h₁, h₂, rfl⟩

theorem SeedsExact.of_le (h : SeedsExact chain seeds) (hhigh : 2048 ≤ chain.length - 1) :
    ∃ h₁ h₂, seeds = [(epochStart (chain.length - 1), h₁), (epochStart (chain.length - 1) - 2048, h₂)] ∧
      chain[epochStart (chain.length - 1)]? = some h₁ ∧
      chain[epochStart (chain.length - 1) - 2048]? = some h₂ := by
  obtain ⟨hfst, hmem⟩ := h
  rw [seedHeights_of_le hhigh] at hfst
  obtain ⟨h₁, h₂, rfl⟩ := map_fst_eq_pair hfst
  have hfront := hmem (epochStart (chain.length - 1), h₁) (by simp)
  have hback := hmem (epochStart (chain.length - 1) - 2048, h₂) (by simp)
  exact ⟨h₁, h₂, rfl, hfront, hback⟩

/-! ## The VMs -/

variable {newHeight height : Nat} {s : Nat × H}

section Vms

variable {seeds : List (Nat × H)}

theorem newVms_eq_fromList (seeds : List (Nat × H)) :
    newVms seeds = Finmap.fromList (seeds.map fun s => (s.1, RandomXVm.new s.2)) := by
  rw [newVms, Finmap.fromList, foldl_map]

theorem mem_of_lookup_newVms {vm : RandomXVm H} (h : (newVms seeds).lookup height = some vm) :
    (height, vm.seed) ∈ seeds := by
  rw [newVms_eq_fromList] at h
  obtain ⟨s, hs, heq⟩ := mem_map.mp (Finmap.mem_of_lookup_fromList h)
  cases heq
  exact hs

section
variable (hnodup : (seeds.map fst).Nodup)
include hnodup

theorem nodup_entries : ((seeds.map fun s => (s.1, RandomXVm.new s.2)).map fst).Nodup :=
    by rwa [List.map_map]

theorem lookup_newVms (hs : s ∈ seeds) : (newVms seeds).lookup s.1 = some (.new s.2) := by
  rw [newVms_eq_fromList]
  exact Finmap.lookup_fromList_of_mem (nodup_entries hnodup) (mem_map_of_mem hs)

theorem len_newVms : (newVms seeds).len = seeds.length := by
  rw [newVms_eq_fromList, Finmap.len_fromList (nodup_entries hnodup), length_map]

end

theorem insert_newVms (hnodup : ((s :: seeds).map fst).Nodup) :
    (newVms seeds).insert s.1 (.new s.2) = newVms (s :: seeds) := by
  refine Finmap.ext_lookup fun height => Option.ext fun vm => ?_
  rw [Finmap.lookup_insert_ite]
  split
  · next heq => rw [heq, lookup_newVms hnodup mem_cons_self]
  · next hne =>
    refine ⟨fun h => ?_, fun h => ?_⟩
    · exact lookup_newVms hnodup (.tail _ (mem_of_lookup_newVms h))
    · have hmem := (mem_cons.mp (mem_of_lookup_newVms h)).resolve_left fun heq => hne (heq ▸ rfl)
      exact lookup_newVms hnodup.of_cons hmem

end Vms

theorem retain_newVms (p : Nat → Bool) (seeds : List (Nat × H)) :
    (newVms seeds).retain (fun height _ => p height) = newVms (seeds.filter fun s => p s.1) := by
  have hfold (seeds : List (Nat × H)) (vms : Table Nat (RandomXVm H)) :
      (seeds.foldl (fun vms s => vms.insert s.1 (.new s.2)) vms).retain (fun height _ => p height) =
        (seeds.filter fun s => p s.1).foldl (fun vms s => vms.insert s.1 (.new s.2))
          (vms.retain fun height _ => p height) := by
    induction seeds generalizing vms with
    | nil => rfl
    | cons s seeds ih =>
      rw [foldl_cons, ih, Finmap.retain_insert, filter_cons]
      split <;> rfl
  exact hfold seeds ∅

/-- What every operation but a bad pop keeps: the seeds are exact; all have their VM, or all but the
newest, or none; and a VM from outside is the one its seed says. -/
structure Inv (chain : List H) (c : RandomXVmCache H) : Prop where
  chain_pos : 0 < chain.length
  seeds : SeedsExact chain c.seeds
  vms : c.vms = newVms c.seeds ∨ c.vms = newVms c.seeds.tail ∨ c.vms = ∅
  cached : ∀ p, c.cachedVm = some p → p.2 = .new p.1

variable {chain : List H} {c : RandomXVmCache H}

theorem takeCachedVm_eq [DecidableEq H] (hc : ∀ p, c.cachedVm = some p → p.2 = .new p.1) (seed : H) :
    c.takeCachedVm seed = .new seed := by
  unfold takeCachedVm
  rcases h : c.cachedVm with _ | ⟨cachedHash, cachedVm⟩
  · rfl
  · have heq : cachedVm = .new cachedHash := hc _ h
    subst heq
    dsimp only
    split
    · next heq => rw [heq]
    · rfl

theorem Inv.seeds_cases (h : Inv chain c) : (chain.length - 1 < 2048 ∧ ∃ h₀, c.seeds = [(0, h₀)]) ∨
      (2048 ≤ chain.length - 1 ∧ ∃ h₁ h₂, c.seeds =
        [(epochStart (chain.length - 1), h₁), (epochStart (chain.length - 1) - 2048, h₂)]) := by
  by_cases hlow : chain.length - 1 < 2048
  · obtain ⟨h₀, hs, -⟩ := h.seeds.of_lt hlow
    exact .inl ⟨hlow, h₀, hs⟩
  · obtain ⟨h₁, h₂, hs, -⟩ := h.seeds.of_le (not_lt.mp hlow)
    exact .inr ⟨not_lt.mp hlow, h₁, h₂, hs⟩

theorem Inv.nodup (h : Inv chain c) : (c.seeds.map fst).Nodup := by
  rw [h.seeds.1]
  exact nodup_seedHeights _

theorem Inv.exists_seeds_cons (h : Inv chain c) : ∃ s seeds, c.seeds = s :: seeds := by
  refine exists_cons_of_ne_nil fun hnil => ?_
  have hmem := randomxSeedHeight_mem (chain.length - 1)
  rw [← h.seeds.1, hnil] at hmem
  cases hmem

theorem epochStart_sub_ne {top : Nat} (h : 2048 ≤ top) : epochStart top ≠ epochStart top - 2048 := by
  rw [epochStart_eq]
  omega

theorem inv_addVm (h : Inv chain c) (seed : H) : Inv chain (c.addVm (seed, .new seed)) := by
  refine ⟨h.chain_pos, h.seeds, h.vms, ?_⟩
  rintro p hp
  cases hp
  rfl

theorem inv_initFromChainHeight (hpos : 0 < chain.length) (hf : HardFork) :
    ∃ c, initFromChainHeight chain.length hf chain = some c ∧ Inv chain c := by
  have hlt : ∀ height ∈ seedHeights (chain.length - 1), height < chain.length := by
    intro height hmem
    have := le_of_mem_seedHeights hmem
    omega
  obtain ⟨hashes, hget⟩ := exists_getBlockHashes hlt
  refine ⟨{ seeds := (seedHeights (chain.length - 1)).zip hashes
            vms := if HardFork.V12 ≤ hf then newVms ((seedHeights (chain.length - 1)).zip hashes) else ∅
            cachedVm := none }, ?_, hpos, getBlockHashes_zip hget, ?_, fun p hp => by cases hp⟩
  · unfold initFromChainHeight
    rw [getLastRxSeedHeights_eq]
    simp only [bind, Option.bind_some]
    rw [hget]
    rfl
  · dsimp only
    split
    · exact .inl rfl
    · exact .inr (.inr rfl)

theorem newBlock_of_not_seed (hseed : height % 2048 ≠ 0) (hash : H) : c.newBlock height hash = c := by
  unfold newBlock
  rw [if_neg (mt (isRandomxSeedHeight_iff height).mp hseed)]

theorem newBlock_of_seed (hseed : height % 2048 = 0) (hash : H) : c.newBlock height hash =
      if c.seeds.length < 2 then { c with seeds := (height, hash) :: c.seeds }
      else
        { c with
          seeds := ((height, hash) :: c.seeds).dropLast
          vms := c.vms.retain fun height' _ =>
            ((height, hash) :: c.seeds).dropLast.any fun s => height' == s.1 } := by
  unfold newBlock
  rw [if_pos ((isRandomxSeedHeight_iff height).mpr hseed)]
  by_cases hlen : c.seeds.length < 2
  · rw [if_pos hlen]
    refine if_neg ?_
    rw [length_cons, RX_SEEDS_CACHED]
    omega
  · rw [if_neg hlen]
    refine if_pos ?_
    rw [length_cons, RX_SEEDS_CACHED]
    omega

theorem getElem?_concat_of_eq_some {i : Nat} {x y : H} (h : chain[i]? = some x) :
    (chain ++ [y])[i]? = some x := by
  obtain ⟨hlt, -⟩ := List.getElem?_eq_some_iff.mp h
  rw [List.getElem?_append_left hlt, h]

theorem inv_newBlock (h : Inv chain c) (hash : H) :
    Inv (chain ++ [hash]) (c.newBlock chain.length hash) := by
  have hlen : (chain ++ [hash]).length - 1 = chain.length := by simp
  have hold : ∀ s ∈ c.seeds, (chain ++ [hash])[s.1]? = some s.2 :=
    fun s hs => getElem?_concat_of_eq_some (h.seeds.2 s hs)
  have hnew : (chain ++ [hash])[chain.length]? = some hash := by simp
  obtain ⟨top, htop⟩ : ∃ top, chain.length = top + 1 := ⟨chain.length - 1, by have := h.chain_pos; omega⟩
  have hfst := h.seeds.1
  rw [htop, Nat.add_sub_cancel] at hfst
  by_cases hseed : chain.length % 2048 = 0
  · rw [newBlock_of_seed hseed]
    have hheights : seedHeights chain.length = chain.length :: (c.seeds.map fst).take 1 := by
      rw [hfst, htop, seedHeights_succ_of_seed (htop ▸ hseed)]
    have hvms := h.vms
    rcases h.seeds_cases with ⟨hlow, h₀, hseeds⟩ | ⟨hhigh, h₁, h₂, hseeds⟩
    · -- the genesis seed stays
      rw [if_pos (by rw [hseeds]; exact Nat.lt_succ_self 1)]
      refine ⟨by simp, ⟨?_, ?_⟩, ?_, h.cached⟩
      · rw [hlen, hheights, hseeds]
        rfl
      · exact forall_mem_cons.mpr ⟨hnew, hold⟩
      · rw [hseeds] at hvms
        rw [hseeds]
        rcases hvms with hvms | hvms | hvms
        · exact .inr (.inl hvms)
        · exact .inr (.inr hvms)
        · exact .inr (.inr hvms)
    · -- the oldest seed leaves, and its VM with it
      rw [if_neg (by rw [hseeds]; exact lt_irrefl 2)]
      have hdrop : ((chain.length, hash) :: c.seeds).dropLast =
          [(chain.length, hash), (epochStart (chain.length - 1), h₁)] := by
        rw [hseeds]
        rfl
      have hne := epochStart_sub_ne hhigh
      have hne' : epochStart (chain.length - 1) - 2048 ≠ chain.length := by
        rw [epochStart_eq]
        omega
      refine ⟨by simp, ⟨?_, ?_⟩, ?_, h.cached⟩
      · rw [hlen, hheights, hseeds]
        rfl
      · dsimp only
        rw [hdrop]
        refine forall_mem_cons.mpr ⟨hnew, ?_⟩
        intro s hs
        rw [mem_singleton] at hs
        exact hold s (by rw [hs, hseeds]; exact .head _)
      · dsimp only
        rw [hdrop]
        have hempty : (∅ : Table Nat (RandomXVm H)) = newVms [] := rfl
        rcases hvms with hvms | hvms | hvms
        · right; left
          rw [hvms, retain_newVms, hseeds]
          simp [hne.symm, hne']
        · right; right
          rw [hvms, retain_newVms, hseeds]
          simp [hne.symm, hne', hempty]
        · right; right
          rw [hvms, hempty, retain_newVms]
          rfl
  · rw [newBlock_of_not_seed hseed]
    refine ⟨by simp, ⟨?_, hold⟩, h.vms, h.cached⟩
    rw [hlen, hfst, htop, seedHeights_succ_of_not_seed (htop ▸ hseed)]

/-! ## Pops -/

/-- What a pop leaves, good or not. -/
theorem popBlocksMainChain_spec (h : Inv chain c) (hle : newHeight ≤ chain.length - 1) :
    ∃ c', c.popBlocksMainChain newHeight (chain.take (newHeight + 1)) = some c' ∧ c'.seeds.map fst =
        refilled ((seedHeights (chain.length - 1)).filter (· < newHeight)) newHeight ∧
      (∀ s ∈ c'.seeds, (chain.take (newHeight + 1))[s.1]? = some s.2) ∧
      (c.seeds.filter fun s => s.1 < newHeight) <+: c'.seeds ∧
      c'.vms = c.vms.retain (fun height _ => height < newHeight) ∧ c'.cachedVm = c.cachedVm := by
  obtain ⟨kept, hkept⟩ : ∃ kept, (c.seeds.filter fun s => s.1 < newHeight) = kept := ⟨_, rfl⟩
  have hfst : kept.map fst = (seedHeights (chain.length - 1)).filter (· < newHeight) := by
    rw [← h.seeds.1, List.filter_map, ← hkept]
    rfl
  have hmem : ∀ s ∈ kept, (chain.take (newHeight + 1))[s.1]? = some s.2 := by
    intro s hs
    rw [← hkept, mem_filter, decide_eq_true_eq] at hs
    rw [getElem?_take_of_lt (by omega), h.seeds.2 s hs.1]
  have hlen : kept.length = ((seedHeights (chain.length - 1)).filter (· < newHeight)).length := by
    rw [← hfst, length_map]
  have hlen' := length_filter_seedHeights_le hle
  unfold popBlocksMainChain refilled
  rw [hkept, ← hlen]
  by_cases hshort : kept.length < RX_SEEDS_CACHED
  · have hlt : ∀ height ∈ (seedHeights newHeight).drop kept.length,
        height < (chain.take (newHeight + 1)).length := by
      intro height hheight
      have := le_of_mem_seedHeights (mem_of_mem_drop hheight)
      rw [length_take]
      have := h.chain_pos
      omega
    obtain ⟨hashes, hget⟩ := exists_getBlockHashes hlt
    obtain ⟨hfst', hmem'⟩ := getBlockHashes_zip hget
    refine ⟨{ c with
      seeds := kept ++ ((seedHeights newHeight).drop kept.length).zip hashes
      vms := c.vms.retain fun height _ => height < newHeight }, ?_, ?_, ?_, ?_, rfl, rfl⟩
    · dsimp only
      rw [if_pos hshort, getLastRxSeedHeights_eq]
      simp only [bind, Option.bind_some]
      rw [if_neg (by omega), hget]
      rfl
    · rw [map_append, hfst, hfst']
    · intro s hs
      rcases mem_append.mp hs with hs | hs
      · exact hmem s hs
      · exact hmem' s hs
    · exact prefix_append ..
  · have hdrop : (seedHeights newHeight).drop kept.length = [] := by
      rw [drop_eq_nil_iff]
      have : (seedHeights newHeight).length ≤ RX_SEEDS_CACHED := length_take_le ..
      omega
    refine ⟨{ c with
      seeds := kept
      vms := c.vms.retain fun height _ => height < newHeight }, ?_, ?_, hmem, ?_, rfl, rfl⟩
    · dsimp only
      rw [if_neg hshort]
    · rw [hdrop, append_nil, hfst]
    · exact prefix_refl _

/-- The pops that keep the cache right. `newHeight` is the height of the new top block: it lies in
the first epoch; or at least two epochs down; or in the previous epoch, at its first block or
without a VM for its seed; or in the current epoch, above its first block. -/
def PopKeeps (chain : List H) (c : RandomXVmCache H) (newHeight : Nat) : Prop :=
  newHeight < 2048 ∨ newHeight / 2048 + 2 ≤ (chain.length - 1) / 2048 ∨
    (newHeight / 2048 + 1 = (chain.length - 1) / 2048 ∧
      (newHeight % 2048 = 0 ∨ c.vms.lookup (epochStart newHeight) = none)) ∨
    (newHeight / 2048 = (chain.length - 1) / 2048 ∧ newHeight % 2048 ≠ 0)

section
variable (h : Inv chain c)
include h

theorem retain_vms_cases (newHeight : Nat) :
    let vms := c.vms.retain fun height _ => height < newHeight
    vms = newVms (c.seeds.filter fun s => s.1 < newHeight) ∨
      vms = newVms (c.seeds.tail.filter fun s => s.1 < newHeight) ∨ vms = ∅ := by
  rcases h.vms with hvms | hvms | hvms
  · rw [hvms]
    exact .inl (retain_newVms (· < newHeight) c.seeds)
  · rw [hvms]
    exact .inr (.inl (retain_newVms (· < newHeight) c.seeds.tail))
  · rw [hvms]
    exact .inr (.inr (retain_newVms (· < newHeight) []))

theorem Inv.seed_le (hs : s ∈ c.seeds) : s.1 ≤ epochStart (chain.length - 1) := by
  rcases h.seeds_cases with ⟨-, h₀, hseeds⟩ | ⟨-, h₁, h₂, hseeds⟩
  · rw [hseeds, mem_singleton] at hs
    rw [hs]
    exact Nat.zero_le _
  · rw [hseeds, mem_pair] at hs
    rcases hs with rfl | rfl
    · exact le_rfl
    · exact Nat.sub_le ..

theorem Inv.filter_tail (newHeight : Nat) (hhead : ¬ epochStart (chain.length - 1) < newHeight) :
    (c.seeds.tail.filter fun s => s.1 < newHeight) = c.seeds.filter fun s => s.1 < newHeight := by
  rcases h.seeds_cases with ⟨hlow, h₀, hseeds⟩ | ⟨-, h₁, h₂, hseeds⟩
  · have hzero : epochStart (chain.length - 1) = 0 := by
      rw [epochStart_eq]
      omega
    rw [hzero] at hhead
    rw [hseeds, filter_cons_of_neg (by simpa using hhead)]
    rfl
  · rw [hseeds, filter_cons_of_neg (by simpa using hhead)]
    rfl

theorem Inv.vms_eq_empty (hhigh : 2048 ≤ chain.length - 1)
    (hnone : c.vms.lookup (epochStart (chain.length - 1) - 2048) = none) : c.vms = ∅ := by
  obtain ⟨h₁, h₂, hseeds, -⟩ := h.seeds.of_le hhigh
  have hvms := h.vms
  rw [hseeds] at hvms
  rcases hvms with hvms | hvms | hvms
  · have hlookup := lookup_newVms (hseeds ▸ h.nodup) (.tail _ (mem_singleton_self _))
    exact absurd (hlookup.symm.trans (hvms ▸ hnone)) (some_ne_none _)
  · have hlookup := lookup_newVms (hseeds ▸ h.nodup).of_cons (mem_singleton_self _)
    exact absurd (hlookup.symm.trans (hvms ▸ hnone)) (some_ne_none _)
  · exact hvms

theorem inv_popBlocksMainChain (hle : newHeight ≤ chain.length - 1) (hkeeps : PopKeeps chain c newHeight) :
    ∃ c', c.popBlocksMainChain newHeight (chain.take (newHeight + 1)) = some c' ∧
      Inv (chain.take (newHeight + 1)) c' := by
  obtain ⟨c', hpop, hfst, hmem, hprefix, hvms, hcached⟩ := popBlocksMainChain_spec h hle
  have hpos := h.chain_pos
  have hlen : (chain.take (newHeight + 1)).length - 1 = newHeight := by
    rw [length_take]
    omega
  have htop := epochStart_eq (chain.length - 1)
  have hseeds : c'.seeds.map fst = seedHeights newHeight := by
    rw [hfst, refilled_eq_iff hle]
    unfold PopKeeps at hkeeps
    omega
  refine ⟨c', hpop, ⟨by rw [length_take]; omega, ⟨by rw [hlen, hseeds], hmem⟩, ?_,
    by rw [hcached]; exact h.cached⟩⟩
  have hkept : (c.seeds.filter fun s => s.1 < newHeight).map fst =
      (seedHeights (chain.length - 1)).filter (· < newHeight) := by
    rw [← h.seeds.1, List.filter_map]
    rfl
  rw [filter_seedHeights hle] at hkept
  have hcases := retain_vms_cases h newHeight
  rw [← hvms] at hcases
  by_cases hhead : epochStart (chain.length - 1) < newHeight
  · -- no seed was removed
    have hall : ∀ s ∈ c.seeds, s.1 < newHeight := fun s hs => lt_of_le_of_lt (h.seed_le hs) hhead
    have hkeptAll : (c.seeds.filter fun s => s.1 < newHeight) = c.seeds :=
      filter_eq_self.mpr fun s hs => decide_eq_true (hall s hs)
    have htailAll : (c.seeds.tail.filter fun s => s.1 < newHeight) = c.seeds.tail :=
      filter_eq_self.mpr fun s hs => decide_eq_true (hall s (mem_of_mem_tail hs))
    have hsame : c.seeds = c'.seeds := by
      rw [hkeptAll] at hkept hprefix
      refine hprefix.eq_of_length ?_
      rw [if_pos hhead, ← hseeds] at hkept
      have := congrArg List.length hkept
      rwa [length_map, length_map] at this
    rwa [hkeptAll, htailAll, hsame] at hcases
  · rw [if_neg hhead] at hkept
    have htail : (c.seeds.tail.filter fun s => s.1 < newHeight) =
        c.seeds.filter fun s => s.1 < newHeight := h.filter_tail newHeight hhead
    rw [htail] at hcases
    by_cases hsecond : 2048 ≤ chain.length - 1 ∧ epochStart (chain.length - 1) - 2048 < newHeight
    · rw [if_pos hsecond] at hkept
      by_cases hlow : newHeight < 2048
      · -- the genesis seed is the only one left
        have hsame : (c.seeds.filter fun s => s.1 < newHeight) = c'.seeds := by
          refine hprefix.eq_of_length ?_
          have hlen' := congrArg List.length hkept
          have hlen'' := congrArg List.length hseeds
          rw [seedHeights_of_lt hlow] at hlen''
          rw [length_map, length_singleton] at hlen' hlen''
          exact hlen'.trans hlen''.symm
        rw [hsame] at hcases
        rcases hcases with hcases | hcases | hcases
        · exact .inl hcases
        · exact .inl hcases
        · exact .inr (.inr hcases)
      · -- the kept seed has no VM
        have hnone : c.vms.lookup (epochStart (chain.length - 1) - 2048) = none := by
          have hnew := epochStart_eq newHeight
          rcases hkeeps with hk | hk | ⟨hr, hk | hk⟩ | hk
          · omega
          · omega
          · omega
          · rwa [show epochStart newHeight = epochStart (chain.length - 1) - 2048 by omega] at hk
          · omega
        rw [hvms, h.vms_eq_empty hsecond.1 hnone]
        exact .inr (.inr (retain_newVms (· < newHeight) []))
    · rw [if_neg hsecond, map_eq_nil_iff] at hkept
      rw [hkept] at hcases
      rcases hcases with hcases | hcases | hcases
      · exact .inr (.inr hcases)
      · exact .inr (.inr hcases)
      · exact .inr (.inr hcases)

end

variable [DecidableEq H]

theorem getVms_of_len_eq (h : c.seeds.length = c.vms.len) : c.getVms = (c.vms, c) := by
  unfold getVms
  rw [if_pos h]

theorem getVms_of_len_succ (hseeds : c.seeds = s :: seeds) (h : c.seeds.length = c.vms.len + 1) :
    c.getVms = (c.vms.insert s.1 (c.takeCachedVm s.2),
      { c with vms := c.vms.insert s.1 (c.takeCachedVm s.2), cachedVm := none }) := by
  unfold getVms
  rw [if_neg (by omega), if_pos h, hseeds]

theorem getVms_of_len_lt (h : c.vms.len + 1 < c.seeds.length) :
    c.getVms = (newVms c.seeds, { c with vms := newVms c.seeds }) := by
  unfold getVms
  rw [if_neg (by omega), if_neg (by omega)]

theorem getVms_eq (h : Inv chain c) : ∃ cached, (∀ p, cached = some p → p.2 = .new p.1) ∧
      c.getVms = (newVms c.seeds, { c with vms := newVms c.seeds, cachedVm := cached }) := by
  obtain ⟨s, seeds, hseeds⟩ := h.exists_seeds_cons
  have hnodup := h.nodup
  rw [hseeds] at hnodup
  have hnewest (hvms : c.vms = newVms seeds) :
      c.getVms = (newVms c.seeds, { c with vms := newVms c.seeds, cachedVm := none }) := by
    rw [getVms_of_len_succ hseeds (by rw [hvms, hseeds, len_newVms hnodup.of_cons, length_cons]),
      takeCachedVm_eq h.cached, hvms, insert_newVms hnodup, hseeds]
  rcases h.vms with hvms | hvms | hvms
  · refine ⟨c.cachedVm, h.cached, ?_⟩
    rw [getVms_of_len_eq (by rw [hvms, len_newVms h.nodup]), ← hvms]
  · rw [hseeds, tail_cons] at hvms
    exact ⟨none, by simp, hnewest hvms⟩
  · cases seeds with
    | nil => exact ⟨none, by simp, hnewest hvms⟩
    | cons s' seeds =>
      refine ⟨c.cachedVm, h.cached, getVms_of_len_lt ?_⟩
      rw [hvms, hseeds, Finmap.len_empty]
      exact Nat.succ_lt_succ (Nat.succ_pos _)

/-- What the cache is for: exact seeds, a VM for each of them after `getVms`, and so also for the
seed of the next block. -/
structure Correct (chain : List H) (c : RandomXVmCache H) : Prop where
  seeds : SeedsExact chain c.seeds
  vms : ∀ s ∈ c.seeds, c.getVms.1.lookup s.1 = some (.new s.2)
  next : ∃ hash, chain[randomxSeedHeight chain.length]? = some hash ∧
    c.getVms.1.lookup (randomxSeedHeight chain.length) = some (.new hash)

theorem Inv.correct (h : Inv chain c) : Correct chain c := by
  have hvms : ∀ s ∈ c.seeds, c.getVms.1.lookup s.1 = some (.new s.2) := by
    obtain ⟨cached, -, hget⟩ := getVms_eq h
    rw [hget]
    exact fun s hs => lookup_newVms h.nodup hs
  refine ⟨h.seeds, hvms, ?_⟩
  have hmem := randomxSeedHeight_mem (chain.length - 1)
  rw [Nat.sub_add_cancel h.chain_pos, ← h.seeds.1] at hmem
  obtain ⟨s, hs, hseed⟩ := mem_map.mp hmem
  rw [← hseed]
  exact ⟨s.2, h.seeds.2 s hs, hvms s hs⟩

theorem inv_getVms (h : Inv chain c) : Inv chain c.getVms.2 := by
  obtain ⟨cached, hcached, hget⟩ := getVms_eq h
  rw [hget]
  exact ⟨h.chain_pos, h.seeds, .inl rfl, hcached⟩

/-- Any other pop breaks the cache. -/
theorem not_correct_of_not_popKeeps {c' : RandomXVmCache H} (h : Inv chain c)
    (hle : newHeight ≤ chain.length - 1)
    (hkeeps : ¬ PopKeeps chain c newHeight)
    (hpop : c.popBlocksMainChain newHeight (chain.take (newHeight + 1)) = some c') :
    ¬ Correct (chain.take (newHeight + 1)) c' := by
  intro hcorrect
  obtain ⟨_, hpop', hfst, -, hprefix, hvms, -⟩ := popBlocksMainChain_spec h hle
  cases hpop.symm.trans hpop'
  have hpos := h.chain_pos
  have hlen : (chain.take (newHeight + 1)).length - 1 = newHeight := by
    rw [length_take]
    omega
  have hexact := hcorrect.seeds
  have hrefilled := (refilled_eq_iff hle).mp (hfst.symm.trans (hlen ▸ hexact.1))
  unfold PopKeeps at hkeeps
  push Not at hkeeps
  obtain ⟨hhigh, hnear, hprev, hsame⟩ := hkeeps
  -- the seeds are right, so the new top is in the previous epoch
  have hepoch : newHeight / 2048 + 1 = (chain.length - 1) / 2048 := by
    by_contra hne
    have hcur : newHeight / 2048 = (chain.length - 1) / 2048 := by omega
    exact hrefilled ⟨hhigh, hsame hcur, hcur⟩
  obtain ⟨hmod, hvm⟩ := hprev hepoch
  have htop := epochStart_eq (chain.length - 1)
  have hnew := epochStart_eq newHeight
  obtain ⟨h₁, h₂, hseeds, -⟩ := h.seeds.of_le (by omega)
  obtain ⟨g₁, g₂, hseeds', -⟩ := hexact.of_le (by omega)
  rw [hlen] at hseeds'
  have hback : epochStart (chain.length - 1) - 2048 = epochStart newHeight := by omega
  -- only the VM of the seed at the start of that epoch is left
  have hkept : (c.seeds.filter fun s => s.1 < newHeight) = [(epochStart newHeight, h₂)] := by
    rw [hseeds, filter_cons_of_neg (by simp; omega), filter_cons_of_pos (by simp; omega), hback]
    rfl
  have hone : c'.vms = newVms [(epochStart newHeight, h₂)] := by
    have htail := h.filter_tail newHeight (by omega)
    rw [hvms, ← hkept]
    rcases h.vms with hv | hv | hv
    · rw [hv]
      exact retain_newVms (· < newHeight) c.seeds
    · rw [hv, ← htail]
      exact retain_newVms (· < newHeight) c.seeds.tail
    · rw [hv] at hvm
      exact absurd rfl hvm
  have hne : epochStart newHeight - 2048 ≠ epochStart newHeight := by omega
  have hget := hcorrect.vms (epochStart newHeight - 2048, g₂) (by rw [hseeds']; simp)
  have hlen' : (newVms [(epochStart newHeight, h₂)]).len = 1 := len_newVms (nodup_singleton _)
  rw [getVms_of_len_succ hseeds' (by rw [hseeds', hone, hlen']; rfl), hone,
    Finmap.lookup_insert_ite, if_neg hne] at hget
  exact hne (Prod.mk.inj (mem_singleton.mp (mem_of_lookup_newVms hget))).1

end RandomXVmCache

/-! ## Runs -/

namespace RxNode

open RandomXVmCache

variable {H : Type} [DecidableEq H]

def Allowed (n : RxNode H) : RxOp H → Prop
  | .popBlocks newHeight => newHeight ≤ n.top
  | _ => True

/-- The operation keeps the cache right: it is no pop, or a good one. -/
def Keeps (n : RxNode H) : RxOp H → Prop
  | .popBlocks newHeight => PopKeeps n.chain n.cache newHeight
  | _ => True

/-- Every operation of a run is allowed in the state it meets. -/
def AllAllowed : RxNode H → List (RxOp H) → Prop
  | _, [] => True
  | n, op :: ops => n.Allowed op ∧ ∀ n', n.step op = some n' → AllAllowed n' ops

def AllKeep : RxNode H → List (RxOp H) → Prop
  | _, [] => True
  | n, op :: ops => n.Keeps op ∧ ∀ n', n.step op = some n' → AllKeep n' ops

/-- The run goes through, and the cache is right before and after every operation of it. -/
def AllCorrect : RxNode H → List (RxOp H) → Prop
  | n, [] => Correct n.chain n.cache
  | n, op :: ops => Correct n.chain n.cache ∧ ∃ n', n.step op = some n' ∧ AllCorrect n' ops

variable {n : RxNode H}

theorem step_inv {op : RxOp H} (h : Inv n.chain n.cache) (hallowed : n.Allowed op) (hkeeps : n.Keeps op) :
    ∃ n', n.step op = some n' ∧ Inv n'.chain n'.cache := by
  cases op with
  | newBlock hash => exact ⟨_, rfl, inv_newBlock h hash⟩
  | getVms => exact ⟨_, rfl, inv_getVms h⟩
  | addVm seed => exact ⟨_, rfl, inv_addVm h seed⟩
  | popBlocks newHeight =>
    obtain ⟨c', hpop, hinv⟩ := inv_popBlocksMainChain h hallowed hkeeps
    refine ⟨⟨n.chain.take (newHeight + 1), c'⟩, ?_, hinv⟩
    show (n.cache.popBlocksMainChain newHeight _).map _ = _
    rw [hpop, map_some]

theorem step_not_correct {n' : RxNode H} {op : RxOp H} (h : Inv n.chain n.cache) (hallowed : n.Allowed op)
    (hkeeps : ¬ n.Keeps op) (hstep : n.step op = some n') : ¬ Correct n'.chain n'.cache := by
  cases op with
  | newBlock hash => exact absurd trivial hkeeps
  | getVms => exact absurd trivial hkeeps
  | addVm seed => exact absurd trivial hkeeps
  | popBlocks newHeight =>
    obtain ⟨c', hpop, rfl⟩ := map_eq_some_iff.mp hstep
    exact not_correct_of_not_popKeeps h hallowed hkeeps hpop

theorem AllCorrect.head {ops : List (RxOp H)} (h : AllCorrect n ops) : Correct n.chain n.cache := by
  cases ops with
  | nil => exact h
  | cons op ops => exact h.1

theorem allCorrect_iff_of_inv {ops : List (RxOp H)} (h : Inv n.chain n.cache)
    (hallowed : AllAllowed n ops) : AllCorrect n ops ↔ AllKeep n ops := by
  induction ops generalizing n with
  | nil => exact iff_of_true h.correct trivial
  | cons op ops ih =>
    by_cases hkeeps : n.Keeps op
    · obtain ⟨n', hstep, hinv⟩ := step_inv h hallowed.1 hkeeps
      have hiff := ih hinv (hallowed.2 n' hstep)
      constructor
      · rintro ⟨-, n'', hstep', hall⟩
        cases hstep.symm.trans hstep'
        refine ⟨hkeeps, fun m hm => ?_⟩
        cases hstep.symm.trans hm
        exact hiff.mp hall
      · rintro ⟨-, hall⟩
        exact ⟨h.correct, n', hstep, hiff.mpr (hall n' hstep)⟩
    · refine iff_of_false ?_ fun hall => hkeeps hall.1
      rintro ⟨-, n', hstep, hall⟩
      exact step_not_correct h hallowed.1 hkeeps hstep hall.head

/-- On every chain, and for every run of the operations from the initial cache, the cache is right
all along exactly when every pop of the run is one that keeps it so. -/
theorem allCorrect_iff_allKeep (chain : List H) (hchain : chain ≠ []) (hf : HardFork) :
    ∃ n, init chain hf = some n ∧ ∀ ops, AllAllowed n ops → (AllCorrect n ops ↔ AllKeep n ops) := by
  obtain ⟨c, hinit, hinv⟩ := inv_initFromChainHeight (length_pos_of_ne_nil hchain) hf
  refine ⟨⟨chain, c⟩, ?_, fun ops hallowed => allCorrect_iff_of_inv hinv hallowed⟩
  unfold init
  rw [hinit, map_some]

/-- A block is added and popped again, with the VMs fetched in between. -/
theorem allCorrect_iff_allKeep_genesis : ∃ n, init [0] .V12 = some n ∧
      AllCorrect n [.newBlock 1, .getVms, .popBlocks 0, .getVms] := by
  obtain ⟨n, hinit, hiff⟩ := allCorrect_iff_allKeep [0] (cons_ne_nil _ _) .V12
  have hallowed : AllAllowed n [.newBlock 1, .getVms, .popBlocks 0, .getVms] :=
    ⟨trivial, fun _ _ => ⟨trivial, fun _ _ => ⟨Nat.zero_le _, fun _ _ =>
      ⟨trivial, fun _ _ => trivial⟩⟩⟩⟩
  have hkeep : AllKeep n [.newBlock 1, .getVms, .popBlocks 0, .getVms] :=
    ⟨trivial, fun _ _ => ⟨trivial, fun _ _ => ⟨.inl (by decide), fun _ _ =>
      ⟨trivial, fun _ _ => trivial⟩⟩⟩⟩
  exact ⟨n, hinit, (hiff _ hallowed).mpr hkeep⟩

/-- Popping one block of a chain with top height 4097: the seed 4096 is lost and 2048 is there
twice. -/
theorem popBlocks_to_seed_height :
    ∃ n n' : RxNode Nat, init (List.range 4098) .V12 = some n ∧ n.Allowed (.popBlocks 4096) ∧
      n.step (.popBlocks 4096) = some n' ∧ n'.cache.seeds.map fst = [2048, 2048] ∧
      n'.top = 4096 ∧ seedHeights 4096 = [4096, 2048] := by
  have hbefore : seedHeights 4097 = [4096, 2048] := seedHeights_of_le (by decide)
  have hafter : seedHeights 4096 = [4096, 2048] := seedHeights_of_le (by decide)
  have hlen : (List.range 4098).length = 4098 := length_range
  generalize List.range 4098 = chain at hlen ⊢
  obtain ⟨c, hinit, hinv⟩ := inv_initFromChainHeight (by omega : 0 < chain.length) .V12
  have hle : 4096 ≤ chain.length - 1 := by omega
  obtain ⟨c', hpop, hfst, -⟩ := popBlocksMainChain_spec hinv hle
  refine ⟨⟨chain, c⟩, ⟨chain.take 4097, c'⟩, ?_, hle, ?_, ?_, ?_, hafter⟩
  · rw [init, hinit, map_some]
  · show (c.popBlocksMainChain 4096 (chain.take 4097)).map _ = _
    rw [hpop, map_some]
  · rw [hfst, hlen, show 4098 - 1 = 4097 from rfl, refilled, hbefore, hafter]
    rfl
  · rw [top, length_take, hlen]
    rfl

end RxNode

end Cuprate.Consensus
