import Cuprate.AddressBook.PeerList
import Cuprate.Pruning.Proofs.SeedOrderProofs

/-!
# The indexes of a peer list

Both indexes of a peer list have every peer of the list. So removing a peer never panics, whatever
addresses were in the list it was made from, and removing the peers with a ban id leaves none of
them.
-/

namespace Cuprate.AddressBook

open Collections P2P Pruning List IndexMap Option

namespace PeerList

variable {Addr BanID : Type} [DecidableEq Addr]

/-- The peers of `l'` are peers of `l`. -/
def Shrinks (l l' : PeerList Addr BanID) : Prop :=
  ∀ addr, l.peers.lookup addr = none → l'.peers.lookup addr = none

theorem Shrinks.refl (l : PeerList Addr BanID) : Shrinks l l := fun _ h => h

theorem Shrinks.trans {l l' l'' : PeerList Addr BanID} (h : Shrinks l l') (h' : Shrinks l' l'') :
    Shrinks l l'' := fun addr hnone => h' addr (h addr hnone)

theorem removePeerIdx_of_mem {addresses : List Addr} {addr : Addr} (h : addr ∈ addresses) :
    ∃ rest, removePeerIdx (some addresses) addr = .ok rest ∧ addresses.Perm (addr :: rest) := by
  refine ⟨_, if_pos h, ?_⟩
  have hperm := swapRemove_perm addresses (idxOf_lt_length_of_mem h)
  rwa [getElem_idxOf] at hperm

section Indexes

variable {α K : Type} [DecidableEq K]

theorem exists_of_mem_getD {x : Option (List α)} {a : α} (h : a ∈ x.getD []) :
    ∃ as, x = some as ∧ a ∈ as := by
  cases x with
  | none => simp at h
  | some as => exact ⟨as, rfl, h⟩

theorem mem_rest {as rest : List α} {a a' : α} (hperm : as.Perm (a :: rest)) (hne : a' ≠ a)
    (hmem : a' ∈ as) : a' ∈ rest :=
  mem_of_ne_of_mem hne (hperm.mem_iff.mp hmem)

theorem getD_replace_pruningSeeds (t : Std.TreeMap PruningSeed (List α) PruningSeed.cmp)
    (seed seed' : PruningSeed)
    (rest : List α) : (if rest.isEmpty then t.erase seed else t.insert seed rest).getD seed' [] =
      if seed = seed' then rest else t.getD seed' [] := by
  split
  · next hempty =>
    rw [Std.TreeMap.getD_erase, isEmpty_iff.mp hempty]
    simp only [Std.LawfulEqCmp.compare_eq_iff_eq]
  · rw [Std.TreeMap.getD_insert]
    simp only [Std.LawfulEqCmp.compare_eq_iff_eq]

theorem getD_replace_table (t : Table K (List α)) (k k' : K) (rest : List α) :
    ((if rest.isEmpty then t.erase k else t.insert k rest).lookup k').getD [] =
      if k' = k then rest else (t.lookup k').getD [] := by
  split
  · next hempty =>
    rw [Finmap.lookup_erase_ite, isEmpty_iff.mp hempty]
    split <;> rfl
  · rw [Finmap.lookup_insert_ite]
    split <;> rfl

end Indexes

variable [DecidableEq BanID] [NetZoneAddress Addr BanID]

/-- Every peer of the list is in both indexes. -/
structure Indexed (l : PeerList Addr BanID) : Prop where
  adr : ∀ {addr peer}, l.peers.lookup addr = some peer → peer.adr = addr
  pruningSeeds : ∀ {addr peer}, l.peers.lookup addr = some peer →
    addr ∈ l.pruningSeeds.getD peer.pruningSeed []
  banIds : ∀ {addr peer}, l.peers.lookup addr = some peer → addr ∈ (l.banIds.lookup (banId addr)).getD []

variable {l : PeerList Addr BanID} {peer : ZoneSpecificPeerListEntryBase Addr}

section
variable (h : l.Indexed)
include h

/-- Removing a peer never panics, and it removes this peer only. -/
theorem Indexed.removePeer (addr : Addr) :
    ∃ l', l.removePeer addr = .ok (l.peers.lookup addr, l') ∧ l'.Indexed ∧
      ∀ addr', l'.peers.lookup addr' = if addr' = addr then none else l.peers.lookup addr' := by
  cases hlookup : l.peers.lookup addr with
  | none =>
    refine ⟨l, by simp only [PeerList.removePeer, hlookup], h, fun addr' => ?_⟩
    split
    · next heq => rw [heq, hlookup]
    · rfl
  | some peer =>
    have hadr := h.adr hlookup
    obtain ⟨seeds, hseeds, hmemSeeds⟩ := exists_of_mem_getD
      ((Std.TreeMap.getD_eq_getD_getElem? (t := l.pruningSeeds)) ▸ h.pruningSeeds hlookup)
    obtain ⟨bans, hbans, hmemBans⟩ := exists_of_mem_getD (h.banIds hlookup)
    obtain ⟨restSeeds, hrestSeeds, hpermSeeds⟩ := removePeerIdx_of_mem hmemSeeds
    obtain ⟨restBans, hrestBans, hpermBans⟩ := removePeerIdx_of_mem hmemBans
    refine ⟨⟨l.peers.swapRemove addr,
      if restSeeds.isEmpty then l.pruningSeeds.erase peer.pruningSeed
        else l.pruningSeeds.insert peer.pruningSeed restSeeds,
      if restBans.isEmpty then l.banIds.erase (banId addr) else l.banIds.insert (banId addr) restBans⟩,
      ?_, ?_, fun addr' => lookup_swapRemove⟩
    · simp only [PeerList.removePeer, hlookup]
      refine bind_eq_ok.mpr ⟨_, bind_eq_ok.mpr ⟨_, bind_eq_ok.mpr ⟨_, ?_, rfl⟩,
        bind_eq_ok.mpr ⟨_, ?_, rfl⟩⟩, by rw [hadr]⟩
      · rw [hadr]
        exact hseeds ▸ hrestSeeds
      · rw [hadr]
        exact hbans ▸ hrestBans
    · have hne : ∀ {addr' peer'}, (l.peers.swapRemove addr).lookup addr' = some peer' →
          addr' ≠ addr ∧ l.peers.lookup addr' = some peer' := by
        intro addr' peer' hlookup'
        rw [lookup_swapRemove] at hlookup'
        split at hlookup'
        · cases hlookup'
        · exact ⟨‹_›, hlookup'⟩
      -- another peer of the same index entry is in what is left of the entry
      refine ⟨fun hlookup' => h.adr (hne hlookup').2, fun {addr' peer'} hlookup' => ?_,
        fun {addr' peer'} hlookup' => ?_⟩
      · have hmem := h.pruningSeeds (hne hlookup').2
        rw [getD_replace_pruningSeeds]
        split
        · next hseed =>
          rw [Std.TreeMap.getD_eq_getD_getElem?, ← hseed, hseeds] at hmem
          exact mem_rest hpermSeeds (hne hlookup').1 hmem
        · exact hmem
      · have hmem := h.banIds (hne hlookup').2
        rw [getD_replace_table]
        split
        · next hid =>
          rw [hid, hbans] at hmem
          exact mem_rest hpermBans (hne hlookup').1 hmem
        · exact hmem

theorem Indexed.removePeers (addresses : List Addr) : ∃ l', l.removePeers addresses = .ok l' ∧ l'.Indexed ∧
      ∀ addr, l'.peers.lookup addr = if addr ∈ addresses then none else l.peers.lookup addr := by
  induction addresses generalizing l with
  | nil => exact ⟨l, rfl, h, fun addr => by simp⟩
  | cons addr addresses ih =>
    obtain ⟨l₁, hremove, h₁, hlookup₁⟩ := h.removePeer addr
    obtain ⟨l', hrest, h', hlookup'⟩ := ih h₁
    refine ⟨l', ?_, h', fun addr' => ?_⟩
    · exact bind_eq_ok.mpr ⟨l₁, bind_eq_ok.mpr ⟨_, hremove, rfl⟩, hrest⟩
    · rw [hlookup', hlookup₁]
      by_cases hmem : addr' ∈ addresses
      · simp [hmem]
      · by_cases heq : addr' = addr
        · simp [heq]
        · simp [hmem, heq]

theorem Indexed.removePeersWithBanId (id : BanID) :
    ∃ l', l.removePeersWithBanId id = .ok l' ∧ l'.Indexed ∧ Shrinks l l' ∧
      ∀ addr : Addr, banId addr = id → l'.peers.lookup addr = none := by
  cases hids : l.banIds.lookup id with
  | none =>
    refine ⟨l, by simp only [PeerList.removePeersWithBanId, hids], h, .refl l, fun addr haddr => ?_⟩
    by_contra hsome
    obtain ⟨peer, hlookup⟩ := ne_none_iff_exists'.mp hsome
    have hmem := h.banIds hlookup
    rw [haddr, hids] at hmem
    simp at hmem
  | some addresses =>
    obtain ⟨l', hremove, h', hlookup'⟩ := h.removePeers addresses
    refine ⟨l', by simp only [PeerList.removePeersWithBanId, hids, hremove], h', fun addr hnone => ?_,
      fun addr haddr => ?_⟩
    · rw [hlookup', hnone, ite_self]
    · rw [hlookup']
      split
      · rfl
      · next hmem =>
        by_contra hsome
        obtain ⟨peer, hlookup⟩ := ne_none_iff_exists'.mp hsome
        have hmem' := h.banIds hlookup
        rw [haddr, hids] at hmem'
        exact hmem hmem'

theorem Indexed.reduceList (mustKeepPeers : Finset Addr) (newLen : Nat) :
    ∃ l', l.reduceList mustKeepPeers newLen = .ok l' ∧ l'.Indexed ∧ Shrinks l l' := by
  unfold PeerList.reduceList
  split
  · exact ⟨l, rfl, h, .refl l⟩
  · obtain ⟨l', hremove, h', hlookup'⟩ :=
      h.removePeers ((l.peers.keys.filter (· ∉ mustKeepPeers)).take (l.len - newLen))
    exact ⟨l', hremove, h', fun addr hnone => by rw [hlookup', hnone, ite_self]⟩

theorem Indexed.takeRandomPeer {blockNeeded : Option Nat} {mustKeepPeers : Finset Addr}
    {ns : List Nat} {taken : Option (ZoneSpecificPeerListEntryBase Addr)} {l' : PeerList Addr BanID}
    (htake : l.takeRandomPeer blockNeeded mustKeepPeers ns = .ok (taken, l')) :
    l'.Indexed ∧ Shrinks l l' := by
  induction ns with
  | nil =>
    cases htake
    exact ⟨h, .refl l⟩
  | cons n ns ih =>
    rw [PeerList.takeRandomPeer] at htake
    obtain ⟨candidates, -, htake⟩ := bind_eq_ok.mp htake
    cases candidates with
    | none =>
      cases htake
      exact ⟨h, .refl l⟩
    | some addresses =>
      obtain ⟨addr, -, htake⟩ := bind_eq_ok.mp htake
      split at htake
      · exact ih htake
      · obtain ⟨l₁, hremove, h₁, hlookup₁⟩ := h.removePeer addr
        rw [hremove] at htake
        cases htake
        exact ⟨h₁, fun addr' hnone => by rw [hlookup₁, hnone, ite_self]⟩

theorem Indexed.push (peer : ZoneSpecificPeerListEntryBase Addr) :
    Indexed { l.pushIdxs peer with peers := l.peers.insert peer.adr peer } := by
  have hcases : ∀ {addr peer'}, (l.peers.insert peer.adr peer).lookup addr = some peer' →
      (addr = peer.adr ∧ peer' = peer) ∨ l.peers.lookup addr = some peer' := by
    intro addr peer' hlookup
    rw [lookup_insert] at hlookup
    split at hlookup
    · exact .inl ⟨‹_›, (some.inj hlookup).symm⟩
    · exact .inr hlookup
  refine ⟨fun {addr peer'} hlookup => ?_, fun {addr peer'} hlookup => ?_, fun {addr peer'} hlookup => ?_⟩
  · rcases hcases hlookup with ⟨rfl, rfl⟩ | hold
    · rfl
    · exact h.adr hold
  · simp only [pushIdxs, Std.TreeMap.getD_insert, Std.LawfulEqCmp.compare_eq_iff_eq]
    rcases hcases hlookup with ⟨rfl, rfl⟩ | hold
    · simp
    · split
      · next hseed => exact mem_append_left _ (hseed ▸ h.pruningSeeds hold)
      · exact h.pruningSeeds hold
  · simp only [pushIdxs, Finmap.lookup_insert_ite]
    rcases hcases hlookup with ⟨rfl, rfl⟩ | hold
    · simp
    · split
      · next hid => exact mem_append_left _ (hid ▸ h.banIds hold)
      · exact h.banIds hold

end

theorem indexed_new (list : List (ZoneSpecificPeerListEntryBase Addr)) :
    (PeerList.new list : PeerList Addr BanID).Indexed := by
  have hfold : ∀ (list : List (ZoneSpecificPeerListEntryBase Addr)) (l : PeerList Addr BanID), l.Indexed →
      Indexed (list.foldl (fun l peer =>
        { l.pushIdxs peer with peers := l.peers.insert peer.adr peer }) l) := by
    intro list
    induction list with
    | nil => exact fun l h => h
    | cons peer list ih => exact fun l h => ih _ (h.push peer)
  exact hfold list _ ⟨(nomatch ·), (nomatch ·), (nomatch ·)⟩

theorem Indexed.addNewPeer (h : l.Indexed) (hnew : l.peers.lookup peer.adr = none) :
    (l.addNewPeer peer).Indexed ∧
      ∀ addr, addr ≠ peer.adr → l.peers.lookup addr = none →
        (l.addNewPeer peer).peers.lookup addr = none := by
  have hadd : l.addNewPeer peer = { l.pushIdxs peer with peers := l.peers.insert peer.adr peer } := by
    simp only [PeerList.addNewPeer, hnew, isNone_none, if_true, pushIdxs]
  rw [hadd]
  refine ⟨h.push peer, fun addr hne hnone => ?_⟩
  rw [lookup_insert, if_neg hne, hnone]

theorem Indexed.update (h : l.Indexed) {peer' : ZoneSpecificPeerListEntryBase Addr} {addr : Addr}
    (hlookup : l.peers.lookup addr = some peer) (hadr : peer'.adr = peer.adr)
    (hseed : peer'.pruningSeed = peer.pruningSeed) :
    Indexed { l with peers := l.peers.insert addr peer' } := by
  have hcases : ∀ {addr' peer''}, (l.peers.insert addr peer').lookup addr' = some peer'' →
      (addr' = addr ∧ peer'' = peer') ∨ l.peers.lookup addr' = some peer'' := by
    intro addr' peer'' hlookup'
    rw [lookup_insert] at hlookup'
    split at hlookup'
    · exact .inl ⟨‹_›, (some.inj hlookup').symm⟩
    · exact .inr hlookup'
  refine ⟨fun {addr' peer''} hlookup' => ?_, fun {addr' peer''} hlookup' => ?_,
    fun {addr' peer''} hlookup' => ?_⟩
  · rcases hcases hlookup' with ⟨rfl, rfl⟩ | hold
    · rw [hadr, h.adr hlookup]
    · exact h.adr hold
  · rcases hcases hlookup' with ⟨rfl, rfl⟩ | hold
    · rw [hseed]
      exact h.pruningSeeds hlookup
    · exact h.pruningSeeds hold
  · rcases hcases hlookup' with ⟨rfl, rfl⟩ | hold
    · exact h.banIds hlookup
    · exact h.banIds hold

end PeerList

end Cuprate.AddressBook
