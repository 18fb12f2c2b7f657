import Cuprate.Collections.Transitions
import Cuprate.Dandelion.PoolManager

/-!
# Embargo timers

The keys that the pool manager remembers are those of the pending embargo timers in every run of
`Careful` events: with another event a timer can be lost.
-/

namespace Cuprate.Dandelion.DandelionPoolManager

open Collections List Option Finmap

variable {Tx TxId PeerId Key : Type*} [DecidableEq TxId] [DecidableEq Key]
  {manager manager' : DandelionPoolManager Tx TxId PeerId Key} {services : Services Tx Key}
    {txId : TxId} {tx : Tx}

/-- The transaction has an embargo timer. -/
def Pending (manager : DandelionPoolManager Tx TxId PeerId Key) (txId : TxId) : Prop :=
  ∃ key, manager.embargoTimers.lookup key = some txId

/-- The maps of the manager hold exactly what belongs to the pending timers. -/
structure Exact (manager : DandelionPoolManager Tx TxId PeerId Key) : Prop where
  keys : ∀ txId, (manager.embargoTimerKeys.lookup txId).isSome ↔ manager.Pending txId
  own : ∀ txId key, manager.embargoTimerKeys.lookup txId = some key →
    manager.embargoTimers.lookup key = some txId
  origins : ∀ txId, (manager.stemOrigins.lookup txId).isSome → manager.Pending txId
  len_keys : manager.embargoTimerKeys.len ≤ manager.embargoTimers.len
  len_origins : manager.stemOrigins.len ≤ manager.embargoTimers.len

/-- What an event must not do. -/
def Careful (manager : DandelionPoolManager Tx TxId PeerId Key)
    (event : Event Tx TxId PeerId Key × Services Tx Key) : Prop :=
  match event.1 with
  | .incoming tx =>
    match tx.routingState with
    | .stem origin =>
      origin ∉ (manager.stemOrigins.lookup tx.txId).getD ∅ → ¬ manager.Pending tx.txId
    | .local => ¬ manager.Pending tx.txId
    | .fluff => True
  | .timer _ => ∃ tx, event.2.get = some (some (tx, .stem))
  | .routed i res =>
    ∀ txId req origin entry, res = none → manager.routingSet[i]? = some (txId, req) →
      req.state = .stem origin → event.2.get = some (some entry) → manager.Pending txId

/-- Timers and transactions belong together. -/
structure Inv (manager : DandelionPoolManager Tx TxId PeerId Key) : Prop where
  tracks : Tracks (fun txId => manager.embargoTimerKeys.lookup txId) manager.embargoTimers
  origins : ∀ txId, (manager.stemOrigins.lookup txId).isSome →
    (manager.embargoTimerKeys.lookup txId).isSome

theorem inv_new : (new : DandelionPoolManager Tx TxId PeerId Key).Inv where
  tracks := Tracks.empty
  origins := by
    intro txId h
    cases h

theorem Inv.isSome_iff_pending (h : manager.Inv) :
    (manager.embargoTimerKeys.lookup txId).isSome ↔ manager.Pending txId := by
  rw [isSome_iff_exists]
  exact exists_congr fun key => h.tracks txId key

theorem Inv.exact (h : manager.Inv) : manager.Exact := by
  have hkeys : ∀ txId, (manager.embargoTimerKeys.lookup txId).isSome → manager.Pending txId :=
    fun _ => h.isSome_iff_pending.mp
  have horigins : ∀ txId, (manager.stemOrigins.lookup txId).isSome → manager.Pending txId :=
    fun txId hsome => hkeys txId (h.origins txId hsome)
  exact
    { keys := fun _ => h.isSome_iff_pending
      own := fun _ _ => h.tracks.lookup
      origins := horigins
      len_keys := len_le_of_pending _ _ hkeys
      len_origins := len_le_of_pending _ _ horigins }

/-! ## Steps -/

/-- The timers of all other transactions are kept. -/
def Spares (manager manager' : DandelionPoolManager Tx TxId PeerId Key) (txId : TxId) : Prop :=
  ∀ key txId', txId' ≠ txId → manager.embargoTimers.lookup key = some txId' →
    manager'.embargoTimers.lookup key = some txId'

omit [DecidableEq TxId] [DecidableEq Key] in
theorem route_eq_some {state : TxState PeerId} (h : manager.route services tx txId state = some manager') :
    ∃ routingSet, manager' = { manager with routingSet := routingSet } := by
  rw [route] at h
  split at h
  · exact ⟨_, (some.inj h).symm⟩
  · cases h

theorem Inv.withRoutingSet (h : manager.Inv) (routingSet : List (TxId × DandelionRouteReq Tx PeerId)) :
    ({ manager with routingSet := routingSet } : DandelionPoolManager Tx TxId PeerId Key).Inv :=
  ⟨h.tracks, h.origins⟩

theorem promoteTx_eq_some (h : manager.promoteTx services txId = some manager') :
    manager'.stemOrigins = manager.stemOrigins.erase txId ∧
      manager'.embargoTimerKeys = manager.embargoTimerKeys.erase txId ∧
      ((manager.embargoTimerKeys.lookup txId = none ∧ manager'.embargoTimers = manager.embargoTimers) ∨
        ∃ key, manager.embargoTimerKeys.lookup txId = some key ∧
          manager'.embargoTimers = manager.embargoTimers.erase key) := by
  rw [promoteTx] at h
  split at h
  · cases h
    refine ⟨rfl, rfl, ?_⟩
    cases hkey : manager.embargoTimerKeys.lookup txId with
    | none => exact .inl ⟨rfl, rfl⟩
    | some key => exact .inr ⟨key, rfl, rfl⟩
  · cases h

theorem Inv.promoteTx (h : manager.Inv) (hpromote : manager.promoteTx services txId = some manager') :
    manager'.Inv ∧ manager.Spares manager' txId := by
  obtain ⟨horigins, hkeys, htimers⟩ := promoteTx_eq_some hpromote
  refine ⟨⟨?_, ?_⟩, ?_⟩
  · rw [hkeys]
    rcases htimers with ⟨hnone, htimers⟩ | ⟨key, hkey, htimers⟩
    · rw [htimers]
      refine h.tracks.congr fun txId' => ?_
      rw [lookup_erase_ite]
      by_cases heq : txId' = txId
      · rw [if_pos heq, heq, hnone]
      · rw [if_neg heq]
    · rw [htimers]
      exact h.tracks.erase hkey fun txId' => lookup_erase_ite _ _ _
  · intro txId' hsome
    rw [horigins, lookup_erase_ite] at hsome
    rw [hkeys, lookup_erase_ite]
    by_cases heq : txId' = txId
    · rw [if_pos heq] at hsome
      cases hsome
    · rw [if_neg heq] at hsome ⊢
      exact h.origins txId' hsome
  · intro key' txId' hne hlookup
    rcases htimers with ⟨_, htimers⟩ | ⟨key, hkey, htimers⟩
    · rw [htimers]
      exact hlookup
    · rw [htimers]
      exact h.tracks.lookup_erase_of_ne hkey hne hlookup

theorem promoteAndFluffTx_eq_some (h : manager.promoteAndFluffTx services txId = some manager') :
    manager' = manager ∨ ∃ promoted routingSet, manager.promoteTx services txId = some promoted ∧
        manager' = { promoted with routingSet := routingSet } := by
  rw [promoteAndFluffTx] at h
  split at h
  · cases h
  · cases h
    exact .inl rfl
  · cases h
    exact .inl rfl
  · split at h
    · rename_i promoted hpromote
      obtain ⟨routingSet, rfl⟩ := route_eq_some h
      exact .inr ⟨promoted, routingSet, hpromote, rfl⟩
    · cases h

omit [DecidableEq TxId] in
theorem spares_refl : manager.Spares manager txId := fun _ _ _ h => h

theorem Inv.promoteAndFluffTx (h : manager.Inv)
    (hpromote : manager.promoteAndFluffTx services txId = some manager') :
    manager'.Inv ∧ manager.Spares manager' txId := by
  rcases promoteAndFluffTx_eq_some hpromote with rfl | ⟨promoted, routingSet, hpromoted, rfl⟩
  · exact ⟨h, spares_refl⟩
  · obtain ⟨hinv, hspares⟩ := h.promoteTx hpromoted
    exact ⟨hinv.withRoutingSet routingSet, hspares⟩

theorem Inv.handleTimer (h : manager.Inv) {key : Key} (hkey : manager.embargoTimers.lookup key = some txId)
    (hstem : ∃ tx, services.get = some (some (tx, .stem)))
    (hhandle : manager.handleTimer services key = some manager') :
      manager'.Inv ∧ manager.Spares manager' txId := by
  obtain ⟨tx, hget⟩ := hstem
  have hown : manager.embargoTimerKeys.lookup txId = some key := (h.tracks txId key).mpr hkey
  have herase : (manager.embargoTimers.erase key).erase key = manager.embargoTimers.erase key := by
    refine ext_lookup fun key' => ?_
    rw [lookup_erase_ite, lookup_erase_ite]
    split <;> rfl
  have hpromote : ({ manager with embargoTimers := manager.embargoTimers.erase key } :
      DandelionPoolManager Tx TxId PeerId Key).promoteTx services txId =
        manager.promoteTx services txId := by
    simp only [DandelionPoolManager.promoteTx, hown, herase]
  have hfluff : manager.promoteAndFluffTx services txId = some manager' := by
    rw [DandelionPoolManager.handleTimer, hkey] at hhandle
    simp only [DandelionPoolManager.promoteAndFluffTx, hget, hpromote] at hhandle ⊢
    exact hhandle
  exact h.promoteAndFluffTx hfluff

variable [DecidableEq PeerId]

variable {origin : Option PeerId}

omit [DecidableEq Key] in
theorem stemTx_eq_some (h : manager.stemTx services tx txId origin = some manager') :
    manager'.embargoTimers = manager.embargoTimers ∧ manager'.embargoTimerKeys = manager.embargoTimerKeys ∧
      ∀ txId', (manager'.stemOrigins.lookup txId').isSome →
        txId' = txId ∧ origin.isSome ∨ (manager.stemOrigins.lookup txId').isSome := by
  unfold stemTx at h
  split at h
  · obtain ⟨routingSet, rfl⟩ := route_eq_some h
    refine ⟨rfl, rfl, fun txId' hsome => ?_⟩
    rw [lookup_insert_ite] at hsome
    by_cases heq : txId' = txId
    · exact .inl ⟨heq, rfl⟩
    · rw [if_neg heq] at hsome
      exact .inr hsome
  · obtain ⟨routingSet, rfl⟩ := route_eq_some h
    exact ⟨rfl, rfl, fun _ => .inr⟩

section
variable (h : manager.Inv)
include h

section
variable (hfresh : manager.embargoTimers.lookup services.key = none)
include hfresh

/-- A transaction with no pending timer gets one. -/
theorem Inv.stemTx_addEmbargoTimer (hnot : ¬ manager.Pending txId)
    {stemmed : DandelionPoolManager Tx TxId PeerId Key}
    (hstem : manager.stemTx services tx txId origin = some stemmed) :
    (addEmbargoTimerForTx services txId stemmed).Inv ∧
      manager.Spares (addEmbargoTimerForTx services txId stemmed) txId := by
  obtain ⟨htimers, hkeys, horigins⟩ := stemTx_eq_some hstem
  have hnone : manager.embargoTimerKeys.lookup txId = none := by
    rw [← not_isSome_iff_eq_none, h.isSome_iff_pending]
    exact hnot
  refine ⟨⟨?_, ?_⟩, ?_⟩
  · change Tracks (fun txId' => (stemmed.embargoTimerKeys.insert txId services.key).lookup txId')
      (stemmed.embargoTimers.insert services.key txId)
    rw [htimers, hkeys]
    exact h.tracks.insert hfresh hnone fun txId' => lookup_insert_ite _ _ _ _
  · intro txId' hsome
    change ((stemmed.embargoTimerKeys.insert txId services.key).lookup txId').isSome
    rw [hkeys, lookup_insert_ite]
    by_cases heq : txId' = txId
    · rw [if_pos heq]
      rfl
    · rw [if_neg heq]
      refine h.origins txId' ((horigins txId' hsome).resolve_left ?_)
      rintro ⟨heq', _⟩
      exact heq heq'
  · intro key txId' _ hkey
    change (stemmed.embargoTimers.insert services.key txId).lookup key = some txId'
    rw [htimers, lookup_insert_ite, if_neg]
    · exact hkey
    · rintro rfl
      rw [hfresh] at hkey
      cases hkey

theorem Inv.handleIncomingTx {incoming : IncomingTx Tx TxId PeerId}
    (hcareful : manager.Careful (.incoming incoming, services))
    (hhandle : manager.handleIncomingTx services incoming = some manager') :
    manager'.Inv ∧ manager.Spares manager' incoming.txId := by
  unfold DandelionPoolManager.handleIncomingTx at hhandle
  unfold Careful at hcareful
  cases hstate : incoming.routingState with
  | stem origin =>
    simp only [hstate] at hhandle hcareful
    by_cases hsame : origin ∈ (manager.stemOrigins.lookup incoming.txId).getD ∅
    · rw [if_pos hsame] at hhandle
      exact h.promoteAndFluffTx hhandle
    · rw [if_neg hsame] at hhandle
      obtain ⟨stemmed, hstem, rfl⟩ := map_eq_some_iff.mp hhandle
      exact h.stemTx_addEmbargoTimer hfresh (hcareful hsame) hstem
  | fluff =>
    simp only [hstate] at hhandle
    obtain ⟨routingSet, rfl⟩ := route_eq_some hhandle
    exact ⟨h.withRoutingSet routingSet, spares_refl⟩
  | «local» =>
    simp only [hstate] at hhandle hcareful
    obtain ⟨stemmed, hstem, rfl⟩ := map_eq_some_iff.mp hhandle
    exact h.stemTx_addEmbargoTimer hfresh hcareful hstem

end

theorem Inv.stemTx (hpending : origin.isSome → manager.Pending txId)
    (hstem : manager.stemTx services tx txId origin = some manager') :
    manager'.Inv ∧ manager.Spares manager' txId := by
  obtain ⟨htimers, hkeys, horigins⟩ := stemTx_eq_some hstem
  refine ⟨⟨?_, ?_⟩, ?_⟩
  · rw [htimers, hkeys]
    exact h.tracks
  · intro txId' hsome
    rw [hkeys]
    rcases horigins txId' hsome with ⟨rfl, horigin⟩ | hold
    · exact h.isSome_iff_pending.mpr (hpending horigin)
    · exact h.origins txId' hold
  · intro key txId' _ hkey
    rw [htimers]
    exact hkey

theorem Inv.handleRouted {i : Nat} {res : Option State} {req : DandelionRouteReq Tx PeerId}
    (hreq : manager.routingSet[i]? = some (txId, req))
      (hcareful : manager.Careful (.routed i res, services))
    (hhandle : manager.handleRouted services i res = some manager') :
    manager'.Inv ∧ manager.Spares manager' txId := by
  have hinv := h.withRoutingSet (manager.routingSet.eraseIdx i)
  unfold DandelionPoolManager.handleRouted at hhandle
  rw [hreq] at hhandle
  dsimp only at hhandle
  split at hhandle
  · exact hinv.promoteTx hhandle
  · cases hhandle
    exact ⟨hinv, spares_refl⟩
  · split at hhandle
    · cases hhandle
    · cases hhandle
      exact ⟨hinv, spares_refl⟩
    · rename_i tx _ hget
      split at hhandle
      · obtain ⟨routingSet, rfl⟩ := route_eq_some hhandle
        exact ⟨hinv.withRoutingSet routingSet, spares_refl⟩
      · rename_i origin hstate
        exact hinv.stemTx (fun _ => hcareful txId req origin _ rfl hreq hstate hget) hhandle
      · refine hinv.stemTx (fun hsome => ?_) hhandle
        cases hsome

theorem Inv.step {event : Event Tx TxId PeerId Key × Services Tx Key}
    (hstep : Step manager event manager') (hcareful : manager.Careful event) :
    ∃ txId, event.1.txId manager = some txId ∧ manager'.Inv ∧ manager.Spares manager' txId := by
  obtain ⟨event, services⟩ := event
  obtain ⟨hfresh, hhandle⟩ := hstep
  cases event with
  | timer key =>
    cases hkey : manager.embargoTimers.lookup key with
    | none =>
      simp only [handle, DandelionPoolManager.handleTimer, hkey] at hhandle
      cases hhandle
    | some txId => exact ⟨txId, hkey, h.handleTimer hkey hcareful hhandle⟩
  | routed i res =>
    cases hreq : manager.routingSet[i]? with
    | none =>
      simp only [handle, DandelionPoolManager.handleRouted, hreq] at hhandle
      cases hhandle
    | some entry =>
      obtain ⟨txId, req⟩ := entry
      refine ⟨txId, ?_, h.handleRouted hreq hcareful hhandle⟩
      rw [Event.txId, hreq]
      rfl
  | incoming incoming =>
      exact ⟨incoming.txId, rfl, h.handleIncomingTx (hfresh incoming rfl) hcareful hhandle⟩

end

/-- In every run whose events are careful, the maps of the manager are exact in every state, and no
event removes an embargo timer of a transaction that it is not about. -/
theorem exact_of_careful {run : List (Transition (DandelionPoolManager Tx TxId PeerId Key) _)}
    (hrun : Run Step new run) (hcareful : ∀ t ∈ run, t.before.Careful t.event) :
    (∀ manager ∈ states new run, manager.Exact) ∧
    ∀ t ∈ run, ∀ key txId, some txId ≠ t.event.1.txId t.before →
      t.before.embargoTimers.lookup key = some txId → t.after.embargoTimers.lookup key = some txId := by
  have hinv : ∀ manager ∈ states new run, manager.Inv := by
    refine hrun.invariant Inv Careful (fun hstep hmeets h => ?_) inv_new hcareful
    obtain ⟨_, _, hinv, _⟩ := h.step hstep hmeets
    exact hinv
  refine ⟨fun manager hmem => (hinv manager hmem).exact, fun t ht key txId hne hkey => ?_⟩
  obtain ⟨txId', htxId', _, hspares⟩ :=
    (hinv t.before (hrun.before_mem ht)).step (hrun.step_of_mem ht) (hcareful t ht)
  refine hspares key txId ?_ hkey
  rintro rfl
  exact hne htxId'.symm

/-- All services work, the backing pool answers `get` and the next timer gets the key. -/
def working (get : Option (Nat × State)) (key : Nat) : Services Nat Nat where
  routerReady := true
  get := some get
  promote := true
  key := key

/-- A transaction that is stemmed, and whose timer then fires while it is in the stem pool. -/
theorem exact_of_careful_stem : ∃ run : List (Transition (DandelionPoolManager Nat Nat Nat Nat) _),
    Run Step new run ∧ (run.map fun t => t.after.embargoTimers.len) = [1, 0] ∧
      ∀ manager ∈ states new run, manager.Exact := by
  have hrun : Run (Step : DandelionPoolManager Nat Nat Nat Nat → _ → _ → Prop) new
      [⟨_, (.incoming ⟨10, 1, .stem 0⟩, working none 0), _⟩,
        ⟨_, (.timer 0, working (some (10, .stem)) 0), _⟩] :=
    .cons ⟨fun _ _ => rfl, rfl⟩ (.cons ⟨nofun, rfl⟩ (.nil _))
  refine ⟨_, hrun, rfl, (exact_of_careful hrun ?_).1⟩
  intro t ht
  rcases mem_cons.mp ht with rfl | ht
  · rintro _ ⟨key, hkey⟩
    cases hkey
  · rw [mem_singleton.mp ht]
    exact ⟨10, rfl⟩

/-- Transaction 1 leaves the backing pool before its timer fires, and its key is kept. The timer of
transaction 2 is given that key, and is removed when the router has fluffed transaction 1. -/
theorem promotion_removes_other_timer : ∃ run : List (Transition (DandelionPoolManager Nat Nat Nat Nat) _),
    Run Step new run ∧ (∃ manager ∈ states new run, ¬ manager.Exact) ∧
      ∃ t ∈ run, t.event.1.txId t.before = some 1 ∧ t.before.embargoTimers.lookup 0 = some 2 ∧
        t.after.embargoTimers.lookup 0 = none := by
  have hrun : Run (Step : DandelionPoolManager Nat Nat Nat Nat → _ → _ → Prop) new
      [⟨_, (.incoming ⟨10, 1, .stem 0⟩, working none 0), _⟩, ⟨_, (.timer 0, working none 0), _⟩,
        ⟨_, (.incoming ⟨20, 2, .stem 0⟩, working none 0), _⟩,
          ⟨_, (.routed 0 (some .fluff), working none 1), _⟩] :=
    .cons ⟨fun _ _ => rfl, rfl⟩
      (.cons ⟨nofun, rfl⟩ (.cons ⟨fun _ _ => rfl, rfl⟩ (.cons ⟨nofun, rfl⟩ (.nil _))))
  refine ⟨_, hrun, ⟨_, .tail _ (.tail _ mem_cons_self), fun hexact => ?_⟩, _,
    .tail _ (.tail _ (.tail _ mem_cons_self)), rfl, rfl, rfl⟩
  obtain ⟨key, hkey⟩ := (hexact.keys 1).mp rfl
  cases hkey

end Cuprate.Dandelion.DandelionPoolManager
