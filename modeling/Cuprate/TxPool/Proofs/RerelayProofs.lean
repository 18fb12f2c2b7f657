import Cuprate.TxPool.Proofs.TimeoutsProofs

/-!
# When a transaction is sent again

The ages at which the timeout of a transaction fires are `300 * (2 ^ k - 1)` seconds, up to the
maximum age, so that the division gives the next power of two back. No other event of the manager
touches this timeout.
-/

namespace Cuprate.TxPool.TimedManager

open Collections Finmap Option List

variable {K : Type*} [DecidableEq K] {env : NodeEnv} {Tx : Transaction →
    Prop} {tx : Hash} {start now : Nat}

/-- The age at which the `k`-th re-relay is due. -/
def relayAge (k : Nat) : Nat := TX_RERELAY_TIME * (2 ^ k - 1)

/-- The age at which the timeout after `k` re-relays fires. -/
def fireAge (env : NodeEnv) (k : Nat) : Nat := min (relayAge (k + 1)) env.maximumAgeSecs

/-! ## The next timeout -/

section
variable (hclock : start + env.maximumAgeSecs + 10 < 2 ^ 64)
include hclock

end

/-! ## Other events -/

section
variable {manager manager' : TimedManager K} {txInfo : TimedTxInfo K} {tx' : Hash}
    {poolEnv : PoolEnv} {clock : UInt64}
  {event : Event K}

theorem removeTxFromPool_currentTxs {removeFromDb : Bool}
    (h : manager.removeTxFromPool poolEnv clock removeFromDb tx' = some manager') :
    manager'.currentTxs = manager.currentTxs.erase tx' := by
  unfold removeTxFromPool at h
  split at h
  · cases h
  · split at h
    · split at h
      · cases h
        rfl
      · cases h
    · cases h
      rfl

theorem foldlM_removeTxFromPool_lookup {removed : List Hash} {removeFromDb : Bool}
    (h : removed.foldlM (removeTxFromPool poolEnv clock removeFromDb) manager = some manager')
    (hin : (manager'.currentTxs.lookup tx).isSome) :
      manager'.currentTxs.lookup tx = manager.currentTxs.lookup tx := by
  induction removed generalizing manager with
  | nil =>
    cases h
    rfl
  | cons tx' removed ih =>
    obtain ⟨next, hnext, h⟩ := bind_eq_some_iff.mp h
    have hlookup := ih h
    rw [removeTxFromPool_currentTxs hnext, lookup_erase_ite] at hlookup
    split at hlookup
    · rw [hlookup] at hin
      cases hin
    · exact hlookup

theorem handleTxTimeout_lookup {key : K} (h : manager.handleTxTimeout env clock key tx' = some manager')
    (hne : tx ≠ tx') : manager'.currentTxs.lookup tx = manager.currentTxs.lookup tx := by
  unfold handleTxTimeout at h
  split at h
  · cases h
    rfl
  · split at h
    · rw [removeTxFromPool_currentTxs h, lookup_erase_ite, if_neg hne]
    · split at h
      · cases h
      · cases h
        exact lookup_insert_of_ne _ hne

/-- What an event other than the timeout of a transaction does to the transaction, if it does not
remove it. -/
theorem InStep.handle_cases (h : InStep env Tx manager) (hdiff : HashesDiffer env.toPoolEnv Tx)
    (hspends : ∀ tx, Tx tx → tx.keyImages ≠ []) (henabled : manager.Enabled env.toPoolEnv Tx event)
    (hhandle : manager.handle env clock event = some manager')
    (hother : ∀ fired key, event = .timeout fired key → manager.txTimeouts.lookup fired ≠ some tx)
    (htx : manager'.currentTxs.lookup tx = some txInfo) :
    manager.currentTxs.lookup tx = some txInfo ∨
    (manager.currentTxs.lookup tx = none ∧ txInfo.isPrivate = true) ∨
    ((∀ before, manager.currentTxs.lookup tx = some before → before.isPrivate = true) ∧
      txInfo.receivedAt = clock ∧ ∃ key, event.newKey = some key ∧ txInfo.timeoutKey = some key) := by
  cases event with
  | timeout fired key =>
    obtain ⟨⟨tx', hfired⟩, -⟩ := henabled
    simp only [handle, hfired] at hhandle
    have hne : tx ≠ tx' := by
      rintro rfl
      exact hother fired key rfl hfired
    have hlookup := handleTxTimeout_lookup hhandle hne
    exact .inl (hlookup.symm.trans htx)
  | incoming data stem key =>
    obtain ⟨-, hfields, hkind, hinputs, hstored⟩ := henabled
    obtain ⟨pool, hmirrors⟩ := h.mirrors
    cases hadd : addTransaction env.toPoolEnv clock data stem manager.tables with
    | error e =>
      rcases hmirrors.holds.addTransaction_error hadd with ⟨-, hnot⟩ | ⟨owner, rfl, -⟩
      · exact absurd ⟨hfields, hkind, hinputs, hstored⟩ hnot
      · simp only [handle, handleIncomingTx, handleTxpoolRequest, hadd] at hhandle
        cases hhandle
        exact .inl htx
    | ok tables' =>
      obtain ⟨hdata, hnew, -⟩ := hmirrors.holds.addTransaction_ok hdiff hfields hkind hadd
      simp only [handle, handleIncomingTx, handleTxpoolRequest, hadd] at hhandle
      cases hhandle
      by_cases heq : tx = data.txHash
      · -- the pool has no transaction with the hash of a new one
        have hunknown : manager.currentTxs.lookup tx = none := by
          rw [heq, ← not_isSome_iff_eq_none, hmirrors.keys, txs_eq_none_of_new hdiff hspends hdata hnew]
          exact Bool.false_ne_true
        rw [heq] at htx
        cases stem with
        | true =>
          cases (lookup_insert _).symm.trans htx
          exact .inr (.inl ⟨hunknown, rfl⟩)
        | false =>
          cases (lookup_insert _).symm.trans htx
          refine .inr (.inr ⟨fun before hbefore => ?_, rfl, key, rfl, rfl⟩)
          rw [hunknown] at hbefore
          cases hbefore
      · cases stem with
        | true => exact .inl ((lookup_insert_of_ne _ heq).symm.trans htx)
        | false => exact .inl ((lookup_insert_of_ne _ heq).symm.trans htx)
  | promote tx' key =>
    simp only [handle, promoteTx] at hhandle
    split at hhandle
    · cases hhandle
      exact .inl htx
    · next before hbefore =>
      split at hhandle
      · next hprivate =>
        split at hhandle
        · cases hhandle
          by_cases heq : tx = tx'
          · subst heq
            cases (lookup_insert _).symm.trans htx
            exact .inr (.inr ⟨fun before' hbefore' =>
              some.inj (hbefore.symm.trans hbefore') ▸ hprivate, rfl, key, rfl, rfl⟩)
          · exact .inl ((lookup_insert_of_ne _ heq).symm.trans htx)
        · cases hhandle
      · cases hhandle
        exact .inl htx
  | newBlock kis =>
    simp only [handle, TimedManager.newBlock] at hhandle
    split at hhandle
    · have hin : (manager'.currentTxs.lookup tx).isSome := by rw [htx]; rfl
      exact .inl ((foldlM_removeTxFromPool_lookup hhandle hin).symm.trans htx)
    · cases hhandle

end

/-! ## Runs -/

section
variable {manager : TimedManager K} {txInfo : TimedTxInfo K} {time : Nat} {deadlines : K → Nat} {key : K}

theorem InStep.timeouts_lookup (h : InStep env Tx manager)
    (htx : manager.currentTxs.lookup tx = some txInfo)
    (hkey : txInfo.timeoutKey = some key) : manager.txTimeouts.lookup key = some tx :=
  h.timed.tracks.lookup (by rw [keyOf, htx, bind_some, hkey])

theorem setDeadline_of_ne {key' : K} (hne : key' ≠ key) :
    setDeadline env time manager deadlines key key' = deadlines key' := by
  cases hset : (manager.txTimeouts.lookup key).bind fun tx => manager.currentTxs.lookup tx with
  | none => simp only [setDeadline, hset]
  | some txInfo =>
    simp only [setDeadline, hset]
    exact Function.update_of_ne hne _ _

end

/-- A transaction that is public since `start` and was sent again `k` times; `fired` is the key of
its timeout. -/
structure Scheduled (env : NodeEnv) (Tx : Transaction → Prop) (tx : Hash) (start k : Nat)
    (fired : K) (c : Clocked K) : Prop where
  inStep : InStep env Tx c.manager
  known : ∃ txInfo, c.manager.currentTxs.lookup tx = some txInfo ∧ txInfo.isPrivate = false ∧
    txInfo.receivedAt = .ofNat start ∧ txInfo.timeoutKey = some fired
  deadline : c.deadlines fired = start + fireAge env k
  time : c.time ≤ start + fireAge env k

section
variable {k : Nat} {fired key : K} {c c' : Clocked K} {event : Event K} {times : List Nat}

theorem Scheduled.pending (h : Scheduled env Tx tx start k fired c) :
    c.manager.txTimeouts.lookup fired = some tx := by
  obtain ⟨txInfo, htx, -, -, hkey⟩ := h.known
  exact h.inStep.timeouts_lookup htx hkey

section
variable (h : ClockedStep env Tx event c c')
include h

theorem ClockedStep.manager : c.manager.handle env (.ofNat c'.time) event = some c'.manager := by
  obtain ⟨manager, hhandle, heq⟩ := map_eq_some_iff.mp h.handled
  rw [hhandle, ← heq]

theorem ClockedStep.deadlines :
    c'.deadlines = event.newKey.elim c.deadlines (setDeadline env c'.time c'.manager c.deadlines) := by
  obtain ⟨manager, -, heq⟩ := map_eq_some_iff.mp h.handled
  rw [← heq]

end

theorem ClockedStep.inStep (h : ClockedStep env Tx event c c') (hinStep : InStep env Tx c.manager)
    (hdiff : HashesDiffer env.toPoolEnv Tx) (hspends : ∀ tx, Tx tx → tx.keyImages ≠ []) :
    InStep env Tx c'.manager := by
  obtain ⟨manager', hhandle, hinStep'⟩ := hinStep.event hdiff hspends h.enabled (.ofNat c'.time)
  rw [h.manager] at hhandle
  cases hhandle
  exact hinStep'

theorem Scheduled.other (h : Scheduled env Tx tx start k fired c) (hdiff : HashesDiffer env.toPoolEnv Tx)
    (hspends : ∀ tx, Tx tx → tx.keyImages ≠ []) (hstep : ClockedStep env Tx event c c')
    (hother : ∀ fired key, event = .timeout fired key → c.manager.txTimeouts.lookup fired ≠ some tx)
    (hin : (c'.manager.currentTxs.lookup tx).isSome) : Scheduled env Tx tx start k fired c' := by
  obtain ⟨txInfo', htx'⟩ := isSome_iff_exists.mp hin
  obtain ⟨txInfo, htx, hpublic, hreceived, hkey⟩ := h.known
  have hsame : txInfo' = txInfo := by
    rcases h.inStep.handle_cases hdiff hspends hstep.enabled hstep.manager hother htx' with
      hsame | ⟨hnone, -⟩ | ⟨hbefore, -⟩
    · exact some.inj (hsame.symm.trans htx)
    · rw [htx] at hnone
      cases hnone
    · rw [hbefore txInfo htx] at hpublic
      cases hpublic
  subst hsame
  refine ⟨hstep.inStep h.inStep hdiff hspends, ⟨txInfo', htx', hpublic, hreceived, hkey⟩, ?_, ?_⟩
  · -- a new timeout has another key, as this one is pending
    rw [hstep.deadlines, ← h.deadline]
    cases hnew : event.newKey with
    | none => rfl
    | some key =>
      refine setDeadline_of_ne ?_
      rintro rfl
      have hpending := h.pending
      cases event with
      | timeout fired' key =>
        cases hnew
        have hfresh := hstep.enabled.2
        rw [lookup_erase_ite, if_neg, hpending] at hfresh
        · cases hfresh
        · rintro rfl
          exact hother _ _ rfl hpending
      | incoming data stem key =>
        cases hnew
        cases hpending.symm.trans hstep.enabled.1
      | promote tx' key =>
        cases hnew
        cases hpending.symm.trans hstep.enabled
      | newBlock kis => cases hnew
  · rw [← h.deadline]
    exact hstep.inTime fired tx h.pending

section
variable (hclock : start + env.maximumAgeSecs + 10 < 2 ^ 64) (h : Scheduled env Tx tx start k fired c)
  (hstep : ClockedStep env Tx (.timeout fired key) c c')
include hclock h hstep

end

end

end Cuprate.TxPool.TimedManager
