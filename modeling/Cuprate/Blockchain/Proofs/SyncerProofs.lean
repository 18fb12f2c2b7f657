import Cuprate.Blockchain.Syncer

/-!
# Stop signals that are heeded

A stop signal stops the downloader if the syncer waits for it when it is raised and then takes the
branch of the signal. A signal that is raised while the syncer sends a batch, or after that and
before it waits again, is lost.
-/

namespace Cuprate.Blockchain

open Collections List

/-- The signal is raised neither while the syncer waits for room in the channel nor before it waits
in the `select!` again, and no batch is taken after it. -/
def SyncState.Heeds (s : SyncState) : SyncEvent → Prop
  | .raise => s.syncer ≠ .sending ∧ s.syncer ≠ .turn
  | .take => s.syncer ≠ .select true
  | _ => True

/-- A downloader that was told to stop is about to be dropped. -/
def SyncState.StopPending (s : SyncState) : Prop :=
  s.stopped = true → s.syncer ≠ .turn ∧ s.syncer ≠ .sending ∧ s.syncer ≠ .select false

theorem SyncStep.stopPending {s s' : SyncState} {e : SyncEvent} (hstep : SyncStep s e s')
    (hheeds : s.Heeds e)
    (h : s.StopPending) : s'.StopPending := by
  intro hstopped
  cases hstep with
  | start => cases hstopped
  | select hsyncer => exact absurd hsyncer (h hstopped).1
  | @take notified hsyncer =>
    have hpending := h hstopped
    cases notified with
    | false => exact absurd hsyncer hpending.2.2
    | true => exact absurd hsyncer hheeds
  | send hsyncer => exact absurd hsyncer (h hstopped).2.1
  | stop | finished | permit => exact ⟨nofun, nofun, nofun⟩
  | receive | handled => exact h hstopped
  | raise =>
    cases hsyncer : s.syncer with
    | sending => exact absurd hsyncer hheeds.1
    | turn => exact absurd hsyncer hheeds.2
    | idle | permit | select notified => exact ⟨nofun, nofun, nofun⟩

/-- If every signal is raised while the syncer waits for it or no downloader is active, and no batch
is taken once the syncer is notified, then no batch of a downloader is forwarded after it was told
to stop. -/
theorem no_batch_after_stop {run : List (Transition SyncState SyncEvent)} (hrun : Run SyncStep .new run)
    (hheeds : ∀ t ∈ run, t.before.Heeds t.event) :
      ∀ t ∈ run, t.event = .send → t.before.stopped = false := by
  rintro ⟨before, _, after⟩ ht rfl
  have hpending : before.StopPending :=
    Run.invariant SyncState.StopPending SyncState.Heeds SyncStep.stopPending hrun nofun
      hheeds _ (hrun.before_mem ht)
  have hstep : SyncStep before .send after := hrun.step_of_mem ht
  cases hstep with
  | send hsyncer =>
    by_contra hstopped
    exact (hpending (by simpa using hstopped)).2.1 hsyncer

/-- The first batch is invalid, the downloader is stopped, and the batch of a second one is sent. -/
theorem no_batch_after_stop_second_download :
    ∃ run t t', Run SyncStep .new run ∧ t ∈ run ∧ t.event = .stop ∧
    t.before.stopped = true ∧ t' ∈ run ∧ t'.event = .send ∧ t'.before.download = 2 ∧
      t'.before.stopped = false := by
  have hrun : Run SyncStep .new [⟨_, .start, _⟩, ⟨_, .select, _⟩, ⟨_, .take, _⟩, ⟨_, .send, _⟩,
      ⟨_, .select, _⟩, ⟨_, .receive, _⟩, ⟨_, .raise, _⟩, ⟨_, .stop, _⟩, ⟨_, .permit, _⟩,
      ⟨_, .start, _⟩, ⟨_, .select, _⟩, ⟨_, .take, _⟩, ⟨_, .send, _⟩] :=
    .cons (.start rfl) (.cons (.select rfl) (.cons (.take rfl) (.cons (.send rfl (by decide))
      (.cons (.select rfl) (.cons (.receive rfl rfl) (.cons (.raise rfl) (.cons (.stop rfl) (.cons (.permit rfl rfl rfl)
        (.cons (.start rfl) (.cons (.select rfl) (.cons (.take rfl) (.cons (.send rfl (by decide))
          (.nil _)))))))))))))
  refine ⟨_, _, _, hrun, mem_of_getElem? (i := 7) rfl, rfl, rfl, mem_of_getLast? rfl, rfl, rfl,
    no_batch_after_stop hrun ?_ _ (mem_of_getLast? rfl) rfl⟩
  simp [SyncState.Heeds, Syncer.notifyWaiters]

/-- Two batches have been sent and the third waits for room when the first one turns out to be
invalid: the signal is lost, and the third batch is forwarded. -/
theorem batch_forwarded_after_stop : ∃ run t, Run SyncStep .new run ∧ t ∈ run ∧ t.event = .send ∧
    t.before.download = 1 ∧ t.before.stopped = true ∧ t.after.syncer = .turn := by
  have hrun : Run SyncStep .new [⟨_, .start, _⟩, ⟨_, .select, _⟩, ⟨_, .take, _⟩, ⟨_, .send, _⟩,
      ⟨_, .receive, _⟩, ⟨_, .select, _⟩, ⟨_, .take, _⟩, ⟨_, .send, _⟩, ⟨_, .select, _⟩,
      ⟨_, .take, _⟩, ⟨_, .raise, _⟩, ⟨_, .receive, _⟩, ⟨_, .send, _⟩] :=
    .cons (.start rfl) (.cons (.select rfl) (.cons (.take rfl) (.cons (.send rfl (by decide))
      (.cons (.receive rfl rfl) (.cons (.select rfl) (.cons (.take rfl)
        (.cons (.send rfl (by decide)) (.cons (.select rfl) (.cons (.take rfl)
        (.cons (.raise rfl) (.cons (.receive rfl rfl) (.cons (.send rfl (by decide)) (.nil _)))))))))))))
  exact ⟨_, _, hrun, mem_of_getLast? rfl, rfl, rfl, rfl, rfl⟩

end Cuprate.Blockchain
