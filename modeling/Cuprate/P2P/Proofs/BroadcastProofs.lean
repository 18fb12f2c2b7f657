import Cuprate.P2P.Broadcast

/-!
# What a broadcast stream delivers

A stream delivers the transactions that were sent to its direction and did not come from its peer.
Its timer wakes it, unless the timer has elapsed before it was polled.
-/

namespace Cuprate.P2P

open List

variable {Peer : Type} [DecidableEq Peer]

/-- The transactions that a peer is to be sent. -/
def wanted (addr : Peer) (infos : List (BroadcastTxInfo Peer)) : List (List UInt8) :=
  (infos.filter fun info => info.receivedFrom ≠ some addr).map (·.tx)

theorem wanted_append (addr : Peer) (l l' : List (BroadcastTxInfo Peer)) :
    wanted addr (l ++ l') = wanted addr l ++ wanted addr l' := by
  simp [wanted]

/-- The transactions of a message, with what stays in the channel, are those that were in the
channel. -/
theorem getTxsToBroadcast_spec (addr : Peer) (channel : List (BroadcastTxInfo Peer)) {size : Nat}
    (hsize : size ≤ SOFT_TX_MESSAGE_SIZE_SIZE_LIMIT) :
    wanted addr channel = (getTxsToBroadcast addr size channel).1 ++
        wanted addr (getTxsToBroadcast addr size channel).2.2 ∧
      size + ((getTxsToBroadcast addr size channel).1.dropLast.map length).sum ≤
        SOFT_TX_MESSAGE_SIZE_SIZE_LIMIT ∧
      ((getTxsToBroadcast addr size channel).1 = [] → wanted addr channel = []) := by
  induction channel generalizing size with
  | nil => exact ⟨rfl, hsize, fun _ => rfl⟩
  | cons info channel ih =>
    unfold getTxsToBroadcast
    by_cases hfrom : info.receivedFrom = some addr
    · have hskip : wanted addr (info :: channel) = wanted addr channel := by simp [wanted, hfrom]
      rw [if_pos hfrom, hskip]
      exact ih hsize
    · have hcons : wanted addr (info :: channel) = info.tx :: wanted addr channel :=
          by simp [wanted, hfrom]
      rw [if_neg hfrom, hcons]
      by_cases hfull : size + info.tx.length > SOFT_TX_MESSAGE_SIZE_SIZE_LIMIT
      · rw [if_pos hfull]
        exact ⟨rfl, hsize, fun h => absurd h (cons_ne_nil _ _)⟩
      · rw [if_neg hfull]
        obtain ⟨hwanted, hlimit, -⟩ := ih (not_lt.mp hfull)
        refine ⟨by rw [hwanted]; rfl, ?_, fun h => absurd h (cons_ne_nil _ _)⟩
        show size + ((info.tx :: _).dropLast.map length).sum ≤ _
        cases htxs : (getTxsToBroadcast addr (size + info.tx.length) channel).1 with
        | nil => exact hsize
        | cons tx txs =>
          rw [htxs] at hlimit
          rw [dropLast_cons_of_ne_nil (cons_ne_nil _ _), map_cons, sum_cons]
          omega

namespace BroadcastMessageStream

/-- The transactions of a message. -/
def txsOf : BroadcastMessage → List (List UInt8)
  | .newFluffyBlock _ => []
  | .newTransactions message => message.txs

/-- The transactions that an event sends to a direction. -/
def sentTo (direction : ConnectionDirection) : Event Peer → List (BroadcastTxInfo Peer)
  | .request (.transaction info target) => if target = none ∨ target = some direction then [info] else []
  | _ => []

/-- What one event does: what it sends to the stream is added to what is to be delivered, and what
is delivered is taken from its front, in messages that are not too large. -/
theorem step_spec (s : BroadcastMessageStream Peer) (messages : List BroadcastMessage)
    (event : Event Peer) :
    (step (s, messages) event).1.addr = s.addr ∧ (step (s, messages) event).1.direction = s.direction ∧
    ∃ new, (step (s, messages) event).2 = messages ++ new ∧
      wanted s.addr (s.txBroadcastChannel ++ sentTo s.direction event) =
        new.flatMap txsOf ++ wanted s.addr (step (s, messages) event).1.txBroadcastChannel ∧
      ∀ message, .newTransactions message ∈ new →
        message.txs ≠ [] ∧ (message.txs.dropLast.map length).sum ≤ SOFT_TX_MESSAGE_SIZE_SIZE_LIMIT := by
  cases event with
  | request request =>
    refine ⟨?_, ?_, [], (append_nil _).symm, ?_, nofun⟩
    all_goals
      cases request with
      | block info => simp [step, call, sentTo]
      | transaction info target =>
        simp only [step, call, sentTo]
        split <;> simp
  | poll times =>
    obtain ⟨hwanted, hlimit, -⟩ := getTxsToBroadcast_spec s.addr s.txBroadcastChannel (Nat.zero_le _)
    simp only [step, pollNext, sentTo, append_nil]
    split
    · exact ⟨rfl, rfl, _, rfl, rfl, by simp⟩
    · split
      · exact ⟨rfl, rfl, [], rfl, rfl, by simp⟩
      · split
        · next hnone =>
          rw [hnone] at hwanted
          exact ⟨rfl, rfl, [], rfl, hwanted, by simp⟩
        · next hsome =>
          refine ⟨rfl, rfl, _, rfl, by simpa [txsOf] using hwanted, fun message hmessage => ?_⟩
          obtain rfl : message = _ := by simpa using hmessage
          exact ⟨hsome, (Nat.zero_add _).symm.trans_le hlimit⟩

/-- Along every run the transactions delivered, then those held, are the ones sent in the stream's
direction that did not come from its peer, in order. No message is empty or too large without its
last transaction. A poll after the flush time that finds no block delivers transactions if there are
any. -/
theorem delivers_wanted_in_order (addr : Peer) (direction : ConnectionDirection) (nextFlush : Nat)
    (events : List (Event Peer)) :
    let r := events.foldl step (new addr direction nextFlush, [])
    r.2.flatMap txsOf ++ wanted addr r.1.txBroadcastChannel =
      wanted addr (events.flatMap (sentTo direction)) ∧ (∀ message, .newTransactions message ∈ r.2 →
        message.txs ≠ [] ∧ (message.txs.dropLast.map length).sum ≤ SOFT_TX_MESSAGE_SIZE_SIZE_LIMIT) ∧
      ∀ times, r.1.newBlockWatch = none → r.1.nextFlush ≤ times.flushPolled →
        wanted addr r.1.txBroadcastChannel ≠ [] →
          ∃ message, (r.1.pollNext times).1 = some (.newTransactions message) := by
  intro r
  have hinv : r.1.addr = addr ∧ r.1.direction = direction ∧
      r.2.flatMap txsOf ++ wanted addr r.1.txBroadcastChannel =
        wanted addr (events.flatMap (sentTo direction)) ∧
      ∀ message, .newTransactions message ∈ r.2 →
        message.txs ≠ [] ∧ (message.txs.dropLast.map length).sum ≤ SOFT_TX_MESSAGE_SIZE_SIZE_LIMIT := by
    -- by induction on the events, the last one first
    induction events using List.reverseRecOn with
    | nil => exact ⟨rfl, rfl, rfl, nofun⟩
    | append_singleton events event ih =>
      obtain ⟨haddr, hdirection, hwanted, hmessages⟩ := ih
      have hr : r = step (events.foldl step (new addr direction nextFlush, [])) event := foldl_concat ..
      obtain ⟨haddr', hdirection', new, hnew, hstep, hlimits⟩ :=
        step_spec (events.foldl step (new addr direction nextFlush, [])).1 _ event
      rw [hr]
      refine ⟨haddr'.trans haddr, hdirection'.trans hdirection, ?_, fun txs htxs => ?_⟩
      · rw [haddr, hdirection, wanted_append] at hstep
        rw [hnew, flatMap_append, append_assoc, ← hstep, ← append_assoc, hwanted, ← wanted_append]
        simp
      · rw [hnew, mem_append] at htxs
        exact htxs.elim (hmessages txs) (hlimits txs)
  refine ⟨hinv.2.2.1, hinv.2.2.2, fun times hblock hflush hne => ?_⟩
  obtain ⟨-, -, hempty⟩ := getTxsToBroadcast_spec r.1.addr r.1.txBroadcastChannel (Nat.zero_le _)
  rw [hinv.1] at hempty
  simp only [pollNext, hblock, if_neg (Nat.not_lt.mpr hflush), hinv.1, if_neg (mt hempty hne)]
  exact ⟨_, rfl⟩

/-- Without more transactions for a message nothing that is wanted stays in the channel. -/
theorem getTxsToBroadcast_rest (addr : Peer) (channel : List (BroadcastTxInfo Peer)) (size : Nat)
    (h : (getTxsToBroadcast addr size channel).2.1 = false) :
    wanted addr (getTxsToBroadcast addr size channel).2.2 = [] := by
  induction channel generalizing size with
  | nil => rfl
  | cons info channel ih =>
    unfold getTxsToBroadcast at h ⊢
    split
    · next hfrom =>
      rw [if_pos hfrom] at h
      exact ih size h
    · next hfrom =>
      rw [if_neg hfrom] at h
      split
      · next hfull =>
        rw [if_pos hfull] at h
        cases h
      · next hfits =>
        rw [if_neg hfits] at h
        exact ih _ h

theorem getTxsToBroadcast_more {addr : Peer} {channel : List (BroadcastTxInfo Peer)} {size : Nat}
    (h : (getTxsToBroadcast addr size channel).1 = []) :
      (getTxsToBroadcast addr size channel).2.1 = false := by
  induction channel generalizing size with
  | nil => rfl
  | cons info channel ih =>
    unfold getTxsToBroadcast at h ⊢
    split
    · next hfrom =>
      rw [if_pos hfrom] at h
      exact ih h
    · next hfrom =>
      rw [if_neg hfrom] at h
      split at h <;> cases h

/-- A poll after the flush time that finds no block takes a transaction that is wanted out of the
channel. If others stay, the next timer has elapsed as soon as it is made. -/
theorem pollNext_flushes {s : BroadcastMessageStream Peer} {times : PollTimes}
    (hblock : s.newBlockWatch = none)
    (hflush : s.nextFlush ≤ times.flushPolled) (hne : wanted s.addr s.txBroadcastChannel ≠ []) :
    (wanted s.addr (s.pollNext times).2.txBroadcastChannel).length <
      (wanted s.addr s.txBroadcastChannel).length ∧
      (wanted s.addr (s.pollNext times).2.txBroadcastChannel ≠ [] →
        (s.pollNext times).2.nextFlush = times.created) := by
  obtain ⟨hwanted, -, hempty⟩ := getTxsToBroadcast_spec s.addr s.txBroadcastChannel (Nat.zero_le _)
  simp only [pollNext, hblock, if_neg (Nat.not_lt.mpr hflush), if_neg (mt hempty hne)]
  constructor
  · rw [hwanted, length_append]
    exact Nat.lt_add_of_pos_left (length_pos_iff.mpr (mt hempty hne))
  · intro hrest
    rw [if_pos]
    by_contra hmore
    exact hrest (getTxsToBroadcast_rest _ _ _ (Bool.eq_false_iff.mpr hmore))

theorem newBlockWatch_pollNext {s : BroadcastMessageStream Peer} (times : PollTimes)
    (h : s.newBlockWatch = none) : (s.pollNext times).2.newBlockWatch = none := by
  unfold pollNext
  split
  · rfl
  · dsimp only
    split
    · exact h
    · split <;> exact h

/-- Polls from the flush time on deliver everything that is wanted, at least one transaction
each. -/
theorem polls_flush {polls : List PollTimes} (hclock : polls.IsChain fun times next =>
    times.created ≤ next.flushPolled)
    {s : BroadcastMessageStream Peer} {messages : List BroadcastMessage} (hblock : s.newBlockWatch = none)
    (hflush : wanted s.addr s.txBroadcastChannel ≠ [] →
      ∀ times ∈ polls.head?, s.nextFlush ≤ times.flushPolled)
    (hmany : (wanted s.addr s.txBroadcastChannel).length ≤ polls.length) :
    ((polls.map Event.poll).foldl step (s, messages)).2.flatMap txsOf =
      messages.flatMap txsOf ++ wanted s.addr s.txBroadcastChannel := by
  induction polls generalizing s messages with
  | nil => rw [length_eq_zero_iff.mp (Nat.le_zero.mp hmany), append_nil]; rfl
  | cons times polls ih =>
    obtain ⟨haddr, -, new, hnew, hwanted, -⟩ := step_spec s messages (.poll times)
    have hstep : step (s, messages) (.poll times) = ((s.pollNext times).2, messages ++ new) :=
        Prod.ext rfl hnew
    have hsplit : wanted s.addr s.txBroadcastChannel =
        new.flatMap txsOf ++ wanted s.addr (s.pollNext times).2.txBroadcastChannel :=
      (congrArg _ (append_nil _).symm).trans hwanted
    have haddr : (s.pollNext times).2.addr = s.addr := haddr
    rw [map_cons, foldl_cons, hstep]
    by_cases hnil : wanted s.addr s.txBroadcastChannel = []
    · have hrest : wanted s.addr (s.pollNext times).2.txBroadcastChannel = [] := by
        rw [hnil] at hsplit
        exact (append_eq_nil_iff.mp hsplit.symm).2
      refine (ih hclock.tail (newBlockWatch_pollNext times hblock) ?_ ?_).trans ?_
      · rw [haddr, hrest]
        exact absurd rfl
      · rw [haddr, hrest]
        exact Nat.zero_le _
      · rw [hsplit, haddr, flatMap_append, append_assoc]
    · obtain ⟨hless, hagain⟩ := pollNext_flushes hblock (hflush hnil times rfl) hnil
      rw [length_cons] at hmany
      refine (ih hclock.tail (newBlockWatch_pollNext times hblock) ?_ ?_).trans ?_
      · rw [haddr]
        intro hrest next hnext
        rw [hagain hrest]
        cases polls with
        | nil => cases hnext
        | cons next' polls =>
          cases hnext
          exact (isChain_cons_cons.mp hclock).1
      · rw [haddr]
        omega
      · rw [hsplit, haddr, flatMap_append, append_assoc]

omit [DecidableEq Peer] in
theorem call_transaction (s : BroadcastMessageStream Peer) (info : BroadcastTxInfo Peer)
    (direction : Option ConnectionDirection) :
    (s.call (.transaction info direction)).addr = s.addr ∧
      (s.call (.transaction info direction)).newBlockWatch = s.newBlockWatch ∧
      (s.call (.transaction info direction)).flushWaker = s.flushWaker ∧
      (s.call (.transaction info direction)).nextFlush = s.nextFlush := by
  simp only [call]
  split <;> exact ⟨rfl, rfl, rfl, rfl⟩

/-- A poll that returns `Pending` leaves the task to be woken by a new block. It also leaves it to
be woken by the current timer exactly if the old timer had not elapsed when it was polled, or the
new one had not. What is sent afterwards does not change this, and polls from the expiry of the
timer on flush it without a block. -/
theorem pending_woken_iff (s : BroadcastMessageStream Peer) (times : PollTimes)
    {s' : BroadcastMessageStream Peer}
    (hpending : s.pollNext times = (none, s')) :
    s'.blockWaker = true ∧
    (s'.flushWaker = true ↔
      times.flushPolled < s.nextFlush ∨ times.polledAgain < times.created + times.delay) ∧
    ∀ sent : List (BroadcastTxInfo Peer × Option ConnectionDirection),
      let queued := sent.foldl (fun s tx => s.call (.transaction tx.1 tx.2)) s'
      queued.flushWaker = s'.flushWaker ∧ queued.nextFlush = s'.nextFlush ∧
        ∀ polls : List PollTimes, (polls.IsChain fun times next => times.created ≤ next.flushPolled) →
          (∀ times ∈ polls.head?, s'.nextFlush ≤ times.flushPolled) →
          (wanted s.addr queued.txBroadcastChannel).length ≤ polls.length →
          ((polls.map Event.poll).foldl step (queued, [])).2.flatMap txsOf =
            wanted s.addr queued.txBroadcastChannel := by
  obtain ⟨haddr, hblock, hwakers⟩ : s'.addr = s.addr ∧ s'.newBlockWatch = none ∧ s'.blockWaker = true ∧
      (s'.flushWaker = true ↔
        times.flushPolled < s.nextFlush ∨ times.polledAgain < times.created + times.delay) := by
    unfold pollNext at hpending
    split at hpending
    · cases hpending
    · next hblock =>
      dsimp only at hpending
      split at hpending
      · next hwaits =>
        obtain rfl := (Prod.mk.inj hpending).2
        exact ⟨rfl, hblock, rfl, iff_of_true rfl (.inl hwaits)⟩
      · next hflush =>
        split at hpending
        · next hnone =>
          obtain rfl := (Prod.mk.inj hpending).2
          refine ⟨rfl, hblock, rfl, ?_⟩
          simp [hflush, getTxsToBroadcast_more hnone]
        · cases hpending
  refine ⟨hwakers.1, hwakers.2, fun sent => ?_⟩
  have hqueued (sent : List (BroadcastTxInfo Peer × Option ConnectionDirection))
      (s : BroadcastMessageStream Peer) :
      let queued := sent.foldl (fun s tx => s.call (.transaction tx.1 tx.2)) s
      queued.addr = s.addr ∧ queued.newBlockWatch = s.newBlockWatch ∧ queued.flushWaker = s.flushWaker ∧
        queued.nextFlush = s.nextFlush := by
    induction sent generalizing s with
    | nil => exact ⟨rfl, rfl, rfl, rfl⟩
    | cons tx sent ih =>
      obtain ⟨haddr, hblock, hwaker, hflush⟩ := call_transaction s tx.1 tx.2
      obtain ⟨haddr', hblock', hwaker', hflush'⟩ := ih (s.call (.transaction tx.1 tx.2))
      exact ⟨haddr'.trans haddr, hblock'.trans hblock, hwaker'.trans hwaker, hflush'.trans hflush⟩
  obtain ⟨haddr', hblock', hwaker', hflush'⟩ := hqueued sent s'
  refine ⟨hwaker', hflush', fun polls hclock hfirst hmany => ?_⟩
  rw [← haddr, ← haddr'] at hmany ⊢
  exact polls_flush hclock (hblock'.trans hblock) (fun _ => hflush' ▸ hfirst) hmany

/-- The timer has expired and nothing waits. The next timer expires three seconds later, and flushes
what has been sent until then. -/
theorem pending_woken_expired : ∃ s : BroadcastMessageStream Nat,
    (new 0 .outbound 5).pollNext ⟨7, 7, 3, 8⟩ = (none, s) ∧ s.flushWaker = true ∧ s.nextFlush = 10 ∧
    ([Event.poll ⟨10, 10, 2, 10⟩].foldl step (s.call (.transaction ⟨[1], none⟩ none), [])).2.flatMap
      txsOf = [[1]] := by
  refine ⟨_, rfl, ?_⟩
  obtain ⟨-, hwaker, hsent⟩ := pending_woken_iff (new (0 : Nat) .outbound 5) ⟨7, 7, 3, 8⟩ rfl
  obtain ⟨-, -, hflushed⟩ := hsent [(⟨[1], none⟩, none)]
  refine ⟨hwaker.mpr (.inr (by decide)), rfl, ?_⟩
  exact hflushed [⟨10, 10, 2, 10⟩] (.singleton _) (fun times htimes => by cases htimes; decide) (by decide)

/-- The sampled delay is zero. No timer wakes the task then, and a transaction that is sent waits
for a block. -/
theorem pending_never_woken_by_timer : ∃ s : BroadcastMessageStream Nat,
    (new 0 .outbound 5).pollNext ⟨5, 5, 0, 5⟩ = (none, s) ∧ s.flushWaker = false ∧
    (s.call (.transaction ⟨[1], none⟩ none)).flushWaker = false ∧
    wanted 0 (s.call (.transaction ⟨[1], none⟩ none)).txBroadcastChannel = [[1]] :=
  ⟨_, rfl, rfl, rfl, rfl⟩

end BroadcastMessageStream

end Cuprate.P2P
