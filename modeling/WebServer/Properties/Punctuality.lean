import WebServer.Kernel.Deadlines
import WebServer.Properties.Timeouts

/-!
# Timeouts are punctual

How late a timeout can come when the loop asks `epoll_wait` to sleep until the first deadline.
-/

namespace WebServer.Properties

open WebServer.Net WebServer.Http WebServer.Core WebServer.Life WebServer.Refine WebServer.Kernel
  EventLoop

variable {delay checked read now : Time} {l l₁ l' : EventLoop} {s : Server}

/-! ## Checks -/

/-- A check of a reachable server in which no node has been due for longer than `delay`. -/
structure CheckedInTime (delay : Time) (check : Check) : Prop where
  reachable : Reachable check.before
  expired : ∃ ties, check.after = processExpiredTimers check.now ties check.before
  inTime : ∀ n ∈ check.before.timerHeap, check.now ≤ n.deadline + delay

/-- What holds behind a check that was made at `checked`. -/
structure InTime (delay checked : Time) (l : EventLoop) : Prop where
  log : l.log.nextTime ≠ 0
  reachable : Reachable l.server
  later : ∀ n ∈ l.server.timerHeap, checked < n.deadline
  checks : ∀ check ∈ l.checks, CheckedInTime delay check

theorem InTime.check (h : InTime delay checked l) (hr : Reachable s) (poller : EpollPoller)
    (hnow : ∀ n ∈ s.timerHeap, now ≤ n.deadline + delay) (ties : List Nat)
    (reading : MetricsReading) :
    InTime delay now ({ l with server := s, poller }.check now ties reading) := by
  have hlate := (processExpiredTimers_spec now ties (atRest_of_reachable hr)).2
  refine ⟨fun h0 => ?_, reachable_processExpiredTimers hr now ties, hlate, fun check hcheck => ?_⟩
  · have hle := nextTime_maybeWriteMetricsLog reading (processExpiredTimers now ties s).metrics l.log
    exact h.log (Nat.le_zero.mp (hle.trans (Nat.le_of_eq h0)))
  · rcases List.mem_append.mp hcheck with hcheck | hcheck
    · exact h.checks check hcheck
    · obtain rfl := List.mem_singleton.mp hcheck
      exact ⟨hr, ⟨ties, rfl⟩, hnow⟩

/-- The first check of a turn comes within `delay` of the last one before. -/
theorem InTime.beforeWait {turn : LoopTurn} (h : InTime delay checked l) (hle : checked ≤ read)
    (hanswers : l.server.readyQueue.length ≤ turn.ready.length) (hsteady : Steady read turn)
    (hfirst : l.beforeWait turn = .ok l₁) (hprompt : turn.firstReading.now ≤ checked + delay) :
    InTime delay turn.firstExpiry l₁ := by
  obtain ⟨s, hready, rfl⟩ := beforeWait_ok hfirst
  have hr := reachable_processReadyQueue h.reachable hready
  have hnew : NewSince read l.server.timerHeap s :=
    processReadyQueue_of_primitives (fun _ _ _ => NewSince.step) hanswers hsteady.ready hready
      fun n hn => .inl hn
  have hexpiry := hsteady.firstReading.trans hprompt
  refine h.check hr l.poller (fun n hn => ?_) turn.firstTies turn.firstReading
  rcases hnew n hn with hn | hn
  · have := h.later n hn
    unfold Time at *
    omega
  · unfold Time at *
    omega

/-- The second one comes within `delay` of the end of the sleep. -/
theorem InTime.afterWait {turn : LoopTurn} (h : InTime delay turn.firstExpiry l₁)
    (hsteady : Steady read turn) (hsecond : l₁.afterWait turn = .ok l')
    (hprompt : turn.secondReading.now ≤ turn.firstExpiry +
      l₁.computePollTimeoutMs turn.heapNow turn.logNow * 1000000 + delay) :
    InTime delay turn.secondExpiry l' := by
  obtain ⟨events, poller, s, hwait, hevents, rfl⟩ := afterWait_ok hsecond
  have hr := reachable_dispatchEvents h.reachable hevents
  have hreported : ∀ e ∈ events, turn.logNow ≤ e.2.now := by
    rcases wait_ok hwait with ⟨rfl, -⟩ | ⟨rfl, -⟩
    · exact fun _ he => absurd he List.not_mem_nil
    · exact fun e he => hsteady.events e (List.mem_of_mem_take he)
  have hnew : NewSince turn.logNow l₁.server.timerHeap s :=
    dispatchEvents_of_primitives (fun _ _ _ => NewSince.step) hreported hevents fun n hn => .inl hn
  have hheap := hsteady.firstReading.trans hsteady.heapNow
  have hlog := hheap.trans hsteady.logNow
  have hexpiry := hsteady.secondReading.trans hprompt
  have hdue : ∀ n ∈ s.timerHeap, turn.secondExpiry ≤ n.deadline + delay := by
    intro n hn
    rcases hnew n hn with hn | hn
    · have hwake : turn.firstExpiry + _ ≤ n.deadline :=
        wake_le h.log turn.logNow hheap hn (h.later n hn)
      exact hexpiry.trans (Nat.add_le_add_right hwake delay)
    · -- a timer that was armed behind the sleep runs for ten seconds, the sleep lasts one at most
      have hsecond := wake_le_second h.log turn.heapNow turn.logNow
      have hten : kHeaderTimeout = 10000000000 := rfl
      rw [hten] at hn
      unfold Time at *
      omega
  have hchecked := h.check hr poller hdue turn.secondTies turn.secondReading
  exact ⟨hchecked.log, hchecked.reachable.step .flushClosed rfl, hchecked.later, hchecked.checks⟩

theorem Timed.inTime (h : Timed delay checked read l) : checked ≤ read ∧ InTime delay checked l := by
  induction h with
  | start listenFd epollFd now =>
    refine ⟨Nat.le_refl _, Nat.succ_ne_zero _, ⟨listenFd, [], rfl⟩, ?_, ?_⟩
    · exact fun n hn => absurd hn List.not_mem_nil
    · exact fun check hcheck => absurd hcheck List.not_mem_nil
  | turn turn _ hanswers hsteady hfirst hprompt hsecond ih =>
    obtain ⟨hle, ih⟩ := ih
    have h₁ := ih.beforeWait hle hanswers hsteady hfirst hprompt.first
    exact ⟨hsteady.secondReading, h₁.afterWait hsteady hsecond hprompt.second⟩

/-! ## Timeouts -/

/-- **Timeouts are punctual.**  When the loop is never away for more than `delay` beside the sleep
it asks for, every check closes the connections that have timed out, and no armed timer of any
connection has been due for longer than `delay` by then. -/
theorem timeouts_punctual (h : Timed delay checked read l) :
    ∀ check ∈ l.checks, ∀ fd c, check.before.find fd = some c →
      (check.after.find fd = none ↔
        TimedOut check.now c (history c.connectionId check.before.trace)) ∧
      ∀ kind, (c.timeout kind).armed = true → ∃ armedAt deadline,
        lastArming kind (history c.connectionId check.before.trace) = some (armedAt, deadline) ∧
          check.now ≤ deadline + delay := by
  intro check hcheck fd c hf
  obtain ⟨hr, ⟨ties, hafter⟩, hinTime⟩ := (Timed.inTime h).2.checks check hcheck
  refine ⟨hafter ▸ closed_iff_timedOut hr hf, fun kind harmed => ?_⟩
  have htimers := (run_of_reachable hr hf).timersInOrder
  obtain ⟨n, hn, rfl, hcur⟩ := htimers.armed kind harmed
  obtain ⟨-, armedAt, hlast⟩ := htimers.exact n hn hcur.2.symm
  exact ⟨armedAt, n.deadline, hlast, hinTime n (List.mem_filter.mp hn).1⟩

/-- A client connects and never says a word. -/
def silentTurns : List LoopTurn :=
  { idleSecond 0 with wait := .reported [({ fd := 3, events := { epollin := true } },
      { accepts := [.accepted 5 (ascii "10.0.0.1:40000")] })] } ::
    (List.range 9).map fun k => idleSecond (k + 1)

/-- After ten seconds it is gone, to the nanosecond. -/
theorem timeouts_punctual_silentClient : ∃ checked read l, Timed 0 checked read l ∧
    (∃ check ∈ l.checks, check.now = seconds 10 ∧ (check.before.find 5).isSome = true ∧
      (check.after.find 5).isNone = true) ∧
    ∀ check ∈ l.checks, ∀ fd c, check.before.find fd = some c →
      (check.after.find fd = none ↔
        TimedOut check.now c (history c.connectionId check.before.trace)) ∧
      ∀ kind, (c.timeout kind).armed = true → ∃ armedAt deadline,
        lastArming kind (history c.connectionId check.before.trace) = some (armedAt, deadline) ∧
          check.now ≤ deadline + 0 := by
  obtain ⟨checked, read, l, h, hclosed⟩ : ∃ checked read l, Timed 0 checked read l ∧
      ∃ check ∈ l.checks, check.now = seconds 10 ∧ (check.before.find 5).isSome = true ∧
        (check.after.find 5).isNone = true :=
    exists_timed silentTurns (by decide +kernel)
  exact ⟨checked, read, l, h, hclosed, timeouts_punctual h⟩

end WebServer.Properties
