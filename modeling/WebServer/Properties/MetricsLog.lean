import WebServer.Kernel.Deadlines
import WebServer.Kernel.MetricsLines

/-!
# The metrics log

One line for every second of uptime, and what the lines say.
-/

namespace WebServer.Properties

open WebServer.Net WebServer.Http WebServer.Core WebServer.Life WebServer.Refine WebServer.Kernel
  EventLoop

variable {delay checked read : Time} {l l₁ l' : EventLoop} {log : MetricsLog}

/-! ## The schedule -/

/-- When the clock has last shown `read`, a line has been written for every full second. -/
structure OnSchedule (read : Time) (log : MetricsLog) : Prop where
  isOpen : log.isOpen = true
  begun : log.startTime + log.samples.length * kMetricsLogInterval ≤ read
  early : read < log.nextTime
  next : log.nextTime = log.startTime + (log.samples.length + 1) * kMetricsLogInterval
  uptimes : log.samples.map MetricsSample.uptimeS = List.range' 1 log.samples.length

theorem OnSchedule.lines (h : OnSchedule read log) :
    log.samples.length = (read - log.startTime) / kMetricsLogInterval := by
  have hbegun := h.begun
  have hearly := h.early
  rw [h.next] at hearly
  have hpos : 0 < kMetricsLogInterval := by decide
  symm
  unfold Time at *
  rw [Nat.div_eq_iff hpos]
  generalize kMetricsLogInterval = interval at *
  generalize log.samples.length = n at *
  rw [Nat.succ_mul] at hearly
  omega

/-- **Step.**  A loop that comes back before two lines are due writes each in its second. -/
theorem OnSchedule.write {reading : MetricsReading} (h : OnSchedule read log)
    (hle : read ≤ reading.now) (hlt : reading.now < log.nextTime + kMetricsLogInterval)
    (metrics : Metrics) : OnSchedule reading.now (maybeWriteMetricsLog reading metrics log) := by
  by_cases hdue : log.nextTime ≤ reading.now
  · have hone : (reading.now - log.nextTime) / kMetricsLogInterval = 0 := by
      apply Nat.div_eq_of_lt
      unfold Time at *
      omega
    rw [maybeWriteMetricsLog_due h.isOpen hdue, hone]
    have hnext := h.next
    constructor
    · exact h.isOpen
    · dsimp only
      rw [List.length_append, List.length_singleton, ← hnext]
      exact hdue
    · dsimp only
      rw [Nat.zero_add, Nat.one_mul]
      exact hlt
    · dsimp only
      rw [List.length_append, List.length_singleton, hnext, Nat.zero_add, Nat.one_mul, Nat.add_assoc,
        ← Nat.succ_mul]
    · have huptime : (reading.now - log.startTime) / kMetricsLogInterval =
          log.samples.length + 1 := by
        have hpos : 0 < kMetricsLogInterval := by decide
        unfold Time at *
        rw [Nat.div_eq_iff hpos]
        rw [hnext] at hdue hlt
        generalize kMetricsLogInterval = interval at *
        generalize log.samples.length + 1 = n at *
        omega
      dsimp only
      rw [List.map_append, h.uptimes, List.length_append, List.length_singleton, List.range'_concat]
      have hsample : (log.sample reading metrics).uptimeS = 1 + 1 * log.samples.length := by
        rw [Nat.one_mul, Nat.add_comm]
        exact huptime
      rw [List.map_singleton, hsample]
  · have hearly := Nat.lt_of_not_le hdue
    rw [maybeWriteMetricsLog_early hearly]
    exact ⟨h.isOpen, h.begun.trans hle, hearly, h.next, h.uptimes⟩

theorem OnSchedule.nextTime_ne (h : OnSchedule read log) : log.nextTime ≠ 0 := by
  have hearly := h.early
  unfold Time at *
  omega

/-- The first line of a turn: the last check is not long ago. -/
theorem OnSchedule.beforeWait {turn : LoopTurn} (h : OnSchedule read l.log)
    (hdelay : delay < kMetricsLogInterval) (hchecked : checked ≤ read) (hsteady : Steady read turn)
    (hfirst : l.beforeWait turn = .ok l₁) (hprompt : turn.firstReading.now ≤ checked + delay) :
    OnSchedule turn.firstReading.now l₁.log := by
  obtain ⟨s, -, rfl⟩ := beforeWait_ok hfirst
  have hearly := h.early
  have hread := hsteady.firstExpiry.trans hsteady.firstReading
  refine h.write hread ?_ _
  unfold Time at *
  omega

/-- The second one: the sleep ends before it is due. -/
theorem OnSchedule.afterWait {turn : LoopTurn} (h : OnSchedule turn.firstReading.now l₁.log)
    (hdelay : delay < kMetricsLogInterval) (hsteady : Steady read turn)
    (hsecond : l₁.afterWait turn = .ok l')
    (hprompt : turn.secondReading.now ≤ turn.firstExpiry +
      l₁.computePollTimeoutMs turn.heapNow turn.logNow * 1000000 + delay) :
    OnSchedule turn.secondReading.now l'.log := by
  obtain ⟨events, poller, s, -, -, rfl⟩ := afterWait_ok hsecond
  have hearly := h.early
  have hfirst := hsteady.firstReading
  have hlog := hsteady.heapNow.trans hsteady.logNow
  have hread := hlog.trans (hsteady.secondExpiry.trans hsteady.secondReading)
  have hsleep := (Kernel.le_computePollTimeoutMs h.nextTime_ne turn.heapNow turn.logNow _).mp
    (Nat.le_refl (l₁.computePollTimeoutMs turn.heapNow turn.logNow))
  generalize l₁.computePollTimeoutMs turn.heapNow turn.logNow = timeoutMs at *
  refine h.write hread ?_ _
  unfold Time at *
  rcases hsleep with hnone | ⟨-, -, -, hbefore⟩
  · rw [hnone] at hprompt
    omega
  · omega

theorem Timed.onSchedule (h : Timed delay checked read l) (hdelay : delay < kMetricsLogInterval) :
    checked ≤ read ∧ OnSchedule read l.log := by
  induction h with
  | start listenFd epollFd now =>
    refine ⟨Nat.le_refl _, rfl, Nat.le_of_eq (Nat.zero_mul _ ▸ rfl), ?_, ?_, rfl⟩
    · exact Nat.lt_add_of_pos_right (by decide)
    · exact congrArg (now + ·) (Nat.one_mul _).symm
  | turn turn _ _ hsteady hfirst hprompt hsecond ih =>
    obtain ⟨hchecked, hschedule⟩ := ih
    have h₁ := hschedule.beforeWait hdelay hchecked hsteady hfirst hprompt.first
    exact ⟨hsteady.secondReading, h₁.afterWait hdelay hsteady hsecond hprompt.second⟩

/-- **One line a second.**  If no turn takes a second longer than the sleep it asks for, the log
has exactly one line for every full second of uptime, in order and with none left out. -/
theorem metricsLog_everySecond (h : Timed delay checked read l)
    (hdelay : delay < kMetricsLogInterval) :
    l.log.samples.map MetricsSample.uptimeS =
      List.range' 1 ((read - l.log.startTime) / kMetricsLogInterval) := by
  have hschedule := (Timed.onSchedule h hdelay).2
  rw [hschedule.uptimes, hschedule.lines]

/-- Five seconds in which nothing happens. -/
theorem metricsLog_everySecond_idle : ∃ checked read l, Timed 0 checked read l ∧
    (l.log.samples.length = 5 ∧ l.log.startTime = 0) ∧
    l.log.samples.map MetricsSample.uptimeS =
      List.range' 1 ((read - l.log.startTime) / kMetricsLogInterval) := by
  obtain ⟨checked, read, l, h, hlines⟩ : ∃ checked read l, Timed 0 checked read l ∧
      (l.log.samples.length = 5 ∧ l.log.startTime = 0) :=
    exists_timed ((List.range 5).map idleSecond) (by decide +kernel)
  exact ⟨checked, read, l, h, hlines, metricsLog_everySecond h (by decide)⟩

/-! ## The lines -/

/-- **The lines reconcile.**  Every line of the log is sound by itself, and between any two lines
no total goes down, every reject with a counter of its own has been counted among the rejects,
and every reject and every timeout among the errors. -/
theorem metricsLog_reconciles (h : Looped l) :
    (∀ x ∈ l.log.samples, Sound x.metrics) ∧
      l.log.samples.Pairwise fun x y => Continues x.metrics y.metrics :=
  ⟨Looped.sound h, Looped.continues h⟩

/-- One client after the other, a line in between. -/
theorem metricsLog_reconciles_twoClients : ∃ l, Looped l ∧
    l.log.samples.map (fun x => x.metrics.acceptTotal) = [1, 2] ∧
    (∀ x ∈ l.log.samples, Sound x.metrics) ∧
      l.log.samples.Pairwise fun x y => Continues x.metrics y.metrics := by
  let arrival (fd : Fd) : WaitResult (PollEvent × Io) :=
    .reported [({ fd := 3, events := { epollin := true } },
      { now := seconds fd, accepts := [.accepted fd (ascii "10.0.0.1:40000")] })]
  obtain ⟨checked, read, l, h, hlines⟩ : ∃ checked read l, Timed (seconds 9) checked read l ∧
      l.log.samples.map (fun x => x.metrics.acceptTotal) = [1, 2] :=
    exists_timed [{ idleSecond 0 with wait := arrival 5 }, { idleSecond 1 with wait := arrival 6 }]
      (by decide +kernel)
  exact ⟨l, h.looped, hlines, metricsLog_reconciles h.looped⟩

end WebServer.Properties
