import WebServer.Core.TimedRuns
import WebServer.Kernel.Progress

/-!
# The lines of the metrics log

Every line shows the counters of a server that was checked for expired timers, in the order of
the checks.
-/

namespace WebServer.Kernel

open WebServer.Net WebServer.Http WebServer.Core WebServer.Life WebServer.Refine EventLoop

variable {l : EventLoop} {m m' : Metrics} {s s' : Server}

/-! ## Counters -/

/-- The rejects that have a counter of their own. -/
def namedRejects (m : Metrics) : Nat :=
  m.reject411Total + m.reject413Total + m.reject429Total + m.reject431Total + m.reject501Total +
    m.reject503Total + m.connRejectTotal

/-- What the counters of one moment say about each other. -/
structure Sound (m : Metrics) : Prop where
  accepted : m.reject429Total + m.connsCurrent ≤ m.acceptTotal
  rejected : namedRejects m ≤ m.rejectTotal
  erred : m.rejectTotal + m.timeoutCloseTotal ≤ m.errorsTotal
  conns : m.connsCurrent ≤ kMaxConnections
  inflight : m.globalInflightBytesCurrent ≤ kMaxInflightBytes

/-- What the counters of a later moment `m'` say beside those of `m`. -/
structure Continues (m m' : Metrics) : Prop where
  grow : ∀ k, counter k m ≤ counter k m'
  accepted : m'.reject429Total - m.reject429Total + (m'.connsCurrent - m.connsCurrent) ≤
    m'.acceptTotal - m.acceptTotal
  rejected : namedRejects m' - namedRejects m ≤ m'.rejectTotal - m.rejectTotal
  erred : m'.rejectTotal - m.rejectTotal + (m'.timeoutCloseTotal - m.timeoutCloseTotal) ≤
    m'.errorsTotal - m.errorsTotal

theorem sound_of_reachable (h : Reachable s) : Sound s.metrics := by
  have hbooks := squared_of_reachable h
  have hrest := atRest_of_reachable h 0
  have htidy := tidy_of_reachable h 0
  have haccepted := hbooks.accepted
  have hconnected := hbooks.connected
  have hrejected := hbooks.rejected
  have herred := hbooks.erred
  constructor
  · omega
  · unfold namedRejects
    omega
  · omega
  · rw [htidy.metric]
    exact htidy.limit
  · rw [hrest.metric]
    exact hrest.bounded

theorem Later.continues (h : Later s s') (hs : Reachable s) (hs' : Reachable s') :
    Continues s.metrics s'.metrics := by
  have hbooks := squared_of_reachable hs
  have hbooks' := squared_of_reachable hs'
  have hbad := h.trace.sublist.countP_le (p := isBadRequest)
  have hfailed := h.trace.sublist.countP_le (p := isFailure)
  have hclosed := h.trace.sublist.countP_le (p := isClosed)
  have hnext := h.nextId
  constructor
  · exact h.grow
  · have haccepted := hbooks.accepted
    have haccepted' := hbooks'.accepted
    have hconnected := hbooks.connected
    have hconnected' := hbooks'.connected
    have hrefused : s.metrics.reject429Total ≤ s'.metrics.reject429Total := h.grow .reject429
    omega
  · have hrejected := hbooks.rejected
    have hrejected' := hbooks'.rejected
    unfold namedRejects
    omega
  · have hrejects : s.metrics.rejectTotal ≤ s'.metrics.rejectTotal := h.grow .rejects
    have hcloses : s.metrics.timeoutCloseTotal ≤ s'.metrics.timeoutCloseTotal :=
      h.grow .timeoutCloses
    have herred := hbooks.erred
    have herred' := hbooks'.erred
    omega

/-! ## Lines -/

/-- The lines are taken from the checks, and these are in order. -/
structure Recorded (l : EventLoop) : Prop where
  reachable : ∀ check ∈ l.checks, Reachable check.after
  order : l.checks.Pairwise fun x y => Later x.after y.after
  latest : ∀ check ∈ l.checks, Later check.after l.server
  samples : List.Sublist (l.log.samples.map MetricsSample.metrics)
    (l.checks.map fun check => check.after.metrics)

/-- A line is written or not. -/
theorem samples_maybeWriteMetricsLog (reading : MetricsReading) (metrics : Metrics)
    (log : MetricsLog) :
    (maybeWriteMetricsLog reading metrics log).samples = log.samples ∨
      (maybeWriteMetricsLog reading metrics log).samples =
        log.samples ++ [log.sample reading metrics] := by
  unfold maybeWriteMetricsLog
  split
  · exact .inl rfl
  · split
    · exact .inl rfl
    · exact .inr rfl

theorem Recorded.check (h : Recorded l) (hr : Reachable l.server) (now : Time) (ties : List Nat)
    (reading : MetricsReading) : Recorded (l.check now ties reading) := by
  have hexpired := processExpiredTimers_later now ties l.server
  constructor
  · intro check hcheck
    rcases List.mem_append.mp hcheck with hcheck | hcheck
    · exact h.reachable check hcheck
    · obtain rfl := List.mem_singleton.mp hcheck
      exact reachable_processExpiredTimers hr now ties
  · refine List.pairwise_append.mpr ⟨h.order, List.pairwise_singleton .., ?_⟩
    intro check hcheck new hnew
    obtain rfl := List.mem_singleton.mp hnew
    exact (h.latest check hcheck).trans hexpired
  · intro check hcheck
    rcases List.mem_append.mp hcheck with hcheck | hcheck
    · exact (h.latest check hcheck).trans hexpired
    · obtain rfl := List.mem_singleton.mp hcheck
      exact .refl _
  · unfold EventLoop.check
    dsimp only
    rw [List.map_append]
    rcases samples_maybeWriteMetricsLog reading (processExpiredTimers now ties l.server).metrics
      l.log with hsamples | hsamples
    · rw [hsamples]
      exact h.samples.trans (List.sublist_append_left ..)
    · rw [hsamples, List.map_append]
      exact h.samples.append (List.Sublist.refl _)

theorem Looped.recorded (h : Looped l) : Recorded l := by
  refine h.stages ?_ ?_ ?_ ?_
  · intro listenFd epollFd now
    exact ⟨nofun, .nil, nofun, .slnil⟩
  · intro l calls server _ hcalls h
    exact ⟨h.reachable, h.order, fun check hcheck => (h.latest check hcheck).trans
      (runCalls_later hcalls), h.samples⟩
  · intro l poller h
    exact ⟨h.reachable, h.order, h.latest, h.samples⟩
  · intro l now ties reading hr h
    exact h.check hr now ties reading

theorem Looped.sound (h : Looped l) : ∀ x ∈ l.log.samples, Sound x.metrics := by
  have hrecorded := Looped.recorded h
  intro x hx
  obtain ⟨check, hcheck, hmetrics⟩ :=
    List.mem_map.mp (hrecorded.samples.subset (List.mem_map_of_mem hx))
  rw [← hmetrics]
  exact sound_of_reachable (hrecorded.reachable check hcheck)

theorem Looped.continues (h : Looped l) :
    l.log.samples.Pairwise fun x y => Continues x.metrics y.metrics := by
  have hrecorded := Looped.recorded h
  have hchecks : (l.checks.map fun check => check.after.metrics).Pairwise Continues := by
    rw [List.pairwise_map]
    refine hrecorded.order.imp_of_mem ?_
    intro x y hx hy hlater
    exact hlater.continues (hrecorded.reachable x hx) (hrecorded.reachable y hy)
  exact List.pairwise_map.mp (hchecks.sublist hrecorded.samples)

end WebServer.Kernel
