import WebServer.Core.TimedRuns
import WebServer.Kernel.Evolution

/-!
# Deadlines along a run

A timer that is armed runs for at least ten seconds, and `epoll_wait` is never asked to sleep
past a deadline.  So when the timers are checked, those that are due have not been due for long.
-/

namespace WebServer.Kernel

open WebServer.Net WebServer.Http WebServer.Core WebServer.Life WebServer.Refine TimedSteps

variable {fd : Fd} {c : ClientConnection} {t t' : Time} {s s' : Server}

/-! ## New nodes -/

/-- A primitive pushes no node that is due within the next ten seconds. -/
theorem Primitive.nodes (h : Primitive t s s') :
    ∀ n ∈ s'.timerHeap, n ∈ s.timerHeap ∨ t + kHeaderTimeout ≤ n.deadline := by
  cases h with
  | put | note | read | write | count | refuse | inflight | queue | mask | retire =>
    exact fun n => .inl
  | close reason hf hcl =>
    rw [closeClientConnection_eq hf hcl]
    exact fun n => .inl
  | turnAway ha | enroll ha =>
    have hheap := congrArg Server.timerHeap ha.apart
    intro n hn
    exact .inl (hheap ▸ hn)
  | expire timer => exact fun n hn => .inl (List.mem_of_mem_erase hn)
  | arm c' kind deadline hf hsocket hclosing hmin hmax =>
    intro n hn
    rcases List.mem_append.mp hn with hn | hn
    · exact .inl hn
    · obtain rfl := List.mem_singleton.mp hn
      exact .inr hmin

/-- Every node is one of those in `heap`, or has at least ten seconds from `t` on. -/
def NewSince (t : Time) (heap : List TimerEntry) (s : Server) : Prop :=
  ∀ n ∈ s.timerHeap, n ∈ heap ∨ t + kHeaderTimeout ≤ n.deadline

theorem NewSince.step {heap : List TimerEntry} (hle : t ≤ t') (hp : Primitive t' s s')
    (h : NewSince t heap s) : NewSince t heap s' := by
  intro n hn
  rcases hp.nodes n hn with hn | hn
  · exact h n hn
  · exact .inr ((Nat.add_le_add_right hle _).trans hn)

/-! ## The timeout of `epoll_wait` -/

theorem le_toMilliseconds (w : Nat) (duration : Time) :
    w ≤ EventLoop.toMilliseconds duration ↔ w * 1000000 ≤ duration :=
  Nat.le_div_iff_mul_le (by decide)

/-- `limitByMetricsLog` allows every timeout that ends before the next line is due. -/
theorem le_limitByMetricsLog {now : Time} {log : MetricsLog} (hlog : log.nextTime ≠ 0)
    (w waitTimeoutMs : Nat) :
    w ≤ EventLoop.limitByMetricsLog now waitTimeoutMs log ↔
      w = 0 ∨ w ≤ waitTimeoutMs ∧ now + w * 1000000 ≤ log.nextTime := by
  have hms := le_toMilliseconds w (log.nextTime - now)
  unfold EventLoop.limitByMetricsLog
  rw [if_neg hlog]
  dsimp only
  generalize EventLoop.toMilliseconds (log.nextTime - now) = ms at hms ⊢
  unfold Time at *
  split
  · omega
  split
  · omega
  · rw [Nat.le_min]
    omega

/-- A time is before every deadline in the heap if it is before the one on top. -/
theorem top_deadline {tie : Nat} {timer : TimerEntry} {heap : List TimerEntry}
    (htop : Earliest.top TimerEntry.deadline tie heap = some timer) (time : Time) :
    (∀ n ∈ heap, time ≤ n.deadline) ↔ time ≤ timer.deadline :=
  ⟨fun h => h timer (Earliest.top_mem htop), fun h n hn => h.trans (Earliest.top_le htop n hn)⟩

/-- **The timeout** is the largest number of milliseconds, up to a second, that passes no deadline
and not the next line of the metrics log, as long as nobody waits in the ReadyQueue. -/
theorem le_computePollTimeoutMs {l : EventLoop} (hlog : l.log.nextTime ≠ 0)
    (heapNow logNow : Time) (w : Nat) :
    w ≤ l.computePollTimeoutMs heapNow logNow ↔ w = 0 ∨ l.server.readyQueue = [] ∧ w ≤ 1000 ∧
      (∀ n ∈ l.server.timerHeap, heapNow + w * 1000000 ≤ n.deadline) ∧
      logNow + w * 1000000 ≤ l.log.nextTime := by
  unfold EventLoop.computePollTimeoutMs
  by_cases hq : l.server.readyQueue = []
  · rw [if_neg (not_not.mpr hq)]
    cases htop : Earliest.top TimerEntry.deadline 0 l.server.timerHeap with
    | none =>
      rw [le_limitByMetricsLog hlog]
      simp [hq, Earliest.top_eq_none htop]
    | some timer =>
      have hms := le_toMilliseconds w (timer.deadline - heapNow)
      rw [top_deadline htop]
      dsimp only
      generalize EventLoop.toMilliseconds (timer.deadline - heapNow) = ms at hms ⊢
      simp only [hq, true_and]
      unfold Time at *
      split
      · omega
      split
      · omega
      · rw [le_limitByMetricsLog hlog]
        unfold Time at *
        split <;> omega
  · rw [if_pos hq]
    simp [hq]

/-- A check within the timeout of `epoll_wait` and `delay` more comes at most `delay` late. -/
theorem wake_le {l : EventLoop} (hlog : l.log.nextTime ≠ 0) {checked heapNow : Time}
    (logNow : Time) (hnow : checked ≤ heapNow) {n : TimerEntry} (hn : n ∈ l.server.timerHeap)
    (hlater : checked < n.deadline) :
    checked + l.computePollTimeoutMs heapNow logNow * 1000000 ≤ n.deadline := by
  rcases (le_computePollTimeoutMs hlog heapNow logNow _).mp (Nat.le_refl _) with h | ⟨-, -, h, -⟩
  · rw [h, Nat.zero_mul]
    exact Nat.le_of_lt hlater
  · exact (Nat.add_le_add_right hnow _).trans (h n hn)

theorem wake_le_second {l : EventLoop} (hlog : l.log.nextTime ≠ 0) (heapNow logNow : Time) :
    l.computePollTimeoutMs heapNow logNow ≤ 1000 := by
  rcases (le_computePollTimeoutMs hlog heapNow logNow _).mp (Nat.le_refl _) with h | ⟨-, h, -⟩
  · rw [h]
    decide
  · exact h

end WebServer.Kernel
