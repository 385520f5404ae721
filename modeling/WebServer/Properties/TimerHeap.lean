import WebServer.Core.TimedRuns
import WebServer.Kernel.Evolution

/-!
# Stale timers do not pile up

A timer that is disarmed stays in the heap until its deadline.  The heap is bounded all the same:
what a check leaves in it has been armed within the last two minutes.
-/

namespace WebServer.Properties

open WebServer.Net WebServer.Http WebServer.Core WebServer.Life WebServer.Refine WebServer.Kernel
  EventLoop

variable {fd : Fd} {c : ClientConnection} {t : Time} {s s' : Server} {events : List Event}
  {l : EventLoop}

/-! ## Armings -/

/-- When a timer was armed, and its deadline. -/
def arming? : Event → Option (Time × Time)
  | .armed _ _ armedAt deadline => some (armedAt, deadline)
  | _ => none

def armings (trace : List Event) : List (Time × Time) := trace.filterMap arming?

theorem armings_append (h : ∀ e ∈ events, arming? e = none) (trace : List Event) :
    armings (trace ++ events) = armings trace := by
  rw [armings, List.filterMap_append, List.filterMap_eq_nil_iff.mpr h, List.append_nil, armings]

theorem arming?_writes (h : Writes fd events) : ∀ e ∈ events, arming? e = none := by
  intro e he
  obtain ⟨_, _, _, _, rfl⟩ := h e he
  rfl

theorem arming?_socketEvents (fd : Fd) (socket : Option Fd) :
    ∀ e ∈ socketEvents fd socket, arming? e = none := by
  cases socket <;> simp [socketEvents, arming?]

theorem armings_accepted {peerEndpoint : Bytes} {writes : List Event}
    (h : Accepted fd peerEndpoint writes s s') : armings s'.trace = armings s.trace := by
  rw [congrArg Server.trace h.apart]
  refine armings_append ?_ _
  intro e he
  rcases List.mem_cons.mp he with rfl | he
  · rfl
  · exact arming?_writes h.writes e he

/-- Every node of the heap goes back to an arming of its own, at most two minutes before its
deadline. -/
structure Pushed (s : Server) : Prop where
  nodes : (s.timerHeap.map TimerEntry.deadline).Subperm ((armings s.trace).map Prod.snd)
  bounded : ∀ arming ∈ armings s.trace, arming.2 ≤ arming.1 + kBodyTimeout

theorem Pushed.silent (h : Pushed s) (hheap : s'.timerHeap.Sublist s.timerHeap)
    (harmings : armings s'.trace = armings s.trace) : Pushed s' := by
  constructor
  · rw [harmings]
    exact (hheap.map _).subperm.trans h.nodes
  · rw [harmings]
    exact h.bounded

theorem Pushed.arm (h : Pushed s) (c : ClientConnection) (kind : TimerKind) (deadline : Time)
    (hmax : deadline ≤ t + kBodyTimeout) : Pushed (pushTimer kind t deadline fd c s) := by
  have harmings : armings (pushTimer kind t deadline fd c s).trace =
      armings s.trace ++ [(t, deadline)] := List.filterMap_append
  constructor
  · have hnodes : (pushTimer kind t deadline fd c s).timerHeap.map TimerEntry.deadline =
        s.timerHeap.map TimerEntry.deadline ++ [deadline] := List.map_append
    rw [hnodes, harmings, List.map_append]
    exact h.nodes.append (List.Subperm.refl [deadline])
  · rw [harmings]
    intro arming harming
    rcases List.mem_append.mp harming with harming | harming
    · exact h.bounded arming harming
    · obtain rfl := List.mem_singleton.mp harming
      exact hmax

theorem Primitive.pushed (hp : Primitive t s s') (h : Pushed s) : Pushed s' := by
  cases hp with
  | put | count | inflight | queue | retire => exact h.silent (List.Sublist.refl _) rfl
  | read | mask | refuse =>
    exact h.silent (List.Sublist.refl _) (armings_append (by simp [arming?]) _)
  | note e he =>
    refine h.silent (List.Sublist.refl _) (armings_append ?_ _)
    intro e' he'
    obtain rfl := List.mem_singleton.mp he'
    cases e' <;> first | rfl | cases he
  | write hf hwrites =>
    exact h.silent (List.Sublist.refl _) (armings_append (arming?_writes hwrites) _)
  | arm c' kind deadline hf hsocket hclosing hmin hmax => exact h.arm c' kind deadline hmax
  | close reason hf hcl =>
    rw [closeClientConnection_eq hf hcl]
    refine h.silent (List.Sublist.refl _) (armings_append ?_ _)
    intro e he
    rcases List.mem_append.mp he with he | he
    · exact arming?_socketEvents _ _ e he
    · simp only [List.mem_cons, List.not_mem_nil, or_false] at he
      rcases he with rfl | rfl <;> rfl
  | turnAway ha =>
    refine h.silent ?_ ((armings_append (by simp [arming?]) _).trans (armings_accepted ha))
    exact (congrArg Server.timerHeap ha.apart) ▸ List.Sublist.refl _
  | enroll ha =>
    refine h.silent ?_ ((armings_append (by simp [arming?]) _).trans (armings_accepted ha))
    exact (congrArg Server.timerHeap ha.apart) ▸ List.Sublist.refl _
  | expire timer => exact h.silent List.erase_sublist rfl

theorem pushed_of_reachable (h : Reachable s) : Pushed s := by
  refine reachable_of_primitives h ?_ fun t s s' => Primitive.pushed
  intro listenFd
  exact ⟨List.Subperm.refl _, nofun⟩

/-! ## The heap behind a check -/

theorem Looped.checked (h : Looped l) : ∀ check ∈ l.checks, Reachable check.before ∧
    ∃ ties, check.after = processExpiredTimers check.now ties check.before := by
  refine h.stages (P := fun l => ∀ check ∈ l.checks, Reachable check.before ∧
    ∃ ties, check.after = processExpiredTimers check.now ties check.before) ?_ ?_ ?_ ?_
  · exact fun _ _ _ => nofun
  · exact fun _ _ _ _ _ h => h
  · exact fun _ _ h => h
  · intro l now ties reading hr h check hcheck
    rcases List.mem_append.mp hcheck with hcheck | hcheck
    · exact h check hcheck
    · obtain rfl := List.mem_singleton.mp hcheck
      exact ⟨hr, ties, rfl⟩

/-- The timers that have been armed within the last two minutes before `now`. -/
def armedLately (now : Time) (trace : List Event) : Nat :=
  (armings trace).countP fun arming => now < arming.1 + kBodyTimeout

/-- **Stale timers do not pile up.**  A check of the timers leaves no more nodes in the heap than
timers have been armed within the last two minutes, however long the server has been up. -/
theorem timerHeap_bounded (h : Looped l) : ∀ check ∈ l.checks,
    check.after.timerHeap.length ≤ armedLately check.now check.after.trace := by
  intro check hcheck
  obtain ⟨hr, ties, hafter⟩ := Looped.checked h check hcheck
  have hpushed : Pushed check.after := by
    rw [hafter]
    exact pushed_of_reachable (reachable_processExpiredTimers hr check.now ties)
  have hlater := (processExpiredTimers_spec check.now ties (atRest_of_reachable hr)).2
  rw [← hafter] at hlater
  have hall : check.after.timerHeap.length =
      (check.after.timerHeap.map TimerEntry.deadline).countP fun deadline => check.now < deadline := by
    rw [List.countP_map, List.countP_eq_length.mpr]
    exact fun n hn => decide_eq_true (hlater n hn)
  rw [hall]
  refine (hpushed.nodes.countP_le _).trans ?_
  rw [List.countP_map]
  refine List.countP_mono_left ?_
  intro arming harming hdue
  have hlate : check.now < arming.2 := of_decide_eq_true hdue
  exact decide_eq_true (Nat.lt_of_lt_of_le hlate (hpushed.bounded arming harming))

/-- A client that has just connected and one that has been answered, with two timers of which one
is stale. -/
def answeredClient : List LoopTurn :=
  [{ idleSecond 0 with wait := .reported [({ fd := 3, events := { epollin := true } },
      { accepts := [.accepted 5 (ascii "10.0.0.1:40000"), .accepted 6 (ascii "10.0.0.2:40000")] }),
    ({ fd := 5, events := { epollin := true } },
      { reads := [.got (ascii "GET / HTTP/1.1\r\nConnection: keep-alive\r\n\r\n")]
        writes := [.wrote 1000] })] }]

theorem timerHeap_bounded_answeredClient : ∃ l, Looped l ∧
    (∃ check ∈ l.checks, check.after.timerHeap.length = 3 ∧ check.after.clients.keys.card = 2) ∧
    ∀ check ∈ l.checks,
      check.after.timerHeap.length ≤ armedLately check.now check.after.trace := by
  obtain ⟨checked, read, l, h, hstale⟩ : ∃ checked read l, Timed (seconds 9) checked read l ∧
      ∃ check ∈ l.checks, check.after.timerHeap.length = 3 ∧ check.after.clients.keys.card = 2 :=
    exists_timed answeredClient (by decide +kernel)
  exact ⟨l, h.looped, hstale, timerHeap_bounded h.looped⟩

end WebServer.Properties
