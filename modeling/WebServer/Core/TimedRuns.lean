import WebServer.Core.Loop
import WebServer.Core.Runs

/-!
# Runs of the loop with its clock

`Looped` are the states between two turns of `Run`.  `Timed` are those among them that a run
reaches whose clock is steady and whose turns are prompt.
-/

namespace WebServer.Core

open WebServer.Net

namespace EventLoop

variable {turn : LoopTurn} {turns : List LoopTurn} {l l₁ l' : EventLoop}

/-! ## Turns -/

theorem beforeWait_ok (h : l.beforeWait turn = .ok l₁) :
    ∃ server, processReadyQueue turn.ready l.server = .ok server ∧
      l₁ = { l with server }.check turn.firstExpiry turn.firstTies turn.firstReading := by
  unfold beforeWait at h
  cases hq : processReadyQueue turn.ready l.server with
  | error e =>
    rw [hq] at h
    cases h
  | ok server =>
    rw [hq] at h
    cases h
    exact ⟨server, rfl, rfl⟩

theorem afterWait_ok (h : l₁.afterWait turn = .ok l') :
    ∃ events poller server, l₁.poller.wait turn.wait = .ok (events, poller) ∧
      dispatchEvents events l₁.server = .ok server ∧
      l' = ({ l₁ with server, poller }.check turn.secondExpiry turn.secondTies
        turn.secondReading).flushClosed := by
  unfold afterWait at h
  cases hw : l₁.poller.wait turn.wait with
  | error e =>
    rw [hw] at h
    cases h
  | ok waited =>
    obtain ⟨events, poller⟩ := waited
    rw [hw] at h
    cases hd : dispatchEvents events l₁.server with
    | error e =>
      simp only [bind, Except.bind, hd] at h
      cases h
    | ok server =>
      simp only [bind, Except.bind, hd] at h
      cases h
      exact ⟨events, poller, server, rfl, hd, rfl⟩

/-- What `epoll_wait` reports reaches the handlers in the same order, as far as it fits. -/
theorem wait_ok {answer : WaitResult (PollEvent × Io)} {p p' : EpollPoller}
    {events : List (PollEvent × Io)} (h : p.wait answer = .ok (events, p')) :
    (events = [] ∧ p' = p) ∨ events = answer.events.take p.readyEvents ∧
      p' = p.growReadyEventsIfNeeded events.length := by
  unfold EpollPoller.wait at h
  split at h
  · cases h
  · split at h
    · cases h
      exact .inl ⟨rfl, rfl⟩
    · cases h
    · cases h
      exact .inr ⟨rfl, rfl⟩

/-- **Refinement.**  On the server a turn is an iteration of `Core/EventLoop.lean`. -/
theorem turn_iteration (h₁ : l.beforeWait turn = .ok l₁) (h₂ : l₁.afterWait turn = .ok l') :
    ∃ it, Core.runEventLoopOnce it l.server = .ok l'.server := by
  obtain ⟨s, hready, rfl⟩ := beforeWait_ok h₁
  obtain ⟨events, poller, s', -, hevents, rfl⟩ := afterWait_ok h₂
  let it : Iteration :=
    { ready := turn.ready, firstExpiry := turn.firstExpiry, firstTies := turn.firstTies
      events := events, secondExpiry := turn.secondExpiry, secondTies := turn.secondTies }
  refine ⟨it, ?_⟩
  unfold Core.runEventLoopOnce
  simp only [it, bind, Except.bind, hready]
  change dispatchEvents events (processExpiredTimers turn.firstExpiry turn.firstTies s) = _ at hevents
  rw [hevents]
  rfl

theorem runEventLoopOnce_ok (h : l.runEventLoopOnce turn = .ok l') :
    ∃ l₁, l.beforeWait turn = .ok l₁ ∧ l₁.afterWait turn = .ok l' := by
  unfold runEventLoopOnce at h
  cases h₁ : l.beforeWait turn with
  | error e =>
    rw [h₁] at h
    cases h
  | ok l₁ =>
    rw [h₁] at h
    exact ⟨l₁, rfl, h⟩

/-! ## Runs -/

/-- A state between two turns. -/
inductive Looped : EventLoop → Prop
  | start (listenFd epollFd : Fd) (now : Time) : Looped (initialized listenFd epollFd now)
  | turn {l l₁ l' : EventLoop} (turn : LoopTurn) (h : Looped l) (hfirst : l.beforeWait turn = .ok l₁)
      (hsecond : l₁.afterWait turn = .ok l') : Looped l'

/-- The readings of the clock during a turn in their order; `read` is the last one before. -/
structure Steady (read : Time) (turn : LoopTurn) : Prop where
  ready : ∀ io ∈ turn.ready, read ≤ io.now
  firstExpiry : read ≤ turn.firstExpiry
  firstReading : turn.firstExpiry ≤ turn.firstReading.now
  heapNow : turn.firstReading.now ≤ turn.heapNow
  logNow : turn.heapNow ≤ turn.logNow
  events : ∀ e ∈ turn.wait.events, turn.logNow ≤ e.2.now
  secondExpiry : turn.logNow ≤ turn.secondExpiry
  secondReading : turn.secondExpiry ≤ turn.secondReading.now

/-- Beside the sleep of `timeoutMs` milliseconds it asks for, the loop needs no more than `delay`
from one check of the timers to the end of the next. -/
structure Prompt (delay checked : Time) (timeoutMs : Nat) (turn : LoopTurn) : Prop where
  first : turn.firstReading.now ≤ checked + delay
  second : turn.secondReading.now ≤ turn.firstExpiry + timeoutMs * 1000000 + delay

/-- A state between two turns of a run with a steady clock and prompt turns.  The timers have
last been checked at `checked`, and `read` is the last reading of the clock. -/
inductive Timed (delay : Time) : Time → Time → EventLoop → Prop
  | start (listenFd epollFd : Fd) (now : Time) :
      Timed delay now now (initialized listenFd epollFd now)
  | turn {checked read : Time} {l l₁ l' : EventLoop} (turn : LoopTurn) (h : Timed delay checked read l)
      (hanswers : l.server.readyQueue.length ≤ turn.ready.length) (hsteady : Steady read turn)
      (hfirst : l.beforeWait turn = .ok l₁)
      (hprompt : Prompt delay checked (l₁.computePollTimeoutMs turn.heapNow turn.logNow) turn)
      (hsecond : l₁.afterWait turn = .ok l') :
      Timed delay turn.secondExpiry turn.secondReading.now l'

theorem Timed.looped {delay checked read : Time} (h : Timed delay checked read l) : Looped l := by
  induction h with
  | start listenFd epollFd now => exact .start listenFd epollFd now
  | turn turn _ _ _ hfirst _ hsecond ih => exact .turn turn ih hfirst hsecond

/-- **Transfer.**  What holds at the end of every iteration of `Core/EventLoop.lean` holds
between any two turns. -/
theorem Looped.atLoopEnd (h : Looped l) : AtLoopEnd l.server := by
  induction h with
  | start listenFd epollFd now => exact ⟨listenFd, [], rfl⟩
  | turn turn _ hfirst hsecond ih =>
    obtain ⟨listenFd, iterations, hrun⟩ := ih
    obtain ⟨it, hit⟩ := turn_iteration hfirst hsecond
    refine ⟨listenFd, iterations ++ [it], ?_⟩
    unfold runLoop at hrun ⊢
    rw [List.foldlM_append, hrun]
    simp only [bind, Except.bind, List.foldlM_cons, List.foldlM_nil, hit]
    rfl

theorem wait_epollFd {answer : WaitResult (PollEvent × Io)} {p p' : EpollPoller}
    {events : List (PollEvent × Io)} (h : p.wait answer = .ok (events, p')) :
    p'.epollFd = p.epollFd := by
  rcases wait_ok h with ⟨-, rfl⟩ | ⟨-, rfl⟩
  · rfl
  · unfold EpollPoller.growReadyEventsIfNeeded
    split <;> rfl

/-- `Run` makes calls on the server and keeps the epoll instance. -/
theorem run_calls {last : MetricsReading} (h : l.run turns last = .ok l') :
    (∃ calls, runCalls calls l.server = .ok l'.server) ∧
      l'.poller.epollFd = l.poller.epollFd := by
  unfold run at h
  cases hturns : turns.foldlM (fun l turn => l.runEventLoopOnce turn) l with
  | error e =>
    rw [hturns] at h
    cases h
  | ok l₂ =>
    rw [hturns] at h
    cases h
    show (∃ calls, runCalls calls l.server = .ok l₂.server) ∧
      l₂.poller.epollFd = l.poller.epollFd
    induction turns generalizing l with
    | nil =>
      cases hturns
      exact ⟨⟨[], rfl⟩, rfl⟩
    | cons turn turns ih =>
      rw [List.foldlM_cons] at hturns
      cases hturn : l.runEventLoopOnce turn with
      | error e =>
        rw [hturn] at hturns
        cases hturns
      | ok l₁ =>
        rw [hturn] at hturns
        obtain ⟨l₀, hfirst, hsecond⟩ := runEventLoopOnce_ok hturn
        obtain ⟨it, hit⟩ := turn_iteration hfirst hsecond
        obtain ⟨calls, hcalls⟩ := runEventLoopOnce_calls it hit
        obtain ⟨⟨calls', hcalls'⟩, hpoller'⟩ := ih hturns
        have hpoller : l₁.poller.epollFd = l.poller.epollFd := by
          obtain ⟨s, -, rfl⟩ := beforeWait_ok hfirst
          obtain ⟨events, poller, s', hwait, -, rfl⟩ := afterWait_ok hsecond
          exact wait_epollFd hwait
        refine ⟨⟨calls ++ calls', ?_⟩, hpoller'.trans hpoller⟩
        rw [runCalls_append, hcalls]
        exact hcalls'

/-! ## Stages -/

theorem reachable_processReadyQueue {ios : List Io} {s s' : Server} (hs : Reachable s)
    (h : processReadyQueue ios s = .ok s') : Reachable s' := by
  unfold processReadyQueue at h
  rw [readyLoop_eq] at h
  exact hs.runCalls h

theorem reachable_processExpiredTimers {s : Server} (hs : Reachable s) (now : Time)
    (ties : List Nat) : Reachable (processExpiredTimers now ties s) :=
  hs.step (.expire now s.timerHeap.length ties) rfl

theorem reachable_dispatchEvents {events : List (PollEvent × Io)} {s s' : Server}
    (hs : Reachable s) (h : dispatchEvents events s = .ok s') : Reachable s' := by
  rw [dispatchEvents_eq] at h
  exact hs.runCalls h

/-- **Invariant rule.**  A turn is made of calls on the server, of waiting and of checks. -/
theorem Looped.stages {P : EventLoop → Prop} (h : Looped l)
    (h0 : ∀ listenFd epollFd now, P (initialized listenFd epollFd now))
    (hcalls : ∀ l calls server, Reachable l.server → runCalls calls l.server = .ok server → P l →
      P { l with server })
    (hwait : ∀ l poller, P l → P { l with poller })
    (hcheck : ∀ l now ties reading, Reachable l.server → P l → P (l.check now ties reading)) :
    P l := by
  induction h with
  | start listenFd epollFd now => exact h0 listenFd epollFd now
  | turn turn hl hfirst hsecond ih =>
    obtain ⟨s, hready, rfl⟩ := beforeWait_ok hfirst
    obtain ⟨events, poller, s', -, hevents, rfl⟩ := afterWait_ok hsecond
    have hr := hl.atLoopEnd.reachable
    have hr₁ := reachable_processReadyQueue hr hready
    have hr₂ := reachable_processExpiredTimers hr₁ turn.firstExpiry turn.firstTies
    have hr₃ := reachable_dispatchEvents hr₂ hevents
    have hr₄ := reachable_processExpiredTimers hr₃ turn.secondExpiry turn.secondTies
    unfold processReadyQueue at hready
    rw [readyLoop_eq] at hready
    rw [dispatchEvents_eq] at hevents
    have h₁ := hcheck _ turn.firstExpiry turn.firstTies turn.firstReading hr₁
      (hcalls _ _ s hr hready ih)
    have h₂ := hcheck _ turn.secondExpiry turn.secondTies turn.secondReading hr₃
      (hwait _ poller (hcalls _ _ s' hr₂ hevents h₁))
    exact hcalls _ [.flushClosed] _ hr₄ rfl h₂

/-! ## Sample runs -/

instance (read : Time) (turn : LoopTurn) : Decidable (Steady read turn) :=
  decidable_of_iff ((∀ io ∈ turn.ready, read ≤ io.now) ∧ read ≤ turn.firstExpiry ∧
      turn.firstExpiry ≤ turn.firstReading.now ∧ turn.firstReading.now ≤ turn.heapNow ∧
      turn.heapNow ≤ turn.logNow ∧ (∀ e ∈ turn.wait.events, turn.logNow ≤ e.2.now) ∧
      turn.logNow ≤ turn.secondExpiry ∧ turn.secondExpiry ≤ turn.secondReading.now)
    ⟨fun ⟨h₁, h₂, h₃, h₄, h₅, h₆, h₇, h₈⟩ => ⟨h₁, h₂, h₃, h₄, h₅, h₆, h₇, h₈⟩,
    fun ⟨h₁, h₂, h₃, h₄, h₅, h₆, h₇, h₈⟩ => ⟨h₁, h₂, h₃, h₄, h₅, h₆, h₇, h₈⟩⟩

instance (delay checked : Time) (timeoutMs : Nat) (turn : LoopTurn) :
    Decidable (Prompt delay checked timeoutMs turn) :=
  decidable_of_iff (turn.firstReading.now ≤ checked + delay ∧
      turn.secondReading.now ≤ turn.firstExpiry + timeoutMs * 1000000 + delay)
    ⟨fun h => ⟨h.1, h.2⟩, fun h => ⟨h.first, h.second⟩⟩

/-- One turn, if the clock and the environment are as `Timed` demands. -/
def timedTurn (delay checked read : Time) (turn : LoopTurn) (l : EventLoop) : Option EventLoop :=
  match l.beforeWait turn with
  | .error _ => none
  | .ok l₁ =>
    if l.server.readyQueue.length ≤ turn.ready.length ∧ Steady read turn ∧
        Prompt delay checked (l₁.computePollTimeoutMs turn.heapNow turn.logNow) turn then
      (l₁.afterWait turn).toOption
    else none

theorem Timed.timedTurn {delay checked read : Time} (h : Timed delay checked read l)
    (hturn : timedTurn delay checked read turn l = some l') :
    Timed delay turn.secondExpiry turn.secondReading.now l' := by
  unfold EventLoop.timedTurn at hturn
  cases hfirst : l.beforeWait turn with
  | error e =>
    rw [hfirst] at hturn
    cases hturn
  | ok l₁ =>
    rw [hfirst] at hturn
    dsimp only at hturn
    split at hturn
    · rename_i hcond
      obtain ⟨hanswers, hsteady, hprompt⟩ := hcond
      cases hsecond : l₁.afterWait turn with
      | error e =>
        rw [hsecond] at hturn
        cases hturn
      | ok l₂ =>
        rw [hsecond] at hturn
        cases hturn
        exact .turn turn h hanswers hsteady hfirst hprompt hsecond
    · cases hturn

/-- Turns one after another, with the last readings of the clock. -/
def timedTurns (delay : Time) :
    List LoopTurn → Time → Time → EventLoop → Option (Time × Time × EventLoop)
  | [], checked, read, l => some (checked, read, l)
  | turn :: turns, checked, read, l => do
    let l ← timedTurn delay checked read turn l
    timedTurns delay turns turn.secondExpiry turn.secondReading.now l

theorem Timed.timedTurns {delay checked read checked' read' : Time} (h : Timed delay checked read l)
    (hrun : timedTurns delay turns checked read l = some (checked', read', l')) :
    Timed delay checked' read' l' := by
  induction turns generalizing checked read l with
  | nil =>
    cases hrun
    exact h
  | cons turn turns ih =>
    rw [EventLoop.timedTurns] at hrun
    obtain ⟨l₁, hturn, hrest⟩ := Option.bind_eq_some_iff.mp hrun
    exact ih (h.timedTurn hturn) hrest

/-- Turns on the sockets 3 and 4 from time 0 on, and what is the case at their end. -/
theorem exists_timed {delay : Time} {P : EventLoop → Prop} [DecidablePred P]
    (turns : List LoopTurn)
    (h : (timedTurns delay turns 0 0 (initialized 3 4 0)).any (fun r => decide (P r.2.2)) = true) :
    ∃ checked read l, Timed delay checked read l ∧ P l := by
  cases hrun : EventLoop.timedTurns delay turns 0 0 (initialized 3 4 0) with
  | none =>
    rw [hrun] at h
    cases h
  | some reached =>
    obtain ⟨checked, read, l⟩ := reached
    rw [hrun] at h
    exact ⟨checked, read, l, (Timed.start 3 4 0).timedTurns hrun, of_decide_eq_true h⟩

/-- A turn that sleeps from one full second to the next. -/
def idleSecond (k : Nat) : LoopTurn where
  firstExpiry := seconds k
  firstReading := { now := seconds k }
  heapNow := seconds k
  logNow := seconds k
  secondExpiry := seconds (k + 1)
  secondReading := { now := seconds (k + 1) }

end EventLoop

end WebServer.Core
