import WebServer.Core.EventLoop

/-!
# Runs

`Reachable` are the states between two handler calls, in any order of calls;
`AtLoopEnd` are the states at the end of a `RunEventLoopOnce`.  Both start from
the initialized server, and the second are among the first.
-/

namespace WebServer.Core

open WebServer.Net

/-- One handler call with what the environment answers to it. -/
inductive Call
  /-- `ProcessReadyQueue` takes the first descriptor and continues its connection. -/
  | ready (io : Io)
  /-- `HandlePollEvent`. -/
  | event (event : PollEvent) (io : Io)
  /-- `ProcessExpiredTimers` up to this turn of its loop; after as many turns as there are
  nodes it has returned. -/
  | expire (now : Time) (turns : Nat) (ties : List Nat)
  /-- `FlushPendingCloseQueue`. -/
  | flushClosed

def runCall : Call → Server → Except Fault Server
  | .ready io, s => readyTurn io s
  | .event event io, s => runHandler (handlePollEvent event) io s
  | .expire now turns ties, s => .ok (expireLoop now turns ties s)
  | .flushClosed, s => .ok (flushPendingCloseQueue s)

def runCalls (calls : List Call) (s : Server) : Except Fault Server :=
  calls.foldlM (fun s call => runCall call s) s

def runLoop (iterations : List Iteration) (s : Server) : Except Fault Server :=
  iterations.foldlM (fun s it => runEventLoopOnce it s) s

/-- A state between two handler calls. -/
def Reachable (s : Server) : Prop :=
  ∃ listenFd calls, runCalls calls (initializeServer listenFd) = .ok s

/-- A state at the end of an iteration of the event loop. -/
def AtLoopEnd (s : Server) : Prop :=
  ∃ listenFd iterations, runLoop iterations (initializeServer listenFd) = .ok s

theorem runCalls_cons (call : Call) (calls : List Call) (s : Server) :
    runCalls (call :: calls) s = runCall call s >>= runCalls calls := rfl

theorem runCalls_append (calls calls' : List Call) (s : Server) :
    runCalls (calls ++ calls') s = runCalls calls s >>= runCalls calls' := by
  unfold runCalls
  rw [List.foldlM_append]

theorem runCalls_concat (calls : List Call) (call : Call) (s : Server) :
    runCalls (calls ++ [call]) s = runCalls calls s >>= runCall call := by
  rw [runCalls_append]
  refine congrArg (runCalls calls s >>= ·) (funext fun t => ?_)
  show (runCall call t >>= runCalls []) = _
  cases runCall call t <;> rfl

/-- **Invariant rule.**  What holds initially and survives every call holds of every
reachable state. -/
theorem Reachable.induct {P : Server → Prop} (h0 : ∀ listenFd, P (initializeServer listenFd))
    (hstep : ∀ s s' call, P s → runCall call s = .ok s' → P s') {s : Server}
    (h : Reachable s) : P s := by
  obtain ⟨listenFd, calls, h⟩ := h
  have hP := h0 listenFd
  revert h hP
  generalize initializeServer listenFd = t
  intro h hP
  induction calls generalizing t with
  | nil => cases h; exact hP
  | cons call calls ih =>
    rw [runCalls_cons] at h
    cases hc : runCall call t with
    | error e => rw [hc] at h; cases h
    | ok t' => rw [hc] at h; exact ih t' h (hstep t t' call hP hc)

theorem Reachable.step {s s' : Server} (h : Reachable s) (call : Call)
    (hc : runCall call s = .ok s') : Reachable s' := by
  obtain ⟨listenFd, calls, h⟩ := h
  refine ⟨listenFd, calls ++ [call], ?_⟩
  rw [runCalls_concat, h]
  exact hc

/-! ## The loop is a sequence of calls -/

theorem Reachable.runCalls {s s' : Server} (h : Reachable s) {calls : List Call}
    (hc : runCalls calls s = .ok s') : Reachable s' := by
  obtain ⟨listenFd, before, h⟩ := h
  refine ⟨listenFd, before ++ calls, ?_⟩
  rw [runCalls_append, h]
  exact hc

/-- The calls that `ProcessReadyQueue` makes. -/
def readyCalls : Nat → List Io → List Call
  | 0, _ => []
  | turns + 1, ios => .ready (ios.headD {}) :: readyCalls turns ios.tail

theorem readyLoop_eq (turns : Nat) (ios : List Io) (s : Server) :
    readyLoop turns ios s = runCalls (readyCalls turns ios) s := by
  induction turns generalizing ios s with
  | zero => rfl
  | succ turns ih =>
    rw [readyLoop, readyCalls, runCalls_cons]
    show _ = readyTurn (ios.headD {}) s >>= _
    cases readyTurn (ios.headD {}) s with
    | error e => rfl
    | ok t => exact ih ios.tail t

theorem dispatchEvents_eq (events : List (PollEvent × Io)) (s : Server) :
    dispatchEvents events s = runCalls (events.map fun e => .event e.1 e.2) s := by
  induction events generalizing s with
  | nil => rfl
  | cons e events ih =>
    rw [List.map_cons, runCalls_cons]
    show (runHandler (handlePollEvent e.1) e.2 s >>= dispatchEvents events) =
      (runHandler (handlePollEvent e.1) e.2 s >>= _)
    cases runHandler (handlePollEvent e.1) e.2 s with
    | error e => rfl
    | ok t => exact ih t

theorem runEventLoopOnce_calls (it : Iteration) {s s' : Server}
    (h : runEventLoopOnce it s = .ok s') : ∃ calls, runCalls calls s = .ok s' := by
  unfold runEventLoopOnce at h
  cases hq : processReadyQueue it.ready s with
  | error e =>
    rw [hq] at h
    cases h
  | ok s₁ =>
    rw [hq] at h
    have hready : runCalls (readyCalls s.readyQueue.length it.ready) s = .ok s₁ :=
      (readyLoop_eq _ _ s).symm.trans hq
    cases he : dispatchEvents it.events (processExpiredTimers it.firstExpiry it.firstTies s₁) with
    | error e =>
      simp only [bind, Except.bind, he] at h
      cases h
    | ok s₂ =>
      simp only [bind, Except.bind, he] at h
      cases h
      rw [dispatchEvents_eq] at he
      refine ⟨readyCalls s.readyQueue.length it.ready ++
        (.expire it.firstExpiry s₁.timerHeap.length it.firstTies ::
          (it.events.map fun e => .event e.1 e.2) ++
            [.expire it.secondExpiry s₂.timerHeap.length it.secondTies, .flushClosed]), ?_⟩
      rw [runCalls_append, hready]
      show runCalls ((it.events.map fun e => .event e.1 e.2) ++ _) _ = _
      rw [runCalls_append]
      show (runCalls _ (processExpiredTimers it.firstExpiry it.firstTies s₁) >>= _) = _
      rw [he]
      rfl

theorem runEventLoopOnce_reachable (it : Iteration) {s s' : Server} (hs : Reachable s)
    (h : runEventLoopOnce it s = .ok s') : Reachable s' := by
  obtain ⟨calls, hcalls⟩ := runEventLoopOnce_calls it h
  exact hs.runCalls hcalls

theorem AtLoopEnd.reachable {s : Server} (h : AtLoopEnd s) : Reachable s := by
  obtain ⟨listenFd, iterations, h⟩ := h
  have hr : Reachable (initializeServer listenFd) := ⟨listenFd, [], rfl⟩
  revert h hr
  generalize initializeServer listenFd = t
  intro h hr
  induction iterations generalizing t with
  | nil => cases h; exact hr
  | cons it iterations ih =>
    change (runEventLoopOnce it t >>= runLoop iterations) = _ at h
    cases hi : runEventLoopOnce it t with
    | error e => rw [hi] at h; cases h
    | ok t' => rw [hi] at h; exact ih t' h (runEventLoopOnce_reachable it hr hi)

/-! ## Sample runs -/

/-- The state after these iterations of the loop; a run that faults counts as none. -/
def afterLoop (listenFd : Fd) (iterations : List Iteration) : Server :=
  match runLoop iterations (initializeServer listenFd) with
  | .ok s => s
  | .error _ => initializeServer listenFd

/-- Where somebody is connected the run has not faulted. -/
theorem runLoop_afterLoop {listenFd fd : Fd} {iterations : List Iteration}
    (h : ((afterLoop listenFd iterations).find fd).isSome = true) :
    runLoop iterations (initializeServer listenFd) = .ok (afterLoop listenFd iterations) := by
  unfold afterLoop at h ⊢
  cases hrun : runLoop iterations (initializeServer listenFd) with
  | error e =>
    rw [hrun] at h
    cases h
  | ok s => rfl

/-- A run of the loop on the listening socket 3, and what is the case at its end. -/
structure SampleRun (P : Server → Prop) where
  iterations : List Iteration
  holds : P (afterLoop 3 iterations)

namespace SampleRun

variable {P : Server → Prop}

/-- The state at the end of the run. -/
def final (r : SampleRun P) : Server := afterLoop 3 r.iterations

theorem atLoopEnd (r : SampleRun P) : AtLoopEnd r.final := by
  unfold final afterLoop
  split
  · exact ⟨3, r.iterations, by assumption⟩
  · exact ⟨3, [], rfl⟩

theorem reachable (r : SampleRun P) : Reachable r.final := r.atLoopEnd.reachable

theorem holds_final (r : SampleRun P) : P r.final := r.holds

end SampleRun

/-- The connection of a registered descriptor. -/
def connectionAt (s : Server) (fd : Fd) : ClientConnection :=
  (s.find fd).getD { socket := none, peerEndpoint := [] }

theorem find_connectionAt {s : Server} {fd : Fd} (h : (s.find fd).isSome = true) :
    s.find fd = some (connectionAt s fd) := by
  obtain ⟨c, hc⟩ := Option.isSome_iff_exists.mp h
  rw [connectionAt, hc, Option.getD_some]

/-- An iteration in which the listening socket is readable and gives out one new socket. -/
def accepting (listenFd fd : Fd) (now : Time) : Iteration where
  events := [({ fd := listenFd, events := { epollin := true } },
    { now, accepts := [.accepted fd (ascii "10.0.0.1:40000")] })]

/-- An iteration in which a client socket is readable. -/
def reading (fd : Fd) (now : Time) (reads : List ReadResult) (writes : List WriteResult) :
    Iteration where
  events := [({ fd, events := { epollin := true } }, { now, reads, writes })]

/-- An iteration in which a client socket is writable. -/
def writing (fd : Fd) (now : Time) (writes : List WriteResult) : Iteration where
  events := [({ fd, events := { epollout := true } }, { now, writes })]

end WebServer.Core
