import WebServer.Core.EventLoop
import WebServer.Core.MetricsLog
import WebServer.Net.EpollPoller

/-!
# The loop with its clock

`ComputePollTimeoutMs`, `RunEventLoopOnce` with the poller and the metrics log, and `Run` of
`core/server.cpp`.  Nothing is left out here of what `Core/EventLoop.lean` runs.

The last field of `EventLoop`, `checks`, is not in the source: it remembers every call of
`ProcessExpiredTimers`.
-/

namespace WebServer.Core

open WebServer.Net

/-- One call of `ProcessExpiredTimers`, with the server on either side of it. -/
structure Check where
  now : Time
  before : Server
  after : Server

structure EventLoop where
  server : Server
  poller : EpollPoller
  log : MetricsLog
  checks : List Check := []

/-- What the environment does during one `RunEventLoopOnce`. -/
structure LoopTurn where
  ready : List Io := []
  firstExpiry : Time := 0
  firstTies : List Nat := []
  firstReading : MetricsReading := {}
  /-- The two readings of the clock in `ComputePollTimeoutMs`. -/
  heapNow : Time := 0
  logNow : Time := 0
  wait : WaitResult (PollEvent × Io) := .reported []
  secondExpiry : Time := 0
  secondTies : List Nat := []
  secondReading : MetricsReading := {}

namespace EventLoop

/-- The state in which `Run()` finds everything when the clock showed `now` in
`InitializeMetricsLogging`. -/
def initialized (listenFd epollFd : Fd) (now : Time) : EventLoop where
  server := initializeServer listenFd
  poller := { epollFd := some epollFd }
  log := initializeMetricsLogging now

/-! ## The timeout -/

/-- `duration_cast<milliseconds>(duration).count()`. -/
def toMilliseconds (duration : Time) : Nat := duration / 1000000

/-- `ComputePollTimeoutMs` from the test for the metrics log on. -/
def limitByMetricsLog (now : Time) (waitTimeoutMs : Nat) (log : MetricsLog) : Nat :=
  if log.nextTime = 0 then waitTimeoutMs
  else if log.nextTime ≤ now then 0
  else
    let metricsWait := toMilliseconds (log.nextTime - now)
    if metricsWait = 0 then 0 else min waitTimeoutMs metricsWait

def computePollTimeoutMs (heapNow logNow : Time) (l : EventLoop) : Nat :=
  if l.server.readyQueue ≠ [] then 0
  else
    -- which of several earliest timers is on top does not matter here
    match Earliest.top TimerEntry.deadline 0 l.server.timerHeap with
    | none => limitByMetricsLog logNow 1000 l.log
    | some timer =>
      if timer.deadline ≤ heapNow then 0
      else
        let wait := toMilliseconds (timer.deadline - heapNow)
        if wait = 0 then 0
        else limitByMetricsLog logNow (if 1000 < wait then 1000 else wait) l.log

/-! ## One turn -/

/-- `ProcessExpiredTimers` and `MaybeWriteMetricsLog`. -/
def check (now : Time) (ties : List Nat) (reading : MetricsReading) (l : EventLoop) : EventLoop :=
  let server := processExpiredTimers now ties l.server
  { l with
    server := server
    log := maybeWriteMetricsLog reading server.metrics l.log
    checks := l.checks ++ [{ now, before := l.server, after := server }] }

/-- `FlushPendingCloseQueue`. -/
def flushClosed (l : EventLoop) : EventLoop :=
  { l with server := flushPendingCloseQueue l.server }

/-- `RunEventLoopOnce` up to `ComputePollTimeoutMs`. -/
def beforeWait (turn : LoopTurn) (l : EventLoop) : Except Fault EventLoop := do
  let server ← processReadyQueue turn.ready l.server
  return { l with server }.check turn.firstExpiry turn.firstTies turn.firstReading

/-- `RunEventLoopOnce` from `epoll_wait` on. -/
def afterWait (turn : LoopTurn) (l : EventLoop) : Except Fault EventLoop := do
  let (events, poller) ← l.poller.wait turn.wait
  let server ← dispatchEvents events l.server
  let l := { l with server, poller }.check turn.secondExpiry turn.secondTies turn.secondReading
  return l.flushClosed

/-- `RunEventLoopOnce`.  The timeout bounds how long `epoll_wait` sleeps, not what it answers. -/
def runEventLoopOnce (turn : LoopTurn) (l : EventLoop) : Except Fault EventLoop := do
  let l ← l.beforeWait turn
  l.afterWait turn

/-- `Run`: turns until the stop flag is found set, and a last `MaybeWriteMetricsLog`. -/
def run (turns : List LoopTurn) (last : MetricsReading) (l : EventLoop) : Except Fault EventLoop := do
  let l ← turns.foldlM (fun l turn => l.runEventLoopOnce turn) l
  return { l with log := maybeWriteMetricsLog last l.server.metrics l.log }

end EventLoop

end WebServer.Core
