import WebServer.Lib.Earliest
import WebServer.Core.Admission
import WebServer.Core.Input

/-!
# The event loop

`ContinueReadyConnection`, the event handlers, timer expiry, and
`RunEventLoopOnce` of `core/server.cpp`.  `epoll_wait` reports any list of events.
-/

namespace WebServer.Core

open WebServer.Net WebServer.Http

/-! ## Handlers -/

/-- `ContinueReadyConnection` from the test for buffered headers on. -/
def continueReading (fd : Fd) : ServerM Unit := do
  match ← findClient fd with
  | none => return
  | some connection =>
    if connection.waitingForRequestBody || connection.outputBuffer ≠ [] then
      return
    let goOn ← (if connection.inputBuffer.hasCompleteHeader then processBufferedHeaders fd
      else pure true)
    if !goOn then
      return
    match ← findClient fd with
    | none => return
    | some connection =>
      if connection.outputBuffer ≠ [] then
        return
      if connection.readyForRead then
        modifyServer (·.update fd fun c => { c with readyForRead := false })
        readFromClient fd
      else return

/-- `ContinueReadyConnection` from the test for a pending body on. -/
def continueBody (fd : Fd) : ServerM Unit := do
  match ← findClient fd with
  | none => return
  | some connection =>
    if connection.outputBuffer ≠ [] then
      return
    let goOn ← (if connection.waitingForRequestBody then consumePendingRequestBody fd
      else pure true)
    if !goOn then
      return
    continueReading fd

def continueReadyConnection (fd : Fd) : ServerM Unit := do
  match ← findClient fd with
  | none => return
  | some connection =>
    if connection.closing then
      return
    (if connection.outputBuffer ≠ [] then flushClientOutput fd else pure ())
    continueBody fd

/-- `HandleClientEvent` from the test for `EPOLLIN` on. -/
def handleReadable (fd : Fd) (events : EpollEvents) : ServerM Unit := do
  match ← findClient fd with
  | none => return
  | some connection =>
    if !events.epollin then
      return
    if connection.idleArmed then
      modifyServer (·.put fd connection.disarmIdleKeepAliveTimeout)
      let now ← steadyClockNow
      modifyServer (armHeaderTimeout fd now)
      match ← findClient fd with
      | none => return
      | some connection =>
        if connection.closing then
          return
        readFromClient fd
    else readFromClient fd

def handleClientEvent (fd : Fd) (events : EpollEvents) : ServerM Unit := do
  if events.epollerr || events.epollhup || events.epollrdhup then
    modifyServer (closeClientConnection fd .peerHangup)
    return
  match ← findClient fd with
  | none => return
  | some connection =>
    if connection.closing then
      return
    if connection.outputBuffer ≠ [] then
      (if events.epollout then flushClientOutput fd else pure ())
      match ← findClient fd with
      | none => return
      | some connection =>
        if connection.outputBuffer ≠ [] then
          return
        handleReadable fd events
    else handleReadable fd events

def handleListenEvent (events : EpollEvents) : ServerM Unit := do
  if !events.epollin then
    return
  drainAcceptQueue (← get).io.accepts

def handlePollEvent (event : PollEvent) : ServerM Unit := do
  let s := (← get).server
  if event.fd = s.listenFd then
    handleListenEvent event.events
  else
    match ← findClient event.fd with
    | none => return
    | some connection =>
      if connection.closing then
        return
      handleClientEvent event.fd event.events

/-! ## Handler calls on the server -/

/-- Run a handler with a fresh budget on the answers of `io`. -/
def runHandler (handler : ServerM Unit) (io : Io) (s : Server) : Except Fault Server :=
  (handler { server := s, io := io }).map fun result => result.2.server

/-- One turn of the loop of `ProcessReadyQueue`. -/
def readyTurn (io : Io) (s : Server) : Except Fault Server :=
  match s.readyQueue with
  | [] => .error .emptyDeque
  | fd :: queue =>
    let s := { s with readyQueue := queue }
    match s.find fd with
    | none => .ok s
    | some connection =>
      if connection.closing then .ok s
      else
        runHandler (continueReadyConnection fd) io
          (s.put fd { connection with inReadyQueue := false })

/-- The loop of `ProcessReadyQueue`; its length is fixed before the first turn. -/
def readyLoop : Nat → List Io → Server → Except Fault Server
  | 0, _, s => .ok s
  | turns + 1, ios, s => do
    let s ← readyTurn (ios.headD {}) s
    readyLoop turns ios.tail s

def processReadyQueue (ios : List Io) (s : Server) : Except Fault Server :=
  readyLoop s.readyQueue.length ios s

/-! ## Timer expiry -/

/-- What `ProcessExpiredTimers` does with a node it has popped. -/
def expireTimer (timer : TimerEntry) (s : Server) : Server :=
  match s.find timer.fd with
  | none => s
  | some c =>
    if c.closing then s
    else if c.connectionId ≠ timer.connectionId then s
    else if !(c.timeout timer.kind).armed || (c.timeout timer.kind).generation ≠ timer.generation then s
    else
      let s := s.put timer.fd (c.disarm timer.kind)
      let s := recordErrorMetric s
      let s := { s with metrics :=
        { s.metrics with timeoutCloseTotal := s.metrics.timeoutCloseTotal + 1 } }
      closeClientConnection timer.fd (.timedOut timer.kind) s

/-- The loop of `ProcessExpiredTimers`; every turn pops one node. -/
def expireLoop (now : Time) : Nat → List Nat → Server → Server
  | 0, _, s => s
  | turns + 1, ties, s =>
    match Earliest.top TimerEntry.deadline (ties.headD 0) s.timerHeap with
    | none => s
    | some timer =>
      if timer.deadline ≤ now then
        let s := { s with timerHeap := s.timerHeap.erase timer }
        expireLoop now turns ties.tail (expireTimer timer s)
      else s

/-- `ProcessExpiredTimers` at time `now`.  `ties` decides between equal deadlines, which
`std::priority_queue` leaves open. -/
def processExpiredTimers (now : Time) (ties : List Nat) (s : Server) : Server :=
  expireLoop now s.timerHeap.length ties s

/-! ## The loop -/

/-- What the environment does during one `RunEventLoopOnce`. -/
structure Iteration where
  ready : List Io := []
  firstExpiry : Time := 0
  firstTies : List Nat := []
  events : List (PollEvent × Io) := []
  secondExpiry : Time := 0
  secondTies : List Nat := []

/-- The loop over the events of one `epoll_wait`. -/
def dispatchEvents (events : List (PollEvent × Io)) (s : Server) : Except Fault Server :=
  events.foldlM (fun s e => runHandler (handlePollEvent e.1) e.2 s) s

/-- `RunEventLoopOnce`, less the metrics log. -/
def runEventLoopOnce (it : Iteration) (s : Server) : Except Fault Server := do
  let s ← processReadyQueue it.ready s
  let s := processExpiredTimers it.firstExpiry it.firstTies s
  let s ← dispatchEvents it.events s
  let s := processExpiredTimers it.secondExpiry it.secondTies s
  return flushPendingCloseQueue s

end WebServer.Core
