import WebServer.Checked.Admission
import WebServer.Checked.Input
import WebServer.Core.Runs

/-!
# The event loop with the checks

The handlers with a pointer to the budget of their round, and the handler calls.  **The program
with its checks is the program without them**: no check ever fires, from any state.
-/

namespace WebServer.Checked

open WebServer.Net WebServer.Http WebServer.Core Checks

/-! ## Handlers -/

def continueReading (fd : Fd) (budget : BudgetPointer) : CheckedM Unit := do
  match ← findClient fd with
  | none => return
  | some connection =>
    if connection.waitingForRequestBody || connection.outputBuffer ≠ [] then
      return
    let goOn ← (if connection.inputBuffer.hasCompleteHeader then processBufferedHeaders fd budget
      else pure true)
    if !goOn then
      return
    match ← findClient fd with
    | none => return
    | some connection =>
      if connection.outputBuffer ≠ [] then
        return
      if connection.readyForRead then
        modifyServer (·.update fd fun c => { c with readyForRead := false })
        readFromClient fd budget
      else return

def continueBody (fd : Fd) (budget : BudgetPointer) : CheckedM Unit := do
  match ← findClient fd with
  | none => return
  | some connection =>
    if connection.outputBuffer ≠ [] then
      return
    let goOn ← (if connection.waitingForRequestBody then consumePendingRequestBody fd budget
      else pure true)
    if !goOn then
      return
    continueReading fd budget

def continueReadyConnection (fd : Fd) (budget : BudgetPointer) : CheckedM Unit := do
  match ← findClient fd with
  | none => return
  | some connection =>
    if connection.closing then
      return
    (if connection.outputBuffer ≠ [] then flushClientOutput fd budget else pure ())
    continueBody fd budget

def handleReadable (fd : Fd) (events : EpollEvents) (budget : BudgetPointer) : CheckedM Unit := do
  match ← findClient fd with
  | none => return
  | some connection =>
    if !events.epollin then
      return
    if connection.idleArmed then
      let connection ← disarmIdleKeepAliveTimeout (.to connection)
      modifyServer (·.put fd connection)
      let now ← steadyClockNow
      armHeaderTimeout fd now
      match ← findClient fd with
      | none => return
      | some connection =>
        if connection.closing then
          return
        readFromClient fd budget
    else readFromClient fd budget

/-- The `EventBudget` is a local variable here, and so is the one of `ProcessReadyQueue`. -/
def handleClientEvent (fd : Fd) (events : EpollEvents) : CheckedM Unit := do
  if events.epollerr || events.epollhup || events.epollrdhup then
    closeClientConnection fd .peerHangup
    return
  match ← findClient fd with
  | none => return
  | some connection =>
    if connection.closing then
      return
    if connection.outputBuffer ≠ [] then
      (if events.epollout then flushClientOutput fd (.to ()) else pure ())
      match ← findClient fd with
      | none => return
      | some connection =>
        if connection.outputBuffer ≠ [] then
          return
        handleReadable fd events (.to ())
    else handleReadable fd events (.to ())

def handleListenEvent (events : EpollEvents) : CheckedM Unit := do
  if !events.epollin then
    return
  drainAcceptQueue (← get).io.accepts

def handlePollEvent (event : PollEvent) : CheckedM Unit := do
  let s := (← get).server
  if event.fd = s.listenFd then
    handleListenEvent event.events
  else
    match ← findClient event.fd with
    | none => return
    | some connection =>
      if connection.closing then
        return
      handleClientEvent event.fd event.events

theorem continueReading_eq (fd : Fd) :
    continueReading fd (.to ()) = plain (Core.continueReading fd) := by
  unfold continueReading Core.continueReading
  rw [plain_bind]
  refine findClient_eq rfl fun c => ?_
  simp only [plain_bind, plain_ite, plain_pure, plain_findClient, processBufferedHeaders_eq]
  refine ite_eq (fun _ => rfl) fun _ => bind_eq rfl fun _ => ite_eq (fun _ => rfl) fun _ => ?_
  refine findClient_eq rfl fun d => ?_
  simp only [plain_bind, plain_ite, plain_pure, plain_modifyServer, readFromClient_eq]

theorem continueBody_eq (fd : Fd) : continueBody fd (.to ()) = plain (Core.continueBody fd) := by
  unfold continueBody Core.continueBody
  rw [plain_bind]
  refine findClient_eq rfl fun c => ?_
  simp only [plain_bind, plain_ite, plain_pure, consumePendingRequestBody_eq, continueReading_eq]

theorem continueReadyConnection_eq (fd : Fd) :
    continueReadyConnection fd (.to ()) = plain (Core.continueReadyConnection fd) := by
  unfold continueReadyConnection Core.continueReadyConnection
  rw [plain_bind]
  refine findClient_eq rfl fun c => ?_
  simp only [plain_bind, plain_ite, plain_pure, flushClientOutput_eq, continueBody_eq]

theorem handleReadable_eq (fd : Fd) (events : EpollEvents) :
    handleReadable fd events (.to ()) = plain (Core.handleReadable fd events) := by
  unfold handleReadable Core.handleReadable
  rw [plain_bind]
  refine findClient_eq rfl fun c => ?_
  simp only [disarmIdleKeepAliveTimeout_to, pure_bind, plain_bind, plain_ite, plain_pure,
    plain_modifyServer, plain_steadyClockNow, plain_findClient, armHeaderTimeout_eq,
    readFromClient_eq]
  refine ite_eq (fun _ => rfl) fun _ => ite_eq (fun _ => ?_) fun _ => rfl
  refine bind_eq rfl fun _ => bind_eq rfl fun now => bind_eq rfl fun _ => ?_
  refine findClient_eq rfl fun d => ?_
  simp only [plain_ite, plain_pure]

theorem handleClientEvent_eq (fd : Fd) (events : EpollEvents) :
    handleClientEvent fd events = plain (Core.handleClientEvent fd events) := by
  unfold handleClientEvent Core.handleClientEvent
  simp only [plain_bind, plain_ite, plain_pure, plain_modifyServer, plain_findClient,
    closeClientConnection_eq]
  refine ite_eq (fun _ => rfl) fun _ => findClient_eq rfl fun c => ?_
  simp only [plain_bind, plain_ite, plain_pure, plain_findClient, flushClientOutput_eq,
    handleReadable_eq]
  refine ite_eq (fun _ => rfl) fun _ => ite_eq (fun _ => bind_eq rfl fun _ => ?_) fun _ => rfl
  refine findClient_eq rfl fun d => ?_
  simp only [plain_ite, plain_pure]

theorem handlePollEvent_eq (event : PollEvent) :
    handlePollEvent event = plain (Core.handlePollEvent event) := by
  unfold handlePollEvent Core.handlePollEvent handleListenEvent Core.handleListenEvent
  simp only [plain_bind, plain_ite, plain_pure, plain_get, plain_findClient, drainAcceptQueue_eq]
  refine bind_eq rfl fun r => ite_eq (fun _ => rfl) fun _ => findClient_eq rfl fun c => ?_
  simp only [plain_ite, plain_pure, handleClientEvent_eq]

/-! ## Timer expiry -/

def expireTimer (timer : TimerEntry) : CheckedM Unit := do
  match ← findClient timer.fd with
  | none => return
  | some c =>
    if c.closing then
      return
    if c.connectionId ≠ timer.connectionId then
      return
    if !(c.timeout timer.kind).armed || (c.timeout timer.kind).generation ≠ timer.generation then
      return
    modifyServer (·.put timer.fd (c.disarm timer.kind))
    modifyServer recordErrorMetric
    modifyServer fun s => { s with metrics :=
      { s.metrics with timeoutCloseTotal := s.metrics.timeoutCloseTotal + 1 } }
    closeClientConnection timer.fd (.timedOut timer.kind)

def expireLoop (now : Time) : Nat → List Nat → CheckedM Unit
  | 0, _ => return
  | turns + 1, ties => do
    match Earliest.top TimerEntry.deadline (ties.headD 0) (← get).server.timerHeap with
    | none => return
    | some timer =>
      if timer.deadline ≤ now then
        modifyServer fun s => { s with timerHeap := s.timerHeap.erase timer }
        expireTimer timer
        expireLoop now turns ties.tail
      else return

theorem expireTimer_eq (timer : TimerEntry) :
    expireTimer timer = modifyServer (Core.expireTimer timer) := by
  funext r
  rw [modifyServer_run, expireTimer, findClient_bind, Core.expireTimer]
  cases r.server.find timer.fd with
  | none => rfl
  | some c =>
    simp only [closeClientConnection_eq]
    split
    · rfl
    · split
      · rfl
      · split <;> rfl

theorem expireLoop_eq (now : Time) (turns : Nat) (ties : List Nat) :
    expireLoop now turns ties = modifyServer (Core.expireLoop now turns ties) := by
  induction turns generalizing ties with
  | zero => rfl
  | succ turns ih =>
    funext r
    have hget (k : Round → CheckedM Unit) : (get >>= k) r = k r r := rfl
    rw [modifyServer_run, expireLoop, hget, Core.expireLoop]
    cases Earliest.top TimerEntry.deadline (ties.headD 0) r.server.timerHeap with
    | none => rfl
    | some timer =>
      simp only [expireTimer_eq, ih]
      split <;> rfl

/-! ## Handler calls -/

def runHandler (handler : CheckedM Unit) (io : Io) (s : Server) :
    Except (Failure Check Fault) Server :=
  (handler { server := s, io := io }).map fun result => result.2.server

def readyTurn (io : Io) (s : Server) : Except (Failure Check Fault) Server :=
  match s.readyQueue with
  | [] => .error (.fault .emptyDeque)
  | fd :: queue =>
    let s := { s with readyQueue := queue }
    match s.find fd with
    | none => .ok s
    | some connection =>
      if connection.closing then .ok s
      else
        runHandler (continueReadyConnection fd (.to ())) io
          (s.put fd { connection with inReadyQueue := false })

def runCall : Call → Server → Except (Failure Check Fault) Server
  | .ready io, s => readyTurn io s
  | .event event io, s => runHandler (handlePollEvent event) io s
  | .expire now turns ties, s => runHandler (expireLoop now turns ties) {} s
  | .flushClosed, s => .ok (flushPendingCloseQueue s)

def runCalls (calls : List Call) (s : Server) : Except (Failure Check Fault) Server :=
  calls.foldlM (fun s call => runCall call s) s

/-- A state between two handler calls of the program with its checks. -/
def Reachable (s : Server) : Prop :=
  ∃ listenFd calls, runCalls calls (initializeServer listenFd) = .ok s

theorem runHandler_eq (handler : ServerM Unit) (io : Io) (s : Server) :
    runHandler (plain handler) io s = (Core.runHandler handler io s).mapError .fault := by
  unfold runHandler Core.runHandler plain
  cases handler { server := s, io := io } <;> rfl

theorem readyTurn_eq (io : Io) (s : Server) :
    readyTurn io s = (Core.readyTurn io s).mapError .fault := by
  unfold readyTurn Core.readyTurn
  cases s.readyQueue with
  | nil => rfl
  | cons fd queue =>
    dsimp only
    cases Server.find { s with readyQueue := queue } fd with
    | none => rfl
    | some c =>
      dsimp only
      split
      · rfl
      · rw [continueReadyConnection_eq, runHandler_eq]

/-- **No check fires.**  A handler call does the same with its checks as without them. -/
theorem runCall_eq (call : Call) (s : Server) :
    runCall call s = (Core.runCall call s).mapError .fault := by
  cases call with
  | ready io => exact readyTurn_eq io s
  | event event io =>
    rw [runCall, handlePollEvent_eq]
    exact runHandler_eq (Core.handlePollEvent event) io s
  | expire now turns ties =>
    rw [runCall, expireLoop_eq]
    rfl
  | flushClosed => rfl

theorem runCalls_eq (calls : List Call) (s : Server) :
    runCalls calls s = (Core.runCalls calls s).mapError .fault := by
  induction calls generalizing s with
  | nil => rfl
  | cons call calls ih =>
    have hcons : runCalls (call :: calls) s = runCall call s >>= runCalls calls := rfl
    rw [hcons, runCall_eq, runCalls_cons]
    cases Core.runCall call s with
    | error e => rfl
    | ok s' => exact ih s'

/-- The checks do not keep the program from any state. -/
theorem reachable_iff {s : Server} : Reachable s ↔ Core.Reachable s := by
  have hruns (listenFd : Fd) (calls : List Call) :
      runCalls calls (initializeServer listenFd) = .ok s ↔
        Core.runCalls calls (initializeServer listenFd) = .ok s := by
    rw [runCalls_eq]
    cases Core.runCalls calls (initializeServer listenFd) <;> simp [Except.mapError]
  exact exists_congr fun listenFd => exists_congr fun calls => hruns listenFd calls

end WebServer.Checked
