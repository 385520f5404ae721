import WebServer.Checked.Output
import WebServer.Checked.Parser
import WebServer.Core.Input

/-!
# Reading requests with the checks

The functions that read, parse and take bodies hand the budget of the round on and test it.
-/

namespace WebServer.Checked

open WebServer.Net WebServer.Http WebServer.Core Checks

/-! ## Request bodies -/

def consumeBodyBytes (fd : Fd) (connection : ClientConnection) (available : Nat) :
    CheckedM Unit := do
  let rest ← consumePrefix connection.inputBuffer available
  let remaining ← subSize connection.pendingBodyBytesRemaining available
  modifyServer (·.update fd fun c =>
    { c with inputBuffer := rest, pendingBodyBytesRemaining := remaining })
  modifyServer (releaseInflightBytes available)

def finishBodyIfComplete (fd : Fd) (budget : BudgetPointer) : CheckedM Bool := do
  match ← findClient fd with
  | none => return false
  | some connection =>
    if 0 < connection.pendingBodyBytesRemaining then
      return true
    let finished : ClientConnection := { connection with
      waitingForRequestBody := false
      pendingRequest := {}
      pendingBodyBytesTotal := 0
      pendingBodyBytesRemaining := 0 }
    let finished ← disarmBodyTimeout (.to finished)
    modifyServer (·.put fd finished)
    modifyServer countRequest
    startOkResponse fd connection.pendingRequest budget
    return true

def consumePendingRequestBody (fd : Fd) (budget : BudgetPointer) : CheckedM Bool := do
  let _ ← notNull "budget must not be null" budget
  match ← findClient fd with
  | none => return false
  | some connection =>
    if connection.closing then
      return false
    if !connection.waitingForRequestBody then
      return true
    let available := min connection.pendingBodyBytesRemaining connection.inputBuffer.size
    (if 0 < available then consumeBodyBytes fd connection available else pure ())
    finishBodyIfComplete fd budget

def beginRequestBodyReceive (fd : Fd) (request : HttpRequest) (budget : BudgetPointer) :
    CheckedM Bool := do
  let _ ← notNull "budget must not be null" budget
  match ← findClient fd with
  | none => return false
  | some connection =>
    if connection.closing then
      return false
    modifyServer (·.log [.bodyBegun connection request])
    modifyServer (·.put fd (connection.beginBody request))
    let now ← steadyClockNow
    armBodyTimeout fd now request.contentLength
    consumePendingRequestBody fd budget

theorem consumeBodyBytes_eq (fd : Fd) (c : ClientConnection) (available : Nat) :
    consumeBodyBytes fd c available = plain (Core.consumeBodyBytes fd c available) := by
  unfold consumeBodyBytes Core.consumeBodyBytes
  simp only [plain_bind, plain_consumePrefix, plain_subSize, plain_modifyServer]

theorem finishBodyIfComplete_eq (fd : Fd) :
    finishBodyIfComplete fd (.to ()) = plain (Core.finishBodyIfComplete fd) := by
  unfold finishBodyIfComplete Core.finishBodyIfComplete
  rw [plain_bind]
  refine findClient_eq rfl fun c => ?_
  simp only [disarmBodyTimeout_to, pure_bind, plain_bind, plain_ite, plain_pure, plain_modifyServer,
    startOkResponse_eq]
  rfl

theorem consumePendingRequestBody_eq (fd : Fd) :
    consumePendingRequestBody fd (.to ()) = plain (Core.consumePendingRequestBody fd) := by
  unfold consumePendingRequestBody Core.consumePendingRequestBody
  rw [notNull_to, pure_bind, plain_bind]
  refine findClient_eq rfl fun c => ?_
  simp only [plain_bind, plain_ite, plain_pure, consumeBodyBytes_eq, finishBodyIfComplete_eq]

theorem beginRequestBodyReceive_eq (fd : Fd) (request : HttpRequest) :
    beginRequestBodyReceive fd request (.to ()) = plain (Core.beginRequestBodyReceive fd request) := by
  unfold beginRequestBodyReceive Core.beginRequestBodyReceive
  rw [notNull_to, pure_bind, plain_bind]
  refine findClient_eq rfl fun c => ?_
  simp only [plain_bind, plain_ite, plain_pure, plain_modifyServer, plain_steadyClockNow,
    armBodyTimeout_eq, consumePendingRequestBody_eq]

/-! ## Headers -/

def checkHeaderLimit (fd : Fd) : CheckedM Bool := do
  match ← findClient fd with
  | none => return false
  | some connection =>
    modifyServer (·.log [.limitChecked connection])
    if !connection.inputBuffer.headerExceedsLimit kMaxHeaderBytes then
      return true
    sendErrorResponseAndClose fd 431
    return false

def processHeader (fd : Fd) (header : Bytes) (budget : BudgetPointer) (next : CheckedM Bool) :
    CheckedM Bool := do
  match ← checked (parseRequestHeader header (.to {})) with
  | .error e =>
    sendErrorResponseAndClose fd (ParseError.statusCode e)
    return false
  | .ok request =>
    if request.hasContentLength && kMaxBodyBytes < request.contentLength then
      sendErrorResponseAndClose fd 413
      return false
    if request.hasContentLength && 0 < request.contentLength then
      beginRequestBodyReceive fd request budget
    else
      modifyServer countRequest
      startOkResponse fd request budget
      next

def headerLoop (fd : Fd) (budget : BudgetPointer) : Nat → CheckedM Bool
  | 0 => return true
  | turns + 1 => do
    match ← findClient fd with
    | none => return false
    | some connection =>
      if connection.closing then
        return false
      if !connection.inputBuffer.hasCompleteHeader then
        return true
      let (header, rest) ← popNextHeader connection.inputBuffer
      let popped ← subSize connection.inputBuffer.size rest.size
      modifyServer (·.put fd { connection with inputBuffer := rest })
      modifyServer (·.log [.popped connection header])
      modifyServer (releaseInflightBytes popped)
      processHeader fd header budget (headerLoop fd budget turns)

def settleConnection (fd : Fd) : CheckedM Bool := do
  match ← findClient fd with
  | none => return false
  | some connection =>
    if connection.closing then
      return false
    modifyServer (·.log [.settled connection])
    if connection.waitingForRequestBody then
      return true
    if connection.inputBuffer.hasCompleteHeader then
      modifyServer (enqueueReadyConnection fd)
      return false
    if connection.outputBuffer = [] && connection.closeAfterWrite && !connection.readyForRead then
      closeClientConnection fd .allHandled
      return false
    if connection.outputBuffer = [] && !connection.closeAfterWrite && !connection.readyForRead then
      let now ← steadyClockNow
      (if connection.inputBuffer.empty then armIdleKeepAliveTimeout fd now
        else armHeaderTimeout fd now)
      modifyServer (updateClientPollMask fd)
      return true
    return true

def processBufferedHeaders (fd : Fd) (budget : BudgetPointer) : CheckedM Bool := do
  let _ ← notNull "budget must not be null" budget
  if !(← headerLoop fd budget kMaxRequestsPerRound) then
    return false
  settleConnection fd

theorem checkHeaderLimit_eq (fd : Fd) : checkHeaderLimit fd = plain (Core.checkHeaderLimit fd) := by
  unfold checkHeaderLimit Core.checkHeaderLimit
  rw [plain_bind]
  refine findClient_eq rfl fun c => ?_
  simp only [plain_bind, plain_ite, plain_pure, plain_modifyServer, sendErrorResponseAndClose_eq]

theorem processHeader_eq (fd : Fd) (header : Bytes) (next : ServerM Bool) :
    processHeader fd header (.to ()) (plain next) = plain (Core.processHeader fd header next) := by
  unfold processHeader Core.processHeader
  rw [parseRequestHeader_eq, checked_ok, pure_bind]
  cases Http.parseRequestHeader header with
  | error e => simp only [plain_bind, plain_pure, sendErrorResponseAndClose_eq]
  | ok request =>
    simp only [plain_bind, plain_ite, plain_pure, plain_modifyServer, sendErrorResponseAndClose_eq,
      beginRequestBodyReceive_eq, startOkResponse_eq]

theorem headerLoop_eq (fd : Fd) (turns : Nat) :
    headerLoop fd (.to ()) turns = plain (Core.headerLoop fd turns) := by
  induction turns with
  | zero => rfl
  | succ turns ih =>
    unfold headerLoop Core.headerLoop
    rw [plain_bind]
    refine findClient_eq rfl fun c => ?_
    simp only [plain_bind, plain_ite, plain_pure, plain_modifyServer, plain_popNextHeader,
      plain_subSize, ih, processHeader_eq]

theorem settleConnection_eq (fd : Fd) : settleConnection fd = plain (Core.settleConnection fd) := by
  have hrearm (c : ClientConnection) (now : Time) :
      (if c.inputBuffer.empty then armIdleKeepAliveTimeout fd now else armHeaderTimeout fd now) =
        modifyServer fun s => if c.inputBuffer.empty then Core.armIdleKeepAliveTimeout fd now s
          else Core.armHeaderTimeout fd now s := by
    rw [armIdleKeepAliveTimeout_eq, armHeaderTimeout_eq]
    split <;> rfl
  unfold settleConnection Core.settleConnection
  rw [plain_bind]
  refine findClient_eq rfl fun c => ?_
  simp only [plain_bind, plain_ite, plain_pure, plain_modifyServer, plain_steadyClockNow,
    closeClientConnection_eq, hrearm]

theorem processBufferedHeaders_eq (fd : Fd) :
    processBufferedHeaders fd (.to ()) = plain (Core.processBufferedHeaders fd) := by
  unfold processBufferedHeaders Core.processBufferedHeaders
  simp only [notNull_to, pure_bind, plain_bind, plain_ite, plain_pure, headerLoop_eq,
    settleConnection_eq]

/-! ## Reading -/

def processChunk (fd : Fd) (budget : BudgetPointer) : CheckedM Bool := do
  match ← findClient fd with
  | none => return false
  | some connection =>
    if connection.waitingForRequestBody then
      consumePendingRequestBody fd budget
    else
      if !(← checkHeaderLimit fd) then
        return false
      processBufferedHeaders fd budget

/-- `connection` is the entry that `read()` was called for. -/
def receive (fd : Fd) (connection : ClientConnection) (data : Bytes) (budget : BudgetPointer)
    (next : CheckedM Unit) : CheckedM Unit := do
  let readRemaining ← subSize (← get).budget.readRemaining data.length
  modify fun r => { r with budget := { r.budget with readRemaining := readRemaining } }
  if !(← appendToInputBuffer fd (.to connection) (.to data) data.length) then
    return
  if !(← processChunk fd budget) then
    return
  match ← findClient fd with
  | none => return
  | some _ =>
    if (← get).budget.readRemaining = 0 then
      plain (readBudgetExhausted fd)
    else next

def readTurn (fd : Fd) (answer : ReadResult) (budget : BudgetPointer) (next : CheckedM Unit) :
    CheckedM Unit := do
  match ← findClient fd with
  | none => return
  | some connection =>
    if connection.closing then
      return
    let remaining := (← get).budget.readRemaining
    if remaining = 0 then
      plain (readBudgetExhausted fd)
    else
      let answer := answer.clip (min kReadChunkSize remaining)
      modifyServer (·.log [.read connection answer])
      match answer with
      | .got [] => closeClientConnection fd .peerClosed
      | .got (b :: data) => receive fd connection (b :: data) budget next
      | .failed .eagain => return
      | .failed .eintr => next
      | .failed _ =>
        modifyServer recordErrorMetric
        closeClientConnection fd .readFailed

def readLoop (fd : Fd) (budget : BudgetPointer) : List ReadResult → CheckedM Unit
  | [] => readTurn fd (.failed .eagain) budget (pure ())
  | answer :: answers => readTurn fd answer budget (readLoop fd budget answers)

def readFromClient (fd : Fd) (budget : BudgetPointer) : CheckedM Unit := do
  let _ ← notNull "budget must not be null" budget
  readLoop fd budget (← get).io.reads

theorem processChunk_eq (fd : Fd) : processChunk fd (.to ()) = plain (Core.processChunk fd) := by
  unfold processChunk Core.processChunk
  rw [plain_bind]
  refine findClient_eq rfl fun c => ?_
  simp only [plain_bind, plain_ite, plain_pure, consumePendingRequestBody_eq, checkHeaderLimit_eq,
    processBufferedHeaders_eq]

theorem receive_eq (fd : Fd) (c : ClientConnection) (data : Bytes) (next : ServerM Unit) :
    receive fd c data (.to ()) (plain next) = plain (Core.receive fd data next) := by
  unfold receive Core.receive
  simp only [plain_bind, plain_ite, plain_pure, plain_get, plain_modify, plain_subSize,
    appendToInputBuffer_eq, processChunk_eq, plain_findClient]
  refine bind_eq rfl fun r => bind_eq rfl fun _ => bind_eq rfl fun _ => bind_eq rfl fun _ =>
    ite_eq (fun _ => rfl) fun _ => bind_eq rfl fun _ => ite_eq (fun _ => rfl) fun _ => ?_
  refine findClient_eq rfl fun d => ?_
  simp only [plain_bind, plain_ite, plain_get]

theorem readTurn_eq (fd : Fd) (answer : ReadResult) (next : ServerM Unit) :
    readTurn fd answer (.to ()) (plain next) = plain (Core.readTurn fd answer next) := by
  unfold readTurn Core.readTurn
  rw [plain_bind]
  refine findClient_eq rfl fun c => ?_
  simp only [plain_bind, plain_ite, plain_pure, plain_get, plain_modifyServer]
  refine ite_eq (fun _ => rfl) fun _ => bind_eq rfl fun r => ite_eq (fun _ => rfl) fun _ =>
    bind_eq rfl fun _ => ?_
  generalize answer.clip _ = answer
  rcases answer with data | errno
  · cases data with
    | nil => exact closeClientConnection_eq ..
    | cons b data => exact receive_eq ..
  · cases errno with
    | eagain => rfl
    | eintr => rfl
    | econnaborted | emfile | enfile | other =>
      simp only [plain_bind, plain_modifyServer, closeClientConnection_eq]

theorem readLoop_eq (fd : Fd) (answers : List ReadResult) :
    readLoop fd (.to ()) answers = plain (Core.readLoop fd answers) := by
  induction answers with
  | nil => exact readTurn_eq fd (.failed .eagain) (pure ())
  | cons answer answers ih =>
    rw [readLoop, ih]
    exact readTurn_eq fd answer (Core.readLoop fd answers)

theorem readFromClient_eq (fd : Fd) :
    readFromClient fd (.to ()) = plain (Core.readFromClient fd) := by
  unfold readFromClient Core.readFromClient
  simp only [notNull_to, pure_bind, plain_bind, plain_get, readLoop_eq]

end WebServer.Checked
