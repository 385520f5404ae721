import WebServer.Core.Output

/-!
# Reading requests

The header loop, the request-body state machine and `ReadFromClient` of
`core/server.cpp`.
-/

namespace WebServer.Core

open WebServer.Net WebServer.Http

/-! ## Request bodies -/

/-- The part of `ConsumePendingRequestBody` that takes body bytes from the buffer. -/
def consumeBodyBytes (fd : Fd) (connection : ClientConnection) (available : Nat) :
    ServerM Unit := do
  let rest ← liftM (connection.inputBuffer.consumePrefix available)
  let remaining ← subSize connection.pendingBodyBytesRemaining available
  modifyServer (·.update fd fun c =>
    { c with inputBuffer := rest, pendingBodyBytesRemaining := remaining })
  modifyServer (releaseInflightBytes available)

/-- The connection when its body has been received. -/
def ClientConnection.finishBody (c : ClientConnection) : ClientConnection :=
  { c with
    waitingForRequestBody := false
    pendingRequest := {}
    pendingBodyBytesTotal := 0
    pendingBodyBytesRemaining := 0 }.disarmBodyTimeout

/-- The part of `ConsumePendingRequestBody` after the bytes are taken. -/
def finishBodyIfComplete (fd : Fd) : ServerM Bool := do
  match ← findClient fd with
  | none => return false
  | some connection =>
    if 0 < connection.pendingBodyBytesRemaining then
      return true
    modifyServer (·.put fd connection.finishBody)
    modifyServer countRequest
    startOkResponse fd connection.pendingRequest
    return true

def consumePendingRequestBody (fd : Fd) : ServerM Bool := do
  match ← findClient fd with
  | none => return false
  | some connection =>
    if connection.closing then
      return false
    if !connection.waitingForRequestBody then
      return true
    let available := min connection.pendingBodyBytesRemaining connection.inputBuffer.size
    (if 0 < available then consumeBodyBytes fd connection available else pure ())
    finishBodyIfComplete fd

/-- The connection when the header of a request with a body has been parsed. -/
def ClientConnection.beginBody (request : HttpRequest) (c : ClientConnection) : ClientConnection :=
  { c with
    waitingForRequestBody := true
    pendingRequest := request
    pendingBodyBytesTotal := request.contentLength
    pendingBodyBytesRemaining := request.contentLength }

def beginRequestBodyReceive (fd : Fd) (request : HttpRequest) : ServerM Bool := do
  match ← findClient fd with
  | none => return false
  | some connection =>
    if connection.closing then
      return false
    modifyServer (·.log [.bodyBegun connection request])
    modifyServer (·.put fd (connection.beginBody request))
    let now ← steadyClockNow
    modifyServer (armBodyTimeout fd now request.contentLength)
    consumePendingRequestBody fd

/-! ## Headers -/

def checkHeaderLimit (fd : Fd) : ServerM Bool := do
  match ← findClient fd with
  | none => return false
  | some connection =>
    modifyServer (·.log [.limitChecked connection])
    if !connection.inputBuffer.headerExceedsLimit kMaxHeaderBytes then
      return true
    sendErrorResponseAndClose fd 431
    return false

/-- The status code of the response to a header that does not parse. -/
def ParseError.statusCode : ParseError → Nat
  | .kNotImplementedChunked => 501
  | .kLengthRequired => 411
  | .kBadRequest => 400

/-- One turn of the loop of `ProcessBufferedHeaders` on a popped header; `next` goes on
with the loop. -/
def processHeader (fd : Fd) (header : Bytes) (next : ServerM Bool) : ServerM Bool := do
  match parseRequestHeader header with
  | .error e =>
    sendErrorResponseAndClose fd (ParseError.statusCode e)
    return false
  | .ok request =>
    if request.hasContentLength && kMaxBodyBytes < request.contentLength then
      sendErrorResponseAndClose fd 413
      return false
    if request.hasContentLength && 0 < request.contentLength then
      beginRequestBodyReceive fd request
    else
      modifyServer countRequest
      startOkResponse fd request
      next

/-- The loop of `ProcessBufferedHeaders`, which runs at most as often as the first argument
says.  `false` is a `return false` of the function, `true` is the end of the loop. -/
def headerLoop (fd : Fd) : Nat → ServerM Bool
  | 0 => return true
  | turns + 1 => do
    match ← findClient fd with
    | none => return false
    | some connection =>
      if connection.closing then
        return false
      if !connection.inputBuffer.hasCompleteHeader then
        return true
      let (header, rest) ← liftM connection.inputBuffer.popNextHeader
      let popped ← subSize connection.inputBuffer.size rest.size
      modifyServer (·.put fd { connection with inputBuffer := rest })
      modifyServer (·.log [.popped connection header])
      modifyServer (releaseInflightBytes popped)
      processHeader fd header (headerLoop fd turns)

/-- `ProcessBufferedHeaders` after its loop. -/
def settleConnection (fd : Fd) : ServerM Bool := do
  match ← findClient fd with
  | none => return false
  | some connection =>
    if connection.closing then
      return false
    modifyServer (·.log [.settled connection])
    if connection.waitingForRequestBody then
      return true
    if connection.inputBuffer.hasCompleteHeader then
      modifyServer (enqueueReadyConnection fd)
      return false
    if connection.outputBuffer = [] && connection.closeAfterWrite && !connection.readyForRead then
      modifyServer (closeClientConnection fd .allHandled)
      return false
    if connection.outputBuffer = [] && !connection.closeAfterWrite && !connection.readyForRead then
      let now ← steadyClockNow
      modifyServer fun s =>
        if connection.inputBuffer.empty then armIdleKeepAliveTimeout fd now s
        else armHeaderTimeout fd now s
      modifyServer (updateClientPollMask fd)
      return true
    return true

def processBufferedHeaders (fd : Fd) : ServerM Bool := do
  if !(← headerLoop fd kMaxRequestsPerRound) then
    return false
  settleConnection fd

/-! ## Reading -/

/-- `ready_for_read = true` and into the ReadyQueue. -/
def readBudgetExhausted (fd : Fd) : ServerM Unit := do
  modifyServer (·.update fd fun c => { c with readyForRead := true })
  modifyServer (enqueueReadyConnection fd)

/-- What `ReadFromClient` does with bytes it has put into the buffer. -/
def processChunk (fd : Fd) : ServerM Bool := do
  match ← findClient fd with
  | none => return false
  | some connection =>
    if connection.waitingForRequestBody then
      consumePendingRequestBody fd
    else
      if !(← checkHeaderLimit fd) then
        return false
      processBufferedHeaders fd

/-- `ReadFromClient` on bytes that `read()` returned; `next` goes on with the loop. -/
def receive (fd : Fd) (data : Bytes) (next : ServerM Unit) : ServerM Unit := do
  let readRemaining ← subSize (← get).budget.readRemaining data.length
  modify fun r => { r with budget := { r.budget with readRemaining := readRemaining } }
  if !(← appendToInputBuffer fd data) then
    return
  if !(← processChunk fd) then
    return
  match ← findClient fd with
  | none => return
  | some _ =>
    if (← get).budget.readRemaining = 0 then
      readBudgetExhausted fd
    else next

/-- One turn of the loop of `ReadFromClient`, in which `read()` answers `answer`. -/
def readTurn (fd : Fd) (answer : ReadResult) (next : ServerM Unit) : ServerM Unit := do
  match ← findClient fd with
  | none => return
  | some connection =>
    if connection.closing then
      return
    let budget := (← get).budget
    if budget.readRemaining = 0 then
      readBudgetExhausted fd
    else
      let answer := answer.clip (min kReadChunkSize budget.readRemaining)
      modifyServer (·.log [.read connection answer])
      match answer with
      | .got [] => modifyServer (closeClientConnection fd .peerClosed)
      | .got (b :: data) => receive fd (b :: data) next
      | .failed .eagain => return
      | .failed .eintr => next
      | .failed _ =>
        modifyServer recordErrorMetric
        modifyServer (closeClientConnection fd .readFailed)

/-- The loop of `ReadFromClient` on the answers of its `read()` calls.  The last answer is
`EAGAIN`, which ends the loop. -/
def readLoop (fd : Fd) : List ReadResult → ServerM Unit
  | [] => readTurn fd (.failed .eagain) (pure ())
  | answer :: answers => readTurn fd answer (readLoop fd answers)

def readFromClient (fd : Fd) : ServerM Unit := do
  readLoop fd (← get).io.reads

end WebServer.Core
