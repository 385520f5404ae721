import WebServer.Http.Parser
import WebServer.Http.Response
import WebServer.Core.Round

/-!
# Responses and the output buffer

Error responses, the inflight budget, `StartOkResponse` and `FlushClientOutput` of
`core/server.cpp`.
-/

namespace WebServer.Core

open WebServer.Net WebServer.Http

def reasonPhrase : Nat → Bytes
  | 400 => ascii "Bad Request"
  | 411 => ascii "Length Required"
  | 413 => ascii "Payload Too Large"
  | 429 => ascii "Too Many Requests"
  | 431 => ascii "Request Header Fields Too Large"
  | 501 => ascii "Not Implemented"
  | 503 => ascii "Service Unavailable"
  | _ => []

/-- The bytes of an error response; its body is the reason phrase and a line feed. -/
def errorResponse (statusCode : Nat) : Bytes :=
  buildSimpleErrorResponse statusCode (reasonPhrase statusCode) (reasonPhrase statusCode ++ [10])

def sendErrorResponseAndClose (fd : Fd) (statusCode : Nat) : ServerM Unit := do
  match ← findClient fd with
  | none => return
  | some connection =>
    modifyServer (·.log [.rejected connection statusCode])
    modifyServer (recordRejectMetric statusCode)
    modifyServer recordErrorMetric
    let _ ← writeErrorResponse fd connection.connectionId (errorResponse statusCode)
    modifyServer (closeClientConnection fd (.errorResponse statusCode))

/-! ## The inflight budget -/

def tryReserveInflightBytes (fd : Fd) (growth : Growth) (addBytes : Nat) : ServerM Bool := do
  if addBytes = 0 then
    return true
  let s := (← get).server
  modifyServer (·.log [.reserved (s.find fd) growth addBytes s.globalInflightBytes])
  if kMaxInflightBytes < s.globalInflightBytes ||
      kMaxInflightBytes - s.globalInflightBytes < addBytes then
    sendErrorResponseAndClose fd 503
    return false
  return true

def appendToInputBuffer (fd : Fd) (data : Bytes) : ServerM Bool := do
  if data.length = 0 then
    return true
  if !(← tryReserveInflightBytes fd .inputAppend data.length) then
    return false
  modifyServer (·.update fd fun c => { c with inputBuffer := c.inputBuffer.append data })
  modifyServer (growInflight data.length)
  return true

def appendToOutputBuffer (fd : Fd) (data : Bytes) : ServerM Bool := do
  if data = [] then
    return true
  if !(← tryReserveInflightBytes fd .outputAppend data.length) then
    return false
  modifyServer (·.update fd fun c => { c with outputBuffer := c.outputBuffer ++ data })
  modifyServer (growInflight data.length)
  return true

/-- `connection` is the entry the pointer argument refers to. -/
def replaceOutputBuffer (fd : Fd) (connection : ClientConnection) (data : Bytes) :
    ServerM Bool := do
  let oldSize := connection.outputBuffer.length
  if oldSize < data.length then
    let growth ← subSize data.length oldSize
    if !(← tryReserveInflightBytes fd .outputReplace growth) then
      return false
    modifyServer (·.update fd fun c => { c with outputBuffer := data })
    modifyServer (growInflight growth)
    return true
  else
    modifyServer (·.update fd fun c => { c with outputBuffer := data })
    let shrinkage ← subSize oldSize data.length
    modifyServer (releaseInflightBytes shrinkage)
    return true

/-! ## Starting a response -/

def containsHeaderToken (headerValue token : Bytes) : Bool :=
  (Search.find? token (lowercaseCopy headerValue)).isSome

def shouldKeepAlive (request : HttpRequest) : Bool :=
  let has (token : Bytes) : Bool :=
    match request.findHeader (ascii "connection") with
    | none => false
    | some value => containsHeaderToken value token
  if request.version = ascii "HTTP/1.1" then !has (ascii "close")
  else has (ascii "keep-alive")

/-- The flags and timers of a connection after `StartOkResponse` has decided about
keep-alive. -/
def ClientConnection.respond (keepAlive : Bool) (c : ClientConnection) : ClientConnection :=
  { c.disarmHeaderTimeout.disarmIdleKeepAliveTimeout with
    keepAliveEnabled := keepAlive
    closeAfterWrite := c.closeAfterWrite || !keepAlive }

def startOkResponse (fd : Fd) (request : HttpRequest) : ServerM Unit := do
  match ← findClient fd with
  | none => return
  | some connection =>
    if connection.closing then
      return
    let keepAlive := shouldKeepAlive request && !connection.closeAfterWrite
    modifyServer (·.put fd (connection.respond keepAlive))
    modifyServer (·.log [.dispatched connection request keepAlive])
    let connection := connection.respond keepAlive
    let response := buildSimpleOkResponse kStaticOkBody keepAlive
    let budget := (← get).budget
    -- behind an unsent tail the response may only be appended
    if connection.outputBuffer ≠ [] then
      if !(← appendToOutputBuffer fd response) then
        return
      modifyServer (updateClientPollMask fd)
      return
    if budget.writeRemaining = 0 then
      if !(← replaceOutputBuffer fd connection response) then
        return
      modifyServer (updateClientPollMask fd)
      return
    let attempt := min response.length budget.writeRemaining
    match ← writeResponse fd connection.connectionId (response.take attempt) with
    | .error _ =>
      modifyServer recordErrorMetric
      modifyServer (closeClientConnection fd .writeFailed)
    | .ok written =>
      let writeRemaining ← subSize budget.writeRemaining written
      modify fun r => { r with budget := { r.budget with writeRemaining := writeRemaining } }
      if response.length ≤ written then
        return
      if !(← replaceOutputBuffer fd connection (response.drop written)) then
        return
      modifyServer (updateClientPollMask fd)

/-! ## Flushing -/

/-- `FlushClientOutput` once the output buffer is empty. -/
def finishFlush (fd : Fd) (connection : ClientConnection) : ServerM Unit := do
  modifyServer (·.log [.drained connection])
  if connection.inputBuffer.hasCompleteHeader then
    modifyServer (updateClientPollMask fd)
    modifyServer (enqueueReadyConnection fd)
    return
  if connection.readyForRead then
    modifyServer (updateClientPollMask fd)
    modifyServer (enqueueReadyConnection fd)
    return
  if connection.closeAfterWrite then
    modifyServer (closeClientConnection fd .responseFullySent)
    return
  if connection.keepAliveEnabled then
    let now ← steadyClockNow
    modifyServer (armIdleKeepAliveTimeout fd now)
    modifyServer (updateClientPollMask fd)
    return
  modifyServer (updateClientPollMask fd)

/-- The loop of `FlushClientOutput`.  Every turn but the last shortens the output buffer. -/
def flushLoop (fd : Fd) : Nat → ServerM Unit
  | 0 => return
  | turns + 1 => do
    match ← findClient fd with
    | none => return
    | some connection =>
      if connection.closing then
        return
      let budget := (← get).budget
      if connection.outputBuffer = [] then
        finishFlush fd connection
      else if budget.writeRemaining = 0 then
        modifyServer (updateClientPollMask fd)
      else
        let attempt := min connection.outputBuffer.length budget.writeRemaining
        let offered := connection.outputBuffer.take attempt
        match ← writeResponse fd connection.connectionId offered with
        | .error _ =>
          modifyServer recordErrorMetric
          modifyServer (closeClientConnection fd .writeFailed)
        | .ok 0 => return
        | .ok (n + 1) =>
          let writeRemaining ← subSize budget.writeRemaining (n + 1)
          modify fun r => { r with budget := { r.budget with writeRemaining := writeRemaining } }
          modifyServer (·.update fd fun c => { c with outputBuffer := c.outputBuffer.drop (n + 1) })
          modifyServer (releaseInflightBytes (n + 1))
          flushLoop fd turns

def flushClientOutput (fd : Fd) : ServerM Unit := do
  match ← findClient fd with
  | none => return
  | some connection => flushLoop fd (connection.outputBuffer.length + 1)

end WebServer.Core
