import WebServer.Checked.Connection
import WebServer.Core.Output

/-!
# Responses with their checks

Error responses, the inflight budget, `StartOkResponse` and `FlushClientOutput`.  The functions that
grow a buffer test their connection, the other two their budget.
-/

namespace WebServer.Checked

open WebServer.Net WebServer.Http WebServer.Core Checks

def sendErrorResponseAndClose (fd : Fd) (statusCode : Nat) : CheckedM Unit := do
  match ← findClient fd with
  | none => return
  | some connection =>
    modifyServer (·.log [.rejected connection statusCode])
    modifyServer (recordRejectMetric statusCode)
    modifyServer recordErrorMetric
    let _ ← writeErrorResponse fd connection.connectionId (errorResponse statusCode)
    closeClientConnection fd (.errorResponse statusCode)

@[simp] theorem sendErrorResponseAndClose_eq (fd : Fd) (statusCode : Nat) :
    sendErrorResponseAndClose fd statusCode = plain (Core.sendErrorResponseAndClose fd statusCode) := by
  unfold sendErrorResponseAndClose Core.sendErrorResponseAndClose
  rw [plain_bind]
  refine findClient_eq rfl fun c => ?_
  simp only [plain_bind, plain_modifyServer, writeErrorResponse_eq, closeClientConnection_eq]

/-! ## The inflight budget -/

def tryReserveInflightBytes (fd : Fd) (growth : Growth) (addBytes : Nat) : CheckedM Bool := do
  if addBytes = 0 then
    return true
  let s := (← get).server
  modifyServer (·.log [.reserved (s.find fd) growth addBytes s.globalInflightBytes])
  if kMaxInflightBytes < s.globalInflightBytes ||
      kMaxInflightBytes - s.globalInflightBytes < addBytes then
    sendErrorResponseAndClose fd 503
    return false
  return true

def appendToInputBuffer (fd : Fd) (connection : Pointer ClientConnection) (data : Pointer Bytes)
    (size : Nat) : CheckedM Bool := do
  let _ ← notNull "connection must not be null" connection
  if size = 0 then
    return true
  if !(← tryReserveInflightBytes fd .inputAppend size) then
    return false
  let chunk ← appendArgument data size
  modifyServer (·.update fd fun c => { c with inputBuffer := c.inputBuffer.append chunk })
  modifyServer (growInflight size)
  return true

def appendToOutputBuffer (fd : Fd) (connection : Pointer ClientConnection) (data : Bytes) :
    CheckedM Bool := do
  let _ ← notNull "connection must not be null" connection
  if data = [] then
    return true
  if !(← tryReserveInflightBytes fd .outputAppend data.length) then
    return false
  modifyServer (·.update fd fun c => { c with outputBuffer := c.outputBuffer ++ data })
  modifyServer (growInflight data.length)
  return true

def replaceOutputBuffer (fd : Fd) (connection : Pointer ClientConnection) (data : Bytes) :
    CheckedM Bool := do
  let connection ← notNull "connection must not be null" connection
  let oldSize := connection.outputBuffer.length
  if oldSize < data.length then
    let growth ← subSize data.length oldSize
    if !(← tryReserveInflightBytes fd .outputReplace growth) then
      return false
    modifyServer (·.update fd fun c => { c with outputBuffer := data })
    modifyServer (growInflight growth)
    return true
  else
    modifyServer (·.update fd fun c => { c with outputBuffer := data })
    let shrinkage ← subSize oldSize data.length
    modifyServer (releaseInflightBytes shrinkage)
    return true

@[simp] theorem tryReserveInflightBytes_eq (fd : Fd) (growth : Growth) (addBytes : Nat) :
    tryReserveInflightBytes fd growth addBytes =
      plain (Core.tryReserveInflightBytes fd growth addBytes) := by
  unfold tryReserveInflightBytes Core.tryReserveInflightBytes
  simp only [plain_bind, plain_ite, plain_pure, plain_get, plain_modifyServer,
    sendErrorResponseAndClose_eq]

@[simp] theorem appendToInputBuffer_eq (fd : Fd) (c : ClientConnection) (data : Bytes) :
    appendToInputBuffer fd (.to c) (.to data) data.length =
      plain (Core.appendToInputBuffer fd data) := by
  unfold appendToInputBuffer Core.appendToInputBuffer
  simp only [notNull_to, pure_bind, appendArgument_to, plain_bind, plain_ite, plain_pure,
    plain_modifyServer, tryReserveInflightBytes_eq]

@[simp] theorem appendToOutputBuffer_eq (fd : Fd) (c : ClientConnection) (data : Bytes) :
    appendToOutputBuffer fd (.to c) data = plain (Core.appendToOutputBuffer fd data) := by
  unfold appendToOutputBuffer Core.appendToOutputBuffer
  simp only [notNull_to, pure_bind, plain_bind, plain_ite, plain_pure, plain_modifyServer,
    tryReserveInflightBytes_eq]

@[simp] theorem replaceOutputBuffer_eq (fd : Fd) (c : ClientConnection) (data : Bytes) :
    replaceOutputBuffer fd (.to c) data = plain (Core.replaceOutputBuffer fd c data) := by
  unfold replaceOutputBuffer Core.replaceOutputBuffer
  simp only [notNull_to, pure_bind, plain_bind, plain_ite, plain_pure, plain_modifyServer,
    plain_subSize, tryReserveInflightBytes_eq]

/-! ## Starting a response -/

def startOkResponse (fd : Fd) (request : HttpRequest) (budget : BudgetPointer) : CheckedM Unit := do
  let _ ← notNull "budget must not be null" budget
  match ← findClient fd with
  | none => return
  | some connection =>
    if connection.closing then
      return
    let disarmed ← disarmHeaderTimeout (.to connection)
    let disarmed ← disarmIdleKeepAliveTimeout (.to disarmed)
    let keepAlive := shouldKeepAlive request && !connection.closeAfterWrite
    let connection' : ClientConnection := { disarmed with
      keepAliveEnabled := keepAlive
      closeAfterWrite := connection.closeAfterWrite || !keepAlive }
    modifyServer (·.put fd connection')
    modifyServer (·.log [.dispatched connection request keepAlive])
    let connection := connection'
    let response := buildSimpleOkResponse kStaticOkBody keepAlive
    let budget := (← get).budget
    if connection.outputBuffer ≠ [] then
      if !(← appendToOutputBuffer fd (.to connection) response) then
        return
      modifyServer (updateClientPollMask fd)
      return
    if budget.writeRemaining = 0 then
      if !(← replaceOutputBuffer fd (.to connection) response) then
        return
      modifyServer (updateClientPollMask fd)
      return
    let attempt := min response.length budget.writeRemaining
    match ← writeResponse fd connection.connectionId (response.take attempt) with
    | .error _ =>
      modifyServer recordErrorMetric
      closeClientConnection fd .writeFailed
    | .ok written =>
      let writeRemaining ← subSize budget.writeRemaining written
      modify fun r => { r with budget := { r.budget with writeRemaining := writeRemaining } }
      if response.length ≤ written then
        return
      -- the length of the rest, `response.size() - written`
      let _ ← subSize response.length written
      if !(← replaceOutputBuffer fd (.to connection) (response.drop written)) then
        return
      modifyServer (updateClientPollMask fd)

/-- A `write()` is offered what is there, as far as the budget goes. -/
theorem take_ne_nil {data : Bytes} {n : Nat} (h : data ≠ []) (hn : n ≠ 0) :
    data.take (min data.length n) ≠ [] := by
  have := List.length_pos_iff.mpr h
  rw [← List.length_pos_iff, List.length_take]
  omega

theorem startOkResponse_eq (fd : Fd) (request : HttpRequest) :
    startOkResponse fd request (.to ()) = plain (Core.startOkResponse fd request) := by
  unfold startOkResponse Core.startOkResponse
  rw [notNull_to, pure_bind, plain_bind]
  refine findClient_eq rfl fun c => ?_
  simp only [disarmHeaderTimeout_to, disarmIdleKeepAliveTimeout_to, pure_bind, plain_bind, plain_ite,
    plain_pure, plain_get, plain_modifyServer, appendToOutputBuffer_eq, replaceOutputBuffer_eq,
    closeClientConnection_eq]
  refine ite_eq (fun _ => rfl) fun _ => bind_eq rfl fun _ => bind_eq rfl fun _ =>
    bind_eq rfl fun r => ite_eq (fun _ => rfl) fun _ => ite_eq (fun _ => rfl) fun hbudget => ?_
  have hresponse (keepAlive : Bool) := buildSimpleOkResponse_ne_nil kStaticOkBody keepAlive
  refine bind_eq (writeResponse_eq (take_ne_nil (hresponse _) hbudget) ..) fun outcome => ?_
  cases outcome with
  | error errno => rfl
  | ok written =>
    simp only [plain_bind, plain_ite, plain_pure, plain_modifyServer, plain_modify, plain_subSize]
    refine bind_eq rfl fun _ => bind_eq rfl fun _ => ite_eq (fun _ => rfl) fun hrest => ?_
    rw [subSize_bind (Nat.le_of_not_le hrest)]
    rfl

/-! ## Flushing -/

def finishFlush (fd : Fd) (connection : ClientConnection) : CheckedM Unit := do
  modifyServer (·.log [.drained connection])
  if connection.inputBuffer.hasCompleteHeader then
    modifyServer (updateClientPollMask fd)
    modifyServer (enqueueReadyConnection fd)
    return
  if connection.readyForRead then
    modifyServer (updateClientPollMask fd)
    modifyServer (enqueueReadyConnection fd)
    return
  if connection.closeAfterWrite then
    closeClientConnection fd .responseFullySent
    return
  if connection.keepAliveEnabled then
    let now ← steadyClockNow
    armIdleKeepAliveTimeout fd now
    modifyServer (updateClientPollMask fd)
    return
  modifyServer (updateClientPollMask fd)

def flushLoop (fd : Fd) : Nat → CheckedM Unit
  | 0 => return
  | turns + 1 => do
    match ← findClient fd with
    | none => return
    | some connection =>
      if connection.closing then
        return
      let budget := (← get).budget
      if connection.outputBuffer = [] then
        finishFlush fd connection
      else if budget.writeRemaining = 0 then
        modifyServer (updateClientPollMask fd)
      else
        let attempt := min connection.outputBuffer.length budget.writeRemaining
        let offered := connection.outputBuffer.take attempt
        match ← writeResponse fd connection.connectionId offered with
        | .error _ =>
          modifyServer recordErrorMetric
          closeClientConnection fd .writeFailed
        | .ok 0 => return
        | .ok (n + 1) =>
          let writeRemaining ← subSize budget.writeRemaining (n + 1)
          modify fun r => { r with budget := { r.budget with writeRemaining := writeRemaining } }
          modifyServer (·.update fd fun c => { c with outputBuffer := c.outputBuffer.drop (n + 1) })
          modifyServer (releaseInflightBytes (n + 1))
          flushLoop fd turns

def flushClientOutput (fd : Fd) (budget : BudgetPointer) : CheckedM Unit := do
  let _ ← notNull "budget must not be null" budget
  match ← findClient fd with
  | none => return
  | some connection => flushLoop fd (connection.outputBuffer.length + 1)

theorem finishFlush_eq (fd : Fd) (c : ClientConnection) :
    finishFlush fd c = plain (Core.finishFlush fd c) := by
  unfold finishFlush Core.finishFlush
  simp only [plain_bind, plain_ite, plain_pure, plain_modifyServer, plain_steadyClockNow,
    closeClientConnection_eq, armIdleKeepAliveTimeout_eq]

theorem flushLoop_eq (fd : Fd) (turns : Nat) : flushLoop fd turns = plain (Core.flushLoop fd turns) := by
  induction turns with
  | zero => rfl
  | succ turns ih =>
    unfold flushLoop Core.flushLoop
    rw [plain_bind]
    refine findClient_eq rfl fun c => ?_
    simp only [plain_bind, plain_ite, plain_pure, plain_get, plain_modifyServer, finishFlush_eq,
      closeClientConnection_eq]
    refine ite_eq (fun _ => rfl) fun _ => bind_eq rfl fun r => ite_eq (fun _ => rfl) fun hout =>
      ite_eq (fun _ => rfl) fun hbudget => ?_
    refine bind_eq (writeResponse_eq (take_ne_nil hout hbudget) ..) fun outcome => ?_
    rcases outcome with errno | _ | n
    · rfl
    · rfl
    · simp only [plain_bind, plain_modifyServer, plain_modify, plain_subSize, ih]

theorem flushClientOutput_eq (fd : Fd) :
    flushClientOutput fd (.to ()) = plain (Core.flushClientOutput fd) := by
  unfold flushClientOutput Core.flushClientOutput
  rw [notNull_to, pure_bind, plain_bind]
  exact findClient_eq rfl fun c => flushLoop_eq fd _

end WebServer.Checked
