import WebServer.Checked.Connection
import WebServer.Core.Admission

/-!
# Accepting connections with the checks

`TryAcceptOne` tests its output argument, `RefillIpBucket` and `TouchIpBucket` their bucket, and
`RegisterAcceptedConnection` the descriptor it is given.
-/

namespace WebServer.Checked

open WebServer.Net WebServer.Http WebServer.Core Checks

/-! ## Token buckets -/

def refillIpBucket (now : Time) (bucket : Pointer IpTokenBucketEntry) :
    CheckedM IpTokenBucketEntry := do
  let bucket ← notNull "bucket must not be null" bucket
  return Core.refillIpBucket now bucket

def touchIpBucket (ip : Bytes) (bucket : Pointer IpTokenBucketEntry) (now : Time) :
    CheckedM Unit := do
  let bucket ← notNull "bucket must not be null" bucket
  modifyServer (Core.touchIpBucket ip bucket now)

/-- A new bucket, for an address that has none. -/
def createIpBucket (ip : Bytes) (now : Time) (s : Server) : Server :=
  let s := evictOldestIpBuckets s
  let bucket : IpTokenBucketEntry :=
    { tokens := kIpBucketBurst, lastRefill := now, lastSeen := now, lruIterator := s.nextLruAddress }
  let s := pushBackLru ip s
  { s with ipTokenBuckets := s.ipTokenBuckets.insert ip bucket }

def findOrCreateIpBucket (ip : Bytes) (now : Time) : CheckedM Unit := do
  match (← get).server.ipTokenBuckets.lookup ip with
  | none => modifyServer (createIpBucket ip now)
  | some bucket =>
    let bucket ← refillIpBucket now (.to bucket)
    touchIpBucket ip (.to bucket) now

theorem findOrCreateIpBucket_eq (ip : Bytes) (now : Time) :
    findOrCreateIpBucket ip now = modifyServer (Core.findOrCreateIpBucket ip now) := by
  funext r
  rw [modifyServer_run, Core.findOrCreateIpBucket]
  show (match r.server.ipTokenBuckets.lookup ip with
    | none => modifyServer (createIpBucket ip now)
    | some bucket => _ : CheckedM Unit) r = _
  cases r.server.ipTokenBuckets.lookup ip <;> rfl

def checkIpRateLimitBeforeRegister (fd : Fd) (peerEndpoint : Bytes) : CheckedM Bool := do
  let now ← steadyClockNow
  modifyServer (cleanupExpiredIpBuckets now)
  let ip := extractIpFromPeerEndpoint peerEndpoint
  findOrCreateIpBucket ip now
  match (← get).server.ipTokenBuckets.lookup ip with
  | none => return false
  | some bucket =>
    if bucket.tokens < 1 then
      modifyServer (recordRejectMetric 429)
      modifyServer recordErrorMetric
      let _ ← writeErrorResponse fd none (errorResponse 429)
      return false
    modifyServer fun s =>
      { s with ipTokenBuckets := s.ipTokenBuckets.insert ip { bucket with tokens := bucket.tokens - 1 } }
    return true

theorem checkIpRateLimitBeforeRegister_eq (fd : Fd) (peerEndpoint : Bytes) :
    checkIpRateLimitBeforeRegister fd peerEndpoint =
      plain (Core.checkIpRateLimitBeforeRegister fd peerEndpoint) := by
  unfold checkIpRateLimitBeforeRegister Core.checkIpRateLimitBeforeRegister
  simp only [plain_bind, plain_steadyClockNow, plain_modifyServer, plain_get,
    findOrCreateIpBucket_eq]
  refine bind_eq rfl fun now => bind_eq rfl fun _ => bind_eq rfl fun _ => bind_eq rfl fun r => ?_
  cases r.server.ipTokenBuckets.lookup (extractIpFromPeerEndpoint peerEndpoint) with
  | none => rfl
  | some bucket =>
    simp only [plain_bind, plain_ite, plain_pure, plain_modifyServer, writeErrorResponse_eq]

/-! ## Registration -/

/-- `AcceptedSocket`; `-1` is `none`. -/
structure AcceptedSocket where
  fd : Option Fd := none
  peerEndpoint : Bytes := []

def enforceConnectionLimitAfterRegister (fd : Fd) : CheckedM Unit := do
  match ← findClient fd with
  | none => return
  | some connection =>
    if connection.closing then
      return
    if (← get).server.activeConnectionCount ≤ kMaxConnections then
      return
    modifyServer fun s => { s with
      connRejectTotal := s.connRejectTotal + 1
      metrics := { s.metrics with
        connRejectTotal := s.metrics.connRejectTotal + 1
        rejectTotal := s.metrics.rejectTotal + 1 } }
    modifyServer recordErrorMetric
    closeClientConnection fd .connectionLimit

def registerClient (fd : Fd) (peerEndpoint : Bytes) (now : Time) : CheckedM Unit := do
  let nextConnectionId := (← get).server.nextConnectionId
  let connection : ClientConnection :=
    { socket := some fd, peerEndpoint, connectionId := nextConnectionId }
  let events : EpollEvents := { epollin := true, epollrdhup := true }
  modifyServer fun s => { s with nextConnectionId := s.nextConnectionId + 1 }
  modifyServer fun s => { s.log [.epollCtl .add fd events] with poller := s.poller.insert fd events }
  modifyServer (emplaceClient fd connection)
  modifyServer fun s => setActiveConnectionCount (s.activeConnectionCount + 1) s
  armHeaderTimeout fd now
  enforceConnectionLimitAfterRegister fd

def registerAcceptedConnection (accepted : AcceptedSocket) : CheckedM Unit := do
  match accepted.fd with
  | none => throw (.check .invalidSocket)
  | some fd =>
    if !(← checkIpRateLimitBeforeRegister fd accepted.peerEndpoint) then
      modifyServer (·.log [.closedFd fd])
      return
    let now ← steadyClockNow
    registerClient fd accepted.peerEndpoint now

/-- `TryAcceptOne` with the answer of `accept4()`; `none` is `false`. -/
def tryAcceptOne (accepted : Pointer AcceptedSocket) (answer : AcceptResult) :
    CheckedM (Option AcceptedSocket) := do
  let accepted ← notNull "accepted must not be null" accepted
  match answer with
  | .failed .eagain => return none
  | .failed .eintr => return none
  | .failed e => throw (.fault (.systemError "accept4() failed" e))
  | .accepted fd peerEndpoint =>
    modifyServer (·.log [.accepted fd peerEndpoint])
    return some { accepted with fd := some fd, peerEndpoint }

/-- What `DrainAcceptQueue` does with what `TryAcceptOne` returned. -/
def acceptTurn (accepted : Option AcceptedSocket) (next : CheckedM Unit) : CheckedM Unit := do
  match accepted with
  | none => return
  | some accepted =>
    modifyServer countAccept
    registerAcceptedConnection accepted
    next

def drainAcceptQueue : List AcceptResult → CheckedM Unit
  | [] => return
  | .failed e :: answers => do
    acceptTurn (← tryAcceptOne (.to {}) (.failed e)) (drainAcceptQueue answers)
  | .accepted fd peerEndpoint :: answers => do
    let s := (← get).server
    if (s.find fd).isSome || fd = s.listenFd then
      drainAcceptQueue answers
    else
      acceptTurn (← tryAcceptOne (.to {}) (.accepted fd peerEndpoint)) (drainAcceptQueue answers)

theorem enforceConnectionLimitAfterRegister_eq (fd : Fd) :
    enforceConnectionLimitAfterRegister fd =
      modifyServer (Core.enforceConnectionLimitAfterRegister fd) := by
  funext r
  rw [modifyServer_run, enforceConnectionLimitAfterRegister, findClient_bind,
    Core.enforceConnectionLimitAfterRegister]
  cases r.server.find fd with
  | none => rfl
  | some c =>
    simp only [closeClientConnection_eq]
    cases c.closing with
    | true => rfl
    | false =>
      simp only [Bool.false_eq_true, if_false]
      show (if r.server.activeConnectionCount ≤ kMaxConnections then _ else _ : CheckedM Unit) r = _
      split <;> rfl

theorem registerClient_eq (fd : Fd) (peerEndpoint : Bytes) (now : Time) :
    registerClient fd peerEndpoint now = modifyServer (Core.registerClient fd peerEndpoint now) := by
  unfold registerClient
  rw [armHeaderTimeout_eq, enforceConnectionLimitAfterRegister_eq]
  rfl

theorem registerAcceptedConnection_eq (fd : Fd) (peerEndpoint : Bytes) :
    registerAcceptedConnection { fd := some fd, peerEndpoint } =
      plain (Core.registerAcceptedConnection fd peerEndpoint) := by
  unfold registerAcceptedConnection Core.registerAcceptedConnection
  simp only [plain_bind, plain_ite, plain_pure, plain_modifyServer, plain_steadyClockNow,
    checkIpRateLimitBeforeRegister_eq, registerClient_eq]

theorem drainAcceptQueue_eq (answers : List AcceptResult) :
    drainAcceptQueue answers = plain (Core.drainAcceptQueue answers) := by
  induction answers with
  | nil => rfl
  | cons answer answers ih =>
    cases answer with
    | accepted fd peerEndpoint =>
      unfold drainAcceptQueue Core.drainAcceptQueue
      simp only [plain_bind, plain_ite, plain_get, plain_modifyServer, ih,
        ← registerAcceptedConnection_eq]
      rfl
    | failed e => cases e <;> rfl

end WebServer.Checked
