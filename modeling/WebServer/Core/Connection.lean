import Mathlib.Tactic.Simps.Basic
import WebServer.Core.State

/-!
# Bookkeeping on one connection

The functions of `core/server.cpp` that make no call which can answer in more
than one way: metrics, the inflight counter, timers, ReadyQueue, poll mask, and
the single closing path.  `epoll_ctl` is taken to succeed.
-/

namespace WebServer.Core

open WebServer.Net WebServer.Http

namespace ClientConnection

/-- `Disarm*Timeout` of one kind: a timer that is not armed keeps its generation. -/
@[simps socket inputBuffer outputBuffer closeAfterWrite inReadyQueue readyForRead closing
  connectionId keepAliveEnabled waitingForRequestBody pendingRequest pendingBodyBytesTotal
  pendingBodyBytesRemaining]
def disarm (kind : TimerKind) (c : ClientConnection) : ClientConnection :=
  { c with
    timeout :=
      if (c.timeout kind).armed then
        Function.update c.timeout kind ⟨false, (c.timeout kind).generation + 1⟩
      else c.timeout }

@[simp] def disarmHeaderTimeout (c : ClientConnection) : ClientConnection := c.disarm .kHeader
@[simp] def disarmBodyTimeout (c : ClientConnection) : ClientConnection := c.disarm .kBody
@[simp] def disarmIdleKeepAliveTimeout (c : ClientConnection) : ClientConnection :=
  c.disarm .kIdleKeepAlive

/-- `armed = true; ++generation`. -/
@[simps socket inputBuffer outputBuffer closeAfterWrite inReadyQueue readyForRead closing
  connectionId keepAliveEnabled waitingForRequestBody pendingRequest pendingBodyBytesTotal
  pendingBodyBytesRemaining]
def arm (kind : TimerKind) (c : ClientConnection) : ClientConnection :=
  { c with timeout := Function.update c.timeout kind ⟨true, (c.timeout kind).generation + 1⟩ }

/-- `idle_timeout_armed`. -/
def idleArmed (c : ClientConnection) : Bool := (c.timeout .kIdleKeepAlive).armed

@[simp] theorem disarm_armed (kind k : TimerKind) (c : ClientConnection) :
    ((c.disarm kind).timeout k).armed = ((c.timeout k).armed && k ≠ kind) := by
  by_cases hk : k = kind
  · subst hk
    cases h : (c.timeout k).armed <;> simp [disarm, h]
  · cases h : (c.timeout kind).armed <;> simp [disarm, h, hk]

@[simp] theorem arm_timeout (kind k : TimerKind) (c : ClientConnection) :
    (c.arm kind).timeout k =
      if k = kind then ⟨true, (c.timeout kind).generation + 1⟩ else c.timeout k := by
  by_cases hk : k = kind
  · subst hk
    simp [arm]
  · simp [arm, hk]

end ClientConnection

/-! ## Metrics -/

def recordRejectMetric (statusCode : Nat) (s : Server) : Server :=
  let m := { s.metrics with rejectTotal := s.metrics.rejectTotal + 1 }
  { s with metrics :=
    match statusCode with
    | 411 => { m with reject411Total := m.reject411Total + 1 }
    | 413 => { m with reject413Total := m.reject413Total + 1 }
    | 429 => { m with reject429Total := m.reject429Total + 1 }
    | 431 => { m with reject431Total := m.reject431Total + 1 }
    | 501 => { m with reject501Total := m.reject501Total + 1 }
    | 503 => { m with reject503Total := m.reject503Total + 1 }
    | _ => m }

def recordErrorMetric (s : Server) : Server :=
  { s with metrics := { s.metrics with errorsTotal := s.metrics.errorsTotal + 1 } }

def countRequest (s : Server) : Server :=
  { s with metrics := { s.metrics with requestsTotal := s.metrics.requestsTotal + 1 } }

/-! ## The inflight counter -/

/-- Store the counter and its metric. -/
def setInflight (n : Nat) (s : Server) : Server :=
  { s with
    globalInflightBytes := n
    metrics := { s.metrics with globalInflightBytesCurrent := n } }

/-- `global_inflight_bytes_ += n` with its metric. -/
def growInflight (n : Nat) (s : Server) : Server := setInflight (s.globalInflightBytes + n) s

def releaseInflightBytes (amount : Nat) (s : Server) : Server :=
  let s := s.log [.released amount s.globalInflightBytes]
  if s.globalInflightBytes ≤ amount then setInflight 0 s
  else setInflight (s.globalInflightBytes - amount) s

/-! ## Timers -/

/-- Arm one timer and push its node. -/
def pushTimer (kind : TimerKind) (now deadline : Time) (fd : Fd) (c : ClientConnection)
    (s : Server) : Server :=
  let c := c.arm kind
  let s := s.put fd c
  { s.log [.armed c.connectionId kind now deadline] with
    timerHeap := s.timerHeap ++
      [{ deadline, fd, connectionId := c.connectionId, kind,
         generation := (c.timeout kind).generation }] }

def armHeaderTimeout (fd : Fd) (now : Time) (s : Server) : Server :=
  match s.find fd with
  | none => s
  | some c =>
    if c.closing then s
    else pushTimer .kHeader now (now + kHeaderTimeout) fd c.disarmIdleKeepAliveTimeout s

def armBodyTimeout (fd : Fd) (now : Time) (contentLength : Nat) (s : Server) : Server :=
  match s.find fd with
  | none => s
  | some c =>
    if c.closing then s
    else
      pushTimer .kBody now (calculateBodyReceiveDeadline now contentLength) fd
        c.disarmHeaderTimeout.disarmBodyTimeout.disarmIdleKeepAliveTimeout s

def armIdleKeepAliveTimeout (fd : Fd) (now : Time) (s : Server) : Server :=
  match s.find fd with
  | none => s
  | some c =>
    if c.closing then s
    else
      pushTimer .kIdleKeepAlive now (now + kIdleKeepAliveTimeout) fd c.disarmHeaderTimeout s

/-! ## ReadyQueue and poll mask -/

def enqueueReadyConnection (fd : Fd) (s : Server) : Server :=
  match s.find fd with
  | none => s
  | some c =>
    if c.closing || c.inReadyQueue then s
    else
      { s.put fd { c with inReadyQueue := true } with readyQueue := s.readyQueue ++ [fd] }

def updateClientPollMask (fd : Fd) (s : Server) : Server :=
  match s.find fd with
  | none => s
  | some c =>
    if c.closing then s
    else
      let events : EpollEvents :=
        { epollin := true, epollrdhup := true, epollout := c.outputBuffer ≠ [] }
      { s.log [.epollCtl .mod fd events] with poller := s.poller.insert fd events }

/-- A function that looks its connection up does nothing, or what it does to the entry it finds. -/
theorem lookup_cases {fd : Fd} {s t : Server} (leave : ClientConnection → Bool)
    {g : ClientConnection → Server}
    (ht : t = (s.find fd).elim s fun c => if leave c then s else g c) :
    t = s ∨ ∃ c, s.find fd = some c ∧ t = g c := by
  cases hf : s.find fd with
  | none =>
    rw [hf] at ht
    exact .inl ht
  | some c =>
    rw [hf, Option.elim_some] at ht
    split at ht
    · exact .inl ht
    · exact .inr ⟨c, rfl, ht⟩

theorem armHeaderTimeout_cases (fd : Fd) (now : Time) (s : Server) :
    armHeaderTimeout fd now s = s ∨ ∃ c, s.find fd = some c ∧ armHeaderTimeout fd now s =
      pushTimer .kHeader now (now + kHeaderTimeout) fd c.disarmIdleKeepAliveTimeout s := by
  apply lookup_cases ClientConnection.closing
  unfold armHeaderTimeout
  cases s.find fd <;> rfl

theorem armBodyTimeout_cases (fd : Fd) (now : Time) (contentLength : Nat) (s : Server) :
    armBodyTimeout fd now contentLength s = s ∨ ∃ c, s.find fd = some c ∧
      armBodyTimeout fd now contentLength s =
        pushTimer .kBody now (calculateBodyReceiveDeadline now contentLength) fd
          c.disarmHeaderTimeout.disarmBodyTimeout.disarmIdleKeepAliveTimeout s := by
  apply lookup_cases ClientConnection.closing
  unfold armBodyTimeout
  cases s.find fd <;> rfl

theorem armIdleKeepAliveTimeout_cases (fd : Fd) (now : Time) (s : Server) :
    armIdleKeepAliveTimeout fd now s = s ∨ ∃ c, s.find fd = some c ∧
      armIdleKeepAliveTimeout fd now s =
        pushTimer .kIdleKeepAlive now (now + kIdleKeepAliveTimeout) fd c.disarmHeaderTimeout s := by
  apply lookup_cases ClientConnection.closing
  unfold armIdleKeepAliveTimeout
  cases s.find fd <;> rfl

theorem enqueueReadyConnection_cases (fd : Fd) (s : Server) :
    enqueueReadyConnection fd s = s ∨ ∃ c, s.find fd = some c ∧ enqueueReadyConnection fd s =
      { s.put fd { c with inReadyQueue := true } with readyQueue := s.readyQueue ++ [fd] } := by
  apply lookup_cases fun c => c.closing || c.inReadyQueue
  unfold enqueueReadyConnection
  cases s.find fd <;> rfl

theorem updateClientPollMask_cases (fd : Fd) (s : Server) :
    updateClientPollMask fd s = s ∨ ∃ events, updateClientPollMask fd s =
      { s.log [.epollCtl .mod fd events] with poller := s.poller.insert fd events } := by
  unfold updateClientPollMask
  cases s.find fd with
  | none => exact .inl rfl
  | some c =>
    dsimp only
    split
    · exact .inl rfl
    · exact .inr ⟨_, rfl⟩

/-! ## Closing -/

/-- `active_connection_count_ = n` with its metric. -/
def setActiveConnectionCount (n : Nat) (s : Server) : Server :=
  { s with activeConnectionCount := n, metrics := { s.metrics with connsCurrent := n } }

/-- `poller_.Remove(fd)` and `socket.reset()`, when the connection still owns a socket. -/
def releaseSocket (fd : Fd) (socket : Option Fd) (s : Server) : Server :=
  match socket with
  | none => s
  | some own =>
    { s.log [.epollCtl .del fd {}, .closedFd own] with poller := s.poller.erase fd }

/-- What is left of a connection in `pending_close_queue_`. -/
def ClientConnection.retired (c : ClientConnection) : ClientConnection :=
  { c.disarmHeaderTimeout.disarmBodyTimeout.disarmIdleKeepAliveTimeout with
    closing := true
    inReadyQueue := false
    readyForRead := false
    socket := none
    waitingForRequestBody := false
    pendingRequest := {}
    pendingBodyBytesTotal := 0
    pendingBodyBytesRemaining := 0
    inputBuffer := {}
    outputBuffer := [] }

def closeClientConnection (fd : Fd) (reason : CloseReason) (s : Server) : Server :=
  match s.find fd with
  | none => s
  | some c =>
    if c.closing then s
    else
      let s := setActiveConnectionCount (s.activeConnectionCount - 1) s
      let s := { s with readyQueue := s.readyQueue.filter (· ≠ fd) }
      let s := releaseSocket fd c.socket s
      let s := releaseInflightBytes (Server.buffered c) s
      { s.log [.closed c reason] with
        clients := s.clients.erase fd
        pendingCloseQueue := s.pendingCloseQueue ++ [c.retired] }

def flushPendingCloseQueue (s : Server) : Server := { s with pendingCloseQueue := [] }

end WebServer.Core
