import WebServer.Checked.Arguments

/-!
# Timers and closing with their checks

`Disarm*Timeout` tests its argument; `Arm*Timeout`, `CloseClientConnection` and all that closes a
connection go through it.
-/

namespace WebServer.Checked

open WebServer.Net WebServer.Http WebServer.Core Checks

/-! ## Timers -/

def disarmTimeout (kind : TimerKind) (connection : Pointer ClientConnection) :
    CheckedM ClientConnection := do
  let connection ← notNull "connection must not be null" connection
  return connection.disarm kind

def disarmHeaderTimeout : Pointer ClientConnection → CheckedM ClientConnection :=
  disarmTimeout .kHeader

def disarmBodyTimeout : Pointer ClientConnection → CheckedM ClientConnection :=
  disarmTimeout .kBody

def disarmIdleKeepAliveTimeout : Pointer ClientConnection → CheckedM ClientConnection :=
  disarmTimeout .kIdleKeepAlive

@[simp] theorem disarmHeaderTimeout_to (c : ClientConnection) :
    disarmHeaderTimeout (.to c) = pure c.disarmHeaderTimeout := rfl

@[simp] theorem disarmBodyTimeout_to (c : ClientConnection) :
    disarmBodyTimeout (.to c) = pure c.disarmBodyTimeout := rfl

@[simp] theorem disarmIdleKeepAliveTimeout_to (c : ClientConnection) :
    disarmIdleKeepAliveTimeout (.to c) = pure c.disarmIdleKeepAliveTimeout := rfl

def armHeaderTimeout (fd : Fd) (now : Time) : CheckedM Unit := do
  match ← findClient fd with
  | none => return
  | some connection =>
    if connection.closing then
      return
    let connection ← disarmIdleKeepAliveTimeout (.to connection)
    modifyServer (pushTimer .kHeader now (now + kHeaderTimeout) fd connection)

def armBodyTimeout (fd : Fd) (now : Time) (contentLength : Nat) : CheckedM Unit := do
  match ← findClient fd with
  | none => return
  | some connection =>
    if connection.closing then
      return
    let connection ← disarmHeaderTimeout (.to connection)
    let connection ← disarmBodyTimeout (.to connection)
    let connection ← disarmIdleKeepAliveTimeout (.to connection)
    modifyServer
      (pushTimer .kBody now (calculateBodyReceiveDeadline now contentLength) fd connection)

def armIdleKeepAliveTimeout (fd : Fd) (now : Time) : CheckedM Unit := do
  match ← findClient fd with
  | none => return
  | some connection =>
    if connection.closing then
      return
    let connection ← disarmHeaderTimeout (.to connection)
    modifyServer (pushTimer .kIdleKeepAlive now (now + kIdleKeepAliveTimeout) fd connection)

/-! ## Closing -/

/-- The last part of `CloseClientConnection`, for the entry `c` that is left of `found`. -/
def retireClient (fd : Fd) (found c : ClientConnection) (reason : CloseReason) (s : Server) :
    Server :=
  { s.log [.closed found reason] with
    clients := s.clients.erase fd
    pendingCloseQueue := s.pendingCloseQueue ++ [{ c with
      closing := true
      inReadyQueue := false
      readyForRead := false
      socket := none
      waitingForRequestBody := false
      pendingRequest := {}
      pendingBodyBytesTotal := 0
      pendingBodyBytesRemaining := 0
      inputBuffer := {}
      outputBuffer := [] }] }

def closeClientConnection (fd : Fd) (reason : CloseReason) : CheckedM Unit := do
  match ← findClient fd with
  | none => return
  | some found =>
    if found.closing then
      return
    modifyServer fun s => setActiveConnectionCount (s.activeConnectionCount - 1) s
    modifyServer fun s => { s with readyQueue := s.readyQueue.filter (· ≠ fd) }
    modifyServer (releaseSocket fd found.socket)
    let connection ← disarmHeaderTimeout (.to found)
    let connection ← disarmBodyTimeout (.to connection)
    let connection ← disarmIdleKeepAliveTimeout (.to connection)
    modifyServer (releaseInflightBytes (Server.buffered connection))
    modifyServer (retireClient fd found connection reason)

/-! ## Without checks -/

/-- A function that does nothing unless the connection is there and not being closed. -/
theorem ofClient {fd : Fd} {f : Server → Server} {g : ClientConnection → Server → Server}
    {k : Option ClientConnection → CheckedM Unit} (hnone : k none = pure ())
    (hsome : ∀ c, k (some c) = if c.closing then pure () else modifyServer (g c))
    (hf : ∀ s, f s = (s.find fd).elim s fun c => if c.closing then s else g c s) :
    (findClient fd >>= k) = modifyServer f := by
  funext r
  rw [findClient_bind, modifyServer_run, hf]
  cases r.server.find fd with
  | none =>
    rw [hnone]
    rfl
  | some c =>
    rw [hsome, Option.elim_some]
    split <;> rfl

theorem armHeaderTimeout_eq (fd : Fd) (now : Time) :
    armHeaderTimeout fd now = modifyServer (Core.armHeaderTimeout fd now) := by
  refine ofClient rfl (fun c => rfl) fun s => ?_
  rw [Core.armHeaderTimeout]
  cases s.find fd <;> rfl

theorem armBodyTimeout_eq (fd : Fd) (now : Time) (contentLength : Nat) :
    armBodyTimeout fd now contentLength =
      modifyServer (Core.armBodyTimeout fd now contentLength) := by
  refine ofClient rfl (fun c => rfl) fun s => ?_
  rw [Core.armBodyTimeout]
  cases s.find fd <;> rfl

theorem armIdleKeepAliveTimeout_eq (fd : Fd) (now : Time) :
    armIdleKeepAliveTimeout fd now = modifyServer (Core.armIdleKeepAliveTimeout fd now) := by
  refine ofClient rfl (fun c => rfl) fun s => ?_
  rw [Core.armIdleKeepAliveTimeout]
  cases s.find fd <;> rfl

theorem closeClientConnection_eq (fd : Fd) (reason : CloseReason) :
    closeClientConnection fd reason = modifyServer (Core.closeClientConnection fd reason) := by
  let close (c : ClientConnection) (s : Server) : Server :=
    let s := setActiveConnectionCount (s.activeConnectionCount - 1) s
    let s := releaseSocket fd c.socket { s with readyQueue := s.readyQueue.filter (· ≠ fd) }
    let d := c.disarmHeaderTimeout.disarmBodyTimeout.disarmIdleKeepAliveTimeout
    retireClient fd c d reason (releaseInflightBytes (Server.buffered d) s)
  refine ofClient (g := close) rfl (fun c => rfl) fun s => ?_
  rw [Core.closeClientConnection]
  cases s.find fd <;> rfl

end WebServer.Checked
