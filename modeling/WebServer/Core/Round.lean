import WebServer.Lib.WeakestPre
import WebServer.Core.Connection

/-!
# One handler call

A handler runs on the server, on the budget its `EventBudget*` points to, and on
the answers the kernel has in store for it.  Each handler call works for one
descriptor and gets an `Io` of its own, so the environment may answer every call
of every handler as it likes.
-/

namespace WebServer.Core

open WebServer.Net WeakestPre

structure EventBudget where
  readRemaining : Nat := kMaxReadBytesPerEvent
  writeRemaining : Nat := kMaxWriteBytesPerEvent
  deriving DecidableEq, Repr

/-- What the environment answers during one handler call.  The clock starts at `now`;
each reading first moves it on by the next of `ticks`. -/
structure Io where
  now : Time := 0
  ticks : List Nat := []
  reads : List ReadResult := []
  writes : List WriteResult := []
  accepts : List AcceptResult := []
  deriving DecidableEq, Repr

structure Round where
  server : Server
  budget : EventBudget := {}
  io : Io := {}

abbrev ServerM := StateT Round (Except Fault)

/-- `clients_.find(fd)`. -/
def findClient (fd : Fd) : ServerM (Option ClientConnection) := do
  return (← get).server.find fd

def modifyServer (f : Server → Server) : ServerM Unit :=
  modify fun r => { r with server := f r.server }

/-- `std::chrono::steady_clock::now()`. -/
def steadyClockNow : ServerM Time := do
  let r ← get
  let now := r.io.now + r.io.ticks.headD 0
  set { r with io := { r.io with now := now, ticks := r.io.ticks.tail } }
  return now

/-- Subtraction of `std::size_t` values. -/
def subSize (left right : Nat) : ServerM Nat :=
  if right ≤ left then pure (left - right) else throw (.sizeWrap left right)

/-- `WriteSomeNonBlocking(fd, data)` as `StartOkResponse` and `FlushClientOutput` call it,
for the connection with the id `life`. -/
def writeResponse (fd : Fd) (life : Nat) (data : Bytes) : ServerM (Except Errno Nat) := do
  let r ← get
  let outcome := writeSomeNonBlocking data r.io.writes
  set { r with
    io := { r.io with writes := outcome.2.1 }
    server := r.server.log (outcome.1.map (Event.write .response fd (some life) data)) }
  return outcome.2.2

/-- `WriteBestEffort(fd, data)`; a socket that is not registered has no `life`. -/
def writeErrorResponse (fd : Fd) (life : Option Nat) (data : Bytes) : ServerM Bool := do
  let r ← get
  let outcome := writeBestEffort data.length data r.io.writes
  set { r with
    io := { r.io with writes := outcome.2.1 }
    server := r.server.log
      (outcome.1.map fun (offered, answer) => Event.write .bestEffort fd life offered answer) }
  return outcome.2.2

/-! ## Rules -/

@[simp] theorem wp_findClient (fd : Fd) (Q : Option ClientConnection → Round → Prop) (r : Round) :
    wp (findClient fd) Q r ↔ Q (r.server.find fd) r := Iff.rfl

@[simp] theorem wp_modifyServer (f : Server → Server) (Q : Unit → Round → Prop) (r : Round) :
    wp (modifyServer f) Q r ↔ Q () { r with server := f r.server } := Iff.rfl

/-- Reading the clock leaves the server alone. -/
theorem wp_steadyClockNow {Q : Time → Round → Prop} {r : Round}
    (h : ∀ now io, Q now { r with io := io }) : wp steadyClockNow Q r := h _ _

@[simp] theorem wp_subSize (left right : Nat) (Q : Nat → Round → Prop) (r : Round) :
    wp (subSize left right) Q r ↔ right ≤ left ∧ Q (left - right) r := by
  unfold subSize
  by_cases h : right ≤ left <;> simp [h]

end WebServer.Core
