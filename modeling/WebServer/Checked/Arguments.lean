import WebServer.Core.Round
import WebServer.Lib.Checks

/-!
# The program with its checks

The model of `Core/` has no pointers.  The modules of `Checked/` are the same functions as the
source has them, with pointer arguments and the tests for null in front; a test that fires ends the
program, also where the source returns an error instead.  Each function is followed by the
equation that takes its checks away.

`WriteSomeNonBlocking` with an empty buffer and an accepted socket without a descriptor are
checked as well.
-/

namespace WebServer.Checked

open WebServer.Net WebServer.Http WebServer.Core Checks

inductive Check
  /-- A null pointer where the source tests for one. -/
  | nullArgument (what : String)
  /-- A `write()` of nothing; the source does not test for it. -/
  | emptyWrite
  /-- `std::logic_error` of `RegisterAcceptedConnection`. -/
  | invalidSocket
  deriving DecidableEq, Repr

/-- A pointer argument, with the object it points to.  A function that writes through a pointer
returns what the object is then. -/
inductive Pointer (α : Type)
  | null
  | to (object : α)
  deriving DecidableEq, Repr

/-- An `EventBudget*`.  The budget of a round is in its state. -/
abbrev BudgetPointer := Pointer Unit

abbrev CheckedM := StateT Round (Except (Failure Check Fault))

/-- `if (argument == nullptr) throw std::invalid_argument(what);` -/
def notNull {α : Type} (what : String) : Pointer α → CheckedM α
  | .null => throw (.check (.nullArgument what))
  | .to object => pure object

@[simp] theorem notNull_to {α : Type} (what : String) (object : α) :
    notNull what (.to object) = pure object := rfl

/-! ## What has no checks of its own -/

def findClient (fd : Fd) : CheckedM (Option ClientConnection) := plain (Core.findClient fd)

def modifyServer (f : Server → Server) : CheckedM Unit := plain (Core.modifyServer f)

def steadyClockNow : CheckedM Time := plain Core.steadyClockNow

def subSize (left right : Nat) : CheckedM Nat := plain (Core.subSize left right)

@[simp] theorem plain_findClient (fd : Fd) : plain (Core.findClient fd) = findClient fd := rfl

@[simp] theorem plain_modifyServer (f : Server → Server) :
    plain (Core.modifyServer f) = modifyServer f := rfl

@[simp] theorem plain_steadyClockNow : plain Core.steadyClockNow = steadyClockNow := rfl

@[simp] theorem plain_subSize (left right : Nat) :
    plain (Core.subSize left right) = subSize left right := rfl

theorem findClient_bind {α : Type} (fd : Fd) (k : Option ClientConnection → CheckedM α) (r : Round) :
    (findClient fd >>= k) r = k (r.server.find fd) r := rfl

theorem modifyServer_run (f : Server → Server) (r : Round) :
    modifyServer f r = .ok ((), { r with server := f r.server }) := rfl

/-- A subtraction that does not wrap. -/
theorem subSize_bind {α : Type} {left right : Nat} (h : right ≤ left) (k : Nat → CheckedM α) :
    (subSize left right >>= k) = k (left - right) := by
  rw [subSize, Core.subSize, if_pos h, plain_pure, pure_bind]

/-- Two programs that look a connection up. -/
theorem findClient_eq {α : Type} {fd : Fd} {k k' : Option ClientConnection → CheckedM α}
    (hnone : k' none = k none) (hsome : ∀ c, k' (some c) = k (some c)) :
    (findClient fd >>= k') = (findClient fd >>= k) :=
  bind_eq rfl fun c? => by
    cases c? with
    | none => exact hnone
    | some c => exact hsome c

/-! ## Sockets -/

def writeSomeNonBlocking (data : Bytes) (script : List WriteResult) :
    Except Check (List WriteResult × List WriteResult × Except Errno Nat) :=
  if data = [] then .error .emptyWrite else .ok (Net.writeSomeNonBlocking data script)

def writeBestEffort : Nat → Bytes → List WriteResult →
    Except Check (List (Bytes × WriteResult) × List WriteResult × Bool)
  | 0, _, script => .ok ([], script, true)
  | turns + 1, data, script =>
    if data = [] then .ok ([], script, true)
    else
      match writeSomeNonBlocking data script with
      | .error e => .error e
      | .ok (answers, script', .ok 0) => .ok (answers.map (data, ·), script', false)
      | .ok (answers, script', .ok (n + 1)) =>
        match writeBestEffort turns (data.drop (n + 1)) script' with
        | .error e => .error e
        | .ok (calls, script'', ok) => .ok (answers.map (data, ·) ++ calls, script'', ok)
      | .ok (answers, script', .error _) => .ok (answers.map (data, ·), script', false)

theorem writeSomeNonBlocking_eq {data : Bytes} (h : data ≠ []) (script : List WriteResult) :
    writeSomeNonBlocking data script = .ok (Net.writeSomeNonBlocking data script) := if_neg h

/-- The loop ends when nothing is left to write. -/
theorem writeBestEffort_eq (turns : Nat) (data : Bytes) (script : List WriteResult) :
    writeBestEffort turns data script = .ok (Net.writeBestEffort turns data script) := by
  induction turns generalizing data script with
  | zero => rfl
  | succ turns ih =>
    unfold writeBestEffort Net.writeBestEffort
    by_cases h : data = []
    · rw [if_pos h, if_pos h]
    · rw [if_neg h, if_neg h, writeSomeNonBlocking_eq h]
      rcases Net.writeSomeNonBlocking data script with ⟨answers, script', n | n⟩
      · rfl
      · cases n with
        | zero => rfl
        | succ n =>
          dsimp only
          rw [ih]

def writeResponse (fd : Fd) (life : Nat) (data : Bytes) : CheckedM (Except Errno Nat) := do
  let r ← get
  let outcome ← checked (writeSomeNonBlocking data r.io.writes)
  set { r with
    io := { r.io with writes := outcome.2.1 }
    server := r.server.log (outcome.1.map (Event.write .response fd (some life) data)) }
  return outcome.2.2

theorem writeResponse_eq {data : Bytes} (h : data ≠ []) (fd : Fd) (life : Nat) :
    writeResponse fd life data = plain (Core.writeResponse fd life data) := by
  funext r
  show ((checked (writeSomeNonBlocking data r.io.writes) : CheckedM _) r >>= fun p => _) = _
  rw [writeSomeNonBlocking_eq h]
  rfl

def writeErrorResponse (fd : Fd) (life : Option Nat) (data : Bytes) : CheckedM Bool := do
  let r ← get
  let outcome ← checked (writeBestEffort data.length data r.io.writes)
  set { r with
    io := { r.io with writes := outcome.2.1 }
    server := r.server.log
      (outcome.1.map fun (offered, answer) => Event.write .bestEffort fd life offered answer) }
  return outcome.2.2

@[simp] theorem writeErrorResponse_eq (fd : Fd) (life : Option Nat) (data : Bytes) :
    writeErrorResponse fd life data = plain (Core.writeErrorResponse fd life data) := by
  funext r
  show ((checked (writeBestEffort data.length data r.io.writes) : CheckedM _) r >>= fun p => _) = _
  rw [writeBestEffort_eq]
  rfl

/-! ## The input buffer -/

/-- The bytes that `DynamicBuffer::Append(data, size)` appends. -/
def appendArgument (data : Pointer Bytes) (size : Nat) : CheckedM Bytes := do
  match data with
  | .null => do
    check (size = 0) (.nullArgument "data must not be null when size is non-zero")
    return []
  | .to bytes => return bytes.take size

@[simp] theorem appendArgument_to (data : Bytes) :
    appendArgument (.to data) data.length = pure data := by
  show pure _ = pure _
  rw [List.take_length]

def popNextHeader (b : DynamicBuffer) : CheckedM (Bytes × DynamicBuffer) :=
  plain (liftM b.popNextHeader)

def consumePrefix (b : DynamicBuffer) (count : Nat) : CheckedM DynamicBuffer :=
  plain (liftM (b.consumePrefix count))

@[simp] theorem plain_popNextHeader (b : DynamicBuffer) :
    plain (liftM b.popNextHeader) = popNextHeader b := rfl

@[simp] theorem plain_consumePrefix (b : DynamicBuffer) (count : Nat) :
    plain (liftM (b.consumePrefix count)) = consumePrefix b count := rfl

end WebServer.Checked
