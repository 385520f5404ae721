import WebServer.Life.Machine

/-!
# Calls that fail

A connection lives as long as none of its own calls fails.  When it is closed because a call
failed, that call is one of its own and stands in the same history.
-/

namespace WebServer.Life

open WebServer.Net WebServer.Http WebServer.Core

variable {fd : Fd} {id : Nat} {p p' : Point} {c c' : ClientConnection} {H : List Event}
  {events : List Event} {N nodes : List TimerEntry} {data : Bytes} {script : List WriteResult}

/-- An error other than `EAGAIN` and `EINTR`. -/
def isFatal (errno : Errno) : Bool := errno ≠ .eagain && errno ≠ .eintr

/-- A `write()` that takes nothing fails like one that returns an error. -/
def failsWrite : WriteResult → Bool
  | .wrote count => count = 0
  | .failed errno => isFatal errno

/-- A `read()`, or a `write()` of a response, that fails. -/
def failsCall : Event → Bool
  | .read _ (.failed errno) => isFatal errno
  | .write .response _ _ _ answer => failsWrite answer
  | _ => false

def isClosed : Event → Bool
  | .closed .. => true
  | _ => false

/-- `WriteSomeNonBlocking` throws exactly if one of its calls fails. -/
theorem failsWrite_iff (data : Bytes) (script : List WriteResult) :
    (∃ answer ∈ (writeSomeNonBlocking data script).1, failsWrite answer = true) ↔
      ∃ errno, (writeSomeNonBlocking data script).2.2 = .error errno := by
  fun_induction writeSomeNonBlocking data script with
  | case1 => simp [failsWrite, isFatal]
  | case2 count script h =>
    have hne : min count data.length ≠ 0 := by omega
    simp [failsWrite, hne]
  | case3 count script h => simp [failsWrite]
  | case4 script answers script' value e ih =>
    rw [e] at ih
    simpa [failsWrite, isFatal] using ih
  | case5 script => simp [failsWrite, isFatal]
  | case6 errno script h₁ h₂ =>
    have hfatal : isFatal errno = true := by
      cases errno <;> simp_all [isFatal]
    simp [failsWrite, hfatal]

theorem failsCall_responseWrites {life : Nat} :
    (∃ e ∈ responseWrites fd life data script, failsCall e = true) ↔
      ∃ errno, (writeSomeNonBlocking data script).2.2 = .error errno := by
  rw [← failsWrite_iff]
  simp [responseWrites, failsCall]

/-- Nothing that ends a life. -/
def Unfailed (events : List Event) : Prop :=
  ∀ e ∈ events, failsCall e = false ∧ isClosed e = false

theorem unfailed_responseWrites {life n : Nat}
    (hw : (writeSomeNonBlocking data script).2.2 = .ok n) :
    Unfailed (responseWrites fd life data script) := by
  intro e he
  constructor
  · by_contra hfails
    obtain ⟨errno, herror⟩ := failsCall_responseWrites.mp ⟨e, he, by simpa using hfails⟩
    rw [hw] at herror
    cases herror
  · obtain ⟨answer, -, rfl⟩ := List.mem_map.mp he
    rfl

theorem Step.unfailed (h : Step fd H p c events nodes p' c') : Unfailed events := by
  cases h
  case flushed hw => exact unfailed_responseWrites hw
  case flushBlocked hw => exact unfailed_responseWrites hw
  case sendResponse hw _ => exact unfailed_responseWrites hw
  all_goals simp [Unfailed, failsCall, isClosed, isFatal]

/-- A connection lives as long as none of its calls fails. -/
theorem Run.unfailed (h : Run fd id p c H N) : Unfailed H := by
  refine Run.invariant (I := fun _ _ H => Unfailed H) (fun _ _ => ?_) ?_ h
  · simp [Unfailed, failsCall, isClosed]
  · intro p p' c c' H N events nodes _ hI hs e he
    exact (List.mem_append.mp he).elim (hI e) (hs.unfailed e)

theorem Run.history_ne_nil (h : Run fd id p c H N) : H ≠ [] := by
  refine Run.invariant (I := fun _ _ H => H ≠ []) (fun _ _ => List.cons_ne_nil _ _) ?_ h
  intro p p' c c' H N events nodes _ hI _
  exact List.append_ne_nil_of_left_ne_nil hI _

/-- The history ends with the close, and a close because of a failure follows it. -/
structure Closes (events : List Event) : Prop where
  last : ∃ before c reason, events = before ++ [.closed c reason] ∧
    (reason = .readFailed ∨ reason = .writeFailed → ∃ e ∈ before, failsCall e = true)

theorem closes_refusal (before : List Event) (c : ClientConnection) (statusCode : Nat) :
    Closes (before ++ refusal fd c statusCode script) := by
  refine ⟨before ++ .rejected c statusCode ::
    errorWrites fd c.connectionId (errorResponse statusCode) script, c,
    .errorResponse statusCode, ?_, by simp⟩
  simp [refusal]

theorem End.closes (h : End fd p c events) : Closes events := by
  cases h
  case flushFailed attempt script errno hw =>
    exact ⟨_, c, .writeFailed, rfl, fun _ => failsCall_responseWrites.mpr ⟨errno, hw⟩⟩
  case sendFailed attempt script errno hw hout =>
    exact ⟨_, c, .writeFailed, rfl, fun _ => failsCall_responseWrites.mpr ⟨errno, hw⟩⟩
  case readFailed errno h₁ h₂ =>
    refine ⟨[.read c (.failed errno)], c, .readFailed, rfl, fun _ => ⟨_, List.mem_cons_self, ?_⟩⟩
    simp [failsCall, isFatal, h₁, h₂]
  case headerRefused | bodyRefused => exact closes_refusal [] ..
  case recvRefused => exact closes_refusal ..
  case limitExceeded => exact closes_refusal [_] ..
  case answerRefused => exact closes_refusal [_] ..
  case drained => exact ⟨[_], c, .responseFullySent, rfl, by simp⟩
  case peerClosed => exact ⟨[_], c, .peerClosed, rfl, by simp⟩
  case allHandled => exact ⟨[_], c, .allHandled, rfl, by simp⟩
  case hangup => exact ⟨[], c, .peerHangup, rfl, by simp⟩
  case timedOut kind h => exact ⟨[], c.disarm kind, .timedOut kind, rfl, by simp⟩
  case connectionLimit => exact ⟨[], c, .connectionLimit, rfl, by simp⟩

/-- **Whose call it was.**  A life in which nothing has failed so far ends with its own close, and
a close because of a failure follows a call of its own that failed. -/
theorem Ended.closes (h : Ended fd id (H ++ events)) (hunfailed : Unfailed H) : Closes events := by
  obtain ⟨q, d, H₀, N₀, ends, -, he, heq⟩ := h
  obtain ⟨before, d, reason, rfl, hreason⟩ := he.closes.last
  rw [← List.append_assoc] at heq
  rcases List.eq_nil_or_concat events with rfl | ⟨init, last, rfl⟩
  · -- the close would be in the past
    rw [List.append_nil] at heq
    have hmem : .closed d reason ∈ H := heq ▸ List.mem_append_right _ (List.mem_singleton_self _)
    have := (hunfailed _ hmem).2
    cases this
  · rw [List.concat_eq_append] at heq ⊢
    rw [← List.append_assoc] at heq
    obtain ⟨hinit, hlast⟩ := List.append_inj' heq rfl
    obtain rfl := List.singleton_inj.mp hlast
    refine ⟨init, d, reason, rfl, fun hfail => ?_⟩
    obtain ⟨e, hmem, hfails⟩ := hreason hfail
    have hmem : e ∈ H ++ init := hinit ▸ List.mem_append_right _ hmem
    rcases List.mem_append.mp hmem with hmem | hmem
    · rw [(hunfailed e hmem).1] at hfails
      cases hfails
    · exact ⟨e, hmem, hfails⟩

end WebServer.Life
