import WebServer.Core.Output

/-!
# The history of one connection

Every accepted connection has an id that is never given out again.  Its history
is the part of the trace that carries this id; what a property says about a
connection, it says about projections of its history.
-/

namespace WebServer.Life

open WebServer.Net WebServer.Http WebServer.Core

/-- The id of the connection an event is about. -/
def life? : Event → Option Nat
  | .accepted .. => none
  | .epollCtl .. => none
  | .read c _ => some c.connectionId
  | .write _ _ life _ _ => life
  | .closedFd _ => none
  | .armed life .. => some life
  | .popped c _ => some c.connectionId
  | .limitChecked c => some c.connectionId
  | .reserved c .. => c.map (·.connectionId)
  | .released .. => none
  | .bodyBegun c _ => some c.connectionId
  | .dispatched c .. => some c.connectionId
  | .rejected c _ => some c.connectionId
  | .settled c => some c.connectionId
  | .drained c => some c.connectionId
  | .closed c _ => some c.connectionId

def history (id : Nat) (trace : List Event) : List Event := trace.filter (life? · = some id)

theorem history_append (id : Nat) (trace trace' : List Event) :
    history id (trace ++ trace') = history id trace ++ history id trace' :=
  List.filter_append ..

theorem history_of_lives {id : Nat} {events : List Event} (h : ∀ e ∈ events, life? e = some id) :
    history id events = events :=
  List.filter_eq_self.mpr fun e he => decide_eq_true (h e he)

theorem history_of_others {id : Nat} {events : List Event} (h : ∀ e ∈ events, life? e ≠ some id) :
    history id events = [] :=
  List.filter_eq_nil_iff.mpr fun e he => by simp [h e he]

/-- Events that belong to no connection are in no history. -/
theorem history_filter_isSome (id : Nat) (events : List Event) :
    history id (events.filter fun e => (life? e).isSome) = history id events := by
  unfold history
  rw [List.filter_filter]
  congr 1
  funext e
  cases h : life? e <;> simp

/-- What is left of the histories when that of one connection is taken out. -/
theorem history_filter_other {id id' : Nat} (hne : id' ≠ id) (trace : List Event) :
    history id' (trace.filter fun e => !decide (life? e = some id)) = history id' trace := by
  unfold history
  rw [List.filter_filter]
  apply List.filter_congr
  intro e _
  by_cases he : life? e = some id'
  · simp [he, hne]
  · simp [he]

theorem history_filter_self (id : Nat) (trace : List Event) :
    history id (trace.filter fun e => !decide (life? e = some id)) = [] := by
  apply history_of_others
  intro e he
  simpa using (List.mem_filter.mp he).2

/-! ## Projections -/

def bytesRead : Event → Bytes
  | .read _ (.got data) => data
  | _ => []

/-- All bytes read on the connection. -/
def received (H : List Event) : Bytes := H.flatMap bytesRead

/-- The bytes one `write()` of `data` took. -/
def taken (data : Bytes) : WriteResult → Bytes
  | .wrote n => data.take n
  | .failed _ => []

def bytesWritten (writer : Writer) : Event → Bytes
  | .write w _ _ data answer => if w = writer then taken data answer else []
  | _ => []

/-- The bytes the socket has taken from one of the two writing paths. -/
def accepted (writer : Writer) (H : List Event) : Bytes := H.flatMap (bytesWritten writer)

def responseOf : Event → Bytes
  | .dispatched _ _ keepAlive => buildSimpleOkResponse kStaticOkBody keepAlive
  | _ => []

/-- The full responses of all requests dispatched so far. -/
def responses (H : List Event) : Bytes := H.flatMap responseOf

def armingOf (kind : TimerKind) : Event → Option (Time × Time)
  | .armed _ k now deadline => if k = kind then some (now, deadline) else none
  | _ => none

/-- When the timers of one kind were armed, with their deadlines. -/
def armings (kind : TimerKind) (H : List Event) : List (Time × Time) := H.filterMap (armingOf kind)

/-- A `read()` that returned bytes. -/
def isArrival : Event → Bool
  | .read _ (.got data) => data ≠ []
  | _ => false

@[simp] theorem received_append (H H' : List Event) :
    received (H ++ H') = received H ++ received H' := List.flatMap_append

@[simp] theorem accepted_append (writer : Writer) (H H' : List Event) :
    accepted writer (H ++ H') = accepted writer H ++ accepted writer H' := List.flatMap_append

@[simp] theorem responses_append (H H' : List Event) :
    responses (H ++ H') = responses H ++ responses H' := List.flatMap_append

theorem accepted_cons (writer : Writer) (e : Event) (H : List Event) :
    accepted writer (e :: H) = bytesWritten writer e ++ accepted writer H := List.flatMap_cons

theorem responses_cons (e : Event) (H : List Event) :
    responses (e :: H) = responseOf e ++ responses H := List.flatMap_cons

@[simp] theorem armings_append (kind : TimerKind) (H H' : List Event) :
    armings kind (H ++ H') = armings kind H ++ armings kind H' := List.filterMap_append

/-! ## The calls of the two writing helpers -/

/-- The events of `WriteSomeNonBlocking` on the response path. -/
def responseWrites (fd : Fd) (life : Nat) (data : Bytes) (script : List WriteResult) : List Event :=
  (writeSomeNonBlocking data script).1.map (Event.write .response fd (some life) data)

/-- The events of `WriteBestEffort` on an error response. -/
def errorWrites (fd : Fd) (life : Nat) (data : Bytes) (script : List WriteResult) : List Event :=
  (writeBestEffort data.length data script).1.map fun (offered, answer) =>
    Event.write .bestEffort fd (some life) offered answer

theorem life?_responseWrites {fd : Fd} {life : Nat} {data : Bytes} {script : List WriteResult}
    {e : Event} (h : e ∈ responseWrites fd life data script) : life? e = some life := by
  obtain ⟨answer, -, rfl⟩ := List.mem_map.mp h
  rfl

theorem life?_errorWrites {fd : Fd} {life : Nat} {data : Bytes} {script : List WriteResult}
    {e : Event} (h : e ∈ errorWrites fd life data script) : life? e = some life := by
  obtain ⟨answer, -, rfl⟩ := List.mem_map.mp h
  rfl

/-- A projection that looks at no `write()` sees nothing of the two helpers. -/
theorem flatMap_responseWrites {β : Type} {g : Event → List β}
    (hg : ∀ w fd life data answer, g (.write w fd life data answer) = [])
    (fd : Fd) (life : Nat) (data : Bytes) (script : List WriteResult) :
    (responseWrites fd life data script).flatMap g = [] := by
  simp [responseWrites, List.flatMap_map, hg]

theorem flatMap_errorWrites {β : Type} {g : Event → List β}
    (hg : ∀ w fd life data answer, g (.write w fd life data answer) = [])
    (fd : Fd) (life : Nat) (data : Bytes) (script : List WriteResult) :
    (errorWrites fd life data script).flatMap g = [] := by
  simp [errorWrites, List.flatMap_map, hg]

/-- `WriteSomeNonBlocking` reports exactly what the socket took. -/
theorem taken_writeSomeNonBlocking (data : Bytes) (script : List WriteResult) :
    (writeSomeNonBlocking data script).1.flatMap (taken data) =
      match (writeSomeNonBlocking data script).2.2 with
      | .ok n => data.take n
      | .error _ => [] := by
  fun_induction writeSomeNonBlocking data script with
  | case1 => simp [taken]
  | case2 count script h => simp [taken]
  | case3 count script h => simp [taken]
  | case4 script answers script' value e ih =>
    rw [e] at ih
    simpa [taken] using ih
  | case5 script => simp [taken]
  | case6 e script h₁ h₂ => simp [taken]

theorem accepted_responseWrites (fd : Fd) (life : Nat) (data : Bytes) (script : List WriteResult) :
    accepted .response (responseWrites fd life data script) =
      match (writeSomeNonBlocking data script).2.2 with
      | .ok n => data.take n
      | .error _ => [] := by
  rw [← taken_writeSomeNonBlocking]
  simp [accepted, responseWrites, List.flatMap_map, bytesWritten]

theorem writeSomeNonBlocking_le {data : Bytes} {script : List WriteResult} {n : Nat}
    (h : (writeSomeNonBlocking data script).2.2 = .ok n) : n ≤ data.length := by
  fun_induction writeSomeNonBlocking data script with
  | case1 => cases h; exact Nat.zero_le _
  | case2 count script hc => cases h; exact Nat.min_le_right ..
  | case3 count script hc => cases h
  | case4 script answers script' value e ih =>
    rw [e] at ih
    exact ih h
  | case5 script => cases h; exact Nat.zero_le _
  | case6 e script h₁ h₂ => cases h

/-- The response path and the error path do not see each other's bytes. -/
theorem accepted_bestEffort_responseWrites (fd : Fd) (life : Nat) (data : Bytes)
    (script : List WriteResult) :
    accepted .bestEffort (responseWrites fd life data script) = [] := by
  simp [accepted, responseWrites, List.flatMap_map, bytesWritten]

theorem accepted_response_errorWrites (fd : Fd) (life : Nat) (data : Bytes)
    (script : List WriteResult) :
    accepted .response (errorWrites fd life data script) = [] := by
  simp [accepted, errorWrites, List.flatMap_map, bytesWritten]

end WebServer.Life
