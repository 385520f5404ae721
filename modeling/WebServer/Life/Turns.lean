import WebServer.Life.Body
import WebServer.Life.Path

/-!
# Turns

Between two requests a connection has to be handed on: to a timer, to the
ReadyQueue, or to the next `EPOLLOUT`.  Whether that happens depends on the last
turn its history took, which is a `read()`, the end of a header loop or the end of
a flush.
-/

namespace WebServer.Life

open WebServer.Net WebServer.Http WebServer.Core

variable {fd : Fd} {id : Nat} {p p' p₀ : Point} {c c' c₀ : ClientConnection} {H E : List Event}
  {events : List Event} {N nodes : List TimerEntry}

/-- The ReadyQueue will find something to do on this connection. -/
def comesBack (c : ClientConnection) : Bool :=
  c.inReadyQueue && (c.readyForRead || c.inputBuffer.hasCompleteHeader)

/-- A `read()` that is interrupted is no turn, and neither is one that finds nothing while
the ReadyQueue is going to come back to the connection. -/
def isTurn : Event → Bool
  | .read _ (.failed .eintr) => false
  | .read c (.failed .eagain) => !comesBack c
  | .read .. => true
  | .settled _ => true
  | .drained _ => true
  | _ => false

def lastTurn (H : List Event) : Option Event := (H.filter isTurn).getLast?

theorem lastTurn_idle (h : ∀ e ∈ events, isTurn e = false) :
    lastTurn (H ++ events) = lastTurn H := by
  have : events.filter isTurn = [] := List.filter_eq_nil_iff.mpr fun e he => by simp [h e he]
  rw [lastTurn, List.filter_append, this, List.append_nil, lastTurn]

theorem lastTurn_concat {e : Event} (h : isTurn e = true) : lastTurn (H ++ [e]) = some e := by
  rw [lastTurn, List.filter_append, List.filter_cons_of_pos h]
  exact List.getLast?_concat

/-- A turn with events behind it that are none. -/
theorem lastTurn_turn {e : Event} (h : isTurn e = true) (hrest : ∀ e ∈ events, isTurn e = false) :
    lastTurn (H ++ e :: events) = some e := by
  rw [← List.singleton_append, ← List.append_assoc, lastTurn_idle hrest, lastTurn_concat h]

theorem isTurn_responseWrites (fd : Fd) (life : Nat) (data : Bytes) (script : List WriteResult) :
    ∀ e ∈ responseWrites fd life data script, isTurn e = false := by
  intro e he
  obtain ⟨answer, -, rfl⟩ := List.mem_map.mp he
  rfl

/-- No two consecutive turns are `bad`: none of the form `e`, then the event `e'`. -/
def Never (bad : Event → Event → Bool) (H : List Event) : Prop :=
  ∀ pre e' post, H = pre ++ e' :: post → ∀ e, lastTurn pre = some e → bad e e' = false

theorem Never.left {bad : Event → Event → Bool} (h : Never bad (H ++ events)) : Never bad H := by
  rintro pre e' post rfl
  exact h pre e' (post ++ events) (by simp)

theorem never_iff {bad : Event → Event → Bool} : Never bad H ↔
    ∀ i : Fin H.length, (lastTurn (H.take i)).all (fun e => !bad e (H.get i)) = true := by
  constructor
  · intro h i
    have hsplit : H = H.take i ++ H[i] :: H.drop (i + 1) := by simp
    rw [Option.all_eq_true]
    intro e he
    have := h _ _ _ hsplit e he
    simpa using this
  · rintro h pre e' post rfl e he
    have := h ⟨pre.length, by simp⟩
    simpa [he] using this

instance (bad : Event → Event → Bool) : Decidable (Never bad H) := decidable_of_iff _ never_iff.symm

/-- The bytes `ReadFromClient` has just put into the buffer are those of the last turn. -/
def JustRead (p : Point) (c : ClientConnection) (H : List Event) : Prop :=
  p = .received → ∃ c₀ data, lastTurn H = some (.read c₀ (.got data)) ∧
    c = { c₀ with inputBuffer := c₀.inputBuffer.append data } ∧
    (c₀.waitingForRequestBody = true → c₀.inputBuffer.storage = [])

theorem JustRead.step (hbody : BodyPhase p c) (hret : p.Returns)
    (h : Step fd H p c events nodes p' c') : JustRead p' c' (E ++ events) := by
  cases h
  case recv data inflight hd hlen hok =>
    intro _
    refine ⟨c, data, lastTurn_turn rfl (by simp [isTurn]), rfl, fun hw => ?_⟩
    exact ((hbody.consumed hw).resolve_left (by simp [Point.midBody])).1
  case bodyPart hw h hp =>
    rintro rfl
    cases p <;> cases hp
  case flushBlocked | flushPaused | drainQueued | drainIdle | drainStop =>
    rintro rfl
    rcases hret with hret | hret <;> cases hret
  case appendResponse | sentResponse | storeResponse =>
    rintro rfl
    rcases hret with hret | hret | ⟨_, hret | hret⟩ <;> cases hret
  case settleWaiting | settleIdle | settleHeader | settlePass =>
    rename Caller => caller
    cases caller <;> (intro e; cases e)
  all_goals intro e; cases e

theorem Run.justRead (h : Run fd id p c H N) : JustRead p c H :=
  h.invariant (I := JustRead) (fun _ _ e => by cases e) fun hr _ hs =>
    .step hr.bodyPhase hr.returns hs

/-- On the path of a handler call, its own turns are enough to tell. -/
theorem Path.justRead (hrun : Run fd id p₀ c₀ H N) (hp₀ : p₀ ≠ .received)
    (h : Path fd H p₀ c₀ p c E) : JustRead p c E := by
  cases h with
  | start => exact fun hp => absurd hp hp₀
  | step hpath hs =>
    obtain ⟨N', hrun'⟩ := hpath.run hrun
    exact .step hrun'.bodyPhase hrun'.returns hs

/-! ## Bodies -/

/-- A `read()` that brings the rest of the body the connection waits for. -/
def completesBody : Event → Bool
  | .read c (.got data) =>
    c.waitingForRequestBody && decide (c.pendingBodyBytesRemaining ≤ data.length)
  | _ => false

/-- A body ends either in the middle of the header loop or with a `read()`. -/
theorem JustRead.body_done (h : JustRead p c H) (hbody : BodyPhase p c) {back : Point}
    (hp : bodyBack p = some back) (hw : c.waitingForRequestBody = true)
    (hdone : (takeBody c).pendingBodyBytesRemaining = 0) :
    (∃ caller, p = .bodyBegun caller ∧ back = .settling caller) ∨
      p = .received ∧ back = .reading ∧
        ∃ c₀ data, lastTurn H = some (.read c₀ (.got data)) ∧
          completesBody (.read c₀ (.got data)) = true ∧
          (takeBody c).inputBuffer.storage = data.drop c₀.pendingBodyBytesRemaining := by
  cases p with
  | bodyBegun caller =>
    cases hp
    exact .inl ⟨caller, rfl, rfl⟩
  | resumed =>
    -- nothing is in the buffer, so nothing can be taken
    obtain ⟨hin, hrem⟩ := (hbody.consumed hw).resolve_left (by simp [Point.midBody])
    simp [takeBody, DynamicBuffer.size, hin] at hdone
    omega
  | received =>
    cases hp
    obtain ⟨c₀, data, hlast, rfl, hempty⟩ := h rfl
    have hempty := hempty hw
    simp only [takeBody, DynamicBuffer.size, DynamicBuffer.storage_append, hempty,
      List.nil_append] at hdone
    refine .inr ⟨rfl, rfl, c₀, data, hlast, ?_, ?_⟩
    · have hw : c₀.waitingForRequestBody = true := hw
      simp only [completesBody, hw, Bool.true_and, decide_eq_true_eq]
      omega
    · simp only [takeBody, DynamicBuffer.size, DynamicBuffer.storage_append, hempty,
        List.nil_append]
      rw [Nat.min_eq_left (by omega)]
  | _ => cases hp

end WebServer.Life
