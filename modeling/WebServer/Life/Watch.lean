import WebServer.Life.Turns

/-!
# Waiting under a timeout

A connection at rest has a timer, or unsent output, or a place in the ReadyQueue
that will lead to one of these.  It falls out of this order when a `read()` finds
nothing right after a turn that left the timers unarmed.
-/

namespace WebServer.Life

open WebServer.Net WebServer.Http WebServer.Core

variable {fd : Fd} {id : Nat} {p p' : Point} {c c' : ClientConnection} {H : List Event}
  {events : List Event} {N nodes : List TimerEntry}

/-- A turn after which no timer is armed: the body of a request ends with a `read()`, or the
header loop or a flush leaves everything to a pending read mark. -/
def leavesUnarmed : Event → Bool
  | .settled c => !c.waitingForRequestBody && c.outputBuffer = [] && c.readyForRead &&
      !c.inputBuffer.hasCompleteHeader
  | .drained c => !c.waitingForRequestBody && c.readyForRead && !c.inputBuffer.hasCompleteHeader
  | e => completesBody e

/-- A `read()` that ends the work on a connection without output. -/
def findsNothing : Event → Bool
  | .read c (.failed .eagain) => c.outputBuffer = [] && !comesBack c
  | _ => false

/-- The connection is left without a timer. -/
def leftUnwatched (e e' : Event) : Bool := leavesUnarmed e && findsNothing e'

/-- The last turn left the timers unarmed. -/
def Unarmed (H : List Event) : Prop := ∃ e, lastTurn H = some e ∧ leavesUnarmed e = true

theorem unarmed_idle (h : ∀ e ∈ events, isTurn e = false) : Unarmed (H ++ events) ↔ Unarmed H := by
  rw [Unarmed, lastTurn_idle h, Unarmed]

/-! ## Answers to bodies -/

/-- An answer in the middle of `ReadFromClient` is the answer to a body that ended there. -/
def AnswersBody (p : Point) (H : List Event) : Prop :=
  ∀ back owed, p = .answering back owed → (back = .reading → Unarmed H) ∧ back ≠ .resumed

theorem AnswersBody.of_ne (hp : ∀ back owed, p ≠ .answering back owed) : AnswersBody p H :=
  fun back owed e => absurd e (hp back owed)

theorem AnswersBody.step (hr : Run fd id p c H N) (hI : AnswersBody p H)
    (h : Step fd H p c events nodes p' c') : AnswersBody p' (H ++ events) := by
  have hret := hr.returns
  cases h
  case flushBlocked | flushPaused | drainQueued | drainIdle | drainStop =>
    exact .of_ne (hret.not_answering _ [] (.inl rfl))
  case appendResponse | sentResponse | storeResponse =>
    exact .of_ne (hret.not_answering _ _ (.inr rfl))
  case settleWaiting caller _ | settleIdle caller _ _ _ _ _ _ | settleHeader caller _ _ _ _ _ _ _ |
      settlePass caller _ _ _ =>
    exact .of_ne caller.back_ne_answering
  case bodyPart hw h hp => exact .of_ne (bodyBack_ne_answering hp)
  case bodyDone hp hw h =>
    rintro back owed e
    cases e
    obtain ⟨caller, rfl, rfl⟩ | ⟨rfl, rfl, c₀, data, hlast, hdone, -⟩ :=
      hr.justRead.body_done hr.bodyPhase hp hw h
    · constructor <;> intro e <;> cases e
    · refine ⟨fun _ => ?_, fun e => by cases e⟩
      rw [unarmed_idle (by simp [isTurn])]
      exact ⟨_, hlast, hdone⟩
  case request =>
    rintro back owed e
    cases e
    constructor <;> intro e <;> cases e
  case sendResponse =>
    rintro back owed e
    cases e
    obtain ⟨hu, hne⟩ := hI _ _ rfl
    exact ⟨fun e => (unarmed_idle (isTurn_responseWrites _ _ _ _)).mpr (hu e), hne⟩
  all_goals exact .of_ne (by simp)

theorem Run.answersBody (h : Run fd id p c H N) : AnswersBody p H :=
  h.invariant (I := fun p _ H => AnswersBody p H) (fun _ _ => .of_ne (by simp)) .step

/-! ## Another visit -/

/-- The points at which a connection waits for its next turn. -/
def Point.waits : Point → Bool
  | .rest => true
  | .resumed => true
  | .continued => true
  | .reading => true
  | _ => false

/-- The ReadyQueue, or the handler that stands here, is going to look at the connection again. -/
def Revisited (p : Point) (c : ClientConnection) (H : List Event) : Prop :=
  match p with
  | .rest => c.inReadyQueue = true ∧
      (c.inputBuffer.hasCompleteHeader = true ∨ c.readyForRead = true ∧ Unarmed H)
  | .resumed => c.inputBuffer.hasCompleteHeader = true ∨ c.readyForRead = true ∧ Unarmed H
  | .continued => c.readyForRead = true ∧ Unarmed H
  | .reading => Unarmed H ∨ c.inReadyQueue = true ∧ c.inputBuffer.hasCompleteHeader = true
  | _ => False

/-- Output waits for `EPOLLOUT`, or a body is waited for. -/
def Parked (c : ClientConnection) : Prop := c.outputBuffer ≠ [] ∨ c.waitingForRequestBody = true

/-- A `read()` that finds nothing after a turn that left the timers unarmed leaves the rest to
the ReadyQueue, if that is the only thing that is not `bad`. -/
theorem revisited_readNothing {bad : Event → Event → Bool} (hu : Unarmed H)
    (hclean : Never bad (H ++ [.read c (.failed .eagain)]))
    (hbad : ∀ e, leavesUnarmed e = true → findsNothing (.read c (.failed .eagain)) = true →
      bad e (.read c (.failed .eagain)) = true) (hout : c.outputBuffer = []) :
    Revisited .rest c (H ++ [.read c (.failed .eagain)]) := by
  obtain ⟨e, hlast, hleaves⟩ := hu
  cases hback : comesBack c with
  | false =>
    have hfinds : findsNothing (.read c (.failed .eagain)) = true := by
      simp [findsNothing, hout, hback]
    have := hclean H _ [] rfl e hlast
    rw [hbad e hleaves hfinds] at this
    cases this
  | true =>
    have hidle : Unarmed (H ++ [.read c (.failed .eagain)]) ↔ Unarmed H :=
      unarmed_idle (by simp [isTurn, hback])
    simp only [comesBack, Bool.and_eq_true, Bool.or_eq_true] at hback
    exact ⟨hback.1, hback.2.elim (fun h => .inr ⟨h, hidle.mpr ⟨e, hlast, hleaves⟩⟩) .inl⟩

/-- From one waiting point to the next. -/
theorem Revisited.step {bad : Event → Event → Bool} (hI : Revisited p c H)
    (hclean : Never bad (H ++ events))
    (hbad : ∀ e, leavesUnarmed e = true → findsNothing (.read c (.failed .eagain)) = true →
      bad e (.read c (.failed .eagain)) = true)
    (h : Step fd H p c events nodes p' c') (hp' : p'.waits = true) :
    Revisited p' c' (H ++ events) ∨ Parked c' := by
  cases h
  case resume =>
    rw [List.append_nil]
    exact .inl hI.2
  case idleToHeader =>
    refine .inl ⟨hI.1, hI.2.imp_right fun h => ⟨h.1, ?_⟩⟩
    exact (unarmed_idle (by simp [isTurn])).mpr h.2
  case beginRead =>
    rw [List.append_nil]
    exact .inl (hI.2.elim (fun hh => .inr ⟨hI.1, hh⟩) fun h => .inl h.2)
  case pause h => exact .inr h
  case resumeNothing hout hw hh =>
    rw [List.append_nil]
    exact .inl (hI.resolve_left (by simp [hh]))
  case continueDone h => exact .inr (.inl (h.resolve_right (by simp [hI.1])))
  case continueRead =>
    rw [List.append_nil]
    exact .inl (.inl hI.2)
  case readAgain => exact .inl (hI.imp_left (unarmed_idle (by simp [isTurn])).mpr)
  case readNothing =>
    rcases hI with hu | hq
    · by_cases hout : c.outputBuffer = []
      · exact .inl (revisited_readNothing hu hclean hbad hout)
      · exact .inr (.inl hout)
    · exact .inl ⟨hq.1, .inl hq.2⟩
  case readExhausted =>
    rw [List.append_nil]
    exact .inl ⟨rfl, hI.elim (fun hu => .inr ⟨rfl, hu⟩) fun hq => .inl hq.2⟩
  case bodyPart hw _ hp => exact .inr (.inr hw)
  case flushBegin | recv | bodyDone => cases hp'
  all_goals first | exact hI.elim | cases hp'

theorem revisited_drained (hp : p = .rest ∨ p = .resumed) (hw : c.waitingForRequestBody = false)
    (h : c.inputBuffer.hasCompleteHeader = true ∨ c.readyForRead = true) :
    Revisited p { c with inReadyQueue := true } (H ++ [.drained c]) := by
  have hleft : c.inputBuffer.hasCompleteHeader = true ∨
      c.readyForRead = true ∧ Unarmed (H ++ [.drained c]) := by
    cases hh : c.inputBuffer.hasCompleteHeader with
    | true => exact .inl rfl
    | false =>
      have hrr := h.resolve_left (by simp [hh])
      exact .inr ⟨hrr, _, lastTurn_concat rfl, by simp [leavesUnarmed, hw, hrr, hh]⟩
  rcases hp with rfl | rfl
  · exact ⟨rfl, hleft⟩
  · exact hleft

theorem revisited_settled (caller : Caller) (hw : c.waitingForRequestBody = false)
    (hh : c.inputBuffer.hasCompleteHeader = false) (hout : c.outputBuffer = [])
    (h : c.outputBuffer ≠ [] ∨ c.readyForRead = true) :
    Revisited caller.back c (H ++ [.settled c]) := by
  have hrr := h.resolve_left (by simp [hout])
  have hu : Unarmed (H ++ [.settled c]) :=
    ⟨_, lastTurn_concat rfl, by simp [leavesUnarmed, hw, hout, hrr, hh]⟩
  cases caller with
  | readFromClient => exact .inl hu
  | continueReady => exact ⟨hrr, hu⟩

/-- A waiting point is reached from an answer only with the timers unarmed. -/
theorem AnswersBody.revisited {owed : Bytes} (h : AnswersBody (.answering p owed) H)
    (hret : (Point.answering p owed).Returns) (hp : p.waits = true) : Revisited p c H := by
  obtain ⟨hu, hne⟩ := h _ _ rfl
  rcases hret with rfl | rfl | ⟨_, rfl | rfl⟩
  · exact .inl (hu rfl)
  · exact absurd rfl hne
  · cases hp
  · cases hp

/-! ## The watch -/

/-- A timer runs, or output waits for `EPOLLOUT`; a body that is waited for has its timer. -/
def Covered (c : ClientConnection) : Prop :=
  c.waitingForRequestBody = true ∨ c.outputBuffer ≠ [] ∨ (c.timeout .kHeader).armed = true ∨
    (c.timeout .kIdleKeepAlive).armed = true

def Watched (p : Point) (c : ClientConnection) (H : List Event) : Prop :=
  p.waits = true → Covered c ∨ Revisited p c H

theorem Parked.covered (h : Parked c) : Covered c := h.elim (fun h => .inr (.inl h)) .inl

theorem Watched.step (hr : Run fd id p c H N) (hI : Watched p c H)
    (hclean : Never leftUnwatched (H ++ events))
    (h : Step fd H p c events nodes p' c') : Watched p' c' (H ++ events) := by
  have hs := h
  have hret := hr.returns
  intro hp'
  cases h
  case idleToHeader => exact .inl (.inr (.inr (.inl (by simp [rearm]))))
  case resume | beginRead | pause | resumeNothing | continueDone | continueRead | readAgain |
      readNothing | readExhausted =>
    rcases hI rfl with hc | hrev
    · exact .inl hc
    · have hbad (e : Event) (hu : leavesUnarmed e = true)
          (hf : findsNothing (.read c (.failed .eagain)) = true) :
          leftUnwatched e (.read c (.failed .eagain)) = true := by
        rw [leftUnwatched, hu, hf]
        rfl
      exact (hrev.step hclean hbad hs hp').symm.imp_left Parked.covered
  case flushBlocked hout _ | flushPaused hout => exact .inl (.inr (.inl hout))
  case drainQueued hout h =>
    by_cases hw : c.waitingForRequestBody = true
    · exact .inl (.inl hw)
    · exact .inr (revisited_drained hret (by simpa using hw) h)
  case drainIdle => exact .inl (.inr (.inr (.inr (by simp [rearm]))))
  case drainStop hout hh hrr hcl hka =>
    have := hr.bodyPhase.decided (.inr rfl)
    simp [hcl, hka] at this
  case bodyPart hw _ hp => exact .inl (.inl hw)
  case settleWaiting hw => exact .inl (.inl hw)
  case settleQueued hh => exact .inr ⟨rfl, .inl hh⟩
  case settleIdle => exact .inl (.inr (.inr (.inr (by simp [rearm]))))
  case settleHeader => exact .inl (.inr (.inr (.inl (by simp [rearm]))))
  case settlePass caller hw hh h =>
    by_cases hout : c.outputBuffer = []
    · exact .inr (revisited_settled caller hw hh hout h)
    · exact .inl (.inr (.inl hout))
  case appendResponse hok hout => exact .inl (.inr (.inl (by simp [hout])))
  case storeResponse howed hok hout => exact .inl (.inr (.inl howed))
  case sentResponse =>
    rw [List.append_nil]
    exact .inr (hr.answersBody.revisited hret hp')
  all_goals cases hp'

/-- **Watch.**  As long as no connection is left unwatched, it is watched at every point. -/
theorem Run.watched (h : Run fd id p c H N) : Never leftUnwatched H → Watched p c H := by
  refine Run.invariant (I := fun p c H => Never leftUnwatched H → Watched p c H)
    (fun _ _ _ _ => ?_) (fun hr hI hs hclean => (hI hclean.left).step hr hclean hs) h
  exact .inl (.inr (.inr (.inl (by simp [rearm]))))

end WebServer.Life
