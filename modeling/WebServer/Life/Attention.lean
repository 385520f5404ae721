import WebServer.Life.Framing
import WebServer.Life.Turns

/-!
# Buffered requests

A complete header in the buffer of a connection at rest is in line: the fd is in
the ReadyQueue or output is waiting.  It is stranded when one `read()` brings the
end of a body together with the next header, and the next `read()` finds nothing.
-/

namespace WebServer.Life

open WebServer.Net WebServer.Http WebServer.Core

variable {fd : Fd} {id : Nat} {p p' p₀ : Point} {c c' c₀ : ClientConnection} {H E : List Event}
  {events : List Event} {N nodes : List TimerEntry}

/-- A `read()` that brings the rest of a body and a complete header behind it. -/
def bringsRequest : Event → Bool
  | .read c (.got data) => completesBody (.read c (.got data)) &&
      (⟨data.drop c.pendingBodyBytesRemaining⟩ : DynamicBuffer).hasCompleteHeader
  | _ => false

/-- A `read()` that ends the work on a connection with no output and no place in the
ReadyQueue. -/
def stopsWork : Event → Bool
  | .read c (.failed .eagain) => c.outputBuffer = [] && !c.inReadyQueue
  | _ => false

def strandsRequest (e e' : Event) : Bool := bringsRequest e && stopsWork e'

/-- The last turn brought a request behind a body. -/
def Brought (H : List Event) : Prop := ∃ e, lastTurn H = some e ∧ bringsRequest e = true

/-- Nothing is buffered that could be processed now, or unsent output will lead back to it. -/
def Served (c : ClientConnection) : Prop :=
  c.waitingForRequestBody = true ∨ c.inputBuffer.hasCompleteHeader = false ∨ c.outputBuffer ≠ []

def Attended (p : Point) (c : ClientConnection) (H : List Event) : Prop :=
  match p with
  | .rest => Served c ∨ c.inReadyQueue = true
  | .continued => Served c
  | .reading => Served c ∨ c.inReadyQueue = true ∨ Brought H
  | .answering back _ => (back = .reading → Served c ∨ Brought H) ∧ back ≠ .resumed
  | _ => True

theorem brought_idle (h : ∀ e ∈ events, isTurn e = false) : Brought (H ++ events) ↔ Brought H := by
  rw [Brought, lastTurn_idle h, Brought]

theorem Attended.of_served (hc : Served c) (hp : ∀ back owed, p ≠ .answering back owed) :
    Attended p c H := by
  cases p
  case answering => exact absurd rfl (hp _ _)
  case continued => exact hc
  all_goals first | exact .inl hc | trivial

theorem Attended.of_output {owed : Bytes} (hret : (Point.answering p owed).Returns)
    (hout : c.outputBuffer ≠ []) : Attended p c H :=
  .of_served (.inr (.inr hout)) (hret.not_answering _ _ (.inr rfl))

/-- One step; `E` is the part of the history that is looked at. -/
theorem Attended.step (hr : Run fd id p c H N) (hjust : JustRead p c E) (hI : Attended p c E)
    (hclean : Never strandsRequest (E ++ events))
    (h : Step fd H p c events nodes p' c') : Attended p' c' (E ++ events) := by
  have hret := hr.returns
  cases h
  case idleToHeader => exact hI
  case beginRead =>
    rw [List.append_nil]
    exact hI.imp_right .inl
  case pause h => exact .inl (h.elim (fun h => .inr (.inr h)) .inl)
  case resumeNothing hout hw hh => exact .inr (.inl hh)
  case continueDone => exact .inl hI
  case continueRead => exact .inl hI
  case flushBlocked hout hw =>
    exact .of_served (.inr (.inr hout)) (hret.not_answering _ [] (.inl rfl))
  case flushPaused hout =>
    exact .of_served (.inr (.inr hout)) (hret.not_answering _ [] (.inl rfl))
  case drainQueued =>
    rcases hret with rfl | rfl
    · exact .inr rfl
    · trivial
  case drainIdle hh hrr hcl hka =>
    have : Served (rearm .kIdleKeepAlive c) := .inr (.inl hh)
    exact .of_served this (hret.not_answering _ [] (.inl rfl))
  case drainStop hout hh hrr hcl hka =>
    exact .of_served (.inr (.inl hh)) (hret.not_answering _ [] (.inl rfl))
  case readAgain =>
    have hidle : Brought (E ++ [.read c (.failed .eintr)]) ↔ Brought E :=
      brought_idle (by simp [isTurn])
    exact hI.imp_right fun h => h.imp_right hidle.mpr
  case readNothing =>
    rcases hI with hc | hq | ⟨e, hlast, hb⟩
    · exact .inl hc
    · exact .inr hq
    · by_cases hout : c.outputBuffer = []
      · have hbad := hclean E _ [] rfl e hlast
        simp only [strandsRequest, hb, stopsWork, hout, Bool.true_and, decide_true,
          Bool.not_eq_false'] at hbad
        exact .inr hbad
      · exact .inl (.inr (.inr hout))
  case readExhausted => exact .inr rfl
  case bodyPart hw h hp =>
    exact .of_served (.inl hw) (bodyBack_ne_answering hp)
  case bodyDone back hp hw h =>
    obtain ⟨caller, rfl, rfl⟩ | ⟨rfl, rfl, c₀, data, hlast, hdone, hrest⟩ :=
      hjust.body_done hr.bodyPhase hp hw h
    · constructor <;> intro e <;> cases e
    · refine ⟨fun _ => ?_, fun e => by cases e⟩
      rw [brought_idle (by simp [isTurn])]
      cases hh : (takeBody c).inputBuffer.hasCompleteHeader with
      | false => exact .inl (.inr (.inl hh))
      | true =>
        refine .inr ⟨_, hlast, ?_⟩
        rw [bringsRequest, hdone, Bool.true_and]
        rw [DynamicBuffer.hasCompleteHeader, DynamicBuffer.findHeaderEnd, hrest] at hh
        exact hh
  case request => constructor <;> intro e <;> cases e
  case settleWaiting caller hw => exact .of_served (.inl hw) caller.back_ne_answering
  case settleQueued hw hh => exact .inr rfl
  case settleIdle caller now hw hin hout hcl hrr =>
    have : Served (rearm .kIdleKeepAlive c) := by
      exact .inr (.inl (DynamicBuffer.hasCompleteHeader_of_empty hin))
    exact .of_served this caller.back_ne_answering
  case settleHeader caller now hw hh hin hout hcl hrr =>
    have : Served (rearm .kHeader c) := .inr (.inl hh)
    exact .of_served this caller.back_ne_answering
  case settlePass caller hw hh h =>
    exact .of_served (.inr (.inl hh)) caller.back_ne_answering
  case appendResponse hok hout => exact .of_output hret (by simp [hout])
  case storeResponse howed hok hout => exact .of_output hret howed
  case sendResponse =>
    refine ⟨fun e => (hI.1 e).imp_right fun h => ?_, hI.2⟩
    exact (brought_idle (isTurn_responseWrites _ _ _ _)).mpr h
  case sentResponse =>
    rw [List.append_nil]
    rcases hret with rfl | rfl | ⟨_, rfl | rfl⟩
    · exact (hI.1 rfl).imp_right .inr
    · exact absurd rfl hI.2
    · trivial
    · trivial
  all_goals trivial

/-- **Attention.**  As long as no request is stranded, every buffered one is in line. -/
theorem Run.attended (h : Run fd id p c H N) : Never strandsRequest H → Attended p c H := by
  refine Run.invariant (I := fun p c H => Never strandsRequest H → Attended p c H)
    (fun _ _ _ => ?_) (fun hr hI hs hclean => ?_) h
  · exact .inl (.inr (.inl rfl))
  · exact (hI hclean.left).step hr hr.justRead hclean hs

/-- Bytes are read in one place. -/
theorem Step.arrival (h : Step fd H p c events nodes p' c') :
    received events = [] ∨ p' = .received := by
  cases h
  case recv => exact .inr rfl
  case flushed | flushBlocked | sendResponse => exact .inl (received_responseWrites ..)
  all_goals exact .inl rfl

/-- A handler call that finds every buffered request in line, or reads bytes, leaves them in line
as long as it strands none itself. -/
theorem Path.attended (hrun : Run fd id p₀ c₀ H N) (hp₀ : p₀ ≠ .received)
    (h0 : Attended p₀ c₀ [] ∨ received E ≠ []) (h : Path fd H p₀ c₀ p c E)
    (hclean : Never strandsRequest E) : Attended p c E := by
  induction h with
  | start => exact h0.resolve_right fun h => h rfl
  | step hpath hs hallow ih =>
    obtain ⟨N', hrun'⟩ := hpath.run hrun
    rcases hs.arrival with hquiet | rfl
    · rw [received_append, hquiet, List.append_nil] at h0
      exact (ih h0 hclean.left).step hrun' (hpath.justRead hrun hp₀) hclean hs
    · trivial

end WebServer.Life
