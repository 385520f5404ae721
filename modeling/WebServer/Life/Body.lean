import WebServer.Life.Machine

/-!
# The body phase

What holds of `waiting_for_request_body` at every point: it goes together with
the body timer, and outside the code that is about to consume the body a
waiting connection has nothing left in its buffer.
-/

namespace WebServer.Life

open WebServer.Net WebServer.Http WebServer.Core

/-- The points from which `ConsumePendingRequestBody` is still to be called. -/
def Point.midBody : Point → Bool
  | .received => true
  | .bodyBegun _ => true
  | _ => false

/-- The points a connection that waits for a body does not reach. -/
def Point.noBody : Point → Bool
  | .headers _ => true
  | .parsing .. => true
  | .answering .. => true
  | .flushing back => back.noBody
  | _ => false

/-- The points at which a response is on its way. -/
def Point.responding : Point → Bool
  | .flushing _ => true
  | .answering .. => true
  | _ => false

structure BodyPhase (p : Point) (c : ClientConnection) : Prop where
  timer : (c.timeout .kBody).armed = c.waitingForRequestBody
  consumed : c.waitingForRequestBody = true → p.midBody = true ∨
    (c.inputBuffer.storage = [] ∧ 0 < c.pendingBodyBytesRemaining)
  noBody : p.noBody = true → c.waitingForRequestBody = false
  decided : c.outputBuffer ≠ [] ∨ p.responding = true →
    c.keepAliveEnabled = true ∨ c.closeAfterWrite = true

variable {fd : Fd} {id : Nat} {p p' : Point} {c c' : ClientConnection} {H : List Event}
  {events : List Event} {N nodes : List TimerEntry}

theorem bodyBack_flags {back : Point} (h : bodyBack p = some back) :
    back.midBody = false ∧ back.noBody = false ∧ back.responding = false := by
  cases p <;> cases h <;> exact ⟨rfl, rfl, rfl⟩

/-- Taking the available bytes of a body that stays incomplete empties the buffer. -/
theorem takeBody_storage (h : 0 < (takeBody c).pendingBodyBytesRemaining) :
    (takeBody c).inputBuffer.storage = [] := by
  simp only [takeBody, DynamicBuffer.size] at h ⊢
  exact List.drop_eq_nil_of_le (by omega)

theorem respond_decided (k : Bool) (c : ClientConnection) :
    (c.respond k).keepAliveEnabled = true ∨ (c.respond k).closeAfterWrite = true := by
  cases k <;> simp [ClientConnection.respond]

theorem BodyPhase.step (hI : BodyPhase p c) (h : Step fd H p c events nodes p' c') :
    BodyPhase p' c' := by
  obtain ⟨ht, hc, hn, hd⟩ := hI
  cases h
  case flushBegin hp hout =>
    refine ⟨ht, fun hw => .inr ?_, ?_, fun _ => hd (.inl hout)⟩ <;> rcases hp with rfl | rfl
    · exact (hc hw).resolve_left Bool.false_ne_true
    · exact (hc hw).resolve_left Bool.false_ne_true
    · exact nofun
    · exact nofun
  case bodyPart hw h hp =>
    obtain ⟨-, hno, hre⟩ := bodyBack_flags hp
    refine ⟨ht, fun _ => .inr ⟨takeBody_storage h, h⟩, fun h => by simp [hno] at h, fun h => ?_⟩
    exact hd (.inl (h.resolve_right (by simp [hre])))
  case bodyDone =>
    refine ⟨?_, fun h => ?_, fun _ => rfl, fun _ => respond_decided _ _⟩
    · simp [ClientConnection.respond, ClientConnection.finishBody]
    · simp [ClientConnection.respond, ClientConnection.finishBody] at h
  case request =>
    have hw := hn rfl
    refine ⟨?_, fun h => ?_, fun _ => ?_, fun _ => respond_decided _ _⟩
    · simpa [ClientConnection.respond] using ht
    · simp [ClientConnection.respond, hw] at h
    · simpa [ClientConnection.respond] using hw
  case settleWaiting | settleQueued | settleIdle | settleHeader | settlePass =>
    rename Caller => caller
    cases caller <;> constructor <;>
      simp_all [Point.midBody, Point.noBody, Point.responding, Caller.back, rearm]
  all_goals
    constructor <;>
      simp_all [Point.midBody, Point.noBody, Point.responding, rearm, ClientConnection.beginBody]

/-- The body phase is in order all along a run. -/
theorem Run.bodyPhase (h : Run fd id p c H N) : BodyPhase p c := by
  refine Run.invariant (I := fun p c _ => BodyPhase p c) (fun _ _ => ?_) (fun _ => .step) h
  constructor <;> simp [rearm, Point.responding]

end WebServer.Life
