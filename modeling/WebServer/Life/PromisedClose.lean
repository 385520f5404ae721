import WebServer.Life.Watch

/-!
# A promised close

A connection that has promised to close is closed as soon as it has nothing more
to send.  It stays open when it is left unwatched, or when it is made to wait for
the body of a further request.
-/

namespace WebServer.Life

open WebServer.Net WebServer.Http WebServer.Core

variable {fd : Fd} {id : Nat} {p p' : Point} {c c' : ClientConnection} {H : List Event}
  {events : List Event} {N nodes : List TimerEntry}

/-- A `read()` that finds nothing on a connection that is to be closed. -/
def findsPromise : Event → Bool
  | .read c answer => findsNothing (.read c answer) && c.closeAfterWrite
  | _ => false

def leftOpen (e e' : Event) : Bool := leavesUnarmed e && findsPromise e'

/-- A connection that is to be closed begins to wait for a body it has not got, or has sent
everything while it waits for one with a read pending. -/
def awaitsBody : Event → Bool
  | .bodyBegun c request => c.closeAfterWrite && c.outputBuffer = [] &&
      decide (c.inputBuffer.size < request.contentLength)
  | .drained c => c.closeAfterWrite && c.waitingForRequestBody && c.readyForRead
  | _ => false

/-- What holds of a connection that is to be closed. -/
def Pending (p : Point) (c : ClientConnection) (H : List Event) : Prop :=
  match p with
  | .rest | .resumed | .continued | .reading =>
    c.outputBuffer ≠ [] ∨ c.waitingForRequestBody = false ∧ Revisited p c H
  | .received => c.waitingForRequestBody = true → c.outputBuffer ≠ []
  | .bodyBegun _ => c.outputBuffer ≠ [] ∨ c.pendingBodyBytesRemaining ≤ c.inputBuffer.size
  | .settling _ => c.waitingForRequestBody = true → c.outputBuffer ≠ []
  | _ => True

def Kept (p : Point) (c : ClientConnection) (H : List Event) : Prop :=
  c.closeAfterWrite = true → Pending p c H

/-- Output keeps a promise pending everywhere. -/
theorem Pending.of_output (hout : c.outputBuffer ≠ []) : Pending p c H := by
  cases p
  case received | settling => exact fun _ => hout
  all_goals first | exact .inl hout | trivial

/-- At a waiting point the promise is pending when the connection is visited again. -/
theorem Pending.of_revisited (hw : c.waitingForRequestBody = false)
    (h : Revisited p c H ∨ Parked c) (hp : p.waits = true) : Pending p c H := by
  rcases h with hrev | hout | hw'
  · cases p
    case rest | resumed | continued | reading => exact .inr ⟨hw, hrev⟩
    all_goals cases hp
  · exact .of_output hout
  · rw [hw] at hw'
    cases hw'

/-- A body that is not complete is waited for behind output. -/
theorem Pending.output_of_bodyPart {back : Point} (hI : Pending p c H)
    (hp : bodyBack p = some back) (hw : c.waitingForRequestBody = true)
    (h : 0 < (takeBody c).pendingBodyBytesRemaining) : c.outputBuffer ≠ [] := by
  cases p <;> cases hp
  · exact hI.resolve_right fun h => by simp [h.1] at hw
  · exact hI hw
  · refine hI.resolve_right fun hle => ?_
    simp only [takeBody] at h
    omega

theorem Kept.step (hr : Run fd id p c H N) (hI : Kept p c H) (hclean : Never leftOpen (H ++ events))
    (hbody : ∀ e ∈ events, awaitsBody e = false)
    (h : Step fd H p c events nodes p' c') : Kept p' c' (H ++ events) := by
  have hs := h
  have hphase := hr.bodyPhase
  have hret := hr.returns
  intro hclose
  cases h
  case resume | idleToHeader | beginRead | pause | resumeNothing | continueDone | continueRead |
      readAgain | readNothing | readExhausted =>
    have hcl : c.closeAfterWrite = true := hclose
    rcases hI hcl with hout | ⟨hw, hrev⟩
    · exact .inl hout
    · have hbad (e : Event) (hu : leavesUnarmed e = true)
          (hf : findsNothing (.read c (.failed .eagain)) = true) :
          leftOpen e (.read c (.failed .eagain)) = true := by
        rw [leftOpen, hu, findsPromise, hf, hcl]
        rfl
      exact .of_revisited hw (hrev.step hclean hbad hs rfl) rfl
  case flushBlocked hout _ | flushPaused hout => exact .of_output hout
  case drainQueued hout h =>
    have hcl : c.closeAfterWrite = true := hclose
    have hw : c.waitingForRequestBody = false := by
      by_contra hw
      -- a connection that waits for a body has nothing in its buffer
      obtain ⟨hin, -⟩ := (hphase.consumed (by simpa using hw)).resolve_left (by
        simp [Point.midBody])
      have hrr := h.resolve_left (by simp [DynamicBuffer.hasCompleteHeader_of_empty hin])
      have hnew := hbody _ List.mem_cons_self
      simp [awaitsBody, hcl, hrr, hw] at hnew
    have hrev := revisited_drained (H := H) hret hw h
    rcases hret with rfl | rfl
    · exact .inr ⟨hw, hrev⟩
    · exact .inr ⟨hw, hrev⟩
  case drainIdle hh hrr hcl hka =>
    have hcl' : c.closeAfterWrite = true := hclose
    simp [hcl] at hcl'
  case drainStop hout hh hrr hcl hka => simp [hcl] at hclose
  case recv =>
    intro hw
    exact (hI hclose).resolve_right fun h => by simp [h.1] at hw
  case bodyPart hw h hp => exact .of_output ((hI hclose).output_of_bodyPart hp hw h)
  case beginBody r now hp hs hb =>
    have hcl : c.closeAfterWrite = true := by simpa [rearm, ClientConnection.beginBody] using hclose
    have hnew := hbody _ List.mem_cons_self
    by_cases hout : c.outputBuffer = []
    · have hle : r.contentLength ≤ c.inputBuffer.size := by simpa [awaitsBody, hcl, hout] using hnew
      exact .inr (by simpa [rearm, ClientConnection.beginBody] using hle)
    · exact .inl (by simpa [rearm, ClientConnection.beginBody] using hout)
  case loopEnd =>
    intro hw
    simp [hphase.noBody rfl] at hw
  case settleWaiting hw => exact .of_output (hI hclose hw)
  case settleQueued hw hh => exact .inr ⟨hw, rfl, .inl hh⟩
  case settleIdle hcl _ | settleHeader hcl _ =>
    have hcl' : c.closeAfterWrite = true := hclose
    simp [hcl] at hcl'
  case settlePass caller hw hh h =>
    by_cases hout : c.outputBuffer = []
    · have hp : caller.back.waits = true := by cases caller <;> rfl
      exact .of_revisited hw (.inl (revisited_settled caller hw hh hout h)) hp
    · exact .of_output hout
  case appendResponse hok hout => exact .of_output (by simp [hout])
  case storeResponse howed hok hout => exact .of_output howed
  case sentResponse =>
    rw [List.append_nil]
    have hw : c.waitingForRequestBody = false := hphase.noBody rfl
    by_cases hp : p'.waits = true
    · exact .of_revisited hw (.inl (hr.answersBody.revisited hret hp)) hp
    · rcases hret with rfl | rfl | ⟨_, rfl | rfl⟩
      · exact absurd rfl hp
      · exact absurd rfl hp
      · trivial
      · exact fun h => by simp [hw] at h
  all_goals trivial

/-- **Promised close.**  As long as a connection that is to be closed is neither left open
nor made to wait for a body, its promise is pending at every point. -/
theorem Run.kept (h : Run fd id p c H N) : Never leftOpen H → (∀ e ∈ H, awaitsBody e = false) →
    Kept p c H := by
  refine Run.invariant
    (I := fun p c H => Never leftOpen H → (∀ e ∈ H, awaitsBody e = false) → Kept p c H)
    (fun _ _ _ _ hcl => absurd hcl Bool.false_ne_true) (fun hr hI hs hclean hbody => ?_) h
  obtain ⟨hold, hnew⟩ := List.forall_mem_append.mp hbody
  exact (hI hclean.left hold).step hr hclean hnew hs

end WebServer.Life
