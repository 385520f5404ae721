import WebServer.Life.Timers

/-!
# Timers during a body upload

A connection that waits for a body is under the deadline computed when its header
was complete.  It is under that deadline alone, unless the flush of an earlier
response armed the idle timer in the middle of the upload.
-/

namespace WebServer.Life

open WebServer.Net WebServer.Http WebServer.Core

variable {fd : Fd} {id : Nat} {p p' : Point} {c c' : ClientConnection} {H : List Event}
  {events : List Event} {N nodes : List TimerEntry}

/-! ## The deadline -/

/-- The header of the request was complete at `now`, which armed the body timer for the last
time. -/
def BodyBegan (H : List Event) (request : HttpRequest) (now : Time) : Prop :=
  ∃ before c after, H = before ++ .bodyBegun c request :: .armed c.connectionId .kBody now
    (calculateBodyReceiveDeadline now request.contentLength) :: after ∧ armings .kBody after = []

theorem BodyBegan.append {r : HttpRequest} {now : Time} (h : BodyBegan H r now)
    (hnone : armings .kBody events = []) : BodyBegan (H ++ events) r now := by
  obtain ⟨before, c, after, rfl, hafter⟩ := h
  refine ⟨before, c, after ++ events, by simp, ?_⟩
  rw [armings_append, hafter, hnone]
  rfl

theorem BodyBegan.lastArming {r : HttpRequest} {now : Time} (h : BodyBegan H r now) :
    lastArming .kBody H = some (now, calculateBodyReceiveDeadline now r.contentLength) := by
  obtain ⟨before, c, after, rfl, hafter⟩ := h
  have hcut (l : List Event) (e e' : Event) : l ++ e :: e' :: after = l ++ [e, e'] ++ after := by
    simp
  rw [Life.lastArming, hcut, armings_append, hafter, List.append_nil, armings_append]
  exact List.getLast?_concat

/-- A connection that waits for a body began to wait when its header was complete. -/
theorem Run.bodyBegan (h : Run fd id p c H N) : c.waitingForRequestBody = true →
    ∃ now, BodyBegan H c.pendingRequest now := by
  refine Run.invariant (I := fun _ c H => c.waitingForRequestBody = true →
    ∃ now, BodyBegan H c.pendingRequest now) (fun _ _ hw => by cases hw) ?_ h
  intro p p' c c' H N events nodes hr hI hs hw
  clear hr
  have keep (hnone : armings .kBody events = []) (hreq : c'.pendingRequest = c.pendingRequest)
      (hw : c.waitingForRequestBody = true) : ∃ now, BodyBegan (H ++ events) c'.pendingRequest now := by
    obtain ⟨now, hbegan⟩ := hI hw
    exact ⟨now, hreq ▸ hbegan.append hnone⟩
  cases hs
  case beginBody now _ _ _ => exact ⟨now, H, c, [], rfl, rfl⟩
  case bodyDone => cases hw
  case flushed | flushBlocked | sendResponse =>
    exact keep (armings_responseWrites ..) rfl hw
  all_goals exact keep rfl rfl hw

/-- The body timer of an upload still has the deadline of its header. -/
theorem Run.body_deadline (h : Run fd id p c H N) (hw : c.waitingForRequestBody = true) :
    ∃ now, lastArming .kBody H =
      some (now, calculateBodyReceiveDeadline now c.pendingRequest.contentLength) := by
  obtain ⟨now, hbegan⟩ := h.bodyBegan hw
  exact ⟨now, hbegan.lastArming⟩

/-! ## The counters -/

/-- What the counters and the request of an upload say, at every point. -/
structure BodyCounters (c : ClientConnection) : Prop where
  waiting : c.waitingForRequestBody = true →
    c.pendingBodyBytesRemaining ≤ c.pendingBodyBytesTotal ∧
      c.pendingBodyBytesTotal = c.pendingRequest.contentLength ∧
      c.pendingRequest.contentLength ≤ kMaxBodyBytes
  done : c.waitingForRequestBody = false → c.pendingBodyBytesRemaining = 0 ∧
    c.pendingBodyBytesTotal = 0 ∧ c.pendingRequest = {}

theorem BodyCounters.takeBody (hI : BodyCounters c) (hw : c.waitingForRequestBody = true) :
    BodyCounters (takeBody c) := by
  obtain ⟨hle, htotal⟩ := hI.waiting hw
  refine ⟨fun _ => ⟨?_, htotal⟩, fun hnot => absurd (hnot.symm.trans hw) Bool.false_ne_true⟩
  exact Nat.le_trans (Nat.sub_le ..) hle

theorem BodyCounters.step (hI : BodyCounters c) (h : Step fd H p c events nodes p' c') :
    BodyCounters c' := by
  obtain ⟨hwaiting, hdone⟩ := hI
  cases h
  case bodyPart hw _ _ => exact BodyCounters.takeBody ⟨hwaiting, hdone⟩ hw
  case bodyDone => exact ⟨fun hw => (by cases hw), fun _ => ⟨rfl, rfl, rfl⟩⟩
  case beginBody r now hr hs hb =>
    have hlength : r.contentLength ≤ kMaxBodyBytes := by
      simp only [expectsBody, Bool.and_eq_true, decide_eq_true_eq] at hb
      simpa [oversized, hb.1] using hs
    exact ⟨fun _ => ⟨Nat.le_refl _, rfl, hlength⟩, fun hw => by cases hw⟩
  all_goals exact ⟨hwaiting, hdone⟩

/-- The counters agree all along a run. -/
theorem Run.bodyCounters (h : Run fd id p c H N) : BodyCounters c := by
  refine Run.invariant (I := fun _ c _ => BodyCounters c) (fun _ _ => ?_) (fun _ => .step) h
  exact ⟨fun hw => (by cases hw), fun _ => ⟨rfl, rfl, rfl⟩⟩

/-! ## The other timers -/

/-- `FlushClientOutput` arms the idle timer while a body is on its way. -/
def idlesUpload : Event → Bool
  | .drained c => c.waitingForRequestBody && !c.readyForRead && !c.closeAfterWrite &&
      c.keepAliveEnabled
  | _ => false

/-- An upload that no flush interrupts has neither its header nor its idle timer armed. -/
theorem Run.upload_alone (h : Run fd id p c H N) : (∀ e ∈ H, idlesUpload e = false) →
    c.waitingForRequestBody = true →
    (c.timeout .kHeader).armed = false ∧ (c.timeout .kIdleKeepAlive).armed = false := by
  refine Run.invariant (I := fun _ c H => (∀ e ∈ H, idlesUpload e = false) →
    c.waitingForRequestBody = true →
    (c.timeout .kHeader).armed = false ∧ (c.timeout .kIdleKeepAlive).armed = false)
    (fun _ _ _ hw => by cases hw) ?_ h
  intro p p' c c' H N events nodes hr hI hs hclean hw
  clear hr
  have hI := hI fun e he => hclean e (List.mem_append_left _ he)
  have hnew := fun e he => hclean e (List.mem_append_right _ he)
  cases hs
  case beginBody => simp [rearm]
  case bodyDone => cases hw
  case idleToHeader hidle =>
    exact absurd ((hI hw).2.symm.trans hidle) (by simp)
  case drainIdle hr hcl hka =>
    have hw : c.waitingForRequestBody = true := hw
    have := hnew (.drained c) (by simp)
    simp [idlesUpload, hw, hr, hcl, hka] at this
  case settleIdle hw' _ _ _ _ => exact absurd (hw'.symm.trans hw) (by simp)
  case settleHeader hw' _ _ _ _ _ => exact absurd (hw'.symm.trans hw) (by simp)
  case request =>
    have := hI hw
    simp [ClientConnection.respond, this]
  all_goals exact hI hw

end WebServer.Life
