import WebServer.Life.Body

/-!
# The bytes on the wire

What the socket has taken, what the output buffer holds and what `StartOkResponse`
still owes are together the responses dispatched so far.  An error response keeps
this order unless a request is refused while something is still unsent.
-/

namespace WebServer.Life

open WebServer.Net WebServer.Http WebServer.Core

variable {fd : Fd} {id : Nat} {p p' : Point} {c c' : ClientConnection} {H : List Event}
  {events : List Event} {N nodes : List TimerEntry}

/-! ## 200 responses -/

/-- The part of the current response that is neither sent nor buffered. -/
def Point.owed : Point → Bytes
  | .answering _ owed => owed
  | _ => []

theorem Point.Returns.owed (h : p.Returns) : ∀ back owed,
    p = .flushing back ∨ p = .answering back owed → back.owed = [] := by
  rintro back owed (rfl | rfl)
  · rcases h with rfl | rfl <;> rfl
  · rcases h with rfl | rfl | ⟨caller, rfl | rfl⟩ <;> rfl

theorem bodyBack_owed {back : Point} (h : bodyBack p = some back) :
    p.owed = [] ∧ back.owed = [] := by
  cases p <;> cases h <;> exact ⟨rfl, rfl⟩

/-- Sent, buffered and owed bytes are the dispatched responses, in order. -/
def Delivered (p : Point) (c : ClientConnection) (H : List Event) : Prop :=
  accepted .response H ++ (c.outputBuffer ++ p.owed) = responses H

theorem responses_responseWrites (fd : Fd) (life : Nat) (data : Bytes)
    (script : List WriteResult) : responses (responseWrites fd life data script) = [] :=
  flatMap_responseWrites (fun _ _ _ _ _ => rfl) ..

/-- A `write()` of a first part of the bytes to send takes exactly what it reports. -/
theorem accepted_write {data : Bytes} {attempt n : Nat} {script : List WriteResult}
    (h : (writeSomeNonBlocking (data.take attempt) script).2.2 = .ok n) (fd : Fd) (life : Nat) :
    accepted .response (responseWrites fd life (data.take attempt) script) = data.take n := by
  have hle := writeSomeNonBlocking_le h
  rw [accepted_responseWrites, h]
  simp only [List.take_take]
  congr 1
  rw [List.length_take] at hle
  omega

/-- A step that moves no response byte. -/
theorem Delivered.idle (hI : Delivered p c H) (ha : accepted .response events = [])
    (hr : responses events = []) (hb : c'.outputBuffer ++ p'.owed = c.outputBuffer ++ p.owed) :
    Delivered p' c' (H ++ events) := by
  unfold Delivered at hI ⊢
  rw [accepted_append, responses_append, ha, hr, List.append_nil, List.append_nil, hb, hI]

theorem Delivered.step (hr : Run fd id p c H N) (hI : Delivered p c H)
    (h : Step fd H p c events nodes p' c') : Delivered p' c' (H ++ events) := by
  have hret := hr.returns
  cases h
  case flushed attempt n script hw =>
    have : accepted .response H ++ (c.outputBuffer ++ []) = responses H := hI
    unfold Delivered
    rw [accepted_append, responses_append, accepted_write hw, responses_responseWrites, ← this]
    simp [Point.owed]
  case flushBlocked attempt script hout hw =>
    apply hI.idle (by rw [accepted_write hw]; rfl) (responses_responseWrites ..)
    rw [hret.owed _ [] (.inl rfl)]
    rfl
  case flushPaused | drainQueued | drainIdle | drainStop =>
    apply hI.idle rfl rfl
    rw [hret.owed _ [] (.inl rfl)]
    rfl
  case flushBegin hp hout => rcases hp with rfl | rfl <;> exact hI.idle rfl rfl rfl
  case bodyPart hw h hp =>
    apply hI.idle rfl rfl
    rw [(bodyBack_owed hp).1, (bodyBack_owed hp).2]
    rfl
  case bodyDone hp hw h =>
    unfold Delivered at hI ⊢
    rw [(bodyBack_owed hp).1, List.append_nil] at hI
    rw [accepted_append, responses_append, ← hI]
    simp [accepted, bytesWritten, responses, responseOf, ClientConnection.respond,
      ClientConnection.finishBody, takeBody, Point.owed, okResponse]
  case request =>
    unfold Delivered at hI ⊢
    rw [accepted_append, responses_append, ← hI]
    simp [accepted, bytesWritten, responses, responseOf, ClientConnection.respond, Point.owed,
      okResponse]
  case settleWaiting | settleIdle | settleHeader | settlePass =>
    rename Caller => caller
    cases caller <;> exact hI.idle rfl rfl rfl
  case appendResponse =>
    apply hI.idle rfl rfl
    rw [hret.owed _ _ (.inr rfl), List.append_nil]
    rfl
  case sendResponse attempt n script hw hout =>
    unfold Delivered at hI ⊢
    rw [hout] at hI ⊢
    rw [accepted_append, responses_append, accepted_write hw, responses_responseWrites, ← hI]
    simp [Point.owed]
  case sentResponse =>
    apply hI.idle rfl rfl
    rw [hret.owed _ _ (.inr rfl)]
    rfl
  case storeResponse hout =>
    apply hI.idle rfl rfl
    rw [hret.owed _ _ (.inr rfl), hout, List.append_nil]
    rfl
  all_goals exact hI.idle rfl rfl rfl

/-- **Delivery.**  No byte of a response is lost, doubled or moved along a run. -/
theorem Run.delivered (h : Run fd id p c H N) : Delivered p c H := by
  refine Run.invariant (I := Delivered) (fun _ _ => ?_) (fun hr hI hs => hI.step hr hs) h
  rfl

/-! ## Refusals -/

theorem responses_refusal (c : ClientConnection) (statusCode : Nat) (script : List WriteResult) :
    responses (refusal fd c statusCode script) = [] :=
  flatMap_refusal (fun _ _ _ _ _ => rfl) c statusCode script

theorem accepted_response_refusal (c : ClientConnection) (statusCode : Nat)
    (script : List WriteResult) : accepted .response (refusal fd c statusCode script) = [] := by
  have := accepted_response_errorWrites fd c.connectionId (errorResponse statusCode) script
  simp only [accepted] at this
  simp [accepted, refusal, this, bytesWritten]

/-- An end starts no response, and sends no byte of one. -/
theorem End.silent (h : End fd p c events) :
    responses events = [] ∧ accepted .response events = [] := by
  have hresp (c code script) : responses (refusal fd c code script) = [] :=
    responses_refusal c code script
  have hacc (c code script) : accepted .response (refusal fd c code script) = [] :=
    accepted_response_refusal c code script
  cases h
  case flushFailed hw | sendFailed hw _ =>
    rw [responses_append, accepted_append, responses_responseWrites, accepted_responseWrites, hw]
    exact ⟨rfl, rfl⟩
  case headerRefused | bodyRefused => exact ⟨hresp .., hacc ..⟩
  case recvRefused =>
    rw [responses_append, accepted_append, hresp, hacc]
    exact ⟨rfl, rfl⟩
  case limitExceeded | answerRefused =>
    rw [responses_cons, accepted_cons, hresp, hacc]
    exact ⟨rfl, rfl⟩
  all_goals exact ⟨rfl, rfl⟩

/-- When a connection is closed, what the socket took is a first part of the responses. -/
theorem Ended.accepted_prefix (h : Ended fd id H) : accepted .response H <+: responses H := by
  obtain ⟨p, c, H₀, N, events, hr, he, rfl⟩ := h
  obtain ⟨hresp, hacc⟩ := he.silent
  rw [accepted_append, responses_append, hresp, hacc, List.append_nil, List.append_nil,
    ← hr.delivered]
  exact List.prefix_append ..

end WebServer.Life
