import WebServer.Life.Framing

/-!
# What the bytes of a client pay for

Every byte that is read brings two credits.  They pay for the read, for taking requests out of the
buffer, for answering them and for getting the responses sent.
-/

namespace WebServer.Life

open WebServer.Net WebServer.Http WebServer.Core

variable {fd : Fd} {id : Nat} {p p' : Point} {c c' : ClientConnection} {H : List Event}
  {events : List Event} {N nodes : List TimerEntry}

/-- Events behind which a connection may be put into the ReadyQueue. -/
def isProgress : Event → Bool
  | .popped .. | .dispatched .. | .drained _ => true
  | .read _ (.got data) => data ≠ []
  | _ => false

def progress (H : List Event) : Nat := H.countP isProgress

@[simp] theorem progress_append (H H' : List Event) :
    progress (H ++ H') = progress H + progress H' := List.countP_append

theorem progress_responseWrites (fd : Fd) (life : Nat) (data : Bytes) (script : List WriteResult) :
    progress (responseWrites fd life data script) = 0 := by
  rw [progress, List.countP_eq_zero]
  intro e he
  obtain ⟨answer, -, rfl⟩ := List.mem_map.mp he
  exact Bool.false_ne_true

theorem progress_refusal (fd : Fd) (c : ClientConnection) (statusCode : Nat)
    (script : List WriteResult) : progress (refusal fd c statusCode script) = 0 := by
  rw [progress, List.countP_eq_zero]
  intro e he
  unfold refusal at he
  simp only [List.mem_cons, List.mem_append, List.not_mem_nil, or_false] at he
  rcases he with rfl | he | rfl
  · exact Bool.false_ne_true
  · obtain ⟨answer, -, rfl⟩ := List.mem_map.mp he
    exact Bool.false_ne_true
  · exact Bool.false_ne_true

/-! ## Credits -/

/-- What is still to be paid for at a point: a request that has been taken out of the buffer is to
be answered, and the response to it is to be sent. -/
def owes : Point → Nat
  | .parsing .. => 2
  | .answering back _ => 1 + owes back
  | .flushing back => 1 + owes back
  | _ => 0

def Point.isFlushing : Point → Bool
  | .flushing _ => true
  | _ => false

def unsent (p : Point) (c : ClientConnection) : Nat :=
  if c.outputBuffer ≠ [] && !p.isFlushing then 1 else 0

/-- The credits of a connection.  One for every byte in the buffer is enough, as a header block is
at least four bytes long. -/
def credit (p : Point) (c : ClientConnection) : Nat :=
  c.inputBuffer.storage.length + owes p + (if c.waitingForRequestBody then 2 else 0) + unsent p c

/-- What has been paid for and what is left. -/
def Paid (p : Point) (c : ClientConnection) (H : List Event) : Prop :=
  progress H + credit p c ≤ 2 * (received H).length

theorem unsent_le (p : Point) (c : ClientConnection) : unsent p c ≤ 1 := by
  unfold unsent
  split
  · exact Nat.le_refl 1
  · exact Nat.zero_le 1

theorem unsent_of_plain (hp : p.isFlushing = false) (c : ClientConnection) :
    unsent p c = if c.outputBuffer = [] then 0 else 1 := by
  by_cases hout : c.outputBuffer = [] <;> simp [unsent, hp, hout]

theorem unsent_flushing (back : Point) (c : ClientConnection) : unsent (.flushing back) c = 0 := by
  simp [unsent, Point.isFlushing]

theorem plain_back (caller : Caller) : owes caller.back = 0 ∧ caller.back.isFlushing = false := by
  cases caller <;> exact ⟨rfl, rfl⟩

theorem plain_bodyBack (h : bodyBack p = some p') :
    owes p = 0 ∧ owes p' = 0 ∧ p.isFlushing = false ∧ p'.isFlushing = false := by
  cases p <;> cases h <;> exact ⟨rfl, rfl, rfl, rfl⟩

/-- Nothing new is owed. -/
theorem credit_le (hbuffer : c'.inputBuffer.storage.length ≤ c.inputBuffer.storage.length)
    (hwaiting : c'.waitingForRequestBody = c.waitingForRequestBody)
    (hout : c'.outputBuffer = c.outputBuffer) (howes : owes p' ≤ owes p)
    (hp : p.isFlushing = false) : credit p' c' ≤ credit p c := by
  have hunsent : unsent p' c' ≤ unsent p c := by
    rw [unsent_of_plain hp, ← hout]
    unfold unsent
    by_cases hempty : c'.outputBuffer = [] <;> simp [hempty]
    split <;> omega
  unfold credit
  rw [hwaiting]
  omega

/-- The responses are on their way or have been sent. -/
theorem credit_flushing_le (back : Point) (hbuffer : c'.inputBuffer = c.inputBuffer)
    (hwaiting : c'.waitingForRequestBody = c.waitingForRequestBody) :
    credit back c' ≤ credit (.flushing back) c := by
  have hunsent := unsent_le back c'
  unfold credit
  rw [hbuffer, hwaiting, owes]
  omega

theorem credit_drained_le (back : Point) (hout : c'.outputBuffer = [])
    (hbuffer : c'.inputBuffer = c.inputBuffer)
    (hwaiting : c'.waitingForRequestBody = c.waitingForRequestBody) :
    1 + credit back c' ≤ credit (.flushing back) c := by
  have hunsent : unsent back c' = 0 := by simp [unsent, hout]
  unfold credit
  rw [hbuffer, hwaiting, owes, hunsent]
  omega

theorem credit_answered_le (back : Point) (owed : Bytes) (hbuffer : c'.inputBuffer = c.inputBuffer)
    (hwaiting : c'.waitingForRequestBody = c.waitingForRequestBody) :
    credit back c' ≤ credit (.answering back owed) c := by
  have hunsent := unsent_le back c'
  unfold credit
  rw [hbuffer, hwaiting, owes]
  omega

/-- A step costs no more than it brings. -/
theorem Step.cost_le (hs : Step fd H p c events nodes p' c') :
    progress events + credit p' c' ≤ credit p c + 2 * (received events).length := by
  have hsilent (hnone : progress events = 0) (hle : credit p' c' ≤ credit p c) :
      progress events + credit p' c' ≤ credit p c + 2 * (received events).length := by
    omega
  cases hs
  case flushBegin hp hout =>
    refine hsilent rfl ?_
    rcases hp with rfl | rfl <;> simp [credit, unsent, owes, Point.isFlushing, hout] <;> omega
  case flushed =>
    refine hsilent (progress_responseWrites ..) ?_
    unfold credit
    rw [unsent_flushing, unsent_flushing]
  case flushBlocked =>
    exact hsilent (progress_responseWrites ..) (credit_flushing_le _ rfl rfl)
  case flushPaused => exact hsilent rfl (credit_flushing_le _ rfl rfl)
  case drainQueued hout _ | drainIdle hout _ _ _ _ | drainStop hout _ _ _ _ =>
    exact Nat.le_add_right_of_le (credit_drained_le _ hout rfl rfl)
  case recv data inflight hd _ _ =>
    have hpos := List.length_pos_iff.mpr hd
    have hone : progress [.read c (.got data), .reserved (some c) .inputAppend data.length inflight] =
        1 := by simp [progress, isProgress, hd]
    have hread : received [.read c (.got data),
        .reserved (some c) .inputAppend data.length inflight] = data := by
      simp [received, bytesRead]
    have hbuffer : (c.inputBuffer.append data).storage.length =
        c.inputBuffer.storage.length + data.length := List.length_append
    rw [hone, hread]
    unfold credit
    rw [hbuffer, unsent_of_plain rfl, unsent_of_plain rfl]
    simp only [owes]
    omega
  case bodyPart hw _ hp =>
    obtain ⟨howes, howes', hplain, -⟩ := plain_bodyBack hp
    refine hsilent rfl (credit_le ?_ rfl rfl (by omega) hplain)
    exact (List.length_drop ..).trans_le (Nat.sub_le ..)
  case bodyDone back hp hw _ =>
    obtain ⟨howes, howes', hplain, -⟩ := plain_bodyBack hp
    have hbuffer : (takeBody c).inputBuffer.storage.length ≤ c.inputBuffer.storage.length :=
      (List.length_drop ..).trans_le (Nat.sub_le ..)
    have hone : progress [.dispatched (takeBody c).finishBody c.pendingRequest
        (keepAlive c c.pendingRequest)] = 1 := rfl
    rw [hone]
    unfold credit
    rw [unsent_of_plain rfl, unsent_of_plain hplain, if_pos hw]
    simp only [owes, howes, howes']
    show 1 + ((takeBody c).inputBuffer.storage.length + _ + (if false = true then 2 else 0) +
      if c.outputBuffer = [] then 0 else 1) ≤ _
    simp only [Bool.false_eq_true, if_false]
    omega
  case pop caller headerEnd he =>
    have hle : headerEnd + 4 ≤ c.inputBuffer.storage.length := find?_crlfcrlf_le he
    have hone : progress [.popped c (c.inputBuffer.storage.take (headerEnd + 4))] = 1 := rfl
    rw [hone]
    unfold credit
    rw [unsent_of_plain rfl, unsent_of_plain rfl]
    simp only [owes, List.length_drop]
    omega
  case request r _ _ _ =>
    have hone : progress [.dispatched c r (keepAlive c r)] = 1 := rfl
    rw [hone]
    unfold credit
    rw [unsent_of_plain rfl, unsent_of_plain rfl]
    simp only [owes]
    show 1 + (c.inputBuffer.storage.length + _ + (if c.waitingForRequestBody = true then 2 else 0) +
      if c.outputBuffer = [] then 0 else 1) ≤ _
    omega
  case beginBody r now _ _ _ =>
    refine hsilent rfl ?_
    unfold credit
    rw [unsent_of_plain rfl, unsent_of_plain rfl]
    simp only [owes]
    show c.inputBuffer.storage.length + 0 + (if true = true then 2 else 0) +
      (if c.outputBuffer = [] then 0 else 1) ≤ _
    simp only [if_true]
    omega
  case settleWaiting | settleIdle | settleHeader | settlePass =>
    exact hsilent rfl (credit_le (Nat.le_refl _) rfl rfl (plain_back _).1.le rfl)
  case appendResponse | sentResponse | storeResponse =>
    exact hsilent rfl (credit_answered_le _ _ rfl rfl)
  case sendResponse => exact hsilent (progress_responseWrites ..) (Nat.le_refl _)
  all_goals exact hsilent rfl (credit_le (Nat.le_refl _) rfl rfl (Nat.le_refl _) rfl)

theorem Paid.step (h : Paid p c H) (hs : Step fd H p c events nodes p' c') :
    Paid p' c' (H ++ events) := by
  have hcost := hs.cost_le
  unfold Paid at h ⊢
  rw [progress_append, received_append, List.length_append]
  omega

theorem Run.paid (h : Run fd id p c H N) : Paid p c H := by
  refine Run.invariant (I := fun p c H => Paid p c H) (fun _ _ => ?_)
    (fun _ hI hs => Paid.step hI hs) h
  exact Nat.le_refl 0

/-- Neither does the end of a connection. -/
theorem End.cost_le (he : End fd p c events) :
    progress events ≤ credit p c + 2 * (received events).length := by
  have hsilent (hnone : progress events = 0) :
      progress events ≤ credit p c + 2 * (received events).length := by
    omega
  cases he
  case drained back hout =>
    have hone : 1 + credit back c ≤ credit (.flushing back) c := credit_drained_le back hout rfl rfl
    exact Nat.le_add_right_of_le ((Nat.le_add_right ..).trans hone)
  case flushFailed | sendFailed =>
    refine hsilent ?_
    rw [progress_append, progress_responseWrites]
    rfl
  case recvRefused data inflight script hd _ =>
    have hpos := List.length_pos_iff.mpr hd
    rw [progress_append, progress_refusal, received_append]
    have hone : progress [.read c (.got data), .reserved (some c) .inputAppend data.length inflight] =
        1 := by simp [progress, isProgress, hd]
    have hread : received [.read c (.got data),
        .reserved (some c) .inputAppend data.length inflight] = data := by
      simp [received, bytesRead]
    rw [hone, hread, List.length_append]
    omega
  case limitExceeded | answerRefused =>
    refine hsilent ?_
    rw [← List.singleton_append, progress_append, progress_refusal]
    rfl
  case headerRefused | bodyRefused => exact hsilent (progress_refusal ..)
  all_goals exact hsilent rfl

theorem Ended.paid (h : Ended fd id H) : progress H ≤ 2 * (received H).length := by
  obtain ⟨p, c, H₀, N, events, hr, he, rfl⟩ := h
  have hpaid := hr.paid
  have hcost := End.cost_le he
  unfold Paid at hpaid
  rw [progress_append, received_append, List.length_append]
  omega

end WebServer.Life
