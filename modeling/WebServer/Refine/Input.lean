import WebServer.Refine.Output

/-!
# Reading requests as steps of the machine

Specifications of the functions of `Core/Input.lean`.
-/

namespace WebServer.Refine

open WebServer.Net WebServer.Http WebServer.Core WebServer.Life WeakestPre

variable {o : Origin} {fd : Fd} {p p' back : Point} {caller : Caller} {c c' d : ClientConnection}
  {events : List Event} {nodes : List TimerEntry} {s s' : Server} {r r' : Round}

/-- What a function that returns a Boolean leaves behind: after `true` its caller goes on at
`p`, after `false` the handler call is over. -/
def GoesOn (o : Origin) (fd : Fd) (p : Point) (b : Bool) (r : Round) : Prop :=
  Doing o fd (if b then p else .rest) r

/-- `if (!f()) return y;` after a call that goes on at `p`. -/
theorem GoesOn.guard {α : Type} {x : ServerM α} {y : α} {Q : α → Round → Prop} {b : Bool}
    (h : GoesOn o fd p b r) (hstop : Doing o fd .rest r → Q y r) (hnext : Doing o fd p r → wp x Q r) :
    wp (if !b then pure y else x) Q r := by
  cases b with
  | true => exact hnext h
  | false => exact hstop h

/-! ## Request bodies -/

theorem wp_takeBody {Q : Unit → Round → Prop} {available : Nat}
    (hf : r.server.find fd = some c)
    (ha : available = min c.pendingBodyBytesRemaining c.inputBuffer.size)
    (h : ∀ s, Moves fd c (some (takeBody c)) [] [] r.server s →
      s.readyQueue = r.server.readyQueue → Q () { r with server := s }) :
    wp (if 0 < available then consumeBodyBytes fd c available else pure ()) Q r := by
  have hsize : c.inputBuffer.size = c.inputBuffer.storage.length := rfl
  subst ha
  simp only [wp_ite, wp_pure]
  constructor
  · intro hpos
    unfold consumeBodyBytes
    rw [DynamicBuffer.consumePrefix_ok (by omega)]
    simp only [wp_bind, wp_liftOk, wp_subSize, wp_modifyServer]
    refine ⟨by omega, h _ ?_ ?_⟩
    · rw [update_eq hf]
      have hshrink : Moves fd c (some (takeBody c)) [] [] r.server _ := .shrink hf
        (n := min c.pendingBodyBytesRemaining c.inputBuffer.size) ?_ rfl (by simp)
      · rwa [log_nil] at hshrink
      · simp only [Server.buffered, takeBody, DynamicBuffer.size, List.length_drop]
        omega
    · rw [releaseInflightBytes_eq, update_eq hf]
      rfl
  · intro hzero
    have hnone : min c.pendingBodyBytesRemaining c.inputBuffer.size = 0 := by omega
    have htake : takeBody c = c := by
      simp only [takeBody, hnone, List.drop_zero, Nat.sub_zero]
    refine h r.server ?_ rfl
    rw [htake]
    exact .unmoved hf (.refl _)

/-- `ConsumePendingRequestBody` on a connection that waits for its body. -/
theorem consumePendingRequestBody_spec (hp : bodyBack p = some back) (h : Doing o fd p r)
    (hw : ∀ c, r.server.find fd = some c → c.waitingForRequestBody = true)
    (hout : p = .resumed → ∀ c, r.server.find fd = some c → c.outputBuffer = []) :
    wp (consumePendingRequestBody fd) (GoesOn o fd back) r := by
  unfold consumePendingRequestBody
  simp only [wp_bind, wp_findClient]
  cases hf : r.server.find fd with
  | none => exact h.gone hf
  | some c =>
    have hcl := h.closing hf
    have hw := hw c hf
    have hallow := Point.allows_of_bodyBack hp fun hp => hout hp c hf
    simp only [hcl, hw, Bool.false_eq_true, Bool.not_true, if_false, wp_bind]
    apply wp_takeBody hf rfl
    intro s hm hq
    unfold finishBodyIfComplete
    simp only [wp_bind, wp_findClient, hm.find_self, wp_ite, wp_pure, wp_modifyServer]
    refine ⟨fun hrest => h.step hm (.bodyPart hp hw hrest) rfl (hallow _), fun hrest => ?_⟩
    have hzero : (takeBody c).pendingBodyBytesRemaining = 0 := by omega
    have hput := hm.trans ⟨hq, rfl⟩ (.put hm.find_self (takeBody c).finishBody rfl rfl)
    have hcount := hput.trans ⟨hq, rfl⟩ (.unmoved hput.find_self (.countRequest _))
    have hrespond := hcount.trans ⟨hq, rfl⟩ (.put hcount.find_self
      ((takeBody c).finishBody.respond (keepAlive c c.pendingRequest)) rfl rfl)
    have hdispatched := hrespond.trans ⟨hq, rfl⟩ (.log hrespond.find_self (lives_singleton
      (.dispatched (takeBody c).finishBody c.pendingRequest (keepAlive c c.pendingRequest)) rfl))
    apply startOkResponse_spec (c := (takeBody c).finishBody) hcount.find_self hcl rfl
    exact h.step hdispatched (.bodyDone hp hw hzero) rfl (hallow _)

theorem beginRequestBodyReceive_spec {header : Bytes} {request : HttpRequest}
    (h : Doing o fd (.parsing caller header) r) (hr : parseRequestHeader header = .ok request)
    (hs : oversized request = false) (hb : expectsBody request = true) :
    wp (beginRequestBodyReceive fd request) (GoesOn o fd (.settling caller)) r := by
  unfold beginRequestBodyReceive
  simp only [wp_bind, wp_findClient]
  cases hf : r.server.find fd with
  | none => exact h.gone hf
  | some c =>
    have hcl := h.closing hf
    simp only [hcl, Bool.false_eq_true, if_false, wp_bind, wp_modifyServer]
    apply wp_steadyClockNow
    intro now io
    have hlog : Moves fd c (some c) _ _ _ _ := .log hf (lives_singleton (.bodyBegun c request) rfl)
    have hput := hlog.trans ⟨rfl, rfl⟩ (.put hlog.find_self (c.beginBody request) rfl rfl)
    have harm := hput.trans ⟨rfl, rfl⟩ (.armBody hput.find_self hcl now request.contentLength)
    refine consumePendingRequestBody_spec (p := .bodyBegun caller) rfl
      (h.step harm (.beginBody request now hr hs hb) rfl) (fun d hd => ?_) Point.noConfusion
    rw [harm.find_self] at hd
    cases hd
    rfl

/-! ## Headers -/

/-- A connection is refused in the middle of a call that then returns `false`. -/
theorem sendErrorResponseAndClose_spec {statusCode : Nat} (h : Doing o fd p r)
    (he : ∀ c script, r.server.find fd = some c → End fd p c (refusal fd c statusCode script)) :
    wp (sendErrorResponseAndClose fd statusCode) (fun _ r' => Doing o fd p' r') r := by
  cases hf : r.server.find fd with
  | none =>
    unfold sendErrorResponseAndClose
    simp only [wp_bind, wp_findClient, hf]
    exact h.gone hf
  | some c =>
    apply wp_sendErrorResponseAndClose hf
    intro script io
    exact h.close (.refused hf (h.closing hf) statusCode script) (he c script hf)

theorem checkHeaderLimit_spec (h : Doing o fd .received r)
    (hw : ∀ c, r.server.find fd = some c → c.waitingForRequestBody = false) :
    wp (checkHeaderLimit fd) (GoesOn o fd (.headers .readFromClient)) r := by
  unfold checkHeaderLimit
  simp only [wp_bind, wp_findClient]
  cases hf : r.server.find fd with
  | none => exact h.gone hf
  | some c =>
    have hlog : Moves fd c (some c) _ _ _ _ := .log hf (lives_singleton (.limitChecked c) rfl)
    simp only [wp_bind, wp_modifyServer, wp_ite, wp_pure]
    constructor
    · intro hlim
      exact h.step hlog (.limitOk (hw c hf) (by simpa using hlim)) rfl
    · intro hlim
      refine wp_sendErrorResponseAndClose hlog.find_self fun script io => ?_
      have hclose := hlog.trans ⟨rfl, rfl⟩ (.refused hlog.find_self (h.closing hf) 431 script)
      exact h.close hclose (.limitExceeded script (hw c hf) (by simpa using hlim))

/-- A request without a body is answered at once. -/
theorem dispatch_spec {header : Bytes} {request : HttpRequest}
    (h : Doing o fd (.parsing caller header) r) (hr : parseRequestHeader header = .ok request)
    (hs : oversized request = false) (hb : expectsBody request = false) :
    wp (startOkResponse fd request) (fun _ r' => Doing o fd (.headers caller) r')
      { r with server := countRequest r.server } := by
  cases hf : r.server.find fd with
  | none =>
    have hgone : (countRequest r.server).find fd = none := hf
    unfold startOkResponse
    simp only [wp_bind, wp_findClient, hgone]
    exact Doing.gone (h.unmoved (.countRequest _) rfl) hgone
  | some c =>
    have hcount : Moves fd c (some c) _ _ _ _ := .unmoved hf (.countRequest _)
    have hrespond := hcount.trans ⟨rfl, rfl⟩
      (.put hcount.find_self (c.respond (keepAlive c request)) rfl rfl)
    have hdispatched := hrespond.trans ⟨rfl, rfl⟩ (.log hrespond.find_self
      (lives_singleton (.dispatched c request (keepAlive c request)) rfl))
    refine startOkResponse_spec hcount.find_self (h.closing hf) rfl ?_
    exact h.step hdispatched (.request request hr hs hb) rfl

theorem processHeader_spec {header : Bytes} {next : ServerM Bool}
    (h : Doing o fd (.parsing caller header) r)
    (hnext : ∀ r', Doing o fd (.headers caller) r' → wp next (GoesOn o fd (.settling caller)) r') :
    wp (processHeader fd header next) (GoesOn o fd (.settling caller)) r := by
  unfold processHeader
  cases hr : parseRequestHeader header with
  | error e =>
    simp only [wp_bind, wp_pure]
    exact sendErrorResponseAndClose_spec h fun c script _ => .headerRefused e script hr
  | ok request =>
    simp only [wp_ite, wp_bind, wp_pure, wp_modifyServer]
    refine ⟨fun hs => ?_, fun hs => ⟨fun hb => ?_, fun hb => ?_⟩⟩
    · exact sendErrorResponseAndClose_spec h fun c script _ => .bodyRefused request script hr hs
    · exact beginRequestBodyReceive_spec h hr (by simpa [oversized] using hs) hb
    · refine wp_mono (dispatch_spec h hr (by simpa [oversized] using hs) ?_) fun _ r' h' => hnext r' h'
      simpa [expectsBody] using hb

/-- Every turn of the loop but the last pops a header. -/
theorem headerLoop_spec (turns : Nat) (h : Doing o fd (.headers caller) r) :
    wp (headerLoop fd turns) (GoesOn o fd (.settling caller)) r := by
  induction turns generalizing r with
  | zero => exact h.idle fun _ _ => .loopEnd
  | succ turns ih =>
    unfold headerLoop
    simp only [wp_bind, wp_findClient]
    cases hf : r.server.find fd with
    | none => exact h.gone hf
    | some c =>
      have hcl : ¬ c.closing = true := by simp [h.closing hf]
      simp only [if_neg hcl]
      cases hh : c.inputBuffer.hasCompleteHeader with
      | false => exact h.idle fun _ _ => .loopEnd
      | true =>
        obtain ⟨headerEnd, he, hle, hpop⟩ := DynamicBuffer.popNextHeader_ok hh
        simp only [Bool.not_true, Bool.false_eq_true, if_false, wp_bind, hpop, wp_liftOk,
          wp_subSize, wp_modifyServer]
        have hsize : c.inputBuffer.size = c.inputBuffer.storage.length := rfl
        have hrest : DynamicBuffer.size ⟨c.inputBuffer.storage.drop (headerEnd + 4)⟩ =
            c.inputBuffer.size - (headerEnd + 4) := by
          rw [DynamicBuffer.size, List.length_drop, hsize]
        refine ⟨by omega, processHeader_spec ?_ fun r' h' => ih h'⟩
        refine h.step (.shrink hf ?_ rfl ?_) (.pop headerEnd he) rfl
        · simp only [Server.buffered]
          omega
        · exact lives_singleton (.popped c _) rfl

/-! ## After the header loop -/

theorem settleConnection_spec (h : Doing o fd (.settling caller) r) :
    wp (settleConnection fd) (GoesOn o fd caller.back) r := by
  unfold settleConnection
  simp only [wp_bind, wp_findClient]
  cases hf : r.server.find fd with
  | none => exact h.gone hf
  | some c =>
    have hcl := h.closing hf
    have hlog : Moves fd c (some c) _ _ _ _ := .log hf (lives_singleton (.settled c) rfl)
    simp only [hcl, Bool.false_eq_true, if_false, wp_bind, wp_modifyServer, wp_ite, wp_pure]
    refine ⟨fun hw => h.step hlog (.settleWaiting hw) rfl, fun hw => ⟨fun hh => ?_, fun hh => ?_⟩⟩
    · simp only [Bool.not_eq_true] at hw
      exact h.step (hlog.trans ⟨rfl, rfl⟩ (.enqueue hlog.find_self hcl)) (.settleQueued hw hh) rfl
    simp only [Bool.not_eq_true] at hw hh
    refine ⟨fun hclose => ?_, fun hkeep => ⟨fun hidle => ?_, fun hpass => ?_⟩⟩
    · simp only [Bool.and_eq_true, decide_eq_true_eq] at hclose
      obtain ⟨⟨hout, hcaw⟩, -⟩ := hclose
      exact h.close (hlog.trans ⟨rfl, rfl⟩ (.close hlog.find_self hcl .allHandled))
        (.allHandled hw hout hcaw)
    · simp only [Bool.and_eq_true, decide_eq_true_eq, Bool.not_eq_true'] at hidle
      obtain ⟨⟨hout, hcaw⟩, hr⟩ := hidle
      apply wp_steadyClockNow
      intro now io
      apply Doing.poll (r := { r with server := _, io := io })
      cases hin : c.inputBuffer.empty with
      | true =>
        exact h.step (hlog.trans ⟨rfl, rfl⟩ (.armIdle hlog.find_self hcl now))
          (.settleIdle now hw (DynamicBuffer.empty_iff.mp hin) hout hcaw hr) rfl
      | false =>
        have hin : c.inputBuffer.storage ≠ [] := fun e => by
          rw [DynamicBuffer.empty_iff.mpr e] at hin
          cases hin
        exact h.step (hlog.trans ⟨rfl, rfl⟩ (.armHeader hlog.find_self hcl now))
          (.settleHeader now hw hh hin hout hcaw hr) rfl
    · refine h.step hlog (.settlePass hw hh ?_) rfl
      by_contra hnot
      simp only [not_or, not_not, Bool.not_eq_true] at hnot
      obtain ⟨hout, hr⟩ := hnot
      cases hcaw : c.closeAfterWrite <;> simp [hout, hr, hcaw] at hkeep hpass

theorem processBufferedHeaders_spec (h : Doing o fd (.headers caller) r) :
    wp (processBufferedHeaders fd) (GoesOn o fd caller.back) r := by
  unfold processBufferedHeaders
  rw [wp_bind]
  exact wp_mono (headerLoop_spec _ h) fun _ _ h' => h'.guard id settleConnection_spec

/-! ## Reading -/

theorem readBudgetExhausted_spec (h : Doing o fd .reading r) (hr : r.budget.readRemaining = 0) :
    wp (readBudgetExhausted fd) (fun _ r' => Doing o fd .rest r') r := by
  unfold readBudgetExhausted
  simp only [wp_bind, wp_modifyServer]
  cases hf : r.server.find fd with
  | none =>
    have hupdate : r.server.update fd (fun c => { c with readyForRead := true }) = r.server := by
      rw [Server.update, hf]
    rw [hupdate, enqueueReadyConnection, hf]
    exact h.gone hf
  | some c =>
    have hcl := h.closing hf
    have hall := h.budget c hf
    rw [hr, Nat.zero_add] at hall
    rw [update_eq hf]
    have hput := Moves.put hf { c with readyForRead := true } rfl rfl
    exact h.step (hput.trans ⟨rfl, rfl⟩ (.enqueue hput.find_self hcl)) (.readExhausted hall) rfl

theorem processChunk_spec (h : Doing o fd .received r) :
    wp (processChunk fd) (GoesOn o fd .reading) r := by
  unfold processChunk
  simp only [wp_bind, wp_findClient]
  cases hf : r.server.find fd with
  | none => exact h.gone hf
  | some c =>
    rw [wp_ite, wp_bind]
    have hself (b : Bool) (hw : c.waitingForRequestBody = b) :
        ∀ d, r.server.find fd = some d → d.waitingForRequestBody = b := fun d hd => by
      rw [hf] at hd
      cases hd
      exact hw
    refine ⟨fun hw => consumePendingRequestBody_spec rfl h (hself true hw) Point.noConfusion, fun hw => ?_⟩
    have hw := hself false (by simpa using hw)
    exact wp_mono (checkHeaderLimit_spec h hw) fun _ _ h' => h'.guard id processBufferedHeaders_spec

/-- The bytes of a `read()` are put into the buffer, or the connection is refused. -/
theorem recv_spec {data : Bytes} (h : Doing o fd .reading r)
    (hf : r.server.find fd = some c) (hd : data ≠ [])
    (hlen : data.length ≤ min kReadChunkSize r.budget.readRemaining)
    (hs : s = r.server.log [.read c (.got data)])
    (hr' : r' = { r with
      server := s
      budget := { r.budget with readRemaining := r.budget.readRemaining - data.length } }) :
    wp (appendToInputBuffer fd data) (GoesOn o fd .received) r' := by
  have hcl := h.closing hf
  have hread : Moves fd c (some c) _ _ _ _ :=
    .log hf (lives_singleton (.read c (.got data)) rfl)
  rw [← hs] at hread
  have hreserved := hread.trans ⟨by rw [hs]; rfl, rfl⟩ (.log hread.find_self (lives_singleton
    (.reserved (some c) .inputAppend data.length s.globalInflightBytes) rfl))
  unfold appendToInputBuffer
  rw [if_neg (by simpa using hd), wp_bind]
  subst hr'
  refine wp_tryReserveInflightBytes hread.find_self (by simpa using hd) rfl (fun hok => ?_)
    fun hover script io => ?_
  · simp only [Bool.not_true, Bool.false_eq_true, if_false, wp_bind, wp_modifyServer, wp_pure]
    rw [update_eq hreserved.find_self]
    refine h.stepReading (hreserved.trans ⟨by rw [hs]; rfl, rfl⟩ (.grow hreserved.find_self ?_ rfl hok))
      (.recv data _ hd (by omega) hok) ?_
    · simp only [Server.buffered, DynamicBuffer.size_append]
      omega
    · have hgot : received ([.read c (.got data)] ++
          [.reserved (some c) .inputAppend data.length s.globalInflightBytes] ++ []) = data := by
        simp [received, bytesRead]
      rw [hgot]
      show r.budget.readRemaining ≤ r.budget.readRemaining - data.length + data.length
      omega
  · refine h.close (hreserved.trans ⟨by rw [hs]; rfl, rfl⟩ (.refused hreserved.find_self hcl 503 script)) ?_
    exact .recvRefused data _ script hd hover

/-- `ReadFromClient` from a `read()` that returned bytes on. -/
theorem receive_spec {data : Bytes} {next : ServerM Unit} (h : Doing o fd .reading r)
    (hf : r.server.find fd = some c) (hd : data ≠ [])
    (hlen : data.length ≤ min kReadChunkSize r.budget.readRemaining)
    (hs : s = r.server.log [.read c (.got data)])
    (hnext : ∀ r', Doing o fd .reading r' → wp next (fun _ r' => Doing o fd .rest r') r') :
    wp (receive fd data next) (fun _ r' => Doing o fd .rest r') { r with server := s } := by
  unfold receive
  simp only [wp_bind, wp_get, wp_subSize, wp_modify]
  refine ⟨by omega, wp_mono (recv_spec h hf hd hlen hs rfl) fun _ r₁ h₁ => h₁.guard id fun h₁ => ?_⟩
  rw [wp_bind]
  refine wp_mono (processChunk_spec h₁) fun _ r₂ h₂ => h₂.guard id fun h₂ => ?_
  rw [wp_bind, wp_findClient]
  cases hf₂ : r₂.server.find fd with
  | none => exact h₂.gone hf₂
  | some d =>
    simp only [wp_bind, wp_get, wp_ite]
    exact ⟨readBudgetExhausted_spec h₂, fun _ => hnext r₂ h₂⟩

theorem readTurn_spec {answer : ReadResult} {next : ServerM Unit} (h : Doing o fd .reading r)
    (hnext : answer ≠ .failed .eagain →
      ∀ r', Doing o fd .reading r' → wp next (fun _ r' => Doing o fd .rest r') r') :
    wp (readTurn fd answer next) (fun _ r' => Doing o fd .rest r') r := by
  unfold readTurn
  simp only [wp_bind, wp_findClient]
  cases hf : r.server.find fd with
  | none => exact h.gone hf
  | some c =>
    have hcl := h.closing hf
    have hread (answer : ReadResult) : Moves fd c (some c) _ _ _ _ :=
      .log hf (lives_singleton (.read c answer) rfl)
    have hfailed (errno : Errno) (h₁ : errno ≠ .eagain) (h₂ : errno ≠ .eintr) :
        Doing o fd .rest { r with
          server := closeClientConnection fd .readFailed
            (recordErrorMetric (r.server.log [.read c (.failed errno)])) } := by
      have herror := (hread (.failed errno)).trans ⟨rfl, rfl⟩
        (.unmoved (hread _).find_self (.recordErrorMetric _))
      exact h.close (herror.trans ⟨rfl, rfl⟩ (.close herror.find_self hcl .readFailed))
        (.readFailed errno h₁ h₂)
    simp only [hcl, Bool.false_eq_true, if_false, wp_bind, wp_get, wp_ite, wp_modifyServer]
    refine ⟨readBudgetExhausted_spec h, fun _ => ?_⟩
    cases answer with
    | failed errno =>
      cases errno with
      | eagain => exact h.step (hread _) .readNothing rfl
      | eintr => exact hnext (by simp) _ (h.step (hread _) .readAgain rfl)
      | econnaborted | emfile | enfile | other => exact hfailed _ (by simp) (by simp)
    | got data =>
      have hlen : (data.take (min kReadChunkSize r.budget.readRemaining)).length ≤
          min kReadChunkSize r.budget.readRemaining := List.length_take_le ..
      simp only [ReadResult.clip]
      generalize data.take _ = got at hlen
      cases got with
      | nil =>
        have hclose := (hread (.got [])).trans ⟨rfl, rfl⟩ (.close (hread _).find_self hcl .peerClosed)
        exact h.close hclose .peerClosed
      | cons b got => exact receive_spec h hf (by simp) hlen rfl (hnext (by simp))

theorem readLoop_spec (answers : List ReadResult) (h : Doing o fd .reading r) :
    wp (readLoop fd answers) (fun _ r' => Doing o fd .rest r') r := by
  induction answers generalizing r with
  | nil => exact readTurn_spec h fun hne => absurd rfl hne
  | cons answer answers ih => exact readTurn_spec h fun _ r' h' => ih h'

theorem readFromClient_spec (h : Doing o fd .reading r) :
    wp (readFromClient fd) (fun _ r' => Doing o fd .rest r') r := by
  unfold readFromClient
  rw [wp_bind, wp_get]
  exact readLoop_spec _ h

end WebServer.Refine
