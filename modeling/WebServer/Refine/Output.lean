import WebServer.Refine.Since

/-!
# Responses and flushes as steps of the machine

Specifications of the functions of `Core/Output.lean`.  A handler holds `fd` at a
point of the machine; each function takes it from one point to another.
-/

namespace WebServer.Refine

open WebServer.Net WebServer.Http WebServer.Core WebServer.Life WeakestPre

variable {o : Origin} {fd : Fd} {p p' back : Point} {c c' d : ClientConnection} {events : List Event}
  {nodes : List TimerEntry} {s s' : Server} {r r' : Round}

/-- A handler works on `fd` and stands at the point `p`; what it may still read and what the
connection has received make up at least the budget of one handler call. -/
structure Held (fd : Fd) (p : Point) (r : Round) : Prop where
  refines : Refines fd p r.server
  budget : ∀ c, r.server.find fd = some c → kMaxReadBytesPerEvent ≤
    r.budget.readRemaining + (received (history c.connectionId r.server.trace)).length

namespace Held

/-- The connection a handler works on is in a run of the machine. -/
theorem run (h : Held fd p r) (hf : r.server.find fd = some c) :
    Run fd c.connectionId p c (history c.connectionId r.server.trace)
      (nodesOf c.connectionId r.server.timerHeap) :=
  h.refines.run hf

theorem closing (h : Held fd p r) (hf : r.server.find fd = some c) : c.closing = false :=
  (h.run hf).closing

/-- A connection that is gone stands at every point. -/
theorem gone (h : Held fd p r) (hf : r.server.find fd = none) : Held fd p' r := by
  refine ⟨⟨fun fd' c hc => ?_, h.refines.gone, h.refines.ids, h.refines.distinct, h.refines.fresh,
    h.refines.nodup, h.refines.queued, h.refines.listening, h.refines.balance, h.refines.metric,
    h.refines.bounded, h.refines.releases⟩, fun c hc => ?_⟩
  · have hne : fd' ≠ fd := by
      rintro rfl
      rw [hf] at hc
      cases hc
    have := h.refines.live fd' c hc
    rwa [pointOf, if_neg hne] at this ⊢
  · rw [hf] at hc
    cases hc

/-- A step that reads takes the bytes from the budget. -/
theorem stepReading (h : Held fd p r) (hm : Moves fd c (some c') events nodes r.server r'.server)
    (hs : Step fd (history c.connectionId r.server.trace) p c events nodes p' c')
    (hread : r.budget.readRemaining ≤ r'.budget.readRemaining + (received events).length) :
    Held fd p' r' := by
  refine ⟨h.refines.step hm hs, fun d hd => ?_⟩
  rw [hm.find_self] at hd
  cases hd
  have := h.budget c hm.found
  rw [hs.connectionId, hm.history_self hs.lives, received_append, List.length_append]
  omega

theorem step (h : Held fd p r) (hm : Moves fd c (some c') events nodes r.server r'.server)
    (hs : Step fd (history c.connectionId r.server.trace) p c events nodes p' c')
    (hread : r'.budget.readRemaining = r.budget.readRemaining) : Held fd p' r' :=
  h.stepReading hm hs (hread ▸ Nat.le_add_right ..)

theorem close (h : Held fd p r) (hm : Moves fd c none events [] r.server r'.server)
    (he : End fd p c events) : Held fd p' r' := by
  refine ⟨h.refines.close hm he, fun d hd => ?_⟩
  rw [hm.find_self] at hd
  cases hd

theorem unmoved (h : Held fd p r) (hm : Unmoved r.server r'.server)
    (hread : r'.budget.readRemaining = r.budget.readRemaining) : Held fd p r' := by
  refine ⟨h.refines.unmoved hm, fun d hd => ?_⟩
  obtain ⟨tr, htr, hnone⟩ := hm.trace
  have hd : r.server.find fd = some d := by rwa [Server.find, hm.clients] at hd
  have hnew : history d.connectionId tr = [] :=
    history_of_others fun e he => by simp [(hnone e he).1]
  rw [hread, htr, history_append, hnew, List.append_nil]
  exact h.budget d hd

end Held

/-- A handler works on `fd`, stands at `p`, and has come there from where its call began. -/
structure Doing (o : Origin) (fd : Fd) (p : Point) (r : Round) : Prop extends Held fd p r where
  since : Since o fd p r.server

namespace Doing

theorem gone (h : Doing o fd p r) (hf : r.server.find fd = none) : Doing o fd p' r :=
  ⟨h.toHeld.gone hf, h.since.gone hf⟩

theorem stepReading (h : Doing o fd p r) (hm : Moves fd c (some c') events nodes r.server r'.server)
    (hs : Step fd (history c.connectionId r.server.trace) p c events nodes p' c')
    (hread : r.budget.readRemaining ≤ r'.budget.readRemaining + (received events).length)
    (hallow : p.allows c p' := by trivial) : Doing o fd p' r' :=
  ⟨h.toHeld.stepReading hm hs hread, h.since.step hm hs hallow⟩

theorem step (h : Doing o fd p r) (hm : Moves fd c (some c') events nodes r.server r'.server)
    (hs : Step fd (history c.connectionId r.server.trace) p c events nodes p' c')
    (hread : r'.budget.readRemaining = r.budget.readRemaining)
    (hallow : p.allows c p' := by trivial) : Doing o fd p' r' :=
  ⟨h.toHeld.step hm hs hread, h.since.step hm hs hallow⟩

theorem idleAt (h : Doing o fd p r) (hf : r.server.find fd = some c)
    (hs : Step fd (history c.connectionId r.server.trace) p c [] [] p' c)
    (hallow : p.allows c p' := by trivial) : Doing o fd p' r :=
  h.step (.unmoved hf (.refl _)) hs rfl hallow

theorem idle (h : Doing o fd p r) (hs : ∀ c, r.server.find fd = some c →
    Step fd (history c.connectionId r.server.trace) p c [] [] p' c)
    (hallow : ∀ c, p.allows c p' := by intro; trivial) : Doing o fd p' r := by
  cases hf : r.server.find fd with
  | none => exact h.gone hf
  | some c => exact h.idleAt hf (hs c hf) (hallow c)

theorem close (h : Doing o fd p r) (hm : Moves fd c none events [] r.server r'.server)
    (he : End fd p c events) : Doing o fd p' r' :=
  ⟨h.toHeld.close hm he, h.since.close hm he⟩

theorem unmoved (h : Doing o fd p r) (hm : Unmoved r.server r'.server)
    (hread : r'.budget.readRemaining = r.budget.readRemaining) : Doing o fd p r' :=
  ⟨h.toHeld.unmoved hm hread, h.since.unmoved hm⟩

theorem poll (h : Doing o fd p r) :
    Doing o fd p { r with server := updateClientPollMask fd r.server } :=
  h.unmoved (.updateClientPollMask ..) rfl

end Doing

/-! ## The calls of the writing helpers -/

theorem wp_writeResponse {Q : Except Errno Nat → Round → Prop} {life : Nat} {data : Bytes}
    (h : ∀ script io, Q (writeSomeNonBlocking data script).2.2
      { r with server := r.server.log (responseWrites fd life data script), io := io }) :
    wp (writeResponse fd life data) Q r := h r.io.writes _

theorem wp_sendErrorResponseAndClose {Q : Unit → Round → Prop} {statusCode : Nat}
    (hf : r.server.find fd = some c)
    (h : ∀ script io, Q () { r with server := refused fd c statusCode script r.server, io := io }) :
    wp (sendErrorResponseAndClose fd statusCode) Q r := by
  unfold sendErrorResponseAndClose
  simp only [wp_bind, wp_findClient, hf]
  exact h r.io.writes _

/-! ## The inflight budget -/

theorem wp_tryReserveInflightBytes {Q : Bool → Round → Prop} {growth : Growth} {addBytes : Nat}
    (hf : r.server.find fd = some c) (hn : addBytes ≠ 0)
    (hs : s = r.server.log [.reserved (some c) growth addBytes r.server.globalInflightBytes])
    (hok : overBudget r.server.globalInflightBytes addBytes = false → Q true { r with server := s })
    (hno : overBudget r.server.globalInflightBytes addBytes = true → ∀ script io,
      Q false { r with server := refused fd c 503 script s, io := io }) :
    wp (tryReserveInflightBytes fd growth addBytes) Q r := by
  subst hs
  unfold tryReserveInflightBytes
  simp only [if_neg hn, wp_bind, wp_get, wp_modifyServer, wp_ite, hf, wp_pure]
  constructor
  · intro hover
    exact wp_sendErrorResponseAndClose hf (hno hover)
  · intro hover
    exact hok (by simpa [overBudget] using hover)

theorem wp_appendToOutputBuffer {Q : Bool → Round → Prop} {data : Bytes}
    (hf : r.server.find fd = some c) (hd : data ≠ [])
    (hs : s = r.server.log
      [.reserved (some c) .outputAppend data.length r.server.globalInflightBytes])
    (hc : c' = { c with outputBuffer := c.outputBuffer ++ data })
    (hok : overBudget r.server.globalInflightBytes data.length = false →
      Q true { r with server := growInflight data.length (s.put fd c') })
    (hno : overBudget r.server.globalInflightBytes data.length = true → ∀ script io,
      Q false { r with server := refused fd c 503 script s, io := io }) :
    wp (appendToOutputBuffer fd data) Q r := by
  unfold appendToOutputBuffer
  simp only [if_neg hd, wp_bind]
  refine wp_tryReserveInflightBytes hf (by simpa using hd) hs (fun h => ?_) fun h script io => ?_
  · subst hs hc
    simp only [Bool.not_true, Bool.false_eq_true, if_false, wp_bind, wp_modifyServer, wp_pure]
    rw [update_eq (s := r.server.log _) hf]
    exact hok h
  · exact hno h script io

/-- `ReplaceOutputBuffer` on an empty buffer, the only way the server calls it. -/
theorem wp_replaceOutputBuffer {Q : Bool → Round → Prop} {data : Bytes}
    (hf : r.server.find fd = some c) (hout : c.outputBuffer = []) (hd : data ≠ [])
    (hs : s = r.server.log
      [.reserved (some c) .outputReplace data.length r.server.globalInflightBytes])
    (hc : c' = { c with outputBuffer := data })
    (hok : overBudget r.server.globalInflightBytes data.length = false →
      Q true { r with server := growInflight data.length (s.put fd c') })
    (hno : overBudget r.server.globalInflightBytes data.length = true → ∀ script io,
      Q false { r with server := refused fd c 503 script s, io := io }) :
    wp (replaceOutputBuffer fd c data) Q r := by
  have hpos : 0 < data.length := List.length_pos_iff.mpr hd
  unfold replaceOutputBuffer
  simp only [hout, List.length_nil, if_pos hpos, wp_bind, wp_subSize, Nat.sub_zero]
  refine ⟨Nat.zero_le _, ?_⟩
  refine wp_tryReserveInflightBytes hf (by omega) hs (fun h => ?_) fun h script io => ?_
  · subst hs hc
    simp only [Bool.not_true, Bool.false_eq_true, if_false, wp_bind, wp_modifyServer, wp_pure]
    rw [update_eq (s := r.server.log _) hf]
    exact hok h
  · exact hno h script io

/-! ## Starting a response -/

theorem lives_singleton {id : Nat} (e : Event) (h : life? e = some id) :
    ∀ e' ∈ [e], life? e' = some id := fun _ he => List.mem_singleton.mp he ▸ h

/-- The response is put behind the output buffer, or the connection is refused. -/
theorem Doing.appendResponse {owed : Bytes} (h : Doing o fd (.answering back owed) r)
    (hf : r.server.find fd = some c) (hout : c.outputBuffer ≠ []) (howed : owed ≠ []) :
    wp (appendToOutputBuffer fd owed) (fun _ r' => Doing o fd back r') r := by
  have hcl := h.closing hf
  have hlog : Moves fd c (some c) _ _ _ _ := .log hf (lives_singleton
    (.reserved (some c) .outputAppend owed.length r.server.globalInflightBytes) rfl)
  refine wp_appendToOutputBuffer hf howed rfl rfl (fun hok => ?_) fun hover script io => ?_
  · refine h.step (hlog.trans ⟨rfl, rfl⟩ (.grow hlog.find_self ?_ rfl hok)) (.appendResponse _ hout hok) rfl
    simp only [Server.buffered, List.length_append]
    omega
  · refine h.close (hlog.trans ⟨rfl, rfl⟩ (.refused hlog.find_self hcl 503 script)) ?_
    exact .answerRefused _ _ _ (by rw [if_neg hout]) howed hover

/-- What is left of the response becomes the output buffer, or the connection is refused. -/
theorem Doing.storeResponse {owed : Bytes} (h : Doing o fd (.answering back owed) r)
    (hf : r.server.find fd = some c) (hout : c.outputBuffer = []) (howed : owed ≠ []) :
    wp (replaceOutputBuffer fd c owed) (fun _ r' => Doing o fd back r') r := by
  have hcl := h.closing hf
  have hlog : Moves fd c (some c) _ _ _ _ := .log hf (lives_singleton
    (.reserved (some c) .outputReplace owed.length r.server.globalInflightBytes) rfl)
  refine wp_replaceOutputBuffer hf hout howed rfl rfl (fun hok => ?_) fun hover script io => ?_
  · refine h.step (hlog.trans ⟨rfl, rfl⟩ (.grow hlog.find_self ?_ rfl hok))
      (.storeResponse _ hout howed hok) rfl
    simp only [Server.buffered, hout, List.length_nil]
    omega
  · refine h.close (hlog.trans ⟨rfl, rfl⟩ (.refused hlog.find_self hcl 503 script)) ?_
    exact .answerRefused _ _ _ (by rw [if_pos hout]) howed hover

theorem Moves.responseWrites (hf : s.find fd = some c) (data : Bytes) (script : List WriteResult) :
    Moves fd c (some c) (responseWrites fd c.connectionId data script) [] s
      (s.log (responseWrites fd c.connectionId data script)) :=
  .log hf fun _ he => life?_responseWrites he

/-- A failed `write()` of `StartOkResponse` or `FlushClientOutput` closes the connection. -/
theorem Doing.writeFailed {data : Bytes} {script : List WriteResult} (h : Doing o fd p r)
    (hf : r.server.find fd = some c)
    (he : End fd p c (responseWrites fd c.connectionId data script ++ [.closed c .writeFailed]))
    (hs : r'.server = closeClientConnection fd .writeFailed
      (recordErrorMetric (r.server.log (responseWrites fd c.connectionId data script)))) :
    Doing o fd p' r' := by
  have hwrites := Moves.responseWrites hf data script
  have herror := hwrites.trans ⟨rfl, rfl⟩ (.unmoved hwrites.find_self (.recordErrorMetric _))
  have hclose := herror.trans ⟨rfl, rfl⟩ (.close herror.find_self (h.closing hf) .writeFailed)
  rw [List.append_nil] at hclose
  exact h.close (hs ▸ hclose) he

/-- The socket has taken the first `n` bytes of the response. -/
theorem Doing.sent {owed : Bytes} {attempt n : Nat} {script : List WriteResult}
    (h : Doing o fd (.answering back owed) r) (hf : r.server.find fd = some c)
    (hout : c.outputBuffer = [])
    (hw : (writeSomeNonBlocking (owed.take attempt) script).2.2 = .ok n)
    (hs : r'.server = r.server.log (responseWrites fd c.connectionId (owed.take attempt) script))
    (hread : r'.budget.readRemaining = r.budget.readRemaining) :
    Doing o fd (.answering back (owed.drop n)) r' := by
  have hwrites := Moves.responseWrites hf (owed.take attempt) script
  rw [← hs] at hwrites
  exact h.step hwrites (.sendResponse attempt n script hout hw) hread

/-- The response has gone out as a whole. -/
theorem Doing.answered (h : Doing o fd (.answering back []) r) : Doing o fd back r :=
  h.idle fun _ _ => .sentResponse

/-- `StartOkResponse` from the point on at which the request counts as dispatched. -/
theorem startOkResponse_spec {request : HttpRequest} (hf : r.server.find fd = some c)
    (hcl : c.closing = false) (hs : s = (r.server.put fd (c.respond (keepAlive c request))).log
      [.dispatched c request (keepAlive c request)])
    (h : Doing o fd (.answering back (okResponse (keepAlive c request))) { r with server := s }) :
    wp (startOkResponse fd request) (fun _ r' => Doing o fd back r') r := by
  subst hs
  have hf' : ((r.server.put fd (c.respond (keepAlive c request))).log
      [.dispatched c request (keepAlive c request)]).find fd =
        some (c.respond (keepAlive c request)) := find_put ..
  have hne : okResponse (keepAlive c request) ≠ [] := buildSimpleOkResponse_ne_nil _ _
  unfold startOkResponse
  simp only [wp_bind, wp_findClient, hf, hcl, Bool.false_eq_true, if_false]
  simp only [wp_bind, wp_modifyServer, wp_get, wp_ite, wp_pure]
  refine ⟨fun hout => ?_, fun hout => ⟨fun _ => ?_, fun _ => ?_⟩⟩
  · exact wp_mono (h.appendResponse hf' hout hne) fun _ _ h => ⟨fun _ => h, fun _ => h.poll⟩
  · exact wp_mono (h.storeResponse hf' (not_not.mp hout) hne) fun _ _ h => ⟨fun _ => h, fun _ => h.poll⟩
  · have hout : (c.respond (keepAlive c request)).outputBuffer = [] := not_not.mp hout
    apply wp_writeResponse
    intro script io
    generalize hw : (writeSomeNonBlocking _ script).2.2 = outcome
    cases outcome with
    | error errno =>
      simp only [wp_bind, wp_modifyServer]
      exact h.writeFailed hf' (.sendFailed _ script errno hout hw) rfl
    | ok n =>
      have hle := writeSomeNonBlocking_le hw
      rw [List.length_take] at hle
      simp only [wp_bind, wp_subSize, wp_modify, wp_ite, wp_pure]
      refine ⟨by omega, ?_⟩
      generalize hr' : Round.mk _ _ io = r'
      have hsent : Doing o fd (.answering back ((okResponse (keepAlive c request)).drop n)) r' :=
        h.sent hf' hout hw (by rw [← hr']; rfl) (by rw [← hr'])
      constructor
      · intro hall
        have hall : (okResponse (keepAlive c request)).length ≤ n := hall
        rw [List.drop_eq_nil_of_le hall] at hsent
        exact hsent.answered
      · intro hrest
        have hrest : ¬ (okResponse (keepAlive c request)).length ≤ n := hrest
        have hf'' : r'.server.find fd = some (c.respond (keepAlive c request)) := by
          rw [← hr']
          exact hf'
        refine wp_mono (hsent.storeResponse hf'' hout ?_) fun _ _ h => ⟨fun _ => h, fun _ => h.poll⟩
        simpa using hrest

/-! ## Flushing -/

/-- `FlushClientOutput` once the output buffer is empty. -/
theorem finishFlush_spec (h : Doing o fd (.flushing back) r) (hf : r.server.find fd = some c)
    (hout : c.outputBuffer = []) :
    wp (finishFlush fd c) (fun _ r' => Doing o fd back r') r := by
  have hcl := h.closing hf
  have hlog : Moves fd c (some c) _ _ _ _ := .log hf (lives_singleton (.drained c) rfl)
  have hqueued (hw : c.inputBuffer.hasCompleteHeader = true ∨ c.readyForRead = true) :
      Doing o fd back { r with
        server := enqueueReadyConnection fd (updateClientPollMask fd (r.server.log [.drained c])) } := by
    have hpoll := Unmoved.updateClientPollMask fd (r.server.log [.drained c])
    have hpolled := hlog.trans ⟨rfl, rfl⟩ (.unmoved hlog.find_self hpoll)
    exact h.step (hpolled.trans ⟨hpoll.queue, rfl⟩ (.enqueue hpolled.find_self hcl))
      (.drainQueued hout hw) rfl
  unfold finishFlush
  simp only [wp_bind, wp_modifyServer, wp_ite, wp_pure]
  refine ⟨fun hh => hqueued (.inl hh), fun hh => ⟨fun hr => hqueued (.inr hr), fun hr => ?_⟩⟩
  simp only [Bool.not_eq_true] at hh hr
  refine ⟨fun hcaw => ?_, fun hcaw => ⟨fun hka => ?_, fun hka => ?_⟩⟩
  · exact h.close (hlog.trans ⟨rfl, rfl⟩ (.close hlog.find_self hcl .responseFullySent)) (.drained hout)
  · simp only [Bool.not_eq_true] at hcaw
    apply wp_steadyClockNow
    intro now io
    apply Doing.poll (r := { r with server := _, io := io })
    exact h.step (hlog.trans ⟨rfl, rfl⟩ (.armIdle hlog.find_self hcl now))
      (.drainIdle now hout hh hr hcaw hka) rfl
  · simp only [Bool.not_eq_true] at hcaw hka
    have hstopped : Doing o fd back { r with server := r.server.log [.drained c] } :=
      h.step hlog (.drainStop hout hh hr hcaw hka) rfl
    exact hstopped.poll

/-- The socket has taken the first `n + 1` bytes of the output buffer. -/
theorem Doing.flushed {attempt n : Nat} {script : List WriteResult}
    (h : Doing o fd (.flushing back) r) (hf : r.server.find fd = some c)
    (hw : (writeSomeNonBlocking (c.outputBuffer.take attempt) script).2.2 = .ok (n + 1))
    (hc : c' = { c with outputBuffer := c.outputBuffer.drop (n + 1) })
    (hs : r'.server = releaseInflightBytes (n + 1) ((r.server.log
      (responseWrites fd c.connectionId (c.outputBuffer.take attempt) script)).put fd c'))
    (hread : r'.budget.readRemaining = r.budget.readRemaining) :
    Doing o fd (.flushing back) r' := by
  have hle := writeSomeNonBlocking_le hw
  rw [List.length_take] at hle
  have hwrites := Moves.responseWrites hf (c.outputBuffer.take attempt) script
  have hb : Server.buffered c' + (n + 1) = Server.buffered c := by
    subst hc
    simp only [Server.buffered, List.length_drop]
    omega
  have hq : c'.inReadyQueue = c.inReadyQueue := by
    subst hc
    rfl
  have hshrink : Moves fd c (some c') [] [] _ _ := .shrink hwrites.find_self hb hq (by simp)
  have hmoves := hwrites.trans ⟨rfl, rfl⟩ hshrink
  rw [log_nil, List.append_nil, ← hs] at hmoves
  subst hc
  exact h.step hmoves (.flushed attempt n script hw) hread

/-- Every turn but the last shortens the output buffer, so the loop reaches its end. -/
theorem flushLoop_spec (turns : Nat) (h : Doing o fd (.flushing back) r)
    (hturns : ∀ c, r.server.find fd = some c → c.outputBuffer.length < turns) :
    wp (flushLoop fd turns) (fun _ r' => Doing o fd back r') r := by
  induction turns generalizing r with
  | zero =>
    cases hf : r.server.find fd with
    | none => exact h.gone hf
    | some c => exact absurd (hturns c hf) (Nat.not_lt_zero _)
  | succ turns ih =>
    unfold flushLoop
    simp only [wp_bind, wp_findClient]
    cases hf : r.server.find fd with
    | none => exact h.gone hf
    | some c =>
      have hcl := h.closing hf
      have hlen := hturns c hf
      simp only [hcl, Bool.false_eq_true, if_false, wp_bind, wp_get, wp_ite, wp_modifyServer]
      refine ⟨fun hout => finishFlush_spec h hf hout, fun hout => ⟨fun _ => ?_, fun _ => ?_⟩⟩
      · exact (h.idleAt hf (.flushPaused hout)).poll
      · apply wp_writeResponse
        intro script io
        generalize hw : (writeSomeNonBlocking _ script).2.2 = outcome
        cases outcome with
        | error errno =>
          simp only [wp_bind, wp_modifyServer]
          exact h.writeFailed hf (.flushFailed _ script errno hw) rfl
        | ok n =>
          cases n with
          | zero => exact h.step (.responseWrites hf _ script) (.flushBlocked _ script hout hw) rfl
          | succ n =>
            have hle := writeSomeNonBlocking_le hw
            rw [List.length_take] at hle
            simp only [wp_bind, wp_subSize, wp_modify, wp_modifyServer]
            refine ⟨by omega, ih ?_ fun d hd => ?_⟩
            · refine h.flushed hf hw rfl ?_ rfl
              rw [update_eq (by exact hf)]
            · rw [update_eq (by exact hf), find_releaseInflightBytes, find_put] at hd
              cases hd
              rw [List.length_drop]
              omega

theorem flushClientOutput_spec (hp : p = .rest ∨ p = .resumed) (h : Doing o fd p r)
    (hout : ∀ c, r.server.find fd = some c → c.outputBuffer ≠ []) :
    wp (flushClientOutput fd) (fun _ r' => Doing o fd p r') r := by
  unfold flushClientOutput
  simp only [wp_bind, wp_findClient]
  cases hf : r.server.find fd with
  | none => exact h
  | some c =>
    have hallow : p.allows c (.flushing p) := by
      rcases hp with rfl | rfl
      · exact Point.noConfusion
      · exact .inr (.inr rfl)
    apply flushLoop_spec _ (h.idleAt hf (.flushBegin hp (hout c hf)) hallow)
    intro d hd
    rw [hf] at hd
    cases hd
    exact Nat.lt_succ_self _

end WebServer.Refine
