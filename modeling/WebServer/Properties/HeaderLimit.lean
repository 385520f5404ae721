import WebServer.Life.HeaderLimit
import WebServer.Refine.Reachable

/-!
# The header limit of the server

A header block over the limit is answered with `431`, unless it is already complete in the
buffer while other requests stand in front of it.
-/

namespace WebServer.Properties

open WebServer.Net WebServer.Http WebServer.Core WebServer.Life WebServer.Refine WeakestPre

variable {fd : Fd} {c : ClientConnection} {e : Event} {r : Round} {s : Server}

/-- **Header limit.**  On a connection on which no read leaves a header block over the limit
behind the first one in the buffer, no header block over the limit is popped.  A connection
that sends one is answered `431` and closed, unless the read does not fit into the memory budget;
so is one that fills the buffer beyond the limit without ending its header. -/
theorem header_limit_enforced (hs : Reachable s) (id : Nat)
    (hrest : ∀ c ∈ checks (history id s.trace), RestWithinLimit c) :
    (∀ header ∈ poppedHeaders (history id s.trace), header.length ≤ kMaxHeaderBytes) ∧
      (∀ header, HeaderBlock (received (history id s.trace)) header →
        kMaxHeaderBytes < header.length →
          AnsweredAndClosed 431 (history id s.trace) ∨ ReadRefused (history id s.trace)) ∧
      ∀ c ∈ checks (history id s.trace),
        c.inputBuffer.headerExceedsLimit kMaxHeaderBytes = true →
          ∃ fd H₀ script, history id s.trace = H₀ ++ .limitChecked c :: refusal fd c 431 script := by
  rcases life_of_reachable hs id with hnone | ⟨fd, hended⟩ | ⟨fd, c, hf, rfl⟩
  · rw [hnone]
    refine ⟨fun header hmem => absurd hmem List.not_mem_nil, fun header hheader hlong => ?_,
      fun c hc => absurd hc List.not_mem_nil⟩
    exact absurd hheader.length_le (Nat.not_le.mpr (Nat.zero_lt_of_lt hlong))
  · obtain ⟨hpopped, hlong⟩ := hended.withinLimit hrest
    exact ⟨hpopped, hlong, fun c hc hover => ⟨fd, hended.check_failed hc hover⟩⟩
  · have hrun := run_of_reachable hs hf
    refine ⟨hrun.poppedHeaders_withinLimit hrest, fun header hheader hlong => ?_,
      fun c hc hover => ?_⟩
    · rcases hrun.withinLimit hrest with hall | ⟨hp, -⟩
      · exact absurd (hall header hheader) (Nat.not_le.mpr hlong)
      · cases hp
    · simp [hrun.checks_passed c hc] at hover

/-- Two requests in one read. -/
def twoRequests : SampleRun fun s => (poppedHeaders (history 1 s.trace)).length = 2 ∧
    ∀ c ∈ checks (history 1 s.trace), c.inputBuffer.size ≤ kMaxHeaderBytes + 4 where
  iterations :=
    [accepting 3 5 0,
      reading 5 1 [.got (ascii "GET / HTTP/1.1\r\n\r\nGET / HTTP/1.1\r\n\r\n")]
        [.wrote 200, .wrote 200]]
  holds := by decide +kernel

theorem header_limit_enforced_twoRequests :
    (poppedHeaders (history 1 twoRequests.final.trace)).length = 2 ∧
      ∀ header ∈ poppedHeaders (history 1 twoRequests.final.trace),
        header.length ≤ kMaxHeaderBytes := by
  obtain ⟨htwo, hsize⟩ := twoRequests.holds_final
  obtain ⟨hpopped, -⟩ :=
    header_limit_enforced twoRequests.reachable 1 fun c hc => restWithinLimit_of_size (hsize c hc)
  exact ⟨htwo, hpopped⟩

/-! ## The header loop without another check -/

/-- The header loop pops a complete header and hands it to the parser. -/
theorem headerLoop_pop {headerEnd turns : Nat} {Q : Bool → Round → Prop}
    (hf : r.server.find fd = some c) (hcl : c.closing = false)
    (he : c.inputBuffer.findHeaderEnd = some headerEnd)
    (hnext : ∀ t : Server,
      t.find fd = some { c with inputBuffer := ⟨c.inputBuffer.storage.drop (headerEnd + 4)⟩ } →
      .popped c (c.inputBuffer.storage.take (headerEnd + 4)) ∈ t.trace →
      wp (processHeader fd (c.inputBuffer.storage.take (headerEnd + 4)) (headerLoop fd turns)) Q
        { r with server := t }) :
    wp (headerLoop fd (turns + 1)) Q r := by
  have hcomplete : c.inputBuffer.hasCompleteHeader = true := by
    rw [DynamicBuffer.hasCompleteHeader, he]
    rfl
  have hopen : ¬ c.closing = true := by simp [hcl]
  unfold headerLoop
  simp only [wp_bind, wp_findClient, hf, if_neg hopen, hcomplete, DynamicBuffer.popNextHeader, he,
    Bool.not_true, Bool.false_eq_true, if_false, wp_liftOk, wp_subSize, wp_modifyServer]
  refine ⟨?_, hnext _ ?_ ?_⟩
  · simp [DynamicBuffer.size]
  · rw [find_releaseInflightBytes, find_log, find_put]
  · rw [releaseInflightBytes_eq]
    exact List.mem_append_left _ (List.mem_append_right _ List.mem_cons_self)

/-- A header that does not parse is the last one. -/
theorem processHeader_malformed {header : Bytes} {next : ServerM Bool} {parseError : ParseError}
    (hf : r.server.find fd = some c) (hcl : c.closing = false)
    (hparse : parseRequestHeader header = .error parseError) (he : e ∈ r.server.trace) :
    wp (processHeader fd header next) (fun b r' => b = false ∧ e ∈ r'.server.trace) r := by
  unfold processHeader
  rw [hparse]
  simp only [wp_bind, wp_pure]
  refine wp_sendErrorResponseAndClose hf fun script io => ⟨trivial, ?_⟩
  obtain ⟨tr, htr, -⟩ := (Moves.refused hf hcl (ParseError.statusCode parseError) script).trace
  exact htr ▸ List.mem_append_left tr he

/-- A `write()` that takes everything. -/
theorem wp_writeResponse_all {life n : Nat} {data : Bytes} {script : List WriteResult}
    {Q : Except Errno Nat → Round → Prop} (hwrites : r.io.writes = .wrote n :: script)
    (hne : data ≠ []) (hn : data.length ≤ n)
    (h : ∀ answers io, Q (.ok data.length)
      { r with server := r.server.log (responseWrites fd life data answers), io := io }) :
    wp (writeResponse fd life data) Q r := by
  have hpos : 0 < data.length := List.length_pos_iff.mpr hne
  have hsent : (writeSomeNonBlocking data r.io.writes).2.2 = .ok data.length := by
    rw [hwrites]
    simp [writeSomeNonBlocking, Nat.min_eq_right hn, hpos]
  have hq := h r.io.writes { r.io with writes := (writeSomeNonBlocking data r.io.writes).2.1 }
  rw [← hsent] at hq
  exact hq

/-- A request that is answered in one `write()`. -/
theorem processHeader_answered {header : Bytes} {next : ServerM Bool} {request : HttpRequest}
    {n : Nat} {script : List WriteResult} {Q : Bool → Round → Prop}
    (hf : r.server.find fd = some c) (hcl : c.closing = false) (hout : c.outputBuffer = [])
    (hparse : parseRequestHeader header = .ok request) (hbody : request.hasContentLength = false)
    (hwrites : r.io.writes = .wrote n :: script)
    (hn : (okResponse (keepAlive c request)).length ≤ n)
    (hbudget : (okResponse (keepAlive c request)).length ≤ r.budget.writeRemaining)
    (hnext : ∀ r', r'.server.find fd = some (c.respond (keepAlive c request)) → wp next Q r') :
    wp (processHeader fd header next) Q r := by
  have hne : okResponse (keepAlive c request) ≠ [] := buildSimpleOkResponse_ne_nil _ _
  have hopen : ¬ c.closing = true := by simp [hcl]
  have hpos : 0 < (okResponse (keepAlive c request)).length := List.length_pos_iff.mpr hne
  have hbudget' : ¬ r.budget.writeRemaining = 0 := by omega
  have hall : (okResponse (keepAlive c request)).take
      (min (okResponse (keepAlive c request)).length r.budget.writeRemaining) =
        okResponse (keepAlive c request) := by
    rw [Nat.min_eq_left hbudget, List.take_length]
  unfold processHeader
  rw [hparse]
  simp only [hbody, Bool.false_and, Bool.false_eq_true, if_false, wp_bind, wp_modifyServer]
  have hf' : (countRequest r.server).find fd = some c := hf
  have hkeep : (shouldKeepAlive request && !c.closeAfterWrite) = keepAlive c request := rfl
  have hresponse : buildSimpleOkResponse kStaticOkBody (keepAlive c request) =
      okResponse (keepAlive c request) := rfl
  unfold startOkResponse
  simp only [wp_bind, wp_findClient, hf', if_neg hopen]
  simp only [wp_bind, wp_modifyServer, wp_get, wp_ite, wp_pure, hkeep, hresponse, hall]
  refine ⟨fun hpending => absurd hout hpending, fun _ => ⟨fun h => absurd h hbudget', fun _ => ?_⟩⟩
  refine wp_writeResponse_all hwrites hne hn fun answers io => ?_
  simp only [wp_bind, wp_subSize, wp_modify]
  refine ⟨hbudget, ?_⟩
  simp only [wp_ite, wp_pure, Nat.le_refl, not_true_eq_false, forall_const, false_implies, and_true]
  exact hnext _ (find_put ..)

/-! ## A long header behind another request -/

def smallRequest : Bytes := ascii "GET / HTTP/1.1\r\n\r\n"

/-- A header block of `n + 8` bytes. -/
def longHeader (n : Nat) : Bytes := [88, 13, 10, 97] ++ (List.replicate n 97 ++ crlfcrlf)

/-- What the small request says. -/
def plainGet : HttpRequest := { method := .kGet, uri := ascii "/", version := ascii "HTTP/1.1" }

theorem findHeaderEnd_smallRequest {rest : Bytes}
    (hin : c.inputBuffer.storage = smallRequest ++ rest) :
    c.inputBuffer.findHeaderEnd = some 14 := by
  have hsmall : Search.find? crlfcrlf smallRequest = some 14 := by decide
  rw [DynamicBuffer.findHeaderEnd, hin]
  exact Search.find?_append hsmall rest

theorem find?_longHeader (n : Nat) : Search.find? crlfcrlf (longHeader n) = some (n + 4) := by
  have hend : Search.find? crlfcrlf (List.replicate n 97 ++ crlfcrlf) = some n := by
    induction n with
    | zero => decide
    | succ n ih =>
      rw [List.replicate_succ, List.cons_append, Search.find?, ih]
      rfl
  have hlong : longHeader n = 88 :: 13 :: 10 :: 97 :: (List.replicate n 97 ++ crlfcrlf) := rfl
  rw [hlong, Search.find?, Search.find?, Search.find?, Search.find?, hend]
  rfl

theorem length_longHeader (n : Nat) : (longHeader n).length = n + 8 := by
  simp [longHeader, crlfcrlf]

/-- The header loop pops a header behind a request, however long it is. -/
theorem headerLoop_longHeader {n : Nat} (turns : Nat) (hf : r.server.find fd = some c)
    (hcl : c.closing = false) (hout : c.outputBuffer = []) (hca : c.closeAfterWrite = false)
    (hin : c.inputBuffer.storage = smallRequest ++ longHeader n)
    (hwrites : r.io.writes = [.wrote 200]) (hbudget : 200 ≤ r.budget.writeRemaining) :
    wp (headerLoop fd (turns + 2))
      (fun b r' => b = false ∧ ∃ d, .popped d (longHeader n) ∈ r'.server.trace) r := by
  have htake : c.inputBuffer.storage.take (14 + 4) = smallRequest := by
    rw [hin, List.take_left' (by decide)]
  have hdrop : c.inputBuffer.storage.drop (14 + 4) = longHeader n := by
    rw [hin, List.drop_left' (by decide)]
  have hall : (longHeader n).take (n + 4 + 4) = longHeader n :=
    List.take_of_length_le (length_longHeader n).le
  have hparse : parseRequestHeader smallRequest = .ok plainGet := by rfl
  have hmalformed : parseRequestHeader (longHeader n) = .error .kBadRequest := by rfl
  have hsent : (okResponse (keepAlive c plainGet)).length ≤ 200 := by
    rw [keepAlive, hca]
    decide
  -- the small request is answered, and the loop goes on without a check
  refine headerLoop_pop hf hcl (findHeaderEnd_smallRequest hin) fun t hf' _ => ?_
  rw [htake]
  rw [hdrop] at hf'
  refine processHeader_answered hf' hcl hout hparse rfl hwrites hsent (hsent.trans hbudget)
    fun r' hf₁ => ?_
  refine headerLoop_pop hf₁ hcl (find?_longHeader n) fun t' hf₂ hpopped => ?_
  change wp (processHeader fd ((longHeader n).take (n + 4 + 4)) _) _ _
  change .popped _ ((longHeader n).take (n + 4 + 4)) ∈ t'.trace at hpopped
  rw [hall] at hpopped ⊢
  exact wp_mono (processHeader_malformed hf₂ hcl hmalformed hpopped)
    fun b r' hend => ⟨hend.1, _, hend.2⟩

/-- So does a turn of the ReadyQueue. -/
theorem readyTurn_longHeader {n : Nat} {queue : List Fd} (h : AtRest s)
    (hqueue : s.readyQueue = fd :: queue) (hf : s.find fd = some c) (hout : c.outputBuffer = [])
    (hw : c.waitingForRequestBody = false) (hca : c.closeAfterWrite = false)
    (hin : c.inputBuffer.storage = smallRequest ++ longHeader n) :
    ∃ s' d, readyTurn { writes := [.wrote 200] } s = .ok s' ∧
      .popped d (longHeader n) ∈ s'.trace := by
  have hcl := ((h fd).run hf).closing
  have hopen : ¬ c.closing = true := by simp [hcl]
  have hcomplete : c.inputBuffer.hasCompleteHeader = true := by
    rw [DynamicBuffer.hasCompleteHeader, findHeaderEnd_smallRequest hin]
    rfl
  have hf' : (dequeued fd queue c s).find fd = some { c with inReadyQueue := false } := find_put ..
  have hturn : wp (continueReadyConnection fd)
      (fun _ r' => ∃ d, .popped d (longHeader n) ∈ r'.server.trace)
      { server := dequeued fd queue c s, io := { writes := [.wrote 200] } } := by
    unfold continueReadyConnection continueBody continueReading processBufferedHeaders
    simp only [wp_bind, wp_findClient, hf', if_neg hopen, hout, ne_eq, not_true_eq_false, if_false,
      wp_pure, hw, hcomplete, Bool.false_eq_true, Bool.not_true, Bool.false_or, decide_false,
      if_true]
    refine wp_mono (headerLoop_longHeader 3 hf' hcl hout hca hin rfl ?_) ?_
    · change 200 ≤ kMaxWriteBytesPerEvent
      decide
    · rintro b r' ⟨rfl, hpopped⟩
      exact hpopped
  obtain ⟨a, r', e, d, hpopped⟩ := (wp_iff _ _ _).mp hturn
  refine ⟨r'.server, d, ?_, hpopped⟩
  rw [readyTurn_eq h _ hqueue hf, runHandler, e]
  rfl

/-- A turn of the ReadyQueue and a read, with responses that are sent at once. -/
def turnAndRead (now : Time) (data : Bytes) : Iteration where
  ready := [{ now, writes := List.replicate 5 (.wrote 200) }]
  events := [({ fd := 5, events := { epollin := true } },
    { now, reads := [.got data], writes := List.replicate 5 (.wrote 200) })]

/-- Twenty-six requests and a header of 8224 bytes in three reads; after the third, one request
is left in front of the header. -/
def headerBehindRequest : SampleRun fun s =>
    (s.find 5).isSome = true ∧ s.readyQueue = [5] ∧ (connectionAt s 5).outputBuffer = [] ∧
      (connectionAt s 5).waitingForRequestBody = false ∧
      (connectionAt s 5).closeAfterWrite = false ∧
      (smallRequest ++ longHeader 8216).isPrefixOf (connectionAt s 5).inputBuffer.storage = true ∧
      (connectionAt s 5).inputBuffer.storage.length = (smallRequest ++ longHeader 8216).length where
  iterations :=
    [accepting 3 5 0,
      turnAndRead 1 ((List.replicate 26 smallRequest).flatten ++
        ([88, 13, 10, 97] ++ List.replicate 3624 97)),
      turnAndRead 2 (List.replicate 4096 97), turnAndRead 3 (List.replicate 496 97 ++ crlfcrlf)]
  holds := by decide +kernel

/-- The next turn of the ReadyQueue pops both. -/
theorem not_headerLimit_headerBehindRequest :
    ¬ ∀ s, Reachable s → ∀ id, ∀ header ∈ poppedHeaders (history id s.trace),
      header.length ≤ kMaxHeaderBytes := by
  obtain ⟨hfound, hqueue, hout, hw, hca, hprefix, hlen⟩ := headerBehindRequest.holds_final
  have hreach := headerBehindRequest.reachable
  generalize headerBehindRequest.final = s at hfound hqueue hout hw hca hprefix hlen hreach
  have hin := (List.isPrefixOf_iff_prefix.mp hprefix).eq_of_length hlen.symm
  obtain ⟨s', d, hturn, hpopped⟩ := readyTurn_longHeader (atRest_of_reachable hreach) hqueue
    (find_connectionAt hfound) hout hw hca hin.symm
  intro h
  have hmem : longHeader 8216 ∈ poppedHeaders (history d.connectionId s'.trace) := by
    refine List.mem_flatMap.mpr ⟨_, List.mem_filter.mpr ⟨hpopped, ?_⟩, List.mem_cons_self⟩
    exact decide_eq_true rfl
  have hle := h s' (hreach.step (.ready { writes := [.wrote 200] }) hturn) d.connectionId _ hmem
  rw [length_longHeader] at hle
  exact absurd hle (by decide)

end WebServer.Properties
