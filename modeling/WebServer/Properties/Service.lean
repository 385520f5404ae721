import WebServer.Life.Framing
import WebServer.Properties.Decoding
import WebServer.Properties.Responses

/-!
# The service

What the server is for, as one function from the bytes a client sends to the replies it gets.
Reads, writes, the ready queue, timers and other clients do not occur in it.  The client is the
one of `Http/Client.lean`: it keeps what is behind a body for the next response.
-/

namespace WebServer.Properties

open WebServer.Net WebServer.Http WebServer.Core WebServer.Life WebServer.Refine

variable {fd : Fd} {id : Nat} {p p' : Point} {c c' d : ClientConnection} {H : List Event}
  {events : List Event} {N nodes : List TimerEntry} {s : Server} {rs rs' : List BuiltResponse}
  {ds ds' : List Decision} {data : Bytes}

/-! ## The specification -/

/-- All these requests want the connection to be kept. -/
def keptOpen (ds : List Decision) : Bool :=
  ds.all fun
    | .answer request => shouldKeepAlive request
    | .refuse _ => true

theorem reasonPhrase_isPhrase (statusCode : Nat) :
    13 ∉ reasonPhrase statusCode ∧ 10 ∉ reasonPhrase statusCode := by
  unfold reasonPhrase
  split <;> decide

/-- An error response. -/
def refusalResponse (statusCode : Nat) : BuiltResponse :=
  .error statusCode ⟨reasonPhrase statusCode, reasonPhrase_isPhrase statusCode⟩
    (reasonPhrase statusCode ++ [10])

/-- The responses to these decisions on a connection that is `open` so far.  Once a request wants
it closed, no response behind it promises to keep it. -/
def serve : Bool → List Decision → List BuiltResponse
  | _, [] => []
  | isOpen, .answer request :: ds =>
    .ok kStaticOkBody (isOpen && shouldKeepAlive request) ::
      serve (isOpen && shouldKeepAlive request) ds
  | isOpen, .refuse statusCode :: ds => refusalResponse statusCode :: serve isOpen ds

/-- **The service**: the replies to everything that a client has sent. -/
def service (sent : Bytes) : List Reply := (serve true (reference sent)).map BuiltResponse.reply

theorem serve_append (isOpen : Bool) (ds ds' : List Decision) :
    serve isOpen (ds ++ ds') = serve isOpen ds ++ serve (isOpen && keptOpen ds) ds' := by
  induction ds generalizing isOpen with
  | nil => simp [serve, keptOpen]
  | cons decision ds ih =>
    cases decision with
    | answer request =>
      rw [List.cons_append, serve, ih, serve, List.cons_append]
      simp only [keptOpen, List.all_cons, Bool.and_assoc]
    | refuse statusCode =>
      rw [List.cons_append, serve, ih, serve, List.cons_append]
      simp only [keptOpen, List.all_cons, Bool.true_and]

theorem serve_mono (h : ds <+: ds') : serve true ds <+: serve true ds' := by
  obtain ⟨more, rfl⟩ := h
  rw [serve_append]
  exact List.prefix_append ..

/-! ## What a connection has answered -/

/-- The responses of a connection are those of its decisions, and it is to be closed as soon as one
of its requests wants that. -/
structure Answering (c : ClientConnection) (H : List Event) : Prop where
  closing : c.closeAfterWrite = !keptOpen (decisions H)
  responses : responses H = (serve true (decisions H)).flatMap BuiltResponse.bytes

theorem Answering.idle (h : Answering c H) (hd : decisions events = [])
    (hr : Life.responses events = []) (hc : c'.closeAfterWrite = c.closeAfterWrite) :
    Answering c' (H ++ events) := by
  constructor
  · rw [hc, decisions_append, hd, List.append_nil, h.closing]
  · rw [responses_append, hr, decisions_append, hd, List.append_nil, List.append_nil, h.responses]

/-- One more request is answered. -/
theorem Answering.answer (h : Answering c H) (request : HttpRequest)
    (hc : c'.closeAfterWrite = (c.closeAfterWrite || !keepAlive c request)) :
    Answering c' (H ++ [.dispatched d request (keepAlive c request)]) := by
  have hkeep : keepAlive c request = (keptOpen (decisions H) && shouldKeepAlive request) := by
    rw [keepAlive, h.closing, Bool.not_not, Bool.and_comm]
  have hdecided : decisions [.dispatched d request (keepAlive c request)] = [.answer request] := rfl
  have hopen : keptOpen (decisions H ++ [.answer request]) =
      (keptOpen (decisions H) && shouldKeepAlive request) := by
    simp [keptOpen]
  constructor
  · rw [decisions_append, hdecided, hopen, hc, hkeep, h.closing]
    cases keptOpen (decisions H) <;> rfl
  · rw [responses_append, decisions_append, hdecided, serve_append, List.flatMap_append,
      h.responses, Bool.true_and, serve, serve, ← hkeep]
    rfl

theorem Answering.step (h : Answering c H) (hs : Step fd H p c events nodes p' c') :
    Answering c' (H ++ events) := by
  cases hs
  case request r hr hs hb => exact h.answer r rfl
  case bodyDone hp hw hz => exact h.answer c.pendingRequest rfl
  case flushed | flushBlocked | sendResponse =>
    exact h.idle (decisions_responseWrites ..) (responses_responseWrites ..) rfl
  all_goals exact h.idle rfl rfl rfl

theorem Run.answering (h : Run fd id p c H N) : Answering c H := by
  refine Run.invariant (I := fun _ c H => Answering c H) (fun _ _ => ?_)
    (fun _ hI hs => Answering.step hI hs) h
  exact ⟨rfl, rfl⟩

/-! ## What reaches the client -/

/-- The response behind everything else when the server gives a connection up: the header limit, or
no memory left. -/
def Overload (last : List BuiltResponse) : Prop :=
  last = [] ∨ ∃ statusCode, (statusCode = 431 ∨ statusCode = 503) ∧
    last = [refusalResponse statusCode]

/-- An end says nothing more, or it is a refusal. -/
theorem End.last (h : End fd p c events) :
    (accepted .bestEffort events = [] ∧ decisions events = []) ∨
      ∃ front statusCode script, events = front ++ refusal fd c statusCode script ∧
        accepted .bestEffort front = [] ∧ decisions front = [] ∧ responses front = [] ∧
        (isFramingError statusCode = true ∨ statusCode = 431 ∨ statusCode = 503) := by
  cases h
  case flushFailed | sendFailed =>
    refine .inl ⟨?_, ?_⟩
    · rw [accepted_append, accepted_bestEffort_responseWrites]
      rfl
    · rw [decisions_append, decisions_responseWrites]
      rfl
  case headerRefused caller header e script hr =>
    exact .inr ⟨[], _, _, rfl, rfl, rfl, rfl, .inl (by cases e <;> rfl)⟩
  case bodyRefused => exact .inr ⟨[], _, _, rfl, rfl, rfl, rfl, .inl rfl⟩
  case recvRefused => exact .inr ⟨_, _, _, rfl, rfl, rfl, rfl, .inr (.inr rfl)⟩
  case limitExceeded => exact .inr ⟨[_], _, _, rfl, rfl, rfl, rfl, .inr (.inl rfl)⟩
  case answerRefused => exact .inr ⟨[_], _, _, rfl, rfl, rfl, rfl, .inr (.inr rfl)⟩
  all_goals exact .inl ⟨rfl, rfl⟩

/-- A refusal that keeps its place is the last thing on the wire. -/
theorem wire_refusal {statusCode : Nat} {script : List WriteResult}
    (hquiet : accepted .bestEffort H = [])
    (hord : ErrorsInOrder (H ++ refusal fd c statusCode script))
    (hpre : accepted .response (H ++ refusal fd c statusCode script) <+:
      responses (H ++ refusal fd c statusCode script)) :
    wire (H ++ refusal fd c statusCode script) <+: responses H ++ errorResponse statusCode := by
  have hrejected : accepted .bestEffort (H ++ [.rejected c statusCode]) = [] := by
    rw [accepted_append, hquiet]
    rfl
  have hresp : responses (H ++ refusal fd c statusCode script) = responses H := by
    rw [responses_append, responses_refusal, List.append_nil]
  rw [hresp] at hpre
  rw [append_refusal] at hord hpre ⊢
  rw [errorsInOrder_append hrejected rfl (accepted_response_errorWrites ..)
    (flatMap_errorWrites (fun _ _ _ _ _ => rfl) ..)] at hord
  rcases hord with hnone | hall
  · have hsilent := accepted_append .bestEffort (H ++ [.rejected c statusCode])
      (errorWrites fd c.connectionId (errorResponse statusCode) script ++
        [.closed c (.errorResponse statusCode)])
    rw [hrejected, accepted_append _ (errorWrites ..), hnone] at hsilent
    rw [wire_of_silent hsilent]
    exact hpre.trans (List.prefix_append ..)
  · have hsame : responses (H ++ [.rejected c statusCode]) = responses H := by
      rw [responses_append]
      exact List.append_nil _
    rw [wire_append, wire_of_silent hrejected, hall, hsame, wire_append]
    refine (List.prefix_append_right_inj _).mpr ?_
    exact (List.append_nil _).symm ▸ wire_errorWrites_prefix ..

theorem bytes_refusalResponse (statusCode : Nat) :
    (refusalResponse statusCode).bytes = errorResponse statusCode := rfl

/-- The wire carries the responses to the decisions in their order, and perhaps one more. -/
theorem Ended.wire_served (h : Ended fd id H) (hclean : ∀ e ∈ H, overtakes e = false) :
    ∃ last, Overload last ∧
      wire H <+: (serve true (decisions H) ++ last).flatMap BuiltResponse.bytes := by
  have hord := h.errorsInOrder_iff.mpr (.inr hclean)
  have hpre := h.accepted_prefix
  obtain ⟨p, c, H₀, N, events, hr, he, rfl⟩ := h
  have hanswering := Run.answering hr
  rcases End.last he with ⟨hsilent, hdecided⟩ | ⟨front, statusCode, script, rfl, hfront, hdecided, hresp, hcode⟩
  · refine ⟨[], .inl rfl, ?_⟩
    rw [wire_of_silent (by rw [accepted_append, hr.no_error_bytes, hsilent, List.nil_append]),
      decisions_append, hdecided, List.append_nil, List.append_nil, ← hanswering.responses]
    rwa [responses_append, he.silent.1, List.append_nil] at hpre
  · have hquiet : accepted .bestEffort (H₀ ++ front) = [] := by
      rw [accepted_append, hr.no_error_bytes, hfront]
      rfl
    have hanswers : responses (H₀ ++ front) =
        (serve true (decisions H₀)).flatMap BuiltResponse.bytes := by
      rw [responses_append, hresp, List.append_nil, hanswering.responses]
    rw [← List.append_assoc] at hord hpre ⊢
    have hwire := wire_refusal hquiet hord hpre
    rw [hanswers, ← bytes_refusalResponse] at hwire
    rw [decisions_append, decisions_append, hdecided, List.append_nil, decisions_refusal]
    rcases hcode with hframing | hother
    · refine ⟨[], .inl rfl, ?_⟩
      rw [if_pos hframing, List.append_nil, serve_append, List.flatMap_append]
      simpa [serve] using hwire
    · refine ⟨[refusalResponse statusCode], .inr ⟨statusCode, hother, rfl⟩, ?_⟩
      have hnot : ¬ isFramingError statusCode = true := by
        rcases hother with rfl | rfl <;> decide
      rw [if_neg hnot, List.append_nil, List.flatMap_append]
      simpa using hwire

/-! ## What the client reads -/

/-- The client waits for the rest of a response that has not arrived in full. -/
theorem readHttpResponse_incomplete (r : BuiltResponse) (h : data <+: r.bytes)
    (hlt : data.length < r.bytes.length) : readHttpResponse data = none := by
  obtain ⟨more, hmore⟩ := h
  unfold readHttpResponse
  cases hfind : Search.find? [13, 10, 13, 10] data with
  | none => rfl
  | some headerEnd =>
    have hsame : headerEnd = (Lines.join 13 10 r.headerLines).length := by
      have hfound := Search.find?_append hfind more
      have hbytes := r.find?_headerEnd []
      rw [List.append_nil, ← hmore, hfound] at hbytes
      exact Option.some.inj hbytes
    have hle := Search.find?_length_le hfind
    have hbytes := r.bytes_eq []
    rw [List.append_nil, List.append_nil] at hbytes
    have hlength := congrArg List.length hbytes
    simp only [List.length_append, List.length_cons, ← hsame] at hlength
    have hlines : Lines.split 13 10 (Lines.join 13 10 r.headerLines) = r.headerLines :=
      Lines.split_join (by decide) fun line hline => (r.isLine_headerLines line hline).1
    have htake : data.take headerEnd = Lines.join 13 10 r.headerLines := by
      rw [← List.take_append_of_le_length (Nat.le_of_add_right_le hle), hmore, hbytes, hsame,
        List.take_left]
    dsimp only
    rw [htake, hlines, BuiltResponse.readHeaderLines,
      show r.headerLines.headD [] = r.statusLine from rfl, BuiltResponse.readStatusCode_statusLine,
      show List.lookup (ascii "content-length") _ = some (decimal r.body.length) from rfl,
      Option.getD_some, readDecimal_decimal]
    dsimp only
    rw [if_pos]
    rw [List.length_drop]
    simp only [List.length_cons, List.length_nil] at hle
    omega

/-- **Streams.**  Of a first part of a stream of responses the client reads a first part of the
replies. -/
theorem readReplies_prefix (h : data <+: rs.flatMap BuiltResponse.bytes) (fuel : Nat) :
    readReplies fuel data <+: rs.map BuiltResponse.reply := by
  induction rs generalizing data fuel with
  | nil =>
    obtain rfl := List.prefix_nil.mp h
    cases fuel <;> exact List.nil_prefix
  | cons r rs ih =>
    cases fuel with
    | zero => exact List.nil_prefix
    | succ fuel =>
      rw [List.flatMap_cons] at h
      rw [readReplies]
      by_cases hlt : data.length < r.bytes.length
      · have hpart := List.prefix_of_prefix_length_le h (List.prefix_append ..) (Nat.le_of_lt hlt)
        rw [readHttpResponse_incomplete r hpart hlt]
        exact List.nil_prefix
      · have hfull := List.prefix_of_prefix_length_le (List.prefix_append ..) h (Nat.not_lt.mp hlt)
        obtain ⟨rest, rfl⟩ := hfull
        rw [r.readHttpResponse_bytes, List.map_cons]
        exact (List.prefix_cons_inj _).mpr (ih ((List.prefix_append_right_inj _).mp h) fuel)

/-- A whole stream is read to its end. -/
theorem repliesIn_bytes (rs : List BuiltResponse) :
    repliesIn (rs.flatMap BuiltResponse.bytes) = rs.map BuiltResponse.reply := by
  have hfuel (fuel : Nat) (h : rs.length ≤ fuel) :
      readReplies fuel (rs.flatMap BuiltResponse.bytes) = rs.map BuiltResponse.reply := by
    induction rs generalizing fuel with
    | nil => cases fuel <;> rfl
    | cons r rs ih =>
      obtain ⟨fuel, rfl⟩ : ∃ n, fuel = n + 1 := ⟨fuel - 1, by rw [List.length_cons] at h; omega⟩
      rw [List.flatMap_cons, readReplies, r.readHttpResponse_bytes, List.map_cons]
      exact congrArg _ (ih fuel (Nat.le_of_succ_le_succ h))
  refine hfuel _ ?_
  have hpos (r : BuiltResponse) : 0 < r.bytes.length := by
    have hle := Search.find?_length_le (r.find?_headerEnd [])
    rw [List.append_nil, List.length_cons] at hle
    omega
  clear hfuel
  induction rs with
  | nil => exact Nat.le_refl _
  | cons r rs ih =>
    have hr := hpos r
    rw [List.flatMap_cons, List.length_append, List.length_cons]
    omega

/-! ## The server keeps to the service -/

/-- What a client may have read: a first part of the service, or that and one overload response. -/
def KeepsTo (replies spec : List Reply) : Prop :=
  ∃ front last, Overload last ∧ front <+: spec ∧
    replies <+: front ++ last.map BuiltResponse.reply

/-- The client reads the responses to what has been decided on its connection. -/
theorem replies_served (hs : Reachable s) (id : Nat)
    (hclean : ∀ e ∈ history id s.trace, overtakes e = false) :
    ∃ last, Overload last ∧ repliesIn (wire (history id s.trace)) <+:
      (serve true (decisions (history id s.trace)) ++ last).map BuiltResponse.reply := by
  rcases life_of_reachable hs id with hnone | ⟨fd, hended⟩ | ⟨fd, c, hf, rfl⟩
  · rw [hnone]
    exact ⟨[], .inl rfl, List.nil_prefix⟩
  · obtain ⟨last, hlast, hwire⟩ := Ended.wire_served hended hclean
    exact ⟨last, hlast, readReplies_prefix hwire _⟩
  · have hrun := run_of_reachable hs hf
    refine ⟨[], .inl rfl, readReplies_prefix ?_ _⟩
    rw [wire_of_silent hrun.no_error_bytes, List.append_nil, ← (Run.answering hrun).responses]
    exact accepted_prefix_responses hs c.connectionId

theorem decisions_prefix_of_reachable (hs : Reachable s) (id : Nat) :
    decisions (history id s.trace) <+: reference (received (history id s.trace)) := by
  rcases life_of_reachable hs id with hnone | ⟨fd, hended⟩ | ⟨fd, c, hf, rfl⟩
  · rw [hnone]
    exact List.nil_prefix
  · exact hended.decisions_prefix
  · have hrun := run_of_reachable hs hf
    exact hrun.decisions_prefix

/-- **Refinement.**  In every reachable state and for every connection, live or gone, whatever the
other clients do and however reads and writes were cut: the replies the client can read are those
of the service to the bytes it has sent, in order, possibly with one `431` or `503` behind them.  The
only exception is a refusal that overtakes unsent bytes. -/
theorem replies_refine_service (hs : Reachable s) (id : Nat)
    (hclean : ∀ e ∈ history id s.trace, overtakes e = false) :
    KeepsTo (repliesIn (wire (history id s.trace))) (service (received (history id s.trace))) := by
  obtain ⟨last, hlast, hreplies⟩ := replies_served hs id hclean
  rw [List.map_append] at hreplies
  exact ⟨_, last, hlast, (serve_mono (decisions_prefix_of_reachable hs id)).map _, hreplies⟩

/-- Two pipelined requests in three reads.  The second response is on its way. -/
def secondOnItsWay : SampleRun fun s =>
    (∀ e ∈ history 1 s.trace, overtakes e = false) ∧
      (repliesIn (wire (history 1 s.trace))).length = 1 where
  iterations :=
    [accepting 3 5 0,
      reading 5 1 [.got (ascii "GET /a HTT")] [],
      reading 5 2 [.got (ascii "P/1.1\r\n\r\nGET /b HTTP/1.1\r\n\r\n")] [.wrote 120],
      writing 5 3 [.wrote 10, .failed .eagain]]
  holds := by decide +kernel

theorem replies_refine_service_secondOnItsWay :
    (repliesIn (wire (history 1 secondOnItsWay.final.trace))).length = 1 ∧
      KeepsTo (repliesIn (wire (history 1 secondOnItsWay.final.trace)))
        (service (received (history 1 secondOnItsWay.final.trace))) := by
  obtain ⟨hclean, hone⟩ := secondOnItsWay.holds_final
  exact ⟨hone, replies_refine_service secondOnItsWay.reachable 1 hclean⟩

/-- **Nothing is left unanswered.**  A live connection without unsent bytes and without a complete
header in its buffer has been sent the whole service, byte for byte. -/
theorem service_complete {fd : Fd} {c : ClientConnection} (hs : Reachable s)
    (hf : s.find fd = some c) (hout : c.outputBuffer = [])
    (hin : c.inputBuffer.hasCompleteHeader = false) :
    repliesIn (wire (history c.connectionId s.trace)) =
      service (received (history c.connectionId s.trace)) := by
  have hrun := run_of_reachable hs hf
  have hahead : ahead .rest c [] = [] := by
    rw [ahead_of_not_parsing rfl, List.append_nil]
    by_cases hw : c.waitingForRequestBody = true
    · obtain ⟨hempty, hpos⟩ := (hrun.bodyPhase.consumed hw).resolve_left Bool.false_ne_true
      rw [if_pos hw, hempty]
      exact if_pos hpos
    · rw [if_neg hw]
      exact reference_of_none (Option.isSome_eq_false_iff.mp hin |> Option.isNone_iff_eq_none.mp)
  have hdecided := hrun.framed []
  rw [hahead, List.append_nil, List.append_nil] at hdecided
  have hdelivered := accepted_append_outputBuffer hs hf
  rw [hout, List.append_nil] at hdelivered
  rw [wire_of_silent hrun.no_error_bytes, hdelivered, (Run.answering hrun).responses, repliesIn_bytes,
    service, hdecided]

/-- The same requests, and a client that has read both responses. -/
def bothRead : SampleRun fun s => (s.find 5).isSome = true ∧
    (connectionAt s 5).connectionId = 1 ∧ (connectionAt s 5).outputBuffer = [] ∧
    (connectionAt s 5).inputBuffer.hasCompleteHeader = false ∧
    (repliesIn (wire (history 1 s.trace))).length = 2 where
  iterations :=
    [accepting 3 5 0,
      reading 5 1 [.got (ascii "GET /a HTT")] [],
      reading 5 2 [.got (ascii "P/1.1\r\n\r\nGET /b HTTP/1.1\r\n\r\n")] [.wrote 1000, .wrote 1000]]
  holds := by decide +kernel

theorem service_complete_bothRead :
    (repliesIn (wire (history 1 bothRead.final.trace))).length = 2 ∧
      repliesIn (wire (history 1 bothRead.final.trace)) =
        service (received (history 1 bothRead.final.trace)) := by
  obtain ⟨hopen, hid, hout, hin, htwo⟩ := bothRead.holds_final
  have hcomplete := service_complete bothRead.reachable (find_connectionAt hopen) hout hin
  rw [hid] at hcomplete
  exact ⟨htwo, hcomplete⟩

end WebServer.Properties
