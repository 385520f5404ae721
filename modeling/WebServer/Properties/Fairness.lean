import WebServer.Kernel.Counters
import WebServer.Life.Passes
import WebServer.Properties.Independence
import WebServer.Properties.Waiting

/-!
# How many requests of one connection a round answers

`kMaxRequestsPerRound` bounds one run of the header loop.  A round runs it once for every
`read()` that returns bytes.  A `read()` that ends a body answers it outside of the loop, and
nothing looks at the bytes behind it before the next `read()` that returns some.
-/

namespace WebServer.Properties

open WebServer.Net WebServer.Http WebServer.Core WebServer.Life WebServer.Refine WebServer.Kernel

variable {fd : Fd} {c : ClientConnection} {call : Call} {s s' : Server}

/-! ## The rounds of a connection -/

/-- The call is a round of the connection on `fd`. -/
inductive RoundOf (fd : Fd) (s : Server) : Call → Prop
  | handleClientEvent (events : EpollEvents) (io : Io) :
    RoundOf fd s (.event { fd := fd, events := events } io)
  | continueReady (io : Io) (h : s.readyQueue.head? = some fd) : RoundOf fd s (.ready io)

/-- The events of a handler call. -/
def callEvents (s s' : Server) : List Event := s'.trace.drop s.trace.length

/-- The calls to `StartOkResponse` in a round. -/
def dispatches (s s' : Server) : Nat := (callEvents s s').countP isDispatched

/-- The requests that are complete in the input buffer with `more` behind it, as the server takes
these bytes apart. -/
def completeRequests (c : ClientConnection) (more : Bytes) : Nat := answers (ahead .rest c more)

/-- A round answers at most as many requests as the cap allows.  A complete header it leaves in the
buffer is in the ReadyQueue or behind unsent output, and a complete request behind as many answers
as the cap allows is in the ReadyQueue. -/
structure Fair (fd : Fd) (s s' : Server) : Prop where
  capped : dispatches s s' ≤ kMaxRequestsPerRound
  inLine : ∀ c', s'.find fd = some c' → InLine s' fd c'
  queued : dispatches s s' = kMaxRequestsPerRound → ∀ c', s'.find fd = some c' →
    0 < completeRequests c' [] → fd ∈ s'.readyQueue

/-- What the passes of a round over the input buffer find that was not there before: one pass for
each chunk read, and in `ContinueReadyConnection` one before. -/
def roundPasses : Call → List Event → List Bytes
  | .ready _, events => [] :: chunks events
  | _, events => chunks events

/-- At most as many requests are complete as the cap allows, or all of them in one pass. -/
def Capped (c : ClientConnection) (passes : List Bytes) : Prop :=
  completeRequests c passes.flatten ≤ kMaxRequestsPerRound ∨ passes.length ≤ 1 ∨
    completeRequests c passes.dropLast.flatten = 0

instance (c : ClientConnection) (passes : List Bytes) : Decidable (Capped c passes) :=
  inferInstanceAs (Decidable (_ ∨ _ ∨ _))

instance (s : Server) (fd : Fd) (c : ClientConnection) : Decidable (InLine s fd c) :=
  inferInstanceAs (Decidable (_ → _ → _ ∨ _))

/-- The round strands no request: the connection is in line when it begins or it reads bytes, and
no `read()` that brings a request behind the end of a body is followed by one that finds nothing,
with no output and no place in the ReadyQueue. -/
def Unstranded (fd : Fd) (c : ClientConnection) (s s' : Server) : Prop :=
  (InLine s fd c ∨ received (callEvents s s') ≠ []) ∧
    Never strandsRequest (history c.connectionId (callEvents s s'))

instance (fd : Fd) (c : ClientConnection) (s s' : Server) : Decidable (Unstranded fd c s s') :=
  inferInstanceAs (Decidable (_ ∧ _))

/-! ## Events with a life -/

theorem countP_isDispatched (E : List Event) : E.countP isDispatched = answers (decisions E) := by
  induction E with
  | nil => rfl
  | cons e E ih =>
    rw [List.countP_cons, ih, decisions_cons, answers_append, Nat.add_comm]
    congr 1
    cases e with
    | rejected c statusCode =>
      show 0 = answers (if _ then _ else _)
      split <;> rfl
    | _ => rfl

theorem countP_lifeEvents (tr : List Event) :
    (lifeEvents tr).countP isDispatched = tr.countP isDispatched := by
  rw [lifeEvents, List.countP_filter]
  refine List.countP_congr fun e _ => ?_
  cases e <;> simp [isDispatched, life?]

/-- Reads and header blocks belong to a connection. -/
theorem life?_of_marks {e : Event} (h : (life? e).isSome ≠ true) :
    chunks [e] = [] ∧ ∀ k, burstStep k e = k := by
  cases e <;> first | exact ⟨rfl, fun _ => rfl⟩ | exact absurd rfl h

theorem chunks_lifeEvents (tr : List Event) : chunks (lifeEvents tr) = chunks tr := by
  induction tr with
  | nil => rfl
  | cons e tr ih =>
    have hcons (H : List Event) : chunks (e :: H) = chunks [e] ++ chunks H := chunks_append [e] H
    rw [lifeEvents, List.filter_cons]
    split
    · rw [hcons (List.filter _ tr), hcons tr]
      exact congrArg _ ih
    · rename_i hlife
      rw [hcons, (life?_of_marks hlife).1]
      exact ih

theorem burst_lifeEvents (k : Nat) (tr : List Event) : burst k (lifeEvents tr) = burst k tr := by
  induction tr generalizing k with
  | nil => rfl
  | cons e tr ih =>
    rw [lifeEvents, List.filter_cons]
    split
    · exact ih (burstStep k e)
    · rename_i hlife
      show burst k (lifeEvents tr) = burst (burstStep k e) tr
      rw [(life?_of_marks hlife).2, ih]

theorem burst_blur (k : Nat) (tr : List Event) : burst k (tr.map blur) = burst k tr := by
  have hstep (k : Nat) (e : Event) : burstStep k (blur e) = burstStep k e := by cases e <;> rfl
  rw [burst, List.foldl_map, burst]
  exact congrFun (congrArg (List.foldl · k) (funext fun k => funext (hstep k))) tr

/-! ## Rounds -/

/-- What a round does to its connection. -/
structure Rounded (fd : Fd) (c : ClientConnection) (call : Call) (s s' : Server) : Prop where
  course : ∃ p₀ c₀ N, Run fd c₀.connectionId p₀ c₀ (history c₀.connectionId s.trace) N ∧
    (p₀ = .rest ∧ (∀ events, roundPasses call events = passes .rest events) ∨
      p₀ = .resumed ∧ ∀ events, roundPasses call events = passes .resumed events) ∧
    (∀ more, ahead p₀ c₀ more = ahead .rest c more) ∧
    c₀.connectionId = c.connectionId ∧ (InLine s fd c → Attended p₀ c₀ []) ∧
    Course fd (fun id => history id s.trace) p₀ (some c₀) .rest (s'.find fd)
      (lifeEvents (callEvents s s'))
  burst_le : burst 0 (callEvents s s') ≤ kMaxRequestsPerRound

theorem burst_callEvents {e : Effect} {n m : Nat} (he : Raises n m e) (hdoes : Does fd e s s') :
    burst 0 (callEvents s s') ≤ m := by
  have hevents : (callEvents s s').map blur = e.events := by
    rw [callEvents, List.map_drop, hdoes.trace, List.drop_left' (List.length_map blur)]
  rw [← burst_blur, hevents]
  exact he 0 (Nat.zero_le n)

theorem RoundOf.returns (hs : Reachable s) (hround : RoundOf fd s call) (hf : s.find fd = some c) :
    ∃ s', runCall call s = .ok s' ∧ AtRest s' ∧ Rounded fd c call s s' := by
  have hrest := atRest_of_reachable hs
  have hrun := (hrest fd).run hf
  have hcall {s' : Server} {tr : List Event} (htr : s'.trace = s.trace ++ tr) :
      callEvents s s' = tr := by
    rw [callEvents, htr, List.drop_left]
  cases hround with
  | handleClientEvent events io =>
    let event : PollEvent := { fd := fd, events := events }
    have hne : event.fd ≠ s.listenFd := (tidy_of_reachable hs fd).ne_listenFd hf
    obtain ⟨s', hok, hrest', hsince⟩ := clientEvent_returns hrest hne io
    obtain ⟨tr, htr, hcourse⟩ := hsince.trace
    rw [← hcall htr] at hcourse
    have hhandler := (runHandler_client hs hf events io).symm.trans hok
    obtain ⟨e, he, hdoes, -⟩ := (Steps.handleClientEvent events).runHandler hhandler
    refine ⟨s', hok, hrest', ⟨.rest, c, _, hrun, .inl ⟨rfl, fun _ => rfl⟩, fun _ => rfl, rfl,
      (inLine_iff hrest hf []).mp, ?_⟩, burst_callEvents he hdoes⟩
    rw [← hf]
    exact hcourse
  | continueReady io hhead =>
    obtain ⟨queue, hqueue⟩ := List.head?_eq_some_iff.mp hhead
    obtain ⟨d, s', hfd, hok, hrest', hsince⟩ := readyTurn_returns hrest io hqueue
    cases hf.symm.trans hfd
    obtain ⟨d, hfd, hq⟩ := hrest.front hqueue
    cases hf.symm.trans hfd
    have hresumed := ((hrest fd).step (.pop hf hq hqueue) (.resume hq)).run (find_put ..)
    obtain ⟨tr, htr, hcourse⟩ := hsince.trace
    rw [← hcall htr] at hcourse
    obtain ⟨e, he, hdoes, -⟩ := Steps.continueReadyConnection.runHandler
      ((readyTurn_eq hrest io hqueue hf).symm.trans hok)
    refine ⟨s', hok, hrest', ⟨.resumed, { c with inReadyQueue := false }, _, hresumed,
      .inr ⟨rfl, fun _ => rfl⟩, fun _ => rfl, rfl, fun _ => trivial, ?_⟩,
      burst_callEvents (s := dequeued fd queue c s) he hdoes⟩
    rw [← find_put { s with readyQueue := queue } fd { c with inReadyQueue := false }]
    exact hcourse

/-- A request that can be answered at once begins with a complete header. -/
theorem header_of_completeRequests (hbody : BodyPhase .rest c) (h : 0 < completeRequests c []) :
    c.inputBuffer.hasCompleteHeader = true ∧ c.waitingForRequestBody = false := by
  cases hw : c.waitingForRequestBody with
  | true =>
    rw [completeRequests, hbody.ahead_eq_nil rfl rfl hw] at h
    exact absurd h (Nat.lt_irrefl 0)
  | false =>
    refine ⟨?_, rfl⟩
    cases hfind : Search.find? crlfcrlf c.inputBuffer.storage with
    | none =>
      rw [completeRequests, ahead_of_not_parsing rfl, if_neg (by simp [hw]), List.append_nil,
        reference_of_none hfind] at h
      exact absurd h (Nat.lt_irrefl 0)
    | some headerEnd =>
      rw [DynamicBuffer.hasCompleteHeader, DynamicBuffer.findHeaderEnd, hfind]
      rfl

theorem Rounded.inLine (hrest : AtRest s') (h : Rounded fd c call s s')
    (hclean : Unstranded fd c s s') {c' : ClientConnection} (hc' : s'.find fd = some c') :
    InLine s' fd c' := by
  obtain ⟨⟨p₀, c₀, N, hrun, hround, -, hid, hline, hcourse⟩, -⟩ := h
  have hp₀ : p₀ ≠ .received := by rcases hround with ⟨rfl, -⟩ | ⟨rfl, -⟩ <;> simp
  rw [hc'] at hcourse
  cases hcourse with
  | live hpath =>
    have hreceived : received (lifeEvents (callEvents s s')) = received (callEvents s s') := by
      rw [← flatten_chunks, chunks_lifeEvents, flatten_chunks]
    have hhistory : history c.connectionId (callEvents s s') = lifeEvents (callEvents s s') := by
      rw [← history_filter_isSome, ← hid]
      exact history_of_lives hpath.lives
    obtain ⟨hbefore, hnever⟩ := hclean
    rw [hhistory] at hnever
    rw [← hreceived] at hbefore
    exact (inLine_iff hrest hc' _).mpr (hpath.attended hrun hp₀ (hbefore.imp_left hline) hnever)

theorem Rounded.capped (hrest : AtRest s') (h : Rounded fd c call s s')
    (hcap : Capped c (roundPasses call (callEvents s s'))) :
    dispatches s s' ≤ kMaxRequestsPerRound ∧
      (dispatches s s' = kMaxRequestsPerRound → ∀ c', s'.find fd = some c' →
        0 < completeRequests c' [] → fd ∈ s'.readyQueue) := by
  obtain ⟨⟨p₀, c₀, N, hrun, hround, hahead, -, -, hcourse⟩, hburst⟩ := h
  have hp₀ : p₀ = .rest ∨ p₀ = .resumed := hround.imp And.left And.left
  have hpasses : roundPasses call (callEvents s s') = passes p₀ (lifeEvents (callEvents s s')) := by
    rw [passes, chunks_lifeEvents]
    rcases hround with ⟨rfl, hr⟩ | ⟨rfl, hr⟩ <;> exact hr _
  have hcomplete (more : Bytes) : completeRequests c more = answers (ahead p₀ c₀ more) :=
    congrArg answers (hahead more).symm
  have hdispatches : dispatches s s' = answers (decisions (lifeEvents (callEvents s s'))) := by
    rw [← countP_isDispatched, countP_lifeEvents, dispatches]
  have hall := hcourse.answers_le hrun
  rw [← burst_lifeEvents] at hburst
  obtain ⟨before, last, hpassed⟩ := hcourse.passed (by decide) hrun hp₀ hburst
  have htotal := hdispatches.trans hpassed.total
  rw [Capped, hpasses, hcomplete, hcomplete, flatten_passes] at hcap
  rcases hcap with hfew | honce
  · constructor
    · omega
    · intro hfull c' hc' hmore
      rw [hc', Option.elim_some] at hall
      rw [completeRequests] at hmore
      omega
  · have hbefore : before = 0 := by
      rcases honce with hsingle | hnone
      · exact hpassed.single hsingle
      · have := hpassed.before_le
        omega
    have hlast := hpassed.last_le
    constructor
    · omega
    · intro hfull c' hc' hmore
      have hmany : 1 < last := by
        have : kMaxRequestsPerRound = 5 := rfl
        omega
      obtain ⟨hheader, hw⟩ := header_of_completeRequests ((hrest fd).run hc').bodyPhase hmore
      exact ((hrest fd).queued fd).mpr ⟨c', hc', hpassed.queued hmany c' hc' hheader hw⟩

/-- **Fairness.**  From every reachable state a round of a connection answers at most five
requests and leaves the next one to the ReadyQueue, or behind unsent output that leads there: if no
more than five are complete in the buffer and the bytes it reads, or if none is complete before its
last pass over the buffer, and if it strands no request behind a body. -/
theorem round_fair (hs : Reachable s) (hround : RoundOf fd s call) (hf : s.find fd = some c) :
    ∃ s', runCall call s = .ok s' ∧
      (Capped c (roundPasses call (callEvents s s')) → Unstranded fd c s s' → Fair fd s s') := by
  obtain ⟨s', hcall, hrest, hrounded⟩ := hround.returns hs hf
  refine ⟨s', hcall, fun hcapped hclean => ?_⟩
  obtain ⟨hle, hqueued⟩ := hrounded.capped hrest hcapped
  exact ⟨hle, fun c' => hrounded.inLine hrest hclean, hqueued⟩

/-! ## Runs -/

/-- A client that has sent nothing yet. -/
def newClient : SampleRun fun s => (s.find 5).isSome = true where
  iterations := [accepting 3 5 0]
  holds := by decide +kernel

/-- `n` requests in one piece. -/
def pipelined (n : Nat) : Bytes := (List.replicate n (ascii "GET / HTTP/1.1\r\n\r\n")).flatten

/-- A round in which the client's socket is readable and `read()` returns these chunks. -/
def roundOf (reads : List Bytes) : Call :=
  .event { fd := 5, events := { epollin := true } }
    { now := 1, reads := reads.map .got, writes := List.replicate 10 (.wrote 1000) }

theorem round_fair_sixInOneChunk : ∃ s', runCall (roundOf [pipelined 6]) newClient.final = .ok s' ∧
    Fair 5 newClient.final s' := by
  have hconditions : (runCall (roundOf [pipelined 6]) newClient.final).toOption.all (fun s' =>
      decide (Capped (connectionAt newClient.final 5)
        (roundPasses (roundOf [pipelined 6]) (callEvents newClient.final s')) ∧
        Unstranded 5 (connectionAt newClient.final 5) newClient.final s')) = true := by
    decide +kernel
  have hround : RoundOf 5 newClient.final (roundOf [pipelined 6]) := .handleClientEvent _ _
  obtain ⟨s', hcall, hfair⟩ := round_fair newClient.reachable hround
    (find_connectionAt newClient.holds_final)
  rw [hcall] at hconditions
  simp only [Except.toOption, Option.all_some, decide_eq_true_eq] at hconditions
  exact ⟨s', hcall, hfair hconditions.1 hconditions.2⟩

/-- Six requests that come in two chunks are all answered in one round. -/
theorem round_not_fair_twoChunks : ¬ ∀ (s s' : Server) (fd : Fd) (call : Call), Reachable s →
    RoundOf fd s call → runCall call s = .ok s' → dispatches s s' ≤ kMaxRequestsPerRound := by
  intro hclaim
  have hsix : (runCall (roundOf [pipelined 3, pipelined 3]) newClient.final).toOption.any (fun s' =>
      decide (dispatches newClient.final s' = 6)) = true := by
    decide +kernel
  have hround : RoundOf 5 newClient.final (roundOf [pipelined 3, pipelined 3]) :=
    .handleClientEvent _ _
  cases hcall : runCall (roundOf [pipelined 3, pipelined 3]) newClient.final with
  | error fault =>
    rw [hcall] at hsix
    cases hsix
  | ok s' =>
    have hle := hclaim newClient.final s' 5 _ newClient.reachable hround hcall
    rw [hcall] at hsix
    simp only [Except.toOption, Option.any_some, decide_eq_true_eq] at hsix
    rw [hsix] at hle
    exact absurd hle (by decide)

/-- A client that has sent the header of a request whose body is still to come. -/
def bodyAwaited : SampleRun fun s => (s.find 5).isSome = true where
  iterations :=
    [accepting 3 5 0, reading 5 1 [.got (ascii "POST / HTTP/1.1\r\nContent-Length: 5\r\n\r\n")] []]
  holds := by decide +kernel

/-- A request behind the end of the body is stranded, though the round has answered only one. -/
theorem round_not_fair_requestBehindBody : ¬ ∀ (s s' : Server) (fd : Fd) (c : ClientConnection)
    (call : Call), Reachable s → RoundOf fd s call → s.find fd = some c → runCall call s = .ok s' →
    Capped c (roundPasses call (callEvents s s')) → Fair fd s s' := by
  intro hclaim
  let call := roundOf [ascii "helloGET / HTTP/1.1\r\n\r\n"]
  have hstranded : (runCall call bodyAwaited.final).toOption.any (fun s' =>
      decide ((s'.find 5).isSome = true ∧
        Capped (connectionAt bodyAwaited.final 5)
          (roundPasses call (callEvents bodyAwaited.final s')) ∧
        ¬ InLine s' 5 (connectionAt s' 5))) = true := by
    decide +kernel
  cases hcall : runCall call bodyAwaited.final with
  | error fault =>
    rw [hcall] at hstranded
    cases hstranded
  | ok s' =>
    rw [hcall] at hstranded
    simp only [Except.toOption, Option.any_some, decide_eq_true_eq] at hstranded
    obtain ⟨hopen, hcapped, hnot⟩ := hstranded
    have hfair := hclaim _ s' 5 _ call bodyAwaited.reachable (.handleClientEvent _ _)
      (find_connectionAt bodyAwaited.holds_final) hcall hcapped
    exact hnot (hfair.inLine _ (find_connectionAt hopen))

end WebServer.Properties
