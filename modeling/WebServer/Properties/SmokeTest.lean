import WebServer.Properties.MetricsReaders
import WebServer.Properties.Service
import WebServer.Scripts.SmokeTest

/-!
# The smoke test

The workers of the smoke test get the responses they expect, and the metrics log shows what they
have counted.
-/

namespace WebServer.Properties

open WebServer.Net WebServer.Http WebServer.Core WebServer.Life WebServer.Refine WebServer.Kernel
  WebServer.Scripts

variable {id n : Nat} {d d' : Decision} {request input : Bytes} {replies : List Reply}
  {counters counters' : Counters} {w : Worker} {s : Server}

/-! ## One request again and again -/

/-- The status code and the body of the response to a decision. -/
def answerTo : Decision → Nat × Bytes
  | .answer _ => (200, kStaticOkBody)
  | .refuse statusCode => (statusCode, reasonPhrase statusCode ++ [10])

def answerIn (reply : Reply) : Nat × Bytes := (reply.statusCode, reply.body)

theorem map_answerIn_serve (isOpen : Bool) (ds : List Decision) :
    ((serve isOpen ds).map BuiltResponse.reply).map answerIn = ds.map answerTo := by
  induction ds generalizing isOpen with
  | nil => rfl
  | cons decision ds ih =>
    cases decision with
    | answer request =>
      rw [serve, List.map_cons, List.map_cons, List.map_cons, ih]
      rfl
    | refuse statusCode =>
      rw [serve, List.map_cons, List.map_cons, List.map_cons, ih]
      rfl

/-- The decision on a request that ends with the body its header announces. -/
def soleDecision (request : Bytes) : Option Decision :=
  match Search.find? crlfcrlf request with
  | none => none
  | some headerEnd =>
    match parseRequestHeader (request.take (headerEnd + 4)) with
    | .error e => some (.refuse (ParseError.statusCode e))
    | .ok r =>
      if kMaxBodyBytes < r.contentLength then some (.refuse 413)
      else if headerEnd + 4 + r.contentLength = request.length then some (.answer r)
      else none

/-- Of one such request and something behind it, nothing is answered until the request is there. -/
theorem reference_sole {rest : Bytes} (hd : soleDecision request = some d)
    (h : input <+: request ++ rest) :
    reference input = [] ∨ reference input = [d] ∨
      ∃ input', input' <+: rest ∧ reference input = d :: reference input' := by
  unfold soleDecision at hd
  cases hfind : Search.find? crlfcrlf request with
  | none =>
    rw [hfind] at hd
    cases hd
  | some headerEnd =>
    rw [hfind] at hd
    dsimp only at hd
    cases hinput : Search.find? crlfcrlf input with
    | none => exact .inl (reference_of_none hinput)
    | some headerEnd' =>
      obtain ⟨more, hmore⟩ := h
      obtain rfl : headerEnd' = headerEnd := by
        have hfound := Search.find?_append hinput more
        rw [hmore, Search.find?_append hfind] at hfound
        exact (Option.some.inj hfound).symm
      have hle := find?_crlfcrlf_le hfind
      have hle' := find?_crlfcrlf_le hinput
      have htake : input.take (headerEnd' + 4) = request.take (headerEnd' + 4) := by
        rw [← List.take_append_of_le_length hle', hmore, List.take_append_of_le_length hle]
      rw [reference_of_some hinput, htake]
      unfold onHeader
      cases hparse : parseRequestHeader (request.take (headerEnd' + 4)) with
      | error e =>
        rw [hparse] at hd
        cases hd
        exact .inr (.inl rfl)
      | ok r =>
        rw [hparse] at hd
        dsimp only at hd ⊢
        by_cases hbig : kMaxBodyBytes < r.contentLength
        · rw [if_pos hbig] at hd ⊢
          cases hd
          exact .inr (.inl rfl)
        · rw [if_neg hbig] at hd ⊢
          by_cases hlength : headerEnd' + 4 + r.contentLength = request.length
          · rw [if_pos hlength] at hd
            cases hd
            split
            · exact .inl rfl
            · rename_i hbody
              rw [List.length_drop] at hbody
              refine .inr (.inr ⟨_, ?_, rfl⟩)
              have hdrop := congrArg (List.drop request.length) hmore
              rw [List.drop_left, List.drop_append_of_le_length (by omega)] at hdrop
              rw [List.drop_drop, hlength]
              exact ⟨more, hdrop⟩
          · rw [if_neg hlength] at hd
            cases hd

/-- Whoever sends one request again and again gets one decision again and again. -/
theorem reference_repeated (hd : soleDecision request = some d)
    (h : input <+: (List.replicate n request).flatten) : ∀ d' ∈ reference input, d' = d := by
  induction n generalizing input with
  | zero =>
    obtain rfl := List.prefix_nil.mp h
    nofun
  | succ n ih =>
    rw [List.replicate_succ, List.flatten_cons] at h
    rcases reference_sole hd h with hnone | hone | ⟨input', hrest, hmore⟩
    · rw [hnone]
      nofun
    · rw [hone]
      simp
    · rw [hmore]
      intro d' hd'
      rcases List.mem_cons.mp hd' with rfl | hd'
      · rfl
      · exact ih hrest d' hd'

/-- The responses that the workers expect are those to their requests. -/
theorem answerTo_workers :
    ∀ w ∈ workers, (soleDecision w.request).map answerTo = some (w.statusCode, w.body) := by
  unfold workers
  simp only [List.forall_mem_cons]
  decide +kernel

/-! ## Workers -/

theorem check_ok_iff (reply : Reply) : w.check counters reply = .ok counters' ↔
    answerIn reply = (w.statusCode, w.body) ∧ counters' = w.count counters := by
  unfold Worker.check answerIn
  rw [Prod.mk.injEq]
  split
  · rename_i hno
    simp only [Bool.or_eq_true, decide_eq_true_eq] at hno
    constructor
    · nofun
    · rintro ⟨⟨hcode, hbody⟩, -⟩
      rcases hno with hno | hno
      · exact absurd hcode hno
      · exact absurd hbody hno
  · rename_i hno
    simp only [Bool.or_eq_true, decide_eq_true_eq, not_or, not_not] at hno
    constructor
    · intro h
      cases h
      exact ⟨hno, rfl⟩
    · rintro ⟨-, rfl⟩
      rfl

theorem foldlM_check_ok_iff : replies.foldlM w.check counters = .ok counters' ↔
    (∀ reply ∈ replies, answerIn reply = (w.statusCode, w.body)) ∧
      counters' = w.count^[replies.length] counters := by
  induction replies generalizing counters with
  | nil =>
    constructor
    · intro h
      cases h
      exact ⟨nofun, rfl⟩
    · rintro ⟨-, rfl⟩
      rfl
  | cons reply replies ih =>
    rw [List.foldlM_cons, List.forall_mem_cons, List.length_cons, Function.iterate_succ_apply]
    cases hcheck : w.check counters reply with
    | error e =>
      constructor
      · nofun
      · rintro ⟨⟨hanswer, -⟩, -⟩
        rw [(check_ok_iff reply).mpr ⟨hanswer, rfl⟩] at hcheck
        cases hcheck
    | ok counted =>
      obtain ⟨hanswer, rfl⟩ := (check_ok_iff reply).mp hcheck
      show replies.foldlM w.check (w.count counters) = .ok counters' ↔ _
      rw [ih, and_assoc, and_iff_right hanswer]

/-- The worker is content with these replies. -/
theorem converse_ok_iff : w.converse counters replies = .ok counters' ↔
    (∀ reply ∈ replies, answerIn reply = (w.statusCode, w.body)) ∧
      counters' = w.count^[replies.length] { counters with acceptTotal := counters.acceptTotal + 1 } :=
  foldlM_check_ok_iff

/-- **The workers are served.**  A worker that has repeated its request on a connection on which no
refusal has overtaken unsent bytes, in whatever parts the bytes have arrived, is content with
everything that can be read on it, and counts every response.  Behind that the server may have
given the connection up with one `431` or `503`. -/
theorem workers_served (hs : Reachable s) (hw : w ∈ workers) (counters : Counters)
    (hsent : received (history id s.trace) <+: (List.replicate n w.request).flatten)
    (hclean : ∀ e ∈ history id s.trace, overtakes e = false) :
    ∃ expected last, repliesIn (wire (history id s.trace)) = expected ++ last ∧
      w.converse counters expected = .ok
        (w.count^[expected.length] { counters with acceptTotal := counters.acceptTotal + 1 }) ∧
      (last = [] ∨ ∃ reply, last = [reply] ∧ (reply.statusCode = 431 ∨ reply.statusCode = 503)) := by
  obtain ⟨last, hlast, hreplies⟩ := replies_served hs id hclean
  obtain ⟨d, hd, hanswer⟩ := Option.map_eq_some_iff.mp (answerTo_workers w hw)
  have hanswers : ∀ reply ∈ (serve true (decisions (history id s.trace))).map BuiltResponse.reply,
      answerIn reply = (w.statusCode, w.body) := by
    intro reply hreply
    have hmem := List.mem_map_of_mem (f := answerIn) hreply
    rw [map_answerIn_serve] at hmem
    obtain ⟨d', hd', hsame⟩ := List.mem_map.mp hmem
    have hdecided := (decisions_prefix_of_reachable hs id).subset hd'
    rw [reference_repeated hd hsent d' hdecided, hanswer] at hsame
    exact hsame.symm
  rw [List.map_append] at hreplies
  generalize (serve true (decisions (history id s.trace))).map BuiltResponse.reply = front at *
  have hsplit : ∃ expected last, repliesIn (wire (history id s.trace)) = expected ++ last ∧
      expected <+: front ∧
      (last = [] ∨ ∃ reply, last = [reply] ∧
        (reply.statusCode = 431 ∨ reply.statusCode = 503)) := by
    rcases hlast with rfl | ⟨statusCode, hcode, rfl⟩
    · rw [List.map_nil, List.append_nil] at hreplies
      exact ⟨_, [], (List.append_nil _).symm, hreplies, .inl rfl⟩
    · rcases List.prefix_concat_iff.mp hreplies with hall | hreplies
      · exact ⟨front, [_], hall, List.prefix_refl _, .inr ⟨_, rfl, hcode⟩⟩
      · exact ⟨_, [], (List.append_nil _).symm, hreplies, .inl rfl⟩
  obtain ⟨expected, last, heq, hpart, hlast⟩ := hsplit
  refine ⟨expected, last, heq, converse_ok_iff.mpr ⟨?_, rfl⟩, hlast⟩
  intro reply hreply
  exact hanswers reply (hpart.subset hreply)

/-- The second request of a worker has come in three parts, and half of the second response is on
its way. -/
def postsInParts : SampleRun fun s =>
    received (history 1 s.trace) <+: (List.replicate 2 keepalivePostWorker.request).flatten ∧
      (∀ e ∈ history 1 s.trace, overtakes e = false) ∧
      (repliesIn (wire (history 1 s.trace))).length = 1 where
  iterations :=
    [accepting 3 5 0,
      reading 5 1 [.got keepalivePostWorker.request] [.wrote 1000],
      reading 5 2 [.got (keepalivePostWorker.request.take 20)] [],
      reading 5 3 [.got ((keepalivePostWorker.request.drop 20).take 70)] [],
      reading 5 4 [.got (keepalivePostWorker.request.drop 90)] [.wrote 40]]
  holds := by decide +kernel

theorem workers_served_postsInParts :
    (repliesIn (wire (history 1 postsInParts.final.trace))).length = 1 ∧
      ∃ expected last, repliesIn (wire (history 1 postsInParts.final.trace)) = expected ++ last ∧
        keepalivePostWorker.converse {} expected = .ok
          (countAnswer^[expected.length] ({ acceptTotal := 1 } : Counters)) ∧
        (last = [] ∨ ∃ reply, last = [reply] ∧
          (reply.statusCode = 431 ∨ reply.statusCode = 503)) := by
  obtain ⟨hsent, hclean, hone⟩ := postsInParts.holds_final
  have hworker : keepalivePostWorker ∈ workers := List.mem_cons_of_mem _ List.mem_cons_self
  exact ⟨hone, workers_served postsInParts.reachable hworker {} hsent hclean⟩

/-! ## What is counted -/

/-- No event is counted for two connections. -/
theorem sum_countP_history_le {ids : List Nat} (h : ids.Nodup) (p : Event → Bool)
    (trace : List Event) :
    (ids.map fun id => (history id trace).countP p).sum ≤ trace.countP p := by
  induction ids generalizing trace with
  | nil => exact Nat.zero_le _
  | cons id ids ih =>
    obtain ⟨hid, hids⟩ := List.nodup_cons.mp h
    have hothers : ∀ id' ∈ ids,
        history id' (trace.filter fun e => !decide (life? e = some id)) = history id' trace :=
      fun id' hid' => history_filter_other (ne_of_mem_of_not_mem hid' hid) trace
    have hrest := ih hids (trace.filter fun e => !decide (life? e = some id))
    rw [List.map_congr_left fun id' hid' => congrArg (List.countP p) (hothers id' hid')] at hrest
    rw [List.map_cons, List.sum_cons,
      List.countP_eq_countP_filter_add trace p fun e => decide (life? e = some id)]
    exact Nat.add_le_add_left hrest _

theorem countP_decisions {q : Decision → Bool} {p : Event → Bool}
    (h : ∀ e, (decisionOf e).countP q = [e].countP p) (H : List Event) :
    (decisions H).countP q = H.countP p := by
  induction H with
  | nil => rfl
  | cons e H ih =>
    rw [decisions_cons, List.countP_append, h, ih, ← List.countP_append, List.singleton_append]

def hasStatus (statusCode : Nat) (d : Decision) : Bool := (answerTo d).1 = statusCode

theorem hasStatus_refuse (statusCode code : Nat) :
    hasStatus statusCode (.refuse code) = decide (code = statusCode) := rfl

theorem countP_answered (H : List Event) :
    (decisions H).countP (hasStatus 200) = H.countP isDispatched := by
  refine countP_decisions ?_ H
  intro e
  cases e with
  | rejected c code =>
    show (if isFramingError code = true then [Decision.refuse code] else []).countP _ = 0
    by_cases hframing : isFramingError code = true
    · have hne : code ≠ 200 := by
        rintro rfl
        cases hframing
      simp [hframing, hasStatus_refuse, hne]
    · rw [if_neg hframing]
      rfl
  | _ => rfl

theorem countP_refused {statusCode : Nat} (h : isFramingError statusCode = true) (H : List Event) :
    (decisions H).countP (hasStatus statusCode) = H.countP (isRefusal statusCode) := by
  refine countP_decisions ?_ H
  intro e
  cases e with
  | rejected c code =>
    show (if isFramingError code = true then [Decision.refuse code] else []).countP _ =
      [Event.rejected c code].countP _
    by_cases hcode : code = statusCode
    · subst hcode
      simp [h, hasStatus_refuse, isRefusal]
    · split <;> simp [hasStatus_refuse, isRefusal, hcode]
  | dispatched c request keepAlive =>
    have hne : ¬ 200 = statusCode := by
      rintro rfl
      cases h
    show [Decision.answer request].countP _ = 0
    simp [hasStatus, answerTo, hne]
  | _ => rfl

/-- The client has read no more responses with this status code than there were decisions for it. -/
theorem countP_replies_le (hs : Reachable s) (id : Nat)
    (hclean : ∀ e ∈ history id s.trace, overtakes e = false) (statusCode : Nat)
    (h431 : statusCode ≠ 431) (h503 : statusCode ≠ 503) :
    (repliesIn (wire (history id s.trace))).countP (fun reply => reply.statusCode = statusCode) ≤
      (decisions (history id s.trace)).countP (hasStatus statusCode) := by
  obtain ⟨last, hlast, hreplies⟩ := replies_served hs id hclean
  have hle := hreplies.sublist.countP_le (p := fun reply => reply.statusCode = statusCode)
  have hsame (ds : List Decision) :
      ((serve true ds).map BuiltResponse.reply).countP (fun reply => reply.statusCode = statusCode) =
        ds.countP (hasStatus statusCode) := by
    have hmap := congrArg (List.countP fun answer => decide (answer.1 = statusCode))
      (map_answerIn_serve true ds)
    rwa [List.countP_map, List.countP_map (f := answerTo)] at hmap
  have hnone : (last.map BuiltResponse.reply).countP (fun reply => reply.statusCode = statusCode) =
      0 := by
    rcases hlast with rfl | ⟨code, hcode, rfl⟩
    · rfl
    · have hne : code ≠ statusCode := by
        rintro rfl
        exact hcode.elim h431 h503
      rw [List.countP_eq_zero]
      intro reply hreply
      obtain rfl := List.mem_singleton.mp hreply
      exact fun hsame => hne (of_decide_eq_true hsame)
  rwa [List.map_append, List.countP_append, hsame, hnone, Nat.add_zero] at hle

/-! ## The counters of the test -/

/-- What the counters are after some connections that could read this many `200` and `411`. -/
structure Covered (accepts answered refused : Nat) (counters : Counters) : Prop where
  accepts : counters.acceptTotal = accepts
  requests : counters.requestsTotal ≤ answered
  refusals : counters.reject411Total ≤ refused
  rejects : counters.rejectTotal = counters.reject411Total
  errors : counters.errorsTotal = counters.reject411Total

theorem iterate_countAnswer (n : Nat) (counters : Counters) :
    countAnswer^[n] counters = { counters with requestsTotal := counters.requestsTotal + n } := by
  induction n with
  | zero => rfl
  | succ n ih =>
    rw [Function.iterate_succ_apply', ih]
    rfl

theorem iterate_countRefusal (n : Nat) (counters : Counters) :
    countRefusal^[n] counters = { counters with
      rejectTotal := counters.rejectTotal + n
      reject411Total := counters.reject411Total + n
      errorsTotal := counters.errorsTotal + n } := by
  induction n with
  | zero => rfl
  | succ n ih =>
    rw [Function.iterate_succ_apply', ih]
    rfl

variable {accepts answered refused : Nat}

/-- One more connection of a worker that was content. -/
theorem Covered.converse (h : Covered accepts answered refused counters) (hw : w ∈ workers)
    (hok : w.converse counters replies = .ok counters') {m k : Nat}
    (hm : replies.countP (fun reply => reply.statusCode = 200) ≤ m)
    (hk : replies.countP (fun reply => reply.statusCode = 411) ≤ k) :
    Covered (accepts + 1) (answered + m) (refused + k) counters' := by
  obtain ⟨hall, rfl⟩ := converse_ok_iff.mp hok
  have hread : replies.countP (fun reply => reply.statusCode = w.statusCode) = replies.length := by
    rw [List.countP_eq_length]
    intro reply hreply
    exact decide_eq_true (congrArg Prod.fst (hall reply hreply))
  obtain ⟨haccepts, hrequests, hrefusals, hrejects, herrors⟩ := h
  have hanswer (hcode : w.statusCode = 200) (hcount : w.count = countAnswer) :
      Covered (accepts + 1) (answered + m) (refused + k)
        (w.count^[replies.length] { counters with acceptTotal := counters.acceptTotal + 1 }) := by
    rw [hcode] at hread
    rw [hcount, iterate_countAnswer]
    constructor <;> dsimp only <;> omega
  simp only [workers, List.mem_cons, List.not_mem_nil, or_false] at hw
  rcases hw with rfl | rfl | rfl
  · exact hanswer rfl rfl
  · exact hanswer rfl rfl
  · have hcode : rejectWorker.statusCode = 411 := rfl
    rw [hcode] at hread
    show Covered _ _ _ (countRefusal^[replies.length] _)
    rw [iterate_countRefusal]
    constructor <;> dsimp only <;> omega

/-- A worker and the connection it has had. -/
abbrev Talk : Type := Worker × Nat

/-- What the workers could read on their connections. -/
def conversations (talks : List Talk) (s : Server) : List (Worker × List Reply) :=
  talks.map fun talk => (talk.1, repliesIn (wire (history talk.2 s.trace)))

theorem covered_conversations {talks : List Talk} (hs : Reachable s)
    (hworkers : ∀ talk ∈ talks, talk.1 ∈ workers)
    (hclean : ∀ talk ∈ talks, ∀ e ∈ history talk.2 s.trace, overtakes e = false)
    (hok : (conversations talks s).foldlM (fun counters talk => talk.1.converse counters talk.2)
      counters = .ok counters')
    (h : Covered accepts answered refused counters) :
    Covered (accepts + talks.length)
      (answered + (talks.map fun talk => (history talk.2 s.trace).countP isDispatched).sum)
      (refused + (talks.map fun talk => (history talk.2 s.trace).countP (isRefusal 411)).sum)
      counters' := by
  induction talks generalizing counters accepts answered refused with
  | nil =>
    cases hok
    exact h
  | cons talk talks ih =>
    obtain ⟨hworker, hworkers⟩ := List.forall_mem_cons.mp hworkers
    obtain ⟨htalk, hclean⟩ := List.forall_mem_cons.mp hclean
    unfold conversations at hok
    rw [List.map_cons, List.foldlM_cons] at hok
    cases hconverse : talk.1.converse counters (repliesIn (wire (history talk.2 s.trace))) with
    | error e =>
      rw [hconverse] at hok
      cases hok
    | ok counted =>
      rw [hconverse] at hok
      have hm := countP_replies_le hs talk.2 htalk 200 (by decide) (by decide)
      have hk := countP_replies_le hs talk.2 htalk 411 (by decide) (by decide)
      rw [countP_answered] at hm
      rw [countP_refused rfl] at hk
      have hrest := ih hworkers hclean hok (h.converse hworker hconverse hm hk)
      rw [List.length_cons, List.map_cons, List.sum_cons, List.map_cons, List.sum_cons,
        Nat.add_comm talks.length, ← Nat.add_assoc, ← Nat.add_assoc, ← Nat.add_assoc]
      exact hrest

/-- What `wait_for_metrics` is waiting for, in a line of the log. -/
theorem metricsReached_fields {expected : Counters} {x : MetricsSample}
    (haccepts : expected.acceptTotal ≤ x.metrics.acceptTotal)
    (hrequests : expected.requestsTotal ≤ x.metrics.requestsTotal)
    (hrejects : expected.rejectTotal ≤ x.metrics.rejectTotal)
    (hrefusals : expected.reject411Total ≤ x.metrics.reject411Total)
    (herrors : expected.errorsTotal ≤ x.metrics.errorsTotal)
    (hconns : x.metrics.connsCurrent = 0) (hinflight : x.metrics.globalInflightBytesCurrent = 0) :
    metricsReached expected x.fields = true := by
  have hfound : x.fields.lookup (ascii "accept_total") = some (x.metrics.acceptTotal : Int) ∧
      x.fields.lookup (ascii "requests_total") = some (x.metrics.requestsTotal : Int) ∧
      x.fields.lookup (ascii "reject_total") = some (x.metrics.rejectTotal : Int) ∧
      x.fields.lookup (ascii "reject_411_total") = some (x.metrics.reject411Total : Int) ∧
      x.fields.lookup (ascii "errors_total") = some (x.metrics.errorsTotal : Int) ∧
      x.fields.lookup (ascii "conns_current") = some (x.metrics.connsCurrent : Int) ∧
      x.fields.lookup (ascii "global_inflight_bytes_current") =
        some (x.metrics.globalInflightBytesCurrent : Int) := ⟨rfl, rfl, rfl, rfl, rfl, rfl, rfl⟩
  obtain ⟨h₁, h₂, h₃, h₄, h₅, h₆, h₇⟩ := hfound
  have hne : x.fields ≠ [] := List.cons_ne_nil _ _
  unfold metricsReached Counters.items
  simp only [List.all_cons, List.all_nil, h₁, h₂, h₃, h₄, h₅, h₆, h₇, Option.getD_some,
    hconns, hinflight, Int.ofNat_le, Bool.and_eq_true, decide_eq_true_eq]
  exact ⟨⟨⟨hne, haccepts, hrequests, hrejects, hrefusals, herrors, trivial⟩, rfl⟩, rfl⟩

/-- **The smoke test passes.**  If every worker was content on all its connections and no refusal has
overtaken unsent bytes on one of them, no client is left and a line of the log is due, then
`wait_for_metrics` finds in that line what it is waiting for, whoever else has used the server. -/
theorem smokeTest_passes {talks : List Talk} {expected : Counters} {reading : MetricsReading}
    {log : MetricsLog} (hs : Reachable s) (hworkers : ∀ talk ∈ talks, talk.1 ∈ workers)
    (hdistinct : (talks.map Prod.snd).Nodup)
    (hissued : ∀ talk ∈ talks, 0 < talk.2 ∧ talk.2 < s.nextConnectionId)
    (hclean : ∀ talk ∈ talks, ∀ e ∈ history talk.2 s.trace, overtakes e = false)
    (hcontent : converseAll (conversations talks s) = .ok expected)
    (hgone : s.clients.keys = ∅) (hopen : log.isOpen = true) (hdue : log.nextTime ≤ reading.now) :
    ∃ latest, readLatestMetrics (maybeWriteMetricsLog reading s.metrics log).text = .ok latest ∧
      metricsReached expected latest = true := by
  have hstart : Covered 0 0 0 {} := ⟨rfl, Nat.le_refl 0, Nat.le_refl 0, rfl, rfl⟩
  obtain ⟨haccepts, hrequests, hrefusals, hrejects, herrors⟩ :=
    covered_conversations hs hworkers hclean hcontent hstart
  have hbooks := squared_of_reachable hs
  have hsound := sound_of_reachable hs
  have hrest := atRest_of_reachable hs 0
  -- every connection was accepted, and every response was counted on its own connection
  have haccepted : talks.length ≤ s.nextConnectionId - 1 := by
    have hsubset : talks.map Prod.snd ⊆ List.range' 1 (s.nextConnectionId - 1) := by
      intro id hid
      obtain ⟨talk, htalk, rfl⟩ := List.mem_map.mp hid
      have hrange := hissued talk htalk
      rw [List.mem_range'_1]
      omega
    have hle := (List.subperm_of_subset hdistinct hsubset).length_le
    rwa [List.length_map, List.length_range'] at hle
  have hanswered := sum_countP_history_le hdistinct isDispatched s.trace
  have hrefused := sum_countP_history_le hdistinct (isRefusal 411) s.trace
  rw [List.map_map] at hanswered hrefused
  have htallied : s.trace.countP (isRefusal 411) ≤ s.metrics.reject411Total :=
    refusals_le hs (show rejectCounter 411 = some .reject411 from rfl)
  have hconns : s.metrics.connsCurrent = 0 := by
    rw [hbooks.metric, hbooks.count, hgone]
    rfl
  have hinflight : s.metrics.globalInflightBytesCurrent = 0 := by
    have hempty : s.clients = ∅ := by
      apply Finmap.ext_lookup
      intro fd
      rw [Finmap.lookup_empty, Finmap.lookup_eq_none, ← Finmap.mem_keys, hgone]
      exact Finset.notMem_empty fd
    rw [hrest.metric, hrest.balance, hempty]
    exact TableSum.total_empty _
  have hreads := readLatestMetrics_eq (maybeWriteMetricsLog reading s.metrics log)
  rw [maybeWriteMetricsLog_due hopen hdue] at hreads ⊢
  dsimp only at hreads
  rw [List.getLast?_concat] at hreads
  rw [Nat.zero_add] at haccepts hrequests hrefusals
  have hreached₁ : expected.acceptTotal ≤ s.metrics.acceptTotal := by
    have hcounted := hbooks.accepted
    omega
  have hreached₂ : expected.requestsTotal ≤ s.metrics.requestsTotal := by
    rw [hbooks.requested]
    exact hrequests.trans hanswered
  have hreached₃ : expected.reject411Total ≤ s.metrics.reject411Total :=
    hrefusals.trans (hrefused.trans htallied)
  have hreached₄ : expected.rejectTotal ≤ s.metrics.rejectTotal := by
    have hnamed := hsound.rejected
    unfold namedRejects at hnamed
    omega
  have hreached₅ : expected.errorsTotal ≤ s.metrics.errorsTotal := by
    have herred := hsound.erred
    omega
  exact ⟨_, hreads, metricsReached_fields hreached₁ hreached₂ hreached₄ hreached₃ hreached₅
    hconns hinflight⟩

/-- Each of the workers has had a connection of its own, and two of them have hung up. -/
def threeWorkers : SampleRun fun s =>
    (∀ talk ∈ List.zip workers [1, 2, 3], 0 < talk.2 ∧ talk.2 < s.nextConnectionId) ∧
      (∀ talk ∈ List.zip workers [1, 2, 3], ∀ e ∈ history talk.2 s.trace, overtakes e = false) ∧
      (converseAll (conversations (List.zip workers [1, 2, 3]) s)).toOption =
        some { acceptTotal := 3, requestsTotal := 3, rejectTotal := 1, reject411Total := 1
               errorsTotal := 1 } ∧
      s.clients.keys = ∅ where
  iterations :=
    [accepting 3 5 0, accepting 3 6 1, accepting 3 7 2,
      reading 5 3 [.got keepaliveGetWorker.request] [.wrote 1000],
      reading 6 4 [.got keepalivePostWorker.request] [.wrote 1000],
      reading 7 5 [.got rejectWorker.request] [.wrote 1000],
      reading 5 6 [.got keepaliveGetWorker.request] [.wrote 1000],
      reading 5 7 [.got []] [], reading 6 8 [.got []] []]
  holds := by decide +kernel

theorem smokeTest_passes_threeWorkers : ∃ latest,
    readLatestMetrics (maybeWriteMetricsLog { now := seconds 1 } threeWorkers.final.metrics
      (initializeMetricsLogging 0)).text = .ok latest ∧
      metricsReached { acceptTotal := 3, requestsTotal := 3, rejectTotal := 1, reject411Total := 1
                       errorsTotal := 1 } latest = true := by
  obtain ⟨hissued, hclean, hcontent, hgone⟩ := threeWorkers.holds_final
  have hworkers : ∀ talk ∈ List.zip workers [1, 2, 3], talk.1 ∈ workers :=
    fun talk htalk => (List.of_mem_zip htalk).1
  cases hall : converseAll (conversations (List.zip workers [1, 2, 3]) threeWorkers.final) with
  | error e =>
    rw [hall] at hcontent
    cases hcontent
  | ok counters =>
    rw [hall] at hcontent
    obtain rfl := Option.some.inj hcontent
    exact smokeTest_passes threeWorkers.reachable hworkers (by decide) hissued hclean hall hgone rfl
      (Nat.le_refl _)

end WebServer.Properties
