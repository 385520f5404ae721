import WebServer.Life.Responses

/-!
# Error responses on the wire

`SendErrorResponseAndClose` writes straight to the socket.  It keeps the order of
the responses exactly when nothing else is still to be sent: a request must not be
refused behind unsent output, nor in the middle of a response.
-/

namespace WebServer.Life

open WebServer.Net WebServer.Http WebServer.Core

variable {fd : Fd} {id : Nat} {p p' : Point} {c c' : ClientConnection} {H : List Event}
  {events : List Event} {N nodes : List TimerEntry}

/-- Every byte of an error response follows all bytes of the responses started before. -/
def ErrorsInOrder (H : List Event) : Prop :=
  ∀ pre e post, H = pre ++ e :: post → bytesWritten .bestEffort e ≠ [] →
    accepted .response pre = responses pre

theorem errorsInOrder_iff_take : ErrorsInOrder H ↔ ∀ i : Fin H.length,
    bytesWritten .bestEffort (H.get i) ≠ [] → accepted .response (H.take i) = responses (H.take i) := by
  constructor
  · intro h i
    exact h (H.take i) H[i] (H.drop (i + 1)) (by simp)
  · rintro h pre e post rfl
    have := h ⟨pre.length, by simp⟩
    simpa using this

instance : Decidable (ErrorsInOrder H) := decidable_of_iff _ errorsInOrder_iff_take.symm

/-- `ProcessBufferedHeaders` answers this header block with an error. -/
def refusesHeader (header : Bytes) : Bool :=
  match parseRequestHeader header with
  | .error _ => true
  | .ok request => oversized request

/-- A refusal that has unsent response bytes in front of it: a header, a header limit or a
read refused while the output buffer is not empty, or a response that finds no room. -/
def overtakes : Event → Bool
  | .popped c header => c.outputBuffer ≠ [] && refusesHeader header
  | .limitChecked c =>
    c.outputBuffer ≠ [] && c.inputBuffer.headerExceedsLimit kMaxHeaderBytes
  | .reserved (some c) .inputAppend addBytes inflight =>
    c.outputBuffer ≠ [] && overBudget inflight addBytes
  | .reserved (some _) _ addBytes inflight => overBudget inflight addBytes
  | _ => false

/-! ## Runs -/

theorem accepted_eq_nil {writer : Writer} :
    accepted writer H = [] ↔ ∀ e ∈ H, bytesWritten writer e = [] := List.flatMap_eq_nil_iff

/-- No error response is written while a connection lives. -/
theorem Run.no_error_bytes (h : Run fd id p c H N) : accepted .bestEffort H = [] := by
  refine Run.invariant (I := fun _ _ H => accepted .bestEffort H = []) (fun _ _ => rfl) ?_ h
  intro p p' c c' H N events nodes hr hI hs
  clear hr
  rw [accepted_append, hI, List.nil_append]
  cases hs
  case flushed | flushBlocked | sendResponse => exact accepted_bestEffort_responseWrites ..
  all_goals rfl

/-- Only the header that is being parsed can be refused behind unsent output. -/
def Orderly (p : Point) (c : ClientConnection) (H : List Event) : Prop :=
  match p with
  | .parsing _ header =>
    (∀ e ∈ H, overtakes e = false) ↔ (c.outputBuffer = [] ∨ refusesHeader header = false)
  | _ => ∀ e ∈ H, overtakes e = false

theorem orderly_of_not_parsing (hp : p.isParsing = false) :
    Orderly p c H ↔ ∀ e ∈ H, overtakes e = false := by
  cases p <;> first | exact Iff.rfl | cases hp

/-- A step that leaves no refusal behind. -/
theorem Orderly.idle (hI : Orderly p c H) (hp : p.isParsing = false) (hp' : p'.isParsing = false)
    (hnew : ∀ e ∈ events, overtakes e = false) : Orderly p' c' (H ++ events) := by
  rw [orderly_of_not_parsing hp] at hI
  rw [orderly_of_not_parsing hp']
  intro e he
  exact (List.mem_append.mp he).elim (hI e) (hnew e)

theorem overtakes_responseWrites (fd : Fd) (life : Nat) (data : Bytes) (script : List WriteResult) :
    ∀ e ∈ responseWrites fd life data script, overtakes e = false := by
  intro e he
  obtain ⟨answer, -, rfl⟩ := List.mem_map.mp he
  rfl

theorem Orderly.step (hr : Run fd id p c H N) (hI : Orderly p c H)
    (h : Step fd H p c events nodes p' c') : Orderly p' c' (H ++ events) := by
  have hret := hr.returns
  clear hr
  cases h
  case pop caller headerEnd he =>
    have hI : ∀ e ∈ H, overtakes e = false := hI
    simp only [Orderly, List.mem_append, List.mem_singleton, or_imp, forall_and, forall_eq]
    simp only [overtakes, Bool.and_eq_false_iff, decide_eq_false_iff_not, ne_eq, not_not]
    exact ⟨fun h => h.2, fun h => ⟨hI, h⟩⟩
  case request r hp hs hb =>
    have hfine : ∀ e ∈ H, overtakes e = false := hI.mpr (.inr (by simp [refusesHeader, hp, hs]))
    intro e he
    rcases List.mem_append.mp he with he | he
    · exact hfine e he
    · obtain rfl := List.mem_singleton.mp he
      rfl
  case beginBody r now hp hs hb =>
    have hfine : ∀ e ∈ H, overtakes e = false := hI.mpr (.inr (by simp [refusesHeader, hp, hs]))
    intro e he
    rcases List.mem_append.mp he with he | he
    · exact hfine e he
    · simp only [List.mem_cons, List.not_mem_nil, or_false] at he
      rcases he with rfl | rfl <;> rfl
  case recv data inflight hd hlen hok =>
    exact hI.idle rfl rfl (by simp [overtakes, hok])
  case limitOk hw h => exact hI.idle rfl rfl (by simp [overtakes, h])
  case appendResponse hok _ =>
    exact hI.idle rfl (hret.isParsing _ _ (.inr rfl)) (by simp [overtakes, hok])
  case storeResponse hok _ =>
    exact hI.idle rfl (hret.isParsing _ _ (.inr rfl)) (by simp [overtakes, hok])
  case flushed | sendResponse => exact hI.idle rfl rfl (overtakes_responseWrites _ _ _ _)
  case flushBlocked =>
    exact hI.idle rfl (hret.isParsing _ [] (.inl rfl)) (overtakes_responseWrites _ _ _ _)
  case flushPaused | drainQueued | drainIdle | drainStop =>
    exact hI.idle rfl (hret.isParsing _ [] (.inl rfl)) (by simp [overtakes])
  case sentResponse => exact hI.idle rfl (hret.isParsing _ _ (.inr rfl)) (by simp)
  case flushBegin hp hout => rcases hp with rfl | rfl <;> exact hI.idle rfl rfl (by simp)
  case bodyPart hw h hp =>
    exact hI.idle (bodyBack_isParsing hp).1 (bodyBack_isParsing hp).2 (by simp)
  case bodyDone hp hw h => exact hI.idle (bodyBack_isParsing hp).1 rfl (by simp [overtakes])
  case settleWaiting | settleIdle | settleHeader | settlePass =>
    rename Caller => caller
    cases caller <;> exact hI.idle rfl rfl (by simp [overtakes])
  all_goals exact hI.idle rfl rfl (by simp [overtakes])

theorem Run.orderly (h : Run fd id p c H N) : Orderly p c H := by
  refine Run.invariant (I := Orderly) (fun _ _ e he => ?_) (fun hr hI hs => hI.step hr hs) h
  obtain rfl := List.mem_singleton.mp he
  rfl

/-! ## The end of a life -/

/-- A list of `write()` calls of the error path, behind a history without any. -/
theorem errorsInOrder_append {writes tail : List Event} (hH : accepted .bestEffort H = [])
    (htail : accepted .bestEffort tail = []) (hsent : accepted .response writes = [])
    (hresp : responses writes = []) :
    ErrorsInOrder (H ++ (writes ++ tail)) ↔
      accepted .bestEffort writes = [] ∨ accepted .response H = responses H := by
  constructor
  · intro h
    rw [or_iff_not_imp_left]
    intro hne
    obtain ⟨e, he, hb⟩ : ∃ e ∈ writes, bytesWritten .bestEffort e ≠ [] := by
      by_contra hall
      push Not at hall
      exact hne (accepted_eq_nil.mpr hall)
    obtain ⟨a, b, rfl⟩ := List.append_of_mem he
    have := h (H ++ a) e (b ++ tail) (by simp) hb
    rw [accepted_append] at hsent
    rw [responses_append] at hresp
    rwa [accepted_append, responses_append, (List.append_eq_nil_iff.mp hsent).1,
      (List.append_eq_nil_iff.mp hresp).1, List.append_nil, List.append_nil] at this
  · intro h pre e post heq hb
    have hnot : ∀ {l : List Event}, accepted .bestEffort l = [] → e ∉ l :=
      fun hl he => hb (accepted_eq_nil.mp hl e he)
    have hfull : accepted .response H = responses H := by
      refine h.resolve_left fun hw => ?_
      have he : e ∈ H ++ (writes ++ tail) := heq ▸ List.mem_append_right _ List.mem_cons_self
      rcases List.mem_append.mp he with he | he
      · exact hnot hH he
      · exact (List.mem_append.mp he).elim (hnot hw) (hnot htail)
    obtain ⟨a, rfl, ha⟩ | ⟨b, rfl, hb'⟩ := List.append_eq_append_iff.mp heq.symm
    · cases a with
      | nil => rwa [List.append_nil] at hfull
      | cons x a =>
        obtain ⟨rfl, -⟩ := List.cons.inj ha
        exact absurd (List.mem_append_right _ List.mem_cons_self) (hnot hH)
    · obtain ⟨a, rfl, ha⟩ | ⟨a, rfl, ha⟩ := List.append_eq_append_iff.mp hb'
      · exact absurd (ha ▸ List.mem_append_right _ List.mem_cons_self) (hnot htail)
      · -- the bytes before `e` are a first part of the calls
        rw [accepted_append] at hsent
        rw [responses_append] at hresp
        rw [accepted_append, responses_append, (List.append_eq_nil_iff.mp hsent).1,
          (List.append_eq_nil_iff.mp hresp).1, hfull]

theorem errorsInOrder_of_silent (h : accepted .bestEffort H = []) : ErrorsInOrder H := by
  rintro pre e post rfl hb
  exact absurd (accepted_eq_nil.mp h e (List.mem_append_right _ List.mem_cons_self)) hb

theorem overtakes_refusal (c : ClientConnection) (statusCode : Nat) (script : List WriteResult) :
    ∀ e ∈ refusal fd c statusCode script, overtakes e = false := by
  intro e he
  simp only [refusal, List.mem_cons, List.mem_append, List.not_mem_nil, or_false] at he
  rcases he with rfl | he | rfl
  · rfl
  · obtain ⟨⟨offered, answer⟩, -, rfl⟩ := List.mem_map.mp he
    rfl
  · rfl

theorem append_refusal (H : List Event) (c : ClientConnection) (statusCode : Nat)
    (script : List WriteResult) :
    H ++ refusal fd c statusCode script =
      (H ++ [.rejected c statusCode]) ++
        (errorWrites fd c.connectionId (errorResponse statusCode) script ++
          [.closed c (.errorResponse statusCode)]) := by
  simp [refusal]

/-- An error response behind a history with the bytes `unsent` still to go. -/
theorem errorsInOrder_refusal (unsent : Bytes) {statusCode : Nat} {script : List WriteResult}
    (hH : accepted .bestEffort H = []) (hdel : accepted .response H ++ unsent = responses H)
    (hclean : (∀ e ∈ H, overtakes e = false) ↔ unsent = []) :
    ErrorsInOrder (H ++ refusal fd c statusCode script) ↔
      accepted .bestEffort (H ++ refusal fd c statusCode script) = [] ∨
        ∀ e ∈ H ++ refusal fd c statusCode script, overtakes e = false := by
  have hover : (∀ e ∈ H ++ refusal fd c statusCode script, overtakes e = false) ↔ unsent = [] := by
    rw [← hclean]
    exact ⟨fun h e he => h e (List.mem_append_left _ he), fun h e he =>
      (List.mem_append.mp he).elim (h e) (overtakes_refusal c statusCode script e)⟩
  have hdone : accepted .response (H ++ [.rejected c statusCode]) =
      responses (H ++ [.rejected c statusCode]) ↔ unsent = [] := by
    rw [accepted_append, responses_append, ← hdel]
    simp [accepted, bytesWritten, responses, responseOf]
  rw [hover, append_refusal, errorsInOrder_append ?_ rfl (accepted_response_errorWrites ..)
    (flatMap_errorWrites (fun _ _ _ _ _ => rfl) ..), hdone, accepted_append, accepted_append,
    accepted_append, hH]
  · simp [accepted, bytesWritten]
  · rw [accepted_append, hH]
    rfl

/-- **Order of error responses.**  At the end of a life, every byte of an error response
followed all responses before it exactly when no such byte went out or no refusal had
unsent bytes in front of it. -/
theorem Ended.errorsInOrder_iff (h : Ended fd id H) :
    ErrorsInOrder H ↔ accepted .bestEffort H = [] ∨ ∀ e ∈ H, overtakes e = false := by
  obtain ⟨p, c, H₀, N, events, hr, he, rfl⟩ := h
  have hquiet := hr.no_error_bytes
  have hdel : accepted .response H₀ ++ (c.outputBuffer ++ p.owed) = responses H₀ := hr.delivered
  have hord := hr.orderly
  -- most ends write no error response at all
  have silent (hs : accepted .bestEffort events = []) :
      ErrorsInOrder (H₀ ++ events) ↔ accepted .bestEffort (H₀ ++ events) = [] ∨
        ∀ e ∈ H₀ ++ events, overtakes e = false := by
    have hnone : accepted .bestEffort (H₀ ++ events) = [] := by
      rw [accepted_append, hquiet, hs, List.nil_append]
    exact iff_of_true (errorsInOrder_of_silent hnone) (.inl hnone)
  -- what the refused step does before it is refused
  have after (front : List Event) (hb : accepted .bestEffort front = [])
      (ha : accepted .response front = []) (hs : responses front = []) :
      accepted .bestEffort (H₀ ++ front) = [] ∧
        accepted .response (H₀ ++ front) ++ (c.outputBuffer ++ p.owed) = responses (H₀ ++ front) := by
    rw [accepted_append, accepted_append, responses_append, hquiet, hb, ha, hs]
    exact ⟨rfl, by simpa only [List.append_nil] using hdel⟩
  cases he
  case flushFailed | sendFailed =>
    apply silent
    rw [accepted_append, accepted_bestEffort_responseWrites]
    rfl
  case headerRefused hp =>
    refine errorsInOrder_refusal _ hquiet hdel (hord.trans ?_)
    simp [refusesHeader, hp, Point.owed]
  case bodyRefused hp hs =>
    refine errorsInOrder_refusal _ hquiet hdel (hord.trans ?_)
    simp [refusesHeader, hp, hs, Point.owed]
  case recvRefused data inflight script hd hover =>
    have hord : ∀ e ∈ H₀, overtakes e = false := hord
    rw [← List.append_assoc]
    obtain ⟨hquiet', hdel'⟩ := after [.read c (.got data),
      .reserved (some c) .inputAppend data.length inflight] rfl rfl rfl
    apply errorsInOrder_refusal _ hquiet' hdel'
    apply (List.forall_mem_append.trans (and_iff_right hord)).trans
    simp [overtakes, hover, Point.owed]
  case limitExceeded script hw hexceeds =>
    have hord : ∀ e ∈ H₀, overtakes e = false := hord
    rw [← List.singleton_append, ← List.append_assoc]
    obtain ⟨hquiet', hdel'⟩ := after [.limitChecked c] rfl rfl rfl
    apply errorsInOrder_refusal _ hquiet' hdel'
    apply (List.forall_mem_append.trans (and_iff_right hord)).trans
    simp [overtakes, hexceeds, Point.owed]
  case answerRefused back owed growth inflight script howed hover hg =>
    rw [← List.singleton_append, ← List.append_assoc]
    obtain ⟨hquiet', hdel'⟩ := after [.reserved (some c) growth owed.length inflight]
      rfl rfl rfl
    refine errorsInOrder_refusal _ hquiet' hdel' (iff_of_false ?_ (by simp [Point.owed, howed]))
    intro h
    have := h _ (List.mem_append_right _ List.mem_cons_self)
    split at hg <;> subst hg <;> simp [overtakes, hover] at this
  all_goals exact silent rfl

/-! ## The wire -/

def wireOf : Event → Bytes
  | .write _ _ _ data answer => taken data answer
  | _ => []

/-- All bytes the socket has taken, from both writing paths. -/
def wire (H : List Event) : Bytes := H.flatMap wireOf

theorem wire_append (H H' : List Event) : wire (H ++ H') = wire H ++ wire H' := List.flatMap_append

theorem wire_of_silent (h : accepted .bestEffort H = []) : wire H = accepted .response H := by
  apply List.flatMap_congr
  intro e he
  have hb := accepted_eq_nil.mp h e he
  cases e with
  | write w fd life data answer =>
    cases w with
    | response => rfl
    | bestEffort => exact hb
  | _ => rfl

/-- `WriteBestEffort` sends a first part of its argument. -/
theorem wire_errorWrites_prefix (fd : Fd) (life : Nat) (data : Bytes) (script : List WriteResult) :
    wire (errorWrites fd life data script) <+: data := by
  have step (data : Bytes) (script : List WriteResult) :
      ((writeSomeNonBlocking data script).1.map (data, ·)).flatMap (fun x => taken x.1 x.2) =
        (writeSomeNonBlocking data script).1.flatMap (taken data) := List.flatMap_map ..
  rw [wire, errorWrites, List.flatMap_map]
  show List.flatMap (fun x : Bytes × WriteResult => taken x.1 x.2) _ <+: data
  generalize data.length = turns
  fun_induction writeBestEffort turns data script with
  | case1 => exact List.nil_prefix
  | case2 => exact List.nil_prefix
  | case3 turns data script hne answers script' e =>
    have := step data script
    rw [taken_writeSomeNonBlocking, e] at this
    simp only [this]
    exact List.nil_prefix
  | case4 turns data script hne answers script' n e calls script'' ok e' ih =>
    have := step data script
    rw [taken_writeSomeNonBlocking, e] at this
    rw [e'] at ih
    simp only [List.flatMap_append, this]
    conv_rhs => rw [← List.take_append_drop (n + 1) data]
    exact (List.prefix_append_right_inj _).mpr ih
  | case5 turns data script hne answers script' errno e =>
    have := step data script
    rw [taken_writeSomeNonBlocking, e] at this
    simp only [this]
    exact List.nil_prefix

theorem End.shape (h : End fd p c events) : accepted .bestEffort events = [] ∨
    ∃ front statusCode script, events = front ++ refusal fd c statusCode script ∧
      accepted .bestEffort front = [] := by
  cases h
  case flushFailed | sendFailed =>
    refine .inl ?_
    rw [accepted_append, accepted_bestEffort_responseWrites]
    rfl
  case headerRefused | bodyRefused => exact .inr ⟨[], _, _, rfl, rfl⟩
  case recvRefused => exact .inr ⟨_, _, _, rfl, rfl⟩
  case limitExceeded | answerRefused => exact .inr ⟨[_], _, _, rfl, rfl⟩
  all_goals exact .inl rfl

/-- **The wire.**  When no refusal has unsent bytes in front of it, the bytes on the wire
are a first part of the responses in order, with an error response last. -/
theorem Ended.wire_prefix (h : Ended fd id H) (hclean : ∀ e ∈ H, overtakes e = false) :
    ∃ statusCode, wire H <+: responses H ++ errorResponse statusCode := by
  have hord := h.errorsInOrder_iff.mpr (.inr hclean)
  have hprefix := h.accepted_prefix
  obtain ⟨p, c, H₀, N, events, hr, he, rfl⟩ := h
  obtain hs | ⟨front, statusCode, script, rfl, hfront⟩ := he.shape
  · rw [wire_of_silent (by rw [accepted_append, hr.no_error_bytes, hs, List.nil_append])]
    exact ⟨0, hprefix.trans (List.prefix_append ..)⟩
  · have hquiet : accepted .bestEffort (H₀ ++ front ++ [.rejected c statusCode]) = [] := by
      rw [accepted_append, accepted_append, hr.no_error_bytes, hfront]
      rfl
    rw [← List.append_assoc, append_refusal] at hord hprefix ⊢
    generalize H₀ ++ front ++ [.rejected c statusCode] = A at hquiet hord hprefix ⊢
    rw [errorsInOrder_append hquiet rfl (accepted_response_errorWrites ..)
      (flatMap_errorWrites (fun _ _ _ _ _ => rfl) ..)] at hord
    refine ⟨statusCode, ?_⟩
    rcases hord with hnone | hall
    · rw [wire_of_silent (by rw [accepted_append, accepted_append, hquiet, hnone]; rfl)]
      exact hprefix.trans (List.prefix_append ..)
    · have hresp : responses (errorWrites fd c.connectionId (errorResponse statusCode) script ++
          [.closed c (.errorResponse statusCode)]) = [] := by
        rw [responses_append, responses, flatMap_errorWrites (fun _ _ _ _ _ => rfl)]
        rfl
      rw [wire_append, wire_of_silent hquiet, hall, responses_append, hresp, List.append_nil,
        wire_append]
      apply (List.prefix_append_right_inj _).mpr
      exact (List.append_nil _).symm ▸ wire_errorWrites_prefix ..

end WebServer.Life
