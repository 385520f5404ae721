import WebServer.Refine.Expiry

/-!
# What a handler call does to each connection

A handler call takes one connection along a path of its machine or ends it, or it closes
connections whose timers have expired, or it registers new ones.  `Called` is what all of
these have in common.
-/

namespace WebServer.Refine

open WebServer.Net WebServer.Http WebServer.Core WebServer.Life

variable {o : Origin} {call : Call} {fd fd' : Fd} {c c' : ClientConnection} {timer : TimerEntry} {now : Time}
  {s s' s'' : Server}

/-- The handler call takes `fd` out of the ReadyQueue. -/
def Pops (fd : Fd) (call : Call) (s : Server) : Prop :=
  (∃ io, call = .ready io) ∧ s.readyQueue.head? = some fd

/-- How a handler call finds the connection `c` of `fd`: at rest, or at the front of the
ReadyQueue, from which it is taken out. -/
inductive Entry (call : Call) (s : Server) (fd : Fd) (c : ClientConnection) :
    Point → ClientConnection → Prop
  | atRest : Entry call s fd c .rest c
  | dequeued (hpop : Pops fd call s) : Entry call s fd c .resumed { c with inReadyQueue := false }

/-- The server went from `s` to `s'` by one handler call. -/
structure Called (call : Call) (s s' : Server) : Prop where
  trace : ∃ tr, s'.trace = s.trace ++ tr ∧ ∀ fd c, s.find fd = some c → ∃ p₀ c₀,
    Entry call s fd c p₀ c₀ ∧ Course fd (fun id => history id s.trace) p₀ (some c₀) .rest
      (s'.find fd) (history c.connectionId tr)
  fresh : ∀ fd c, s.find fd = none → s'.find fd = some c → ∃ peerEndpoint id,
    s.nextConnectionId ≤ id ∧ c = acceptedConnection fd peerEndpoint id
  nextId : s.nextConnectionId ≤ s'.nextConnectionId

theorem Entry.connectionId {p₀ : Point} {c₀ : ClientConnection} (h : Entry call s fd c p₀ c₀) :
    c₀.connectionId = c.connectionId := by
  cases h <;> rfl

/-- The connection as it was before the handler call, found in the server after it. -/
theorem Called.unchanged {H : Nat → List Event} {tr : List Event} (hf : s'.find fd = some c)
    (hnone : history c.connectionId tr = []) :
    ∃ p₀ c₀, Entry call s fd c p₀ c₀ ∧
      Course fd H p₀ (some c₀) .rest (s'.find fd) (history c.connectionId tr) := by
  rw [hf, hnone]
  exact ⟨.rest, c, .atRest, .live .start⟩

/-! ## Handlers of one connection -/

/-- A handler that works on `fd` does nothing to other connections. -/
theorem Since.called (h : AtRest s) (hsince : Since o fd .rest s')
    (htrace : o.server.trace = s.trace) (hnext : o.server.nextConnectionId = s.nextConnectionId)
    (hothers : ∀ fd', fd' ≠ fd → o.server.find fd' = s.find fd')
    (hentry : ∀ c, s.find fd = some c → ∃ c₀, o.server.find fd = some c₀ ∧
      Entry call s fd c o.point c₀)
    (hnone : s.find fd = none → o.server.find fd = none) : Called call s s' := by
  obtain ⟨tr, htr, hcourse⟩ := hsince.trace
  rw [htrace] at htr hcourse
  have hlives (id : Nat) : history id tr = history id (lifeEvents tr) :=
    (history_filter_isSome id tr).symm
  refine ⟨⟨tr, htr, fun fd' c hf => ?_⟩, fun fd' c hf hf' => ?_, (hsince.nextId.trans hnext).ge⟩
  · by_cases hne : fd' = fd
    · subst hne
      obtain ⟨c₀, hc₀, hentry⟩ := hentry c hf
      rw [hc₀] at hcourse
      refine ⟨o.point, c₀, hentry, ?_⟩
      have hown : history c.connectionId (lifeEvents tr) = lifeEvents tr := by
        apply history_of_lives
        intro e he
        obtain ⟨c₁, hc₁, hlife⟩ := hcourse.lives e he
        cases hc₁
        rw [hlife, hentry.connectionId]
      rwa [hlives, hown]
    · apply Called.unchanged ((hsince.others fd' hne).trans ((hothers fd' hne).trans hf))
      rw [hlives]
      apply history_of_others
      intro e he hlife
      obtain ⟨c₁, hc₁, hlife'⟩ := hcourse.lives e he
      cases hfound : s.find fd with
      | none =>
        rw [hnone hfound] at hc₁
        cases hc₁
      | some d =>
        obtain ⟨c₀, hc₀, hentry⟩ := hentry d hfound
        rw [hc₀] at hc₁
        cases hc₁
        rw [hlife, hentry.connectionId] at hlife'
        exact hne ((h fd).distinct _ _ _ _ hf hfound (Option.some.inj hlife'))
  · have hne : fd' ≠ fd := by
      rintro rfl
      rw [hnone hf] at hcourse
      rw [hcourse.of_none.1] at hf'
      cases hf'
    rw [hsince.others fd' hne, hothers fd' hne, hf] at hf'
    cases hf'

theorem clientEvent_called (h : AtRest s) (hsince : Since ⟨s, .rest⟩ fd .rest s') : Called call s s' :=
  hsince.called h rfl rfl (fun _ _ => rfl) (fun c hf => ⟨c, hf, .atRest⟩) id

theorem readyTurn_called {queue : List Fd} {io : Io} (h : AtRest s)
    (hqueue : s.readyQueue = fd :: queue) (hf : s.find fd = some c)
    (hsince : Since ⟨dequeued fd queue c s, .resumed⟩ fd .rest s') : Called (.ready io) s s' := by
  refine hsince.called h rfl rfl (fun fd' hne => ?_) (fun d hd => ?_) fun hnone => ?_
  · exact Finmap.lookup_insert_of_ne _ hne
  · rw [hf] at hd
    cases hd
    exact ⟨_, find_put .., .dequeued ⟨⟨io, rfl⟩, by rw [hqueue, List.head?_cons]⟩⟩
  · rw [hf] at hnone
    cases hnone

/-! ## Registering -/

theorem Admits.called (h : AtRest s) (ha : Admits s s') : Called call s s' := by
  obtain ⟨tr, htr, hids⟩ := ha.trace
  refine ⟨⟨tr, htr, fun fd c hf => ?_⟩, ha.fresh, ha.nextId⟩
  apply Called.unchanged (ha.kept fd c hf)
  apply history_of_others
  intro e he hlife
  have := hids e he _ hlife
  have := (h fd).ids fd c hf
  omega

/-! ## Expiry -/

/-- Connections are closed because a timer has expired, and nothing else happens. -/
structure Sheds (s s' : Server) : Prop where
  find : ∀ fd c, s'.find fd = some c → s.find fd = some c
  nextId : s'.nextConnectionId = s.nextConnectionId
  trace : ∃ tr, s'.trace = s.trace ++ tr ∧
    (∀ e ∈ tr, ∀ id, life? e = some id → ∃ fd c, s.find fd = some c ∧ c.connectionId = id) ∧
    ∀ fd c, s.find fd = some c →
      s'.find fd = some c ∧ history c.connectionId tr = [] ∨
      s'.find fd = none ∧ ∃ kind, (c.timeout kind).armed = true ∧
        history c.connectionId tr = [.closed (c.disarm kind) (.timedOut kind)]

namespace Sheds

theorem of_eq (hfind : ∀ fd, s'.find fd = s.find fd) (htrace : s'.trace = s.trace)
    (hnext : s'.nextConnectionId = s.nextConnectionId) : Sheds s s' := by
  refine ⟨fun fd c hf => (hfind fd).symm.trans hf, hnext, [], ?_, ?_, fun fd c hf => ?_⟩
  · rw [htrace, List.append_nil]
  · intro e he
    cases he
  · exact .inl ⟨(hfind fd).trans hf, rfl⟩

theorem refl (s : Server) : Sheds s s := .of_eq (fun _ => rfl) rfl rfl

theorem trans (h : AtRest s) (h₁ : Sheds s s') (h₂ : Sheds s' s'') : Sheds s s'' := by
  obtain ⟨tr₁, htr₁, hlives₁, hown₁⟩ := h₁.trace
  obtain ⟨tr₂, htr₂, hlives₂, hown₂⟩ := h₂.trace
  refine ⟨fun fd c hf => h₁.find fd c (h₂.find fd c hf), h₂.nextId.trans h₁.nextId, tr₁ ++ tr₂,
    ?_, ?_, fun fd c hf => ?_⟩
  · rw [htr₂, htr₁, List.append_assoc]
  · intro e he id hid
    rcases List.mem_append.mp he with he | he
    · exact hlives₁ e he id hid
    · obtain ⟨fd, c, hf, hc⟩ := hlives₂ e he id hid
      exact ⟨fd, c, h₁.find fd c hf, hc⟩
  · rw [history_append]
    rcases hown₁ fd c hf with ⟨hf', hnone⟩ | ⟨hgone, kind, harmed, hclosed⟩
    · rw [hnone]
      exact hown₂ fd c hf'
    · -- what is closed later is another connection
      have hnone : history c.connectionId tr₂ = [] := by
        apply history_of_others
        intro e he hlife
        obtain ⟨fd', d, hf', hd⟩ := hlives₂ e he _ hlife
        have hsame := (h fd).distinct _ _ _ _ (h₁.find fd' d hf') hf hd
        rw [hsame, hgone] at hf'
        cases hf'
      refine .inr ⟨?_, kind, harmed, by rw [hclosed, hnone, List.append_nil]⟩
      cases hf'' : s''.find fd with
      | none => rfl
      | some d =>
        have := h₂.find fd d hf''
        rw [hgone] at this
        cases this

theorem called (h : Sheds s s') : Called call s s' := by
  obtain ⟨tr, htr, -, hown⟩ := h.trace
  refine ⟨⟨tr, htr, fun fd c hf => ?_⟩, fun fd c hnone hf => ?_, h.nextId.ge⟩
  · rcases hown fd c hf with ⟨hf', hnone⟩ | ⟨hgone, kind, harmed, hclosed⟩
    · exact Called.unchanged hf' hnone
    · rw [hgone, hclosed]
      exact ⟨.rest, c, .atRest, .ended .start (.timedOut kind harmed) _⟩
  · have := h.find fd c hf
    rw [hnone] at this
    cases this

end Sheds

theorem Turn.sheds (h : AtRest s) (ht : Turn timer s s') : Sheds s s' := by
  cases ht with
  | stale hstale hs =>
    rw [hs]
    exact .of_eq (fun _ => rfl) rfl rfl
  | closes c hf hid hcur hs =>
    have hmoves := closeTimedOut_moves hf ((h timer.fd).run hf).closing
    have hfind (fd : Fd) : s'.find fd = (closeTimedOut timer c s).find fd := by
      rw [hs]
      rfl
    have htrace : s'.trace = (closeTimedOut timer c s).trace := by rw [hs]
    obtain ⟨tr, htr, hevents, -⟩ := hmoves.trace
    have hlife {e : Event} {id : Nat} (he : e ∈ tr) (hid : life? e = some id) :
        id = c.connectionId := by
      have hmem : e ∈ tr.filter fun e => (life? e).isSome :=
        List.mem_filter.mpr ⟨he, by rw [hid]; rfl⟩
      rw [hevents, List.mem_singleton] at hmem
      subst hmem
      exact (Option.some.inj hid).symm
    have hnext : s'.nextConnectionId = s.nextConnectionId := by
      rw [hs]
      exact hmoves.nextId
    refine ⟨fun fd d hd => ?_, hnext, tr, htrace.trans htr, fun e he id hid => ?_, fun fd d hd => ?_⟩
    · have hne : fd ≠ timer.fd := by
        rintro rfl
        rw [hfind, hmoves.find_self] at hd
        cases hd
      rwa [hfind, hmoves.find_other hne] at hd
    · exact ⟨timer.fd, c, hf, (hlife he hid).symm⟩
    · by_cases hne : fd = timer.fd
      · subst hne
        rw [hf] at hd
        cases hd
        refine .inr ⟨(hfind _).trans hmoves.find_self, timer.kind, hcur.1, ?_⟩
        rw [← history_filter_isSome _ tr, hevents]
        exact history_of_lives (lives_singleton _ rfl)
      · refine .inl ⟨(hfind fd).trans ((hmoves.find_other hne).trans hd), history_of_others ?_⟩
        intro e he hid
        exact hne ((h fd).distinct _ _ _ _ hd hf (hlife he hid))

theorem expireLoop_sheds (turns : Nat) (ties : List Nat) (h : AtRest s) :
    Sheds s (expireLoop now turns ties s) := by
  induction turns generalizing s ties with
  | zero => exact .refl s
  | succ turns ih =>
    rw [expireLoop]
    cases htop : Earliest.top TimerEntry.deadline (ties.headD 0) s.timerHeap with
    | none => exact .refl s
    | some timer =>
      dsimp only
      split
      · have hturn := expireTimer_turn h (Earliest.top_mem htop)
        exact (hturn.sheds h).trans h (ih ties.tail (hturn.atRest h))
      · exact .refl s

/-! ## All calls -/

/-- A handler call returns with all connections at rest, unless the ReadyQueue was empty or
`accept4()` failed. -/
theorem runCall_returns (call : Call) (h : AtRest s) :
    (∃ s', runCall call s = .ok s' ∧ AtRest s' ∧ Called call s s') ∨
      runCall call s = .error .emptyDeque ∧ s.readyQueue = [] ∨
      ∃ e, runCall call s = .error (.systemError "accept4() failed" e) := by
  cases call with
  | ready io =>
    cases hqueue : s.readyQueue with
    | nil =>
      refine .inr (.inl ⟨?_, rfl⟩)
      simp [runCall, readyTurn, hqueue]
    | cons fd queue =>
      obtain ⟨c, s', hf, e, h', hsince⟩ := readyTurn_returns h io hqueue
      exact .inl ⟨s', e, h', readyTurn_called h hqueue hf hsince⟩
  | event event io =>
    by_cases hlisten : event.fd = s.listenFd
    · exact (listenEvent_returns h hlisten io).imp
        (fun ⟨s', e, h', hadmits⟩ => ⟨s', e, h', hadmits.called h⟩) .inr
    · obtain ⟨s', e, h', hsince⟩ := clientEvent_returns h hlisten io
      exact .inl ⟨s', e, h', clientEvent_called h hsince⟩
  | expire now turns ties =>
    exact .inl ⟨_, rfl, expireLoop_atRest turns ties h, (expireLoop_sheds turns ties h).called⟩
  | flushClosed =>
    have hflush : Unmoved s (flushPendingCloseQueue s) := .silent rfl rfl rfl rfl rfl rfl rfl rfl
    exact .inl ⟨_, rfl, fun fd => (h fd).unmoved hflush, hflush.admits.called h⟩

theorem runCall_called (h : AtRest s) (hcall : runCall call s = .ok s') :
    AtRest s' ∧ Called call s s' := by
  rcases runCall_returns call h with ⟨t, ht, h'⟩ | ⟨he, -⟩ | ⟨e, he⟩
  · rw [ht] at hcall
    cases hcall
    exact h'
  · rw [he] at hcall
    cases hcall
  · rw [he] at hcall
    cases hcall

/-- What every call keeps, a sequence of calls keeps. -/
theorem AtRest.runCalls {P : Server → Prop} {calls : List Call} (h : AtRest s) (hP : P s)
    (hstep : ∀ t t' call, AtRest t → P t → runCall call t = .ok t' → P t')
    (hcalls : runCalls calls s = .ok s') : AtRest s' ∧ P s' := by
  induction calls generalizing s with
  | nil =>
    cases hcalls
    exact ⟨h, hP⟩
  | cons call calls ih =>
    rw [runCalls_cons] at hcalls
    cases hcall : runCall call s with
    | error e =>
      rw [hcall] at hcalls
      cases hcalls
    | ok t =>
      rw [hcall] at hcalls
      exact ih (runCall_called h hcall).1 (hstep s t call h hP hcall) hcalls

theorem expireLoop_listenFd (turns : Nat) (ties : List Nat) (h : AtRest s) :
    (expireLoop now turns ties s).listenFd = s.listenFd := by
  induction turns generalizing s ties with
  | zero => rfl
  | succ turns ih =>
    rw [expireLoop]
    cases htop : Earliest.top TimerEntry.deadline (ties.headD 0) s.timerHeap with
    | none => rfl
    | some timer =>
      dsimp only
      split
      · have hturn := expireTimer_turn h (Earliest.top_mem htop)
        rw [ih ties.tail (hturn.atRest h)]
        cases hturn with
        | stale hstale hs => rw [hs]
        | closes c hf hid hcur hs =>
          rw [hs]
          exact (closeTimedOut_moves hf ((h timer.fd).run hf).closing).listenFd
      · rfl

/-- The listening socket stays the same. -/
theorem runCall_listenFd (h : AtRest s) (hcall : runCall call s = .ok s') :
    s'.listenFd = s.listenFd := by
  cases call with
  | ready io =>
    cases hqueue : s.readyQueue with
    | nil =>
      have he : runCall (.ready io) s = .error .emptyDeque := by simp [runCall, readyTurn, hqueue]
      rw [he] at hcall
      cases hcall
    | cons fd queue =>
      obtain ⟨c, t, -, e, -, hsince⟩ := readyTurn_returns h io hqueue
      cases e.symm.trans hcall
      exact hsince.listenFd
  | event event io =>
    by_cases hlisten : event.fd = s.listenFd
    · rcases listenEvent_returns h hlisten io with ⟨t, e, -, hadmits⟩ | ⟨errno, e⟩
      · cases e.symm.trans hcall
        exact hadmits.listenFd
      · cases e.symm.trans hcall
    · obtain ⟨t, e, -, hsince⟩ := clientEvent_returns h hlisten io
      cases e.symm.trans hcall
      exact hsince.listenFd
  | expire now turns ties =>
    cases hcall
    exact expireLoop_listenFd turns ties h
  | flushClosed =>
    cases hcall
    rfl

/-- A handler call begins in a run of the machine. -/
theorem Entry.run {p₀ : Point} {c₀ : ClientConnection} (h : AtRest s) (hf : s.find fd = some c)
    (hentry : Entry call s fd c p₀ c₀) : Run fd c.connectionId p₀ c₀ (history c.connectionId s.trace)
      (nodesOf c.connectionId s.timerHeap) := by
  have hrun := (h fd).run hf
  cases hentry with
  | atRest => exact hrun
  | dequeued hpop =>
    obtain ⟨queue, hqueue⟩ := List.head?_eq_some_iff.mp hpop.2
    obtain ⟨d, hd, hq⟩ := h.front hqueue
    rw [hf] at hd
    cases hd
    simpa using hrun.step (.resume hq)

/-- A handler call does not put one connection in the place of another. -/
theorem Called.connectionId (h : Called call s s') (hf : s.find fd = some c)
    (hf' : s'.find fd = some c') : c'.connectionId = c.connectionId := by
  obtain ⟨tr, -, hcourses⟩ := h.trace
  obtain ⟨p₀, c₀, hentry, hcourse⟩ := hcourses fd c hf
  rw [hf'] at hcourse
  obtain ⟨c₁, hc₁, hid⟩ := hcourse.connectionId
  cases hc₁
  rw [hid, hentry.connectionId]

end WebServer.Refine
