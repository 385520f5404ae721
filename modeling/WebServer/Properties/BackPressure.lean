import WebServer.Life.BackPressure
import WebServer.Refine.Reachable

/-!
# Back-pressure

What is unsent on a connection is from one handler call, and a client that takes no bytes gets
no further ones prepared.
-/

namespace WebServer.Properties

open WebServer.Net WebServer.Http WebServer.Core WebServer.Life WebServer.Refine

variable {fd : Fd} {id : Nat} {c c' : ClientConnection} {before : Bytes} {call : Call}
  {s s' t : Server}

/-- What happened to the connection `id` between the states `s` and `s'` of a run. -/
def eventsBetween (id : Nat) (s s' : Server) : List Event :=
  history id (s'.trace.drop s.trace.length)

/-- The responses that the last of the handler calls to dispatch a request of the connection `id`
began; `before` are those of the last call before them. -/
def latestRound (id : Nat) : List Call → Server → Bytes → Bytes
  | [], _, before => before
  | call :: calls, s, before =>
    match runCall call s with
    | .error _ => before
    | .ok s' => latestRound id calls s' (latest before (eventsBetween id s s'))

theorem eventsBetween_append {tr : List Event} (h : s'.trace = s.trace ++ tr) :
    eventsBetween id s s' = history id tr := by
  rw [eventsBetween, h, List.drop_left]

/-- One handler call on a connection, whose output buffer holds `before` bytes of one round. -/
theorem call_backPressure (h : AtRest s) (hcall : runCall call s = .ok s')
    (hf : s.find fd = some c) (hb : c.outputBuffer <:+ before) :
    Shown c.outputBuffer before (eventsBetween c.connectionId s s') ∧
      ∀ c', s'.find fd = some c' →
        c'.outputBuffer <:+ latest before (eventsBetween c.connectionId s s') ∧
        (c.outputBuffer ≠ [] → accepted .response (eventsBetween c.connectionId s s') = [] →
          c'.outputBuffer = c.outputBuffer) := by
  obtain ⟨tr, htr, hcourses⟩ := (runCall_called h hcall).2.trace
  obtain ⟨p₀, c₀, hentry, hcourse⟩ := hcourses fd c hf
  have hrun := hentry.run h hf
  have hid := hentry.connectionId
  have hout : c₀.outputBuffer = c.outputBuffer := by cases hentry <;> rfl
  have hp₀ : p₀.untouched = true := by cases hentry <;> rfl
  rw [← hid] at hrun
  rw [eventsBetween_append htr, ← hout]
  rw [← hout] at hb
  refine ⟨(hcourse.shown hrun hp₀).mono hb, fun c' hf' => ?_⟩
  rw [hf'] at hcourse
  cases hcourse with
  | live hpath =>
    have hdrained := hpath.drained hrun hp₀
    have hsuffix := hdrained.suffix
    rw [Point.owed_untouched rfl, List.append_nil] at hsuffix
    exact ⟨suffix_latest hb hsuffix, hdrained.blocked⟩

/-- The output buffer of the connection `id` holds bytes of one round, whose responses are
`before`. -/
def FromRound (id : Nat) (before : Bytes) (s : Server) : Prop :=
  ∀ fd c, s.find fd = some c → c.connectionId = id → c.outputBuffer <:+ before

theorem FromRound.step (h : AtRest s) (hround : FromRound id before s)
    (hcall : runCall call s = .ok s') :
    FromRound id (latest before (eventsBetween id s s')) s' := by
  obtain ⟨-, hcalled⟩ := runCall_called h hcall
  intro fd c' hf' hid
  cases hf : s.find fd with
  | some c =>
    have hsame := hcalled.connectionId hf hf'
    rw [hid] at hsame
    have hb := hround fd c hf hsame.symm
    rw [hsame]
    exact ((call_backPressure h hcall hf hb).2 c' hf').1
  | none =>
    obtain ⟨peerEndpoint, id', -, rfl⟩ := hcalled.fresh fd c' hf hf'
    exact List.nil_suffix

theorem FromRound.run (calls : List Call) (h : AtRest s) (hround : FromRound id before s)
    (hrun : runCalls calls s = .ok s') :
    AtRest s' ∧ FromRound id (latestRound id calls s before) s' := by
  induction calls generalizing s before with
  | nil =>
    cases hrun
    exact ⟨h, hround⟩
  | cons call calls ih =>
    rw [runCalls_cons] at hrun
    cases hcall : runCall call s with
    | error e =>
      rw [hcall] at hrun
      cases hrun
    | ok t =>
      rw [hcall] at hrun
      rw [latestRound, hcall]
      exact ih (runCall_called h hcall).1 (hround.step h hcall) hrun

/-! ## A client that takes nothing -/

/-- Ids of connections that are gone are not given out again. -/
theorem runCalls_nextId (calls : List Call) (h : AtRest s) (hrun : runCalls calls s = .ok s') :
    AtRest s' ∧ s.nextConnectionId ≤ s'.nextConnectionId ∧ s.trace <+: s'.trace := by
  induction calls generalizing s with
  | nil =>
    cases hrun
    exact ⟨h, Nat.le_refl _, List.prefix_rfl⟩
  | cons call calls ih =>
    rw [runCalls_cons] at hrun
    cases hcall : runCall call s with
    | error e =>
      rw [hcall] at hrun
      cases hrun
    | ok t =>
      rw [hcall] at hrun
      obtain ⟨ht, hcalled⟩ := runCall_called h hcall
      obtain ⟨tr, htr, -⟩ := hcalled.trace
      obtain ⟨h', hnext, htrace⟩ := ih ht hrun
      exact ⟨h', hcalled.nextId.trans hnext, (List.prefix_append _ tr).trans (htr ▸ htrace)⟩

/-- While the socket takes nothing, the output buffer stays as it is. -/
theorem runCalls_blocked (calls : List Call) (h : AtRest s) (hf : s.find fd = some c)
    (hout : c.outputBuffer ≠ []) (hrun : runCalls calls s = .ok s') (hf' : s'.find fd = some c')
    (hid : c'.connectionId = c.connectionId)
    (hnone : accepted .response (eventsBetween c.connectionId s s') = []) :
    c'.outputBuffer = c.outputBuffer := by
  induction calls using List.reverseRecOn generalizing s' c' with
  | nil =>
    cases hrun
    rw [hf] at hf'
    cases hf'
    rfl
  | append_singleton calls call ih =>
    rw [runCalls_concat] at hrun
    cases hcalls : runCalls calls s with
    | error e =>
      rw [hcalls] at hrun
      cases hrun
    | ok t =>
      rw [hcalls] at hrun
      obtain ⟨ht, hnext, tr, htr⟩ := runCalls_nextId calls h hcalls
      have hcall : runCall call t = .ok s' := hrun
      obtain ⟨-, hcalled⟩ := runCall_called ht hcall
      obtain ⟨new, hnew, -⟩ := hcalled.trace
      have hsplit : s'.trace = s.trace ++ (tr ++ new) := by
        rw [hnew, ← htr, List.append_assoc]
      rw [eventsBetween_append hsplit, history_append, accepted_append,
        List.append_eq_nil_iff] at hnone
      cases hfound : t.find fd with
      | none =>
        obtain ⟨peerEndpoint, id, hle, rfl⟩ := hcalled.fresh fd c' hfound hf'
        have := (h fd).ids fd c hf
        have : id = c.connectionId := hid
        omega
      | some d =>
        have hsame := hcalled.connectionId hfound hf'
        have hdid : d.connectionId = c.connectionId := hsame.symm.trans hid
        have hd : d.outputBuffer = c.outputBuffer :=
          ih hcalls hfound hdid (by rw [eventsBetween_append htr.symm]; exact hnone.1)
        have hblocked := ((call_backPressure ht hcall hfound List.suffix_rfl).2 c' hf').2
        rw [← hd]
        refine hblocked (hd ▸ hout) ?_
        rw [hdid, eventsBetween_append hnew]
        exact hnone.2

/-- **Back-pressure.**  What the socket has taken and what is in the output buffer are the
responses so far, and what is in the buffer is from the last round that dispatched a request.  In
the next handler call this is so at every event, and no request is popped or dispatched before
the bytes of earlier rounds are out.  As long as the socket takes nothing, an output buffer that
is not empty does not change, whatever happens. -/
theorem output_of_latest_round {listenFd : Fd} {calls : List Call}
    (hrun : runCalls calls (initializeServer listenFd) = .ok s) (hf : s.find fd = some c) :
    let before := latestRound c.connectionId calls (initializeServer listenFd) []
    let H := history c.connectionId s.trace
    (accepted .response H ++ c.outputBuffer = responses H ∧ c.outputBuffer <:+ before) ∧
      (∀ call s', runCall call s = .ok s' → ∀ pre e post d,
        eventsBetween c.connectionId s s' = pre ++ e :: post → shows? e = some d →
          OneRound c.outputBuffer before pre d.outputBuffer ∧
            (takesRequest e = true → c.outputBuffer <+: accepted .response pre)) ∧
      ∀ calls' s' c', runCalls calls' s = .ok s' → s'.find fd = some c' →
        c'.connectionId = c.connectionId → c.outputBuffer ≠ [] →
        accepted .response (eventsBetween c.connectionId s s') = [] →
          c'.outputBuffer = c.outputBuffer := by
  have hnobody : FromRound c.connectionId [] (initializeServer listenFd) := fun fd c hf => by
    cases hf
  obtain ⟨h, hround⟩ := hnobody.run calls (atRest_initializeServer listenFd) hrun
  have hb := hround fd c hf rfl
  have hdelivered : accepted .response _ ++ (c.outputBuffer ++ []) = responses _ :=
    ((h fd).run hf).delivered
  rw [List.append_nil] at hdelivered
  exact ⟨⟨hdelivered, hb⟩, fun call s' hcall => (call_backPressure h hcall hf hb).1,
    fun calls' s' c' hrun' hf' hid hout => runCalls_blocked calls' h hf hout hrun' hf' hid⟩

/-- Calls in which a client sends two requests and takes ten bytes. -/
def unreadCalls : List Call :=
  [.event { fd := 3, events := { epollin := true } }
      { accepts := [.accepted 5 (ascii "10.0.0.1:40000")] },
    .event { fd := 5, events := { epollin := true } }
      { now := 1, reads := [.got (ascii "GET / HTTP/1.1\r\n\r\nGET / HTTP/1.1\r\n\r\n")],
        writes := [.wrote 10] }]

/-- The state after the calls; one that faults counts as none. -/
def unread : Server := ((runCalls unreadCalls (initializeServer 3)).toOption).getD (initializeServer 3)

/-- What is unsent is from the round that dispatched both requests. -/
theorem output_of_latest_round_unread : (connectionAt unread 5).outputBuffer ≠ [] ∧
    (connectionAt unread 5).outputBuffer <:+ latestRound 1 unreadCalls (initializeServer 3) [] := by
  have hstate : (runCalls unreadCalls (initializeServer 3)).toOption.isSome = true ∧
      (unread.find 5).isSome = true ∧ (connectionAt unread 5).connectionId = 1 ∧
      (connectionAt unread 5).outputBuffer ≠ [] := by decide +kernel
  obtain ⟨hreturns, hfound, hid, hout⟩ := hstate
  have hrun : runCalls unreadCalls (initializeServer 3) = .ok unread := by
    unfold unread
    cases hcalls : runCalls unreadCalls (initializeServer 3) with
    | error e =>
      rw [hcalls] at hreturns
      cases hreturns
    | ok s => rfl
  obtain ⟨⟨-, hlatest⟩, -⟩ := output_of_latest_round hrun (find_connectionAt hfound)
  rw [hid] at hlatest
  exact ⟨hout, hlatest⟩

end WebServer.Properties
