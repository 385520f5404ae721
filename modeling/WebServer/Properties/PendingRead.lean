import WebServer.Life.PendingRead
import WebServer.Properties.BackPressure
import WebServer.Refine.ReadyQueue

/-!
# Pending reads

A connection that is marked with `ready_for_read` stays in the ReadyQueue or has output to
flush, unless `ContinueReadyConnection` takes it out of the queue while its body is incomplete.
-/

namespace WebServer.Properties

open WebServer.Net WebServer.Http WebServer.Core WebServer.Life WebServer.Refine WeakestPre

variable {fd : Fd} {c : ClientConnection} {call : Call} {s s' : Server} {r : Round}

/-- Every mark is kept. -/
def MarksKept (s : Server) : Prop := ∀ fd c, s.find fd = some c → MarkKept c

/-- `ContinueReadyConnection` would strand no mark of the connections in the ReadyQueue. -/
def NoneStrandable (s : Server) : Prop :=
  ∀ fd ∈ s.readyQueue, ∀ c, s.find fd = some c → ¬ Strandable c

/-! ## One handler call -/

theorem MarksKept.afterCall (call : Call) (h : AtRest s) (hkept : MarksKept s) (hcall : runCall call s = .ok s')
    (hcond : ∀ fd c, Pops fd call s → s.find fd = some c → ¬ Strandable c) : MarksKept s' := by
  obtain ⟨-, hcalled⟩ := runCall_called h hcall
  obtain ⟨tr, -, hcourses⟩ := hcalled.trace
  intro fd c' hf'
  cases hf : s.find fd with
  | none =>
    obtain ⟨peerEndpoint, id, -, rfl⟩ := hcalled.fresh fd c' hf hf'
    exact nofun
  | some c =>
    obtain ⟨p₀, c₀, hentry, hcourse⟩ := hcourses fd c hf
    rw [hf'] at hcourse
    cases hcourse with
    | live hpath =>
      cases hentry with
      | atRest =>
        have hstart : Point.keepsMark .rest c := hkept fd c hf
        exact hpath.keepsMark trivial hstart
      | dequeued hpop =>
        have hstart : Point.keepsMark .resumed { c with inReadyQueue := false } :=
          fun _ => hcond fd c hpop hf
        exact hpath.keepsMark trivial hstart

/-- A call that is no turn of the ReadyQueue keeps all marks. -/
theorem MarksKept.other (call : Call) (h : AtRest s) (hkept : MarksKept s) (hcall : runCall call s = .ok s')
    (hready : ∀ io, call ≠ .ready io) : AtRest s' ∧ MarksKept s' :=
  ⟨(runCall_called h hcall).1,
    hkept.afterCall call h hcall fun _ _ ⟨⟨io, e⟩, _⟩ _ => absurd e (hready io)⟩

/-- The end of `ProcessBufferedHeaders` finds no mark when the call neither reads from a marked
connection nor takes one with a complete header out of the ReadyQueue. -/
theorem call_settlings (h : AtRest s) (hcall : runCall call s = .ok s') (hf : s.find fd = some c)
    (hpop : Pops fd call s → c.readyForRead = true → c.inputBuffer.hasCompleteHeader = false)
    (hread : ∀ d ∈ readers (eventsBetween c.connectionId s s'), d.readyForRead = false) :
    ∀ d ∈ settlings (eventsBetween c.connectionId s s'), d.readyForRead = false := by
  obtain ⟨tr, htr, hcourses⟩ := (runCall_called h hcall).2.trace
  obtain ⟨p₀, c₀, hentry, hcourse⟩ := hcourses fd c hf
  have hrun := hentry.run h hf
  rw [← hentry.connectionId] at hrun
  rw [eventsBetween_append htr] at hread ⊢
  cases hentry with
  | atRest => exact hcourse.marksCleared hrun trivial hread
  | dequeued hpops => exact hcourse.marksCleared hrun (hpop hpops) hread

/-! ## The turn that strands a mark -/

/-- A connection whose body is incomplete, with nothing to take and nothing to flush, is left
as it is. -/
theorem continueReadyConnection_waiting (hf : r.server.find fd = some c) (hcl : c.closing = false)
    (hout : c.outputBuffer = []) (hw : c.waitingForRequestBody = true)
    (hin : c.inputBuffer.storage = []) (hrest : 0 < c.pendingBodyBytesRemaining) :
    wp (continueReadyConnection fd) (fun _ r' => r'.server = r.server) r := by
  have hempty : c.inputBuffer.size = 0 := by simp [DynamicBuffer.size, hin]
  have hbody : wp (consumePendingRequestBody fd) (fun b r' => b = true ∧ r' = r) r := by
    unfold consumePendingRequestBody finishBodyIfComplete
    simp [hf, hcl, hw, hempty, hrest]
  have hreading : wp (continueReading fd) (fun _ r' => r'.server = r.server) r := by
    unfold continueReading
    simp [hf, hw]
  unfold continueReadyConnection continueBody
  simp only [wp_bind, wp_findClient, hf, hcl, hout, hw, ne_eq, not_true_eq_false,
    Bool.false_eq_true, if_false, if_true, wp_pure]
  refine wp_mono hbody ?_
  rintro b r' ⟨rfl, rfl⟩
  exact hreading

/-- The turn of such a connection only takes it out of the queue. -/
theorem readyTurn_strandable {queue : List Fd} (h : AtRest s) (io : Io)
    (hqueue : s.readyQueue = fd :: queue) (hf : s.find fd = some c) (hc : Strandable c) :
    readyTurn io s = .ok (dequeued fd queue c s) := by
  obtain ⟨-, hout, hw⟩ := hc
  have hrun := (h fd).run hf
  obtain ⟨hin, hrest⟩ := (hrun.bodyPhase.consumed hw).resolve_left nofun
  have hcontinue := continueReadyConnection_waiting
    (r := { server := dequeued fd queue c s, io := io }) (find_put ..) hrun.closing hout hw hin hrest
  obtain ⟨a, r', e, hr'⟩ := (wp_iff _ _ _).mp hcontinue
  rw [readyTurn_eq h io hqueue hf, runHandler, e]
  exact congrArg Except.ok hr'

/-! ## One call of `ProcessReadyQueue` -/

theorem readyLoop_marksKept (turns : Nat) (ios : List Io) (h : AtRest s) (hkept : MarksKept s)
    (hturns : turns ≤ s.readyQueue.length)
    (hcond : ∀ fd ∈ s.readyQueue.take turns, ∀ c, s.find fd = some c → ¬ Strandable c)
    (hrun : readyLoop turns ios s = .ok s') : AtRest s' ∧ MarksKept s' := by
  induction turns generalizing s ios with
  | zero =>
    cases hrun
    exact ⟨h, hkept⟩
  | succ turns ih =>
    cases hqueue : s.readyQueue with
    | nil =>
      rw [hqueue] at hturns
      cases hturns
    | cons fd queue =>
      rw [hqueue, List.length_cons] at hturns
      rw [hqueue, List.take_succ_cons] at hcond
      obtain ⟨t, late, e, ht, hq, -, hothers⟩ := readyTurn_spec h (ios.headD {}) hqueue
      rw [readyLoop, e] at hrun
      have hfd : fd ∉ queue := (List.nodup_cons.mp (hqueue ▸ (h fd).nodup)).1
      have hkept' : MarksKept t := by
        refine hkept.afterCall (.ready (ios.headD {})) h e fun fd' c hpop hf => ?_
        rw [Pops, hqueue, List.head?_cons] at hpop
        cases hpop.2
        exact hcond fd List.mem_cons_self c hf
      refine ih ios.tail ht hkept' ?_ (fun fd' hfd' c hf => ?_) hrun
      · rw [hq, List.length_append]
        omega
      · rw [hq, List.take_append_of_le_length (by omega)] at hfd'
        have hne : fd' ≠ fd := fun e => hfd (e ▸ List.mem_of_mem_take hfd')
        rw [hothers fd' hne] at hf
        exact hcond fd' (List.mem_cons_of_mem _ hfd') c hf

/-- A connection that is strandable is stranded when its turn has come. -/
theorem readyLoop_strandable (turns : Nat) (ios : List Io) (h : AtRest s)
    (hturns : turns ≤ s.readyQueue.length) (hfd : fd ∈ s.readyQueue.take turns)
    (hf : s.find fd = some c) (hc : Strandable c) (hrun : readyLoop turns ios s = .ok s') :
    s'.find fd = some { c with inReadyQueue := false } := by
  induction turns generalizing s ios with
  | zero => cases hfd
  | succ turns ih =>
    cases hqueue : s.readyQueue with
    | nil =>
      rw [hqueue] at hturns
      cases hturns
    | cons fd' queue =>
      rw [hqueue, List.length_cons] at hturns
      rw [hqueue, List.take_succ_cons, List.mem_cons] at hfd
      have hfd' : fd' ∉ queue := (List.nodup_cons.mp (hqueue ▸ (h fd).nodup)).1
      by_cases hne : fd = fd'
      · subst hne
        have hturn := readyTurn_strandable h (ios.headD {}) hqueue hf hc
        have hcall : runCall (.ready (ios.headD {})) s = .ok _ := hturn
        have ht := (runCall_called h hcall).1
        obtain ⟨t, et, hend⟩ := readyLoop_spec turns ios.tail ht (Nat.le_of_succ_le_succ hturns)
        rw [readyLoop, hturn] at hrun
        rw [← Except.ok.inj (et.symm.trans hrun)]
        rw [hend.others fd fun hmem => hfd' (List.mem_of_mem_take hmem)]
        exact find_put ..
      · obtain ⟨t, late, e, ht, hq, -, hothers⟩ := readyTurn_spec h (ios.headD {}) hqueue
        rw [readyLoop, e] at hrun
        refine ih ios.tail ht ?_ ?_ ((hothers fd hne).trans hf) hrun
        · rw [hq, List.length_append]
          omega
        · rw [hq, List.take_append_of_le_length (by omega)]
          exact hfd.resolve_left hne

/-- **Exactly these are stranded.** -/
theorem processReadyQueue_marksKept_iff (ios : List Io) (h : AtRest s) (hkept : MarksKept s)
    (hrun : processReadyQueue ios s = .ok s') : MarksKept s' ↔ NoneStrandable s := by
  constructor
  · intro hkept' fd hfd c hf hc
    have hfound := readyLoop_strandable _ ios h (Nat.le_refl _) (by rwa [List.take_length]) hf hc hrun
    rcases hkept' fd _ hfound hc.1 with hq | hout
    · cases hq
    · exact hout hc.2.1
  · exact fun hcond => (readyLoop_marksKept _ ios h hkept (Nat.le_refl _)
      (fun fd hfd => hcond fd (List.mem_of_mem_take hfd)) hrun).2

/-! ## Runs of the loop -/

theorem dispatchEvents_marksKept (events : List (PollEvent × Io)) (h : AtRest s)
    (hkept : MarksKept s) (hrun : dispatchEvents events s = .ok s') : AtRest s' ∧ MarksKept s' := by
  induction events generalizing s with
  | nil =>
    cases hrun
    exact ⟨h, hkept⟩
  | cons e events ih =>
    change (runHandler (handlePollEvent e.1) e.2 s >>= dispatchEvents events) = _ at hrun
    cases hcall : runHandler (handlePollEvent e.1) e.2 s with
    | error fault =>
      rw [hcall] at hrun
      cases hrun
    | ok t =>
      rw [hcall] at hrun
      obtain ⟨ht, hkept'⟩ := hkept.other (.event e.1 e.2) h hcall nofun
      exact ih ht hkept' hrun

theorem runEventLoopOnce_marksKept {it : Iteration} (h : AtRest s) (hkept : MarksKept s)
    (hcond : NoneStrandable s) (hrun : runEventLoopOnce it s = .ok s') : AtRest s' ∧ MarksKept s' := by
  unfold runEventLoopOnce at hrun
  obtain ⟨s₁, e₁, ht₁⟩ := readyLoop_spec s.readyQueue.length it.ready h (Nat.le_refl _)
  have hkept₁ := (processReadyQueue_marksKept_iff it.ready h hkept e₁).mpr hcond
  have hready : processReadyQueue it.ready s = .ok s₁ := e₁
  obtain ⟨h₂, hkept₂⟩ := hkept₁.other (.expire it.firstExpiry s₁.timerHeap.length it.firstTies)
    ht₁.atRest rfl nofun
  cases hevents : dispatchEvents it.events (processExpiredTimers it.firstExpiry it.firstTies s₁) with
  | error fault =>
    simp only [hready, bind, Except.bind, hevents] at hrun
    cases hrun
  | ok s₃ =>
    simp only [hready, bind, Except.bind, hevents] at hrun
    obtain ⟨h₃, hkept₃⟩ := dispatchEvents_marksKept it.events h₂ hkept₂ hevents
    obtain ⟨h₄, hkept₄⟩ := hkept₃.other
      (.expire it.secondExpiry s₃.timerHeap.length it.secondTies) h₃ rfl nofun
    cases hrun
    exact hkept₄.other .flushClosed h₄ rfl nofun

theorem runLoop_marksKept (iterations : List Iteration) (h : AtRest s) (hkept : MarksKept s)
    (hcond : ∀ k < iterations.length, ∀ t, runLoop (iterations.take k) s = .ok t → NoneStrandable t)
    (hrun : runLoop iterations s = .ok s') : AtRest s' ∧ MarksKept s' := by
  induction iterations generalizing s with
  | nil =>
    cases hrun
    exact ⟨h, hkept⟩
  | cons it iterations ih =>
    have hcons (rest : List Iteration) :
        runLoop (it :: rest) s = runEventLoopOnce it s >>= runLoop rest := rfl
    rw [hcons] at hrun
    cases hit : runEventLoopOnce it s with
    | error fault =>
      rw [hit] at hrun
      cases hrun
    | ok t =>
      rw [hit] at hrun
      obtain ⟨ht, hkept'⟩ := runEventLoopOnce_marksKept h hkept (hcond 0 (Nat.zero_lt_succ _) s rfl) hit
      refine ih ht hkept' (fun k hk t' ht' => ?_) hrun
      refine hcond (k + 1) (Nat.succ_lt_succ hk) t' ?_
      rw [List.take_succ_cons, hcons, hit]
      exact ht'

/-- **Pending reads.**  In a run in which no iteration begins with a strandable connection in
the ReadyQueue, every marked connection is in the ReadyQueue or has output to flush.  No request
sees the mark in a handler call that neither reads from a marked connection nor takes one with a
complete header out of the ReadyQueue. -/
theorem pending_read_kept {listenFd : Fd} {iterations : List Iteration}
    (hrun : runLoop iterations (initializeServer listenFd) = .ok s)
    (hcond : ∀ k < iterations.length, ∀ t,
      runLoop (iterations.take k) (initializeServer listenFd) = .ok t → NoneStrandable t) :
    (∀ fd c, s.find fd = some c → c.readyForRead = true →
      fd ∈ s.readyQueue ∨ c.outputBuffer ≠ []) ∧
      ∀ t call t' fd c, Reachable t → runCall call t = .ok t' → t.find fd = some c →
        (Pops fd call t → c.readyForRead = true → c.inputBuffer.hasCompleteHeader = false) →
        (∀ d ∈ readers (eventsBetween c.connectionId t t'), d.readyForRead = false) →
          ∀ d ∈ settlings (eventsBetween c.connectionId t t'), d.readyForRead = false := by
  have hnobody : MarksKept (initializeServer listenFd) := fun fd c hf => by cases hf
  obtain ⟨h, hkept⟩ :=
    runLoop_marksKept iterations (atRest_initializeServer listenFd) hnobody hcond hrun
  constructor
  · intro fd c hf hr
    exact (hkept fd c hf hr).imp_left fun hq => ((h fd).queued fd).mpr ⟨c, hf, hq⟩
  · intro t call t' fd c ht hcall hf hpop hread
    exact call_settlings (atRest_of_reachable ht) hcall hf hpop hread

/-- A request with a body that takes more than the read budget of one handler call. -/
def longUpload : List ReadResult :=
  .got (ascii "POST / HTTP/1.1\r\nContent-Length: 300000\r\n\r\n" ++ List.replicate 4096 0) ::
    List.replicate 63 (.got (List.replicate 4096 0))

/-- The upload has used up the budget, and waits in the ReadyQueue. -/
def uploadQueued : SampleRun fun s =>
    (s.find 5).isSome = true ∧ (connectionAt s 5).readyForRead = true ∧
      (connectionAt s 5).outputBuffer = [] where
  iterations := [accepting 3 5 0, reading 5 1 longUpload []]
  holds := by decide +kernel

theorem pending_read_kept_uploadQueued :
    (connectionAt uploadQueued.final 5).readyForRead = true ∧ 5 ∈ uploadQueued.final.readyQueue := by
  obtain ⟨hfound, hmark, hout⟩ := uploadQueued.holds_final
  refine ⟨hmark, ?_⟩
  have hempty : ∀ k < uploadQueued.iterations.length,
      ((runLoop (uploadQueued.iterations.take k) (initializeServer 3)).toOption.all
        fun t => t.readyQueue = []) = true := by decide +kernel
  have hcond : ∀ k < uploadQueued.iterations.length, ∀ t,
      runLoop (uploadQueued.iterations.take k) (initializeServer 3) = .ok t → NoneStrandable t := by
    intro k hk t ht fd hfd
    have hqueue := hempty k hk
    rw [ht] at hqueue
    have hqueue : t.readyQueue = [] := of_decide_eq_true hqueue
    rw [hqueue] at hfd
    cases hfd
  obtain ⟨hkept, -⟩ := pending_read_kept (runLoop_afterLoop hfound) hcond
  exact (hkept 5 _ (find_connectionAt hfound) hmark).resolve_right (not_not.mpr hout)

/-- One iteration later nothing has been read. -/
def uploadStranded : SampleRun fun s =>
    (s.find 5).isSome = true ∧ (connectionAt s 5).readyForRead = true ∧ s.readyQueue = [] ∧
      (connectionAt s 5).outputBuffer = [] where
  iterations := [accepting 3 5 0, reading 5 1 longUpload [], { ready := [{ now := 2 }] }]
  holds := by decide +kernel

/-- The mark is there, and the ReadyQueue does not come back to the connection. -/
theorem not_pendingRead_uploadStranded :
    ¬ ∀ s, AtLoopEnd s → ∀ fd c, s.find fd = some c → c.readyForRead = true →
      fd ∈ s.readyQueue ∨ c.outputBuffer ≠ [] := by
  intro h
  obtain ⟨hfound, hmark, hqueue, hout⟩ := uploadStranded.holds_final
  rcases h _ uploadStranded.atLoopEnd 5 _ (find_connectionAt hfound) hmark with hqueued | hpending
  · rw [hqueue] at hqueued
    cases hqueued
  · exact hpending hout

end WebServer.Properties
