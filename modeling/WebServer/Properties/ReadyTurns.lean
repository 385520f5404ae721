import WebServer.Kernel.Enqueues
import WebServer.Refine.ReadyQueue

/-!
# The turns of the ReadyQueue

While the ReadyQueue is not empty the server does not sleep in `epoll_wait`.  It does not spin
either: clients pay for the turns with the bytes they send.
-/

namespace WebServer.Properties

open WebServer.Net WebServer.Http WebServer.Core WebServer.Life WebServer.Refine WebServer.Kernel
  LiberalPre

variable {fd : Fd} {call : Call} {calls : List Call} {s s' : Server}

/-- The call is a turn of the ReadyQueue. -/
def isReadyTurn : Call → Bool
  | .ready _ => true
  | _ => false

def readyTurns (calls : List Call) : Nat := calls.countP isReadyTurn

/-! ## One call -/

/-- The ReadyQueue grows by no more than the progress that is made. -/
def Pays (s s' : Server) : Prop :=
  s'.readyQueue.length + progress s.trace ≤ s.readyQueue.length + progress s'.trace

theorem runCall_progress_le (hcall : runCall call s = .ok s') :
    progress s.trace ≤ progress s'.trace := by
  obtain ⟨t', -, hevolves⟩ := runCall_evolves call 0 hcall
  have hlater : Later s s' :=
    hevolves.holds (fun _ _ _ hp hlater => hlater.trans hp.later) (.refl s)
  exact progress_mono hlater.trace

/-- A handler of a descriptor that is not in the ReadyQueue. -/
theorem runHandler_pays {handler : ServerM Unit} {io : Io} {late : List Fd}
    (hmoved : wlp handler (fun _ => Moved (progress s.trace) fd) { server := s, io := io })
    (hrun : runHandler handler io s = .ok s') (hqueue : s'.readyQueue = s.readyQueue ++ late)
    (hlate : late.Sublist [fd]) : Pays s s' := by
  have hkept : fd ∉ s'.readyQueue ∧ progress s.trace ≤ progress s'.trace ∨
      progress s.trace < progress s'.trace :=
    runHandler_keeps (P := fun s' => fd ∉ s'.readyQueue ∧ progress s.trace ≤ progress s'.trace ∨
      progress s.trace < progress s'.trace)
      (wlp_mono hmoved fun _ _ h' => h'.imp_left fun h' => ⟨h'.out, h'.count⟩) hrun
  unfold Pays
  rw [hqueue, List.length_append]
  rcases hkept with ⟨hout, hle⟩ | hlt
  · have hnil : late = [] := by
      rw [List.eq_nil_iff_forall_not_mem]
      intro x hx
      obtain rfl := List.mem_singleton.mp (hlate.subset hx)
      exact hout (hqueue ▸ List.mem_append_right _ hx)
    rw [hnil]
    exact Nat.add_le_add_left hle _
  · have hone := hlate.length_le
    rw [List.length_singleton] at hone
    omega

theorem readyTurn_pays {io : Io} (h : AtRest s) (hturn : readyTurn io s = .ok s') :
    s'.readyQueue.length + 1 + progress s.trace ≤ s.readyQueue.length + progress s'.trace := by
  cases hqueue : s.readyQueue with
  | nil =>
    unfold readyTurn at hturn
    rw [hqueue] at hturn
    cases hturn
  | cons fd queue =>
    obtain ⟨c, t, hf, hreturns, h', hsince⟩ := readyTurn_returns h io hqueue
    obtain rfl : t = s' := Except.ok.inj (hreturns.symm.trans hturn)
    have hfd : fd ∉ queue := (List.nodup_cons.mp (hqueue ▸ (h fd).nodup)).1
    obtain ⟨late, hlate, hsub⟩ := hsince.queue.late hfd (h' fd).nodup
    rw [readyTurn_eq h io hqueue hf] at hturn
    have hstill : Still (progress s.trace) fd { server := dequeued fd queue c s, io := io } :=
      ⟨Nat.le_refl _, hfd, (by decide : 0 < kMaxReadBytesPerEvent)⟩
    have hpays : Pays (dequeued fd queue c s) t :=
      runHandler_pays (continueReadyConnection_moved hstill) hturn hlate hsub
    have hdequeued : t.readyQueue.length + progress s.trace ≤ queue.length + progress t.trace :=
      hpays
    rw [List.length_cons]
    omega

theorem clientEvent_pays {event : PollEvent} {io : Io} (h : AtRest s)
    (hlisten : event.fd ≠ s.listenFd)
    (hrun : runHandler (handlePollEvent event) io s = .ok s') : Pays s s' := by
  obtain ⟨t, hreturns, h', hsince⟩ := clientEvent_returns h hlisten io
  obtain rfl : t = s' := Except.ok.inj (hreturns.symm.trans hrun)
  by_cases hfd : event.fd ∈ s.readyQueue
  · have hlength := hsince.queue.length_le hfd (h' 0).nodup
    have hcall : runCall (.event event io) s = .ok t := hrun
    exact Nat.add_le_add hlength (runCall_progress_le hcall)
  · obtain ⟨late, hlate, hsub⟩ := hsince.queue.late hfd (h' 0).nodup
    have hstill : Still (progress s.trace) event.fd { server := s, io := io } :=
      ⟨Nat.le_refl _, hfd, (by decide : 0 < kMaxReadBytesPerEvent)⟩
    exact runHandler_pays (handlePollEvent_moved hlisten hstill) hrun hlate hsub

theorem listenEvent_pays {event : PollEvent} {io : Io} (h : AtRest s)
    (hlisten : event.fd = s.listenFd)
    (hrun : runHandler (handlePollEvent event) io s = .ok s') : Pays s s' := by
  have hcall : runCall (.event event io) s = .ok s' := hrun
  obtain ⟨t, hreturns, -, hadmits⟩ | ⟨e, hfault⟩ := listenEvent_returns h hlisten io
  · obtain rfl : t = s' := Except.ok.inj (hreturns.symm.trans hrun)
    unfold Pays
    rw [hadmits.queue]
    exact Nat.add_le_add_left (runCall_progress_le hcall) _
  · rw [hfault] at hrun
    cases hrun

theorem expireTimer_queue (timer : TimerEntry) (s : Server) :
    (expireTimer timer s).readyQueue.Sublist s.readyQueue := by
  unfold expireTimer
  split
  · exact .refl _
  · split
    · exact .refl _
    · split
      · exact .refl _
      · split
        · exact .refl _
        · exact closeClientConnection_queue ..

theorem expireLoop_queue (now : Time) (turns : Nat) (ties : List Nat) (s : Server) :
    (expireLoop now turns ties s).readyQueue.Sublist s.readyQueue := by
  induction turns generalizing ties s with
  | zero => exact .refl _
  | succ turns ih =>
    unfold expireLoop
    split
    · exact .refl _
    · split
      · exact (ih _ _).trans (expireTimer_queue ..)
      · exact .refl _

/-- **Step lemma.**  A turn takes its descriptor out of the queue. -/
theorem runCall_pays (h : AtRest s) (hcall : runCall call s = .ok s') :
    readyTurns [call] + s'.readyQueue.length + progress s.trace ≤
      s.readyQueue.length + progress s'.trace := by
  have hother (hturn : isReadyTurn call = false) (hpays : Pays s s') :
      readyTurns [call] + s'.readyQueue.length + progress s.trace ≤
        s.readyQueue.length + progress s'.trace := by
    have hnone : readyTurns [call] = 0 := by simp [readyTurns, hturn]
    rw [hnone, Nat.zero_add]
    exact hpays
  cases call with
  | ready io =>
    have hone : readyTurns [.ready io] = 1 := rfl
    rw [hone, Nat.add_comm 1]
    exact readyTurn_pays h hcall
  | event event io =>
    by_cases hlisten : event.fd = s.listenFd
    · exact hother rfl (listenEvent_pays h hlisten hcall)
    · exact hother rfl (clientEvent_pays h hlisten hcall)
  | expire now turns ties =>
    have hprogress := runCall_progress_le hcall
    cases hcall
    exact hother rfl (Nat.add_le_add (expireLoop_queue now turns ties s).length_le hprogress)
  | flushClosed =>
    cases hcall
    exact hother rfl (Nat.le_refl _)

/-! ## Whole runs -/

/-- **Run lemma.** -/
theorem runCalls_pays (h : AtRest s) (hrun : runCalls calls s = .ok s') :
    readyTurns calls + s'.readyQueue.length + progress s.trace ≤
      s.readyQueue.length + progress s'.trace := by
  induction calls generalizing s with
  | nil =>
    cases hrun
    rw [readyTurns, List.countP_nil, Nat.zero_add]
  | cons call calls ih =>
    rw [runCalls_cons] at hrun
    cases hcall : runCall call s with
    | error e =>
      rw [hcall] at hrun
      cases hrun
    | ok t =>
      rw [hcall] at hrun
      have hfirst := runCall_pays h hcall
      have hrest := ih (runCall_called h hcall).1 hrun
      have hsum : readyTurns (call :: calls) = readyTurns [call] + readyTurns calls := by
        rw [← List.singleton_append, readyTurns, List.countP_append]
        rfl
      omega

/-! ## What the bytes pay for -/

theorem received_filter (p : Event → Bool) (trace : List Event) :
    (received trace).length =
      (received (trace.filter p)).length + (received (trace.filter fun e => !p e)).length := by
  induction trace with
  | nil => rfl
  | cons e trace ih =>
    rw [received_cons, List.length_append, ih]
    cases hp : p e <;> simp [hp, received_cons] <;> omega

/-- What holds of every single connection holds of all of them together. -/
theorem progress_le_of_histories (trace : List Event)
    (h : ∀ id, progress (history id trace) ≤ 2 * (received (history id trace)).length) :
    progress trace ≤ 2 * (received trace).length := by
  -- the history of one connection after the other is taken out of the trace
  induction hlen : trace.length using Nat.strong_induction_on generalizing trace with
  | _ len ih =>
    by_cases hlife : ∃ e ∈ trace, (life? e).isSome = true
    · obtain ⟨e, he, hsome⟩ := hlife
      obtain ⟨id, hid⟩ := Option.isSome_iff_exists.mp hsome
      let rest := trace.filter fun e => !decide (life? e = some id)
      have hshorter : rest.length < trace.length :=
        List.length_filter_lt_length_iff_exists.mpr ⟨e, he, by simp [hid]⟩
      have hrest := ih rest.length (hlen ▸ hshorter) rest (fun id' => ?_) rfl
      · have hprogress : progress trace = progress (history id trace) + progress rest :=
          List.countP_eq_countP_filter_add trace isProgress fun e => decide (life? e = some id)
        have hreceived : (received trace).length =
            (received (history id trace)).length + (received rest).length :=
          received_filter (fun e => decide (life? e = some id)) trace
        have hown := h id
        omega
      · by_cases hsame : id' = id
        · have hnone : history id' rest = [] := hsame ▸ history_filter_self id trace
          rw [hnone]
          exact Nat.le_refl 0
        · have hkept : history id' rest = history id' trace := history_filter_other hsame trace
          rw [hkept]
          exact h id'
    · have hnone : progress trace = 0 := by
        rw [progress, List.countP_eq_zero]
        intro e he hprogress
        refine hlife ⟨e, he, ?_⟩
        cases e <;> first | rfl | cases hprogress
      rw [hnone]
      exact Nat.zero_le _

theorem progress_le_received (hs : Reachable s) :
    progress s.trace ≤ 2 * (received s.trace).length := by
  apply progress_le_of_histories
  intro id
  rcases life_of_reachable hs id with hnone | ⟨fd, hended⟩ | ⟨fd, c, hf, rfl⟩
  · rw [hnone]
    exact Nat.le_refl 0
  · exact hended.paid
  · have hpaid := (run_of_reachable hs hf).paid
    unfold Paid at hpaid
    omega

/-- **The ReadyQueue does not spin.**  In every run it has taken no more turns than twice the
number of bytes that have been read, and every descriptor in it is one turn less to come. -/
theorem readyTurns_bounded {listenFd : Fd}
    (hrun : runCalls calls (initializeServer listenFd) = .ok s) :
    readyTurns calls + s.readyQueue.length ≤ 2 * (received s.trace).length := by
  have hpays := runCalls_pays (atRest_initializeServer listenFd) hrun
  have hreceived := progress_le_received ⟨listenFd, calls, hrun⟩
  have hstart : (initializeServer listenFd).readyQueue.length +
      progress (initializeServer listenFd).trace = 0 := rfl
  omega

/-- Six requests come with one `read()`; five are answered at once. -/
def sixAtOnceCalls : List Call :=
  [.event { fd := 3, events := { epollin := true } }
      { accepts := [.accepted 5 (ascii "10.0.0.1:40000")] },
    .event { fd := 5, events := { epollin := true } }
      { now := 1, reads := [.got ((List.replicate 6 (ascii "GET / HTTP/1.1\r\n\r\n")).flatten)],
        writes := List.replicate 6 (.wrote 1000) },
    .ready { now := 2, writes := [.wrote 1000] }]

/-- The state after the calls; one that faults counts as none. -/
def sixAtOnce : Server :=
  ((runCalls sixAtOnceCalls (initializeServer 3)).toOption).getD (initializeServer 3)

/-- The ReadyQueue has taken one turn for the sixth. -/
theorem readyTurns_bounded_sixAtOnce :
    readyTurns sixAtOnceCalls = 1 ∧
      readyTurns sixAtOnceCalls + sixAtOnce.readyQueue.length ≤ 2 * (received sixAtOnce.trace).length := by
  have hreturns : (runCalls sixAtOnceCalls (initializeServer 3)).toOption.isSome = true := by
    decide +kernel
  have hrun : runCalls sixAtOnceCalls (initializeServer 3) = .ok sixAtOnce := by
    unfold sixAtOnce
    cases hcalls : runCalls sixAtOnceCalls (initializeServer 3) with
    | error e =>
      rw [hcalls] at hreturns
      cases hreturns
    | ok s => rfl
  exact ⟨rfl, readyTurns_bounded hrun⟩

end WebServer.Properties
