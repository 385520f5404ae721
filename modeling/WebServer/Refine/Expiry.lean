import WebServer.Life.Timers
import WebServer.Refine.EventLoop

/-!
# Expiry of timers

A node popped from the heap either is not current for any connection, and nothing
happens, or it belongs to an armed timer, and its connection is closed.
-/

namespace WebServer.Refine

open WebServer.Net WebServer.Http WebServer.Core WebServer.Life

variable {fd fd' : Fd} {c : ClientConnection} {timer : TimerEntry} {now : Time} {s s' : Server}

/-- A node that is not current for its connection is popped from the heap. -/
theorem AtRest.popNode (h : AtRest s)
    (hstale : ∀ fd c, s.find fd = some c → c.connectionId = timer.connectionId →
      ¬ current c timer) : AtRest { s with timerHeap := s.timerHeap.erase timer } := by
  have hnodes (id : Nat) : nodesOf id (s.timerHeap.erase timer) =
      if timer.connectionId = id then (nodesOf id s.timerHeap).erase timer
      else nodesOf id s.timerHeap := by
    split
    · exact List.erase_filter.symm
    · rename_i hne
      rw [nodesOf, ← List.erase_filter, List.erase_of_not_mem]
      · rfl
      · simp [hne]
  refine fun fd => ⟨fun fd' c hc => ?_, (h fd).gone, (h fd).ids, (h fd).distinct, fun id hle => ?_,
    (h fd).nodup, (h fd).queued, (h fd).listening, (h fd).balance, (h fd).metric, (h fd).bounded,
    (h fd).releases⟩
  · have hrun := (h fd).live fd' c hc
    rw [hnodes]
    split
    · rename_i hid
      exact hrun.drop (hstale fd' c hc hid.symm)
    · exact hrun
  · obtain ⟨hnone, hold⟩ := (h fd).fresh id hle
    refine ⟨hnone, ?_⟩
    rw [hnodes, hold]
    split <;> rfl

/-- The nodes of a connection are pushed for its descriptor. -/
theorem AtRest.owner (h : AtRest s) (hmem : timer ∈ s.timerHeap) (hf : s.find fd = some c)
    (hid : c.connectionId = timer.connectionId) : timer.fd = fd := by
  have hrun := (h fd).run hf
  exact (hrun.timersInOrder.owner timer (List.mem_filter.mpr ⟨hmem, by simp [hid]⟩)).1

/-- The metrics of an expired timer. -/
def countTimeout (s : Server) : Server :=
  let s := recordErrorMetric s
  { s with metrics := { s.metrics with timeoutCloseTotal := s.metrics.timeoutCloseTotal + 1 } }

theorem Unmoved.countTimeout (s : Server) : Unmoved s (countTimeout s) :=
  .silent rfl rfl rfl rfl rfl rfl rfl rfl

/-- The server after an armed timer of the connection `c` has expired. -/
def closeTimedOut (timer : TimerEntry) (c : ClientConnection) (s : Server) : Server :=
  closeClientConnection timer.fd (.timedOut timer.kind)
    (countTimeout (s.put timer.fd (c.disarm timer.kind)))

/-- What a popped node does: nothing, or it closes the connection it is current for. -/
theorem expireTimer_cases (h : AtRest s) (hmem : timer ∈ s.timerHeap) :
    ((∀ fd c, s.find fd = some c → c.connectionId = timer.connectionId → ¬ current c timer) ∧
      expireTimer timer s = s) ∨
    ∃ c, s.find timer.fd = some c ∧ c.connectionId = timer.connectionId ∧ current c timer ∧
      expireTimer timer s = closeTimedOut timer c s := by
  -- a connection with this id can only be the one of the descriptor
  have hstale (hno : ∀ c, s.find timer.fd = some c → c.connectionId = timer.connectionId →
      ¬ current c timer) :
      ∀ fd c, s.find fd = some c → c.connectionId = timer.connectionId → ¬ current c timer := by
    intro fd c hf hid
    obtain rfl := h.owner hmem hf hid
    exact hno c hf hid
  unfold expireTimer
  cases hf : s.find timer.fd with
  | none =>
    refine .inl ⟨hstale fun c hc => ?_, rfl⟩
    rw [hf] at hc
    cases hc
  | some c =>
    have hcl : ¬ c.closing = true := by simp [((h timer.fd).run hf).closing]
    have hself (hno : c.connectionId = timer.connectionId → ¬ current c timer) :
        ∀ d, s.find timer.fd = some d → d.connectionId = timer.connectionId → ¬ current d timer := by
      intro d hd
      rw [hf] at hd
      cases hd
      exact hno
    simp only [if_neg hcl]
    by_cases hid : c.connectionId = timer.connectionId
    · by_cases hcur : current c timer
      · refine .inr ⟨c, rfl, hid, hcur, ?_⟩
        simp only [hid, ne_eq, not_true_eq_false, if_false, hcur.1, hcur.2, Bool.not_true,
          Bool.false_or, decide_false, Bool.false_eq_true]
        rfl
      · refine .inl ⟨hstale (hself fun _ => hcur), ?_⟩
        rw [if_neg (not_not.mpr hid), if_pos]
        rw [Bool.or_eq_true, Bool.not_eq_true', decide_eq_true_eq]
        by_contra hnot
        simp only [ne_eq, not_or, Bool.not_eq_false, not_not] at hnot
        exact hcur hnot
    · exact .inl ⟨hstale (hself fun e => absurd e hid), if_pos hid⟩

theorem closeTimedOut_moves (hf : s.find timer.fd = some c) (hcl : c.closing = false) :
    Moves timer.fd c none [.closed (c.disarm timer.kind) (.timedOut timer.kind)] [] s
      (closeTimedOut timer c s) := by
  have hput := Moves.put hf (c.disarm timer.kind) rfl rfl
  have hcount := hput.trans ⟨rfl, rfl⟩ (.unmoved hput.find_self (.countTimeout _))
  exact hcount.trans ⟨rfl, rfl⟩ (.close hcount.find_self hcl _)

/-- Closing does not look at the timer heap. -/
theorem closeClientConnection_heap (fd : Fd) (reason : CloseReason) (s : Server)
    (heap : List TimerEntry) :
    closeClientConnection fd reason { s with timerHeap := heap } =
      { closeClientConnection fd reason s with timerHeap := heap } := by
  have hfind : ({ s with timerHeap := heap } : Server).find fd = s.find fd := rfl
  unfold closeClientConnection
  rw [hfind]
  cases s.find fd with
  | none => rfl
  | some c =>
    dsimp only
    split
    · rfl
    · cases c.socket <;> simp only [releaseInflightBytes_eq] <;> rfl

/-! ## One turn of the loop -/

/-- One turn of the loop of `ProcessExpiredTimers` takes the server from `s` to `s'`. -/
inductive Turn (timer : TimerEntry) (s s' : Server) : Prop
  | stale (hstale : ∀ fd c, s.find fd = some c → c.connectionId = timer.connectionId →
      ¬ current c timer) (hs : s' = { s with timerHeap := s.timerHeap.erase timer })
  | closes (c : ClientConnection) (hf : s.find timer.fd = some c)
    (hid : c.connectionId = timer.connectionId) (hcur : current c timer)
    (hs : s' = { closeTimedOut timer c s with timerHeap := s.timerHeap.erase timer })

theorem expireTimer_heap (timer : TimerEntry) (s : Server) (heap : List TimerEntry) :
    expireTimer timer { s with timerHeap := heap } =
      { expireTimer timer s with timerHeap := heap } := by
  have hfind : ({ s with timerHeap := heap } : Server).find timer.fd = s.find timer.fd := rfl
  unfold expireTimer
  rw [hfind]
  cases s.find timer.fd with
  | none => rfl
  | some c =>
    dsimp only
    split
    · rfl
    split
    · rfl
    split
    · rfl
    · exact closeClientConnection_heap timer.fd (.timedOut timer.kind)
        (countTimeout (s.put timer.fd (c.disarm timer.kind))) heap

theorem expireTimer_turn (h : AtRest s) (hmem : timer ∈ s.timerHeap) :
    Turn timer s (expireTimer timer { s with timerHeap := s.timerHeap.erase timer }) := by
  rw [expireTimer_heap]
  rcases expireTimer_cases h hmem with ⟨hstale, e⟩ | ⟨c, hf, hid, hcur, e⟩
  · exact .stale hstale (by rw [e])
  · exact .closes c hf hid hcur (by rw [e])

namespace Turn

theorem heap (h : Turn timer s s') : s'.timerHeap = s.timerHeap.erase timer := by
  cases h with
  | stale hstale hs => rw [hs]
  | closes c hf hid hcur hs => rw [hs]

theorem atRest (h : AtRest s) (ht : Turn timer s s') : AtRest s' := by
  cases ht with
  | stale hstale hs =>
    rw [hs]
    exact h.popNode hstale
  | closes c hf hid hcur hs =>
    have hrun := (h timer.fd).run hf
    have hmoves := closeTimedOut_moves hf hrun.closing
    have hclosed : AtRest (closeTimedOut timer c s) :=
      ((h timer.fd).close hmoves (.timedOut timer.kind hcur.1)).atRest
    have hheap : (closeTimedOut timer c s).timerHeap = s.timerHeap :=
      hmoves.heap.trans (List.append_nil _)
    rw [hs, ← hheap]
    apply hclosed.popNode
    intro fd d hd hdid
    -- the only connection with this id is gone
    have hne : fd ≠ timer.fd := by
      rintro rfl
      rw [hmoves.find_self] at hd
      cases hd
    rw [hmoves.find_other hne] at hd
    exact absurd ((h fd).distinct _ _ _ _ hd hf (hdid.trans hid.symm)) hne

end Turn

/-! ## The loop -/

/-- The connection of `fd` has an armed timer whose node is due. -/
def Due (now : Time) (s : Server) (fd : Fd) : Prop :=
  ∃ c, s.find fd = some c ∧
    ∃ n ∈ s.timerHeap, n.connectionId = c.connectionId ∧ current c n ∧ n.deadline ≤ now

/-- The connections that are due are closed, all others stay, and the metric counts. -/
structure Expires (now : Time) (s s' : Server) : Prop where
  gone : ∀ fd, Due now s fd → s'.find fd = none
  kept : ∀ fd, ¬ Due now s fd → s'.find fd = s.find fd
  counted : s'.metrics.timeoutCloseTotal + s'.clients.keys.card =
    s.metrics.timeoutCloseTotal + s.clients.keys.card

theorem closeClientConnection_timeoutTotal (fd : Fd) (reason : CloseReason) (s : Server) :
    (closeClientConnection fd reason s).metrics.timeoutCloseTotal = s.metrics.timeoutCloseTotal := by
  unfold closeClientConnection
  cases s.find fd with
  | none => rfl
  | some c =>
    dsimp only
    split
    · rfl
    · cases c.socket <;> simp only [releaseInflightBytes_eq] <;> rfl

/-- A popped node that is not current for a connection was not one of its due nodes. -/
theorem due_erase {t : Server} (hfind : t.find fd = s.find fd)
    (hheap : t.timerHeap = s.timerHeap.erase timer)
    (hstale : ∀ c, s.find fd = some c → c.connectionId = timer.connectionId → ¬ current c timer) :
    Due now t fd ↔ Due now s fd := by
  rw [Due, hfind, hheap]
  constructor
  · rintro ⟨c, hc, n, hn, hrest⟩
    exact ⟨c, hc, n, List.mem_of_mem_erase hn, hrest⟩
  · rintro ⟨c, hc, n, hn, hid, hcur, hle⟩
    have hne : n ≠ timer := by
      rintro rfl
      exact hstale c hc hid.symm hcur
    exact ⟨c, hc, n, (List.mem_erase_of_ne hne).mpr hn, hid, hcur, hle⟩

theorem Turn.expires {t : Server} (h : AtRest s) (ht : Turn timer s t) (hmem : timer ∈ s.timerHeap)
    (hle : timer.deadline ≤ now) (he : Expires now t s') : Expires now s s' := by
  have hheap := ht.heap
  cases ht with
  | stale hstale hs =>
    have hdue (fd : Fd) : Due now t fd ↔ Due now s fd :=
      due_erase (by rw [hs]; rfl) hheap (hstale fd)
    refine ⟨fun fd hd => he.gone fd ((hdue fd).mpr hd), fun fd hd => ?_, ?_⟩
    · rw [he.kept fd fun hd' => hd ((hdue fd).mp hd'), hs]
      rfl
    · rw [he.counted, hs]
  | closes c hf hid hcur hs =>
    have hrun := (h timer.fd).run hf
    have hmoves := closeTimedOut_moves hf hrun.closing
    have hself : t.find timer.fd = none := by
      rw [hs]
      exact hmoves.find_self
    have hother {fd : Fd} (hne : fd ≠ timer.fd) : t.find fd = s.find fd := by
      rw [hs]
      exact hmoves.find_other hne
    have hdue {fd : Fd} (hne : fd ≠ timer.fd) : Due now t fd ↔ Due now s fd :=
      due_erase (hother hne) hheap fun d hd e =>
        absurd ((h fd).distinct _ _ _ _ hd hf (e.trans hid.symm)) hne
    have hclosed : Due now s timer.fd := ⟨c, hf, timer, hmem, hid.symm, hcur, hle⟩
    refine ⟨fun fd hd => ?_, fun fd hd => ?_, ?_⟩
    · by_cases hne : fd = timer.fd
      · subst hne
        rw [he.kept, hself]
        rintro ⟨d, hd', -⟩
        rw [hself] at hd'
        cases hd'
      · exact he.gone fd ((hdue hne).mpr hd)
    · have hne : fd ≠ timer.fd := by
        rintro rfl
        exact hd hclosed
      rw [he.kept fd fun hd' => hd ((hdue hne).mp hd'), hother hne]
    · have htotal : t.metrics.timeoutCloseTotal = s.metrics.timeoutCloseTotal + 1 := by
        rw [hs]
        exact closeClientConnection_timeoutTotal ..
      have hkeys : t.clients.keys = s.clients.keys.erase timer.fd := by
        rw [hs]
        exact (congrArg Finmap.keys hmoves.clients).trans (Finmap.keys_erase ..)
      have hcard := Finset.card_erase_add_one
        (Finmap.mem_keys.mpr (Finmap.mem_of_lookup_eq_some hf))
      rw [he.counted, htotal, hkeys]
      omega

/-- When no node is due there is nothing to do. -/
theorem expires_of_late (hlate : ∀ n ∈ s.timerHeap, now < n.deadline) : Expires now s s := by
  refine ⟨fun fd hd => ?_, fun _ _ => rfl, rfl⟩
  obtain ⟨c, hc, n, hn, -, -, hle⟩ := hd
  exact absurd hle (Nat.not_le.mpr (hlate n hn))

/-- However many turns the loop takes, it leaves all connections at rest. -/
theorem expireLoop_atRest (turns : Nat) (ties : List Nat) (h : AtRest s) :
    AtRest (expireLoop now turns ties s) := by
  induction turns generalizing s ties with
  | zero => exact h
  | succ turns ih =>
    rw [expireLoop]
    cases htop : Earliest.top TimerEntry.deadline (ties.headD 0) s.timerHeap with
    | none => exact h
    | some timer =>
      dsimp only
      split
      · exact ih ties.tail ((expireTimer_turn h (Earliest.top_mem htop)).atRest h)
      · exact h

/-- Every turn pops a node, so with as many turns as nodes the loop ends by its own test. -/
theorem expireLoop_spec (turns : Nat) (ties : List Nat) (h : AtRest s)
    (hturns : s.timerHeap.length ≤ turns) :
    Expires now s (expireLoop now turns ties s) ∧
      ∀ n ∈ (expireLoop now turns ties s).timerHeap, now < n.deadline := by
  induction turns generalizing s ties with
  | zero =>
    have hnil : s.timerHeap = [] := List.length_eq_zero_iff.mp (Nat.le_zero.mp hturns)
    have hlate : ∀ n ∈ s.timerHeap, now < n.deadline := by simp [hnil]
    exact ⟨expires_of_late hlate, hlate⟩
  | succ turns ih =>
    rw [expireLoop]
    cases htop : Earliest.top TimerEntry.deadline (ties.headD 0) s.timerHeap with
    | none =>
      have hnil := Earliest.top_eq_none htop
      have hlate : ∀ n ∈ s.timerHeap, now < n.deadline := by simp [hnil]
      exact ⟨expires_of_late hlate, hlate⟩
    | some timer =>
      dsimp only
      split
      · rename_i hle
        have hmem := Earliest.top_mem htop
        have hturn := expireTimer_turn h hmem
        have hlen := List.length_erase_add_one hmem
        obtain ⟨hexpires, hlate⟩ := ih ties.tail (hturn.atRest h) (by
          rw [hturn.heap]
          omega)
        exact ⟨hturn.expires h hmem hle hexpires, hlate⟩
      · rename_i hle
        have hlate : ∀ n ∈ s.timerHeap, now < n.deadline := fun n hn =>
          Nat.lt_of_lt_of_le (Nat.not_le.mp hle) (Earliest.top_le htop n hn)
        exact ⟨expires_of_late hlate, hlate⟩

theorem expireLoop_nil (turns : Nat) (ties : List Nat) (h : s.timerHeap = []) :
    expireLoop now turns ties s = s := by
  cases turns with
  | zero => rfl
  | succ turns =>
    rw [expireLoop, h]
    rfl

/-- Turns beyond the number of nodes are never taken. -/
theorem expireLoop_turns (turns turns' : Nat) (ties : List Nat) (s : Server)
    (hturns : s.timerHeap.length ≤ turns) (hturns' : s.timerHeap.length ≤ turns') :
    expireLoop now turns ties s = expireLoop now turns' ties s := by
  induction turns generalizing s ties turns' with
  | zero =>
    have hnil := List.length_eq_zero_iff.mp (Nat.le_zero.mp hturns)
    rw [expireLoop_nil _ _ hnil, expireLoop_nil _ _ hnil]
  | succ turns ih =>
    cases turns' with
    | zero =>
      have hnil := List.length_eq_zero_iff.mp (Nat.le_zero.mp hturns')
      rw [expireLoop_nil _ _ hnil, expireLoop_nil _ _ hnil]
    | succ turns' =>
      rw [expireLoop, expireLoop]
      cases htop : Earliest.top TimerEntry.deadline (ties.headD 0) s.timerHeap with
      | none => rfl
      | some timer =>
        have hlen := List.length_erase_add_one (Earliest.top_mem htop)
        have hheap : (expireTimer timer { s with timerHeap := s.timerHeap.erase timer }).timerHeap =
            s.timerHeap.erase timer := by
          rw [expireTimer_heap]
        have hrest := ih turns' ties.tail
          (expireTimer timer { s with timerHeap := s.timerHeap.erase timer })
          (by rw [hheap]; omega) (by rw [hheap]; omega)
        simp only [hrest]

theorem processExpiredTimers_spec (now : Time) (ties : List Nat) (h : AtRest s) :
    Expires now s (processExpiredTimers now ties s) ∧
      ∀ n ∈ (processExpiredTimers now ties s).timerHeap, now < n.deadline :=
  expireLoop_spec _ ties h (Nat.le_refl _)

/-- A connection is due when the last arming of one of its armed timers set a deadline that
has passed. -/
theorem due_iff (h : AtRest s) (hf : s.find fd = some c) :
    Due now s fd ↔ ∃ kind, (c.timeout kind).armed = true ∧ ∃ armedAt deadline,
      lastArming kind (history c.connectionId s.trace) = some (armedAt, deadline) ∧
        deadline ≤ now := by
  have htimers := ((h fd).run hf).timersInOrder
  constructor
  · rintro ⟨d, hd, n, hn, hid, hcur, hle⟩
    rw [hf] at hd
    cases hd
    have hmem : n ∈ nodesOf c.connectionId s.timerHeap :=
      List.mem_filter.mpr ⟨hn, decide_eq_true hid⟩
    obtain ⟨harmed, armedAt, hlast⟩ := htimers.exact n hmem hcur.2.symm
    exact ⟨n.kind, harmed, armedAt, n.deadline, hlast, hle⟩
  · rintro ⟨kind, harmed, armedAt, deadline, hlast, hle⟩
    obtain ⟨n, hn, rfl, hcur⟩ := htimers.armed kind harmed
    obtain ⟨-, armedAt', hlast'⟩ := htimers.exact n hn hcur.2.symm
    rw [hlast'] at hlast
    cases hlast
    obtain ⟨hmem, hid⟩ := List.mem_filter.mp hn
    exact ⟨c, hf, n, hmem, of_decide_eq_true hid, hcur, hle⟩

end WebServer.Refine
