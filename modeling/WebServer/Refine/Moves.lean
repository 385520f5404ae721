import WebServer.Refine.Invariant

/-!
# The changes the bookkeeping functions make

Each function of `Core/Connection.lean` changes one connection, or none.  `Moves`
composes, so a step of the machine that takes several of them is put together from
the lemmas of this file.
-/

namespace WebServer.Refine

open WebServer.Net WebServer.Http WebServer.Core WebServer.Life

variable {fd : Fd} {p p' : Point} {c c' d : ClientConnection} {after : Option ClientConnection}
  {events events' : List Event} {nodes nodes' : List TimerEntry} {s s' s'' : Server}

theorem insert_self (hf : s.find fd = some c) : s.clients.insert fd c = s.clients := by
  apply Finmap.ext_lookup
  intro x
  by_cases hx : x = fd
  · subst hx
    rw [Finmap.lookup_insert]
    exact hf.symm
  · rw [Finmap.lookup_insert_of_ne _ hx]

theorem insert_insert (m : Finmap fun _ : Fd => ClientConnection) (fd : Fd)
    (c d : ClientConnection) : (m.insert fd c).insert fd d = m.insert fd d :=
  Finmap.insert_insert m

theorem erase_insert (m : Finmap fun _ : Fd => ClientConnection) (fd : Fd)
    (c : ClientConnection) : (m.insert fd c).erase fd = m.erase fd := by
  apply Finmap.ext_lookup
  intro x
  by_cases hx : x = fd
  · subst hx
    rw [Finmap.lookup_erase, Finmap.lookup_erase]
  · rw [Finmap.lookup_erase_ne hx, Finmap.lookup_erase_ne hx, Finmap.lookup_insert_of_ne _ hx]

@[simp] theorem find_put (s : Server) (fd : Fd) (c : ClientConnection) :
    (s.put fd c).find fd = some c := Finmap.lookup_insert ..

@[simp] theorem find_log (s : Server) (events : List Event) (fd : Fd) :
    (s.log events).find fd = s.find fd := rfl

theorem log_nil (s : Server) : s.log [] = s := by
  rw [Server.log, List.append_nil]

theorem update_eq (hf : s.find fd = some c) (f : ClientConnection → ClientConnection) :
    s.update fd f = s.put fd (f c) := by
  rw [Server.update, hf]

theorem filter_lives {id : Nat} (h : ∀ e ∈ events, life? e = some id) :
    events.filter (fun e => (life? e).isSome) = events :=
  List.filter_eq_self.mpr fun e he => by simp [h e he]

/-! ## Composition -/

/-- The first change leaves the ReadyQueue alone. -/
theorem Moves.trans (h₁ : Moves fd c (some d) events nodes s s')
    (hq : s'.readyQueue = s.readyQueue ∧ d.inReadyQueue = c.inReadyQueue)
    (h₂ : Moves fd d after events' nodes' s' s'') :
    Moves fd c after (events ++ events') (nodes ++ nodes') s s'' := by
  obtain ⟨tr₁, htr₁, hfil₁, hrel₁⟩ := h₁.trace
  obtain ⟨tr₂, htr₂, hfil₂, hrel₂⟩ := h₂.trace
  refine ⟨h₁.found, ?_, ?_, ⟨tr₁ ++ tr₂, ?_, ?_, ?_⟩, h₂.nextId.trans h₁.nextId,
    h₂.listenFd.trans h₁.listenFd, ?_, ?_⟩
  · rw [h₂.clients, h₁.clients]
    cases after with
    | none => exact erase_insert ..
    | some d' => exact insert_insert ..
  · rw [h₂.heap, h₁.heap, List.append_assoc]
  · rw [htr₂, htr₁, List.append_assoc]
  · rw [List.filter_append, hfil₁, hfil₂]
  · intro hacc amount inflight hmem
    rcases List.mem_append.mp hmem with hmem | hmem
    · exact hrel₁ hacc _ _ hmem
    · exact hrel₂ (h₁.inflight hacc).2 _ _ hmem
  · have := h₂.queue
    rwa [hq.1, hq.2] at this
  · intro hacc
    obtain ⟨e₁, hacc₁⟩ := h₁.inflight hacc
    obtain ⟨e₂, hacc₂⟩ := h₂.inflight hacc₁
    simp only [Option.elim_some] at e₁ e₂
    exact ⟨by omega, hacc₂⟩

/-! ## Single changes -/

/-- A change that records nothing and pushes no timer. -/
theorem Moves.quiet (hf : s.find fd = some c)
    (hclients : s'.clients = after.elim (s.clients.erase fd) (s.clients.insert fd))
    (hheap : s'.timerHeap = s.timerHeap) (htrace : s'.trace = s.trace)
    (hnext : s'.nextConnectionId = s.nextConnectionId) (hlisten : s'.listenFd = s.listenFd)
    (hqueue : QueueMoves fd c.inReadyQueue (after.map (·.inReadyQueue)) s.readyQueue s'.readyQueue)
    (hinflight : Accounted (Server.buffered c) s →
      s'.globalInflightBytes + Server.buffered c =
          s.globalInflightBytes + after.elim 0 Server.buffered ∧
        Accounted (after.elim 0 Server.buffered) s') :
    Moves fd c after [] [] s s' :=
  ⟨hf, hclients, by rw [hheap, List.append_nil], ⟨[], by rw [htrace, List.append_nil], rfl, by simp⟩,
    hnext, hlisten, hqueue, hinflight⟩

/-- Events of the connection are recorded. -/
theorem Moves.log (hf : s.find fd = some c) (hev : ∀ e ∈ events, life? e = some c.connectionId) :
    Moves fd c (some c) events [] s (s.log events) := by
  refine ⟨hf, (insert_self hf).symm, (List.append_nil _).symm,
    ⟨events, rfl, filter_lives hev, fun _ amount inflight hmem => ?_⟩, rfl, rfl, .stay .., ?_⟩
  · cases hev _ hmem
  · exact fun hacc => ⟨rfl, hacc.1, hacc.2, hacc.3⟩

/-- The entry of the connection is replaced by one that holds as many bytes. -/
theorem Moves.put (hf : s.find fd = some c) (c' : ClientConnection)
    (hb : Server.buffered c' = Server.buffered c) (hq : c'.inReadyQueue = c.inReadyQueue) :
    Moves fd c (some c') [] [] s (s.put fd c') := by
  refine .quiet hf rfl rfl rfl rfl rfl ?_ ?_
  · rw [Option.map_some, hq]
    exact .stay ..
  · intro hacc
    simp only [Option.elim_some, hb]
    exact ⟨rfl, hacc.1, hacc.2, hacc.3⟩

/-- A timer is pushed for the connection, after others may have been disarmed. -/
theorem Moves.pushTimer (hf : s.find fd = some c) (kind : TimerKind) (now deadline : Time)
    (hid : c'.connectionId = c.connectionId) (hb : Server.buffered c' = Server.buffered c)
    (hq : c'.inReadyQueue = c.inReadyQueue) :
    Moves fd c (some (c'.arm kind)) [.armed c.connectionId kind now deadline]
      [timerNode kind deadline fd (c'.arm kind)] s (pushTimer kind now deadline fd c' s) := by
  refine ⟨hf, rfl, rfl, ⟨[.armed c.connectionId kind now deadline], ?_, rfl, fun _ _ _ h => ?_⟩,
    rfl, rfl, ?_, fun hacc => ⟨?_, hacc.1, ?_, hacc.3⟩⟩
  · rw [← hid]
    rfl
  · cases List.mem_singleton.mp h
  · rw [Option.map_some, ClientConnection.arm_inReadyQueue, hq]
    exact .stay ..
  · show s.globalInflightBytes + _ = s.globalInflightBytes + Server.buffered c'
    rw [hb]
  · show Server.buffered c' ≤ s.globalInflightBytes
    rw [hb]
    exact hacc.2

theorem Moves.armHeader (hf : s.find fd = some c) (hcl : c.closing = false) (now : Time) :
    Moves fd c (some (rearm .kHeader c))
      [.armed c.connectionId .kHeader now (now + kHeaderTimeout)]
      [timerNode .kHeader (now + kHeaderTimeout) fd (rearm .kHeader c)]
      s (armHeaderTimeout fd now s) := by
  unfold armHeaderTimeout
  simp only [hf, hcl, Bool.false_eq_true, if_false]
  exact .pushTimer hf _ _ _ rfl rfl rfl

theorem Moves.armBody (hf : s.find fd = some c) (hcl : c.closing = false) (now : Time)
    (contentLength : Nat) :
    Moves fd c (some (rearm .kBody c))
      [.armed c.connectionId .kBody now (calculateBodyReceiveDeadline now contentLength)]
      [timerNode .kBody (calculateBodyReceiveDeadline now contentLength) fd (rearm .kBody c)]
      s (armBodyTimeout fd now contentLength s) := by
  unfold armBodyTimeout
  simp only [hf, hcl, Bool.false_eq_true, if_false]
  exact .pushTimer hf _ _ _ rfl rfl rfl

theorem Moves.armIdle (hf : s.find fd = some c) (hcl : c.closing = false) (now : Time) :
    Moves fd c (some (rearm .kIdleKeepAlive c))
      [.armed c.connectionId .kIdleKeepAlive now (now + kIdleKeepAliveTimeout)]
      [timerNode .kIdleKeepAlive (now + kIdleKeepAliveTimeout) fd (rearm .kIdleKeepAlive c)]
      s (armIdleKeepAliveTimeout fd now s) := by
  unfold armIdleKeepAliveTimeout
  simp only [hf, hcl, Bool.false_eq_true, if_false]
  exact .pushTimer hf _ _ _ rfl rfl rfl

theorem Moves.enqueue (hf : s.find fd = some c) (hcl : c.closing = false) :
    Moves fd c (some { c with inReadyQueue := true }) [] [] s (enqueueReadyConnection fd s) := by
  unfold enqueueReadyConnection
  rw [hf]
  dsimp only
  cases hq : c.inReadyQueue with
  | true =>
    have : ({ c with inReadyQueue := true } : ClientConnection) = c := by rw [← hq]
    rw [this, if_pos (by simp)]
    refine .quiet hf (insert_self hf).symm rfl rfl rfl rfl (.stay ..) ?_
    exact fun hacc => ⟨rfl, hacc.1, hacc.2, hacc.3⟩
  | false =>
    rw [if_neg (by simp [hcl])]
    refine .quiet hf rfl rfl rfl rfl rfl ?_ ?_
    · rw [hq]
      exact .push ..
    · exact fun hacc => ⟨rfl, hacc.1, hacc.2, hacc.3⟩

/-! ## The inflight counter -/

/-- The connection gets `n` more bytes for which there is room. -/
theorem Moves.grow (hf : s.find fd = some c) {n : Nat}
    (hb : Server.buffered c' = Server.buffered c + n) (hq : c'.inReadyQueue = c.inReadyQueue)
    (hok : overBudget s.globalInflightBytes n = false) :
    Moves fd c (some c') [] [] s (growInflight n (s.put fd c')) := by
  simp only [overBudget, Bool.or_eq_false_iff, decide_eq_false_iff_not] at hok
  refine .quiet hf rfl rfl rfl rfl rfl ?_ ?_
  · rw [Option.map_some, hq]
    exact .stay ..
  · intro hacc
    have hheld := hacc.held_le
    simp only [Option.elim_some]
    refine ⟨?_, rfl, ?_, ?_⟩
    · show s.globalInflightBytes + n + _ = _
      omega
    · show _ ≤ s.globalInflightBytes + n
      omega
    · show s.globalInflightBytes + n ≤ _
      omega

theorem releaseInflightBytes_eq (n : Nat) (s : Server) :
    releaseInflightBytes n s =
      setInflight (s.globalInflightBytes - n) (s.log [.released n s.globalInflightBytes]) := by
  unfold releaseInflightBytes
  simp only
  split
  · rename_i h
    have h : s.globalInflightBytes ≤ n := h
    rw [Nat.sub_eq_zero_of_le h]
  · rfl

@[simp] theorem find_releaseInflightBytes (n : Nat) (s : Server) :
    (releaseInflightBytes n s).find fd = s.find fd := by
  rw [releaseInflightBytes_eq]
  rfl

/-- The connection gives back `n` of its bytes. -/
theorem Moves.shrink (hf : s.find fd = some c) {n : Nat}
    (hb : Server.buffered c' + n = Server.buffered c) (hq : c'.inReadyQueue = c.inReadyQueue)
    (hev : ∀ e ∈ events, life? e = some c.connectionId) :
    Moves fd c (some c') events [] s (releaseInflightBytes n ((s.put fd c').log events)) := by
  rw [releaseInflightBytes_eq]
  have htrace := List.append_assoc s.trace events [.released n s.globalInflightBytes]
  refine ⟨hf, rfl, (List.append_nil _).symm, ⟨_, htrace, ?_, ?_⟩, rfl, rfl, ?_, fun hacc => ?_⟩
  · rw [List.filter_append, filter_lives hev]
    exact List.append_nil _
  · intro hacc amount inflight hmem
    have hheld := hacc.held_le
    rcases List.mem_append.mp hmem with hmem | hmem
    · cases hev _ hmem
    · obtain ⟨rfl, rfl⟩ := Event.released.inj (List.mem_singleton.mp hmem)
      omega
  · rw [Option.map_some, hq]
    exact .stay ..
  · have hheld := hacc.held_le
    have hbounded := hacc.bounded
    simp only [Option.elim_some]
    refine ⟨?_, rfl, ?_, ?_⟩
    · show s.globalInflightBytes - n + _ = _
      omega
    · show _ ≤ s.globalInflightBytes - n
      omega
    · show s.globalInflightBytes - n ≤ _
      omega

/-! ## Closing -/

theorem Moves.close (hf : s.find fd = some c) (hcl : c.closing = false) (reason : CloseReason) :
    Moves fd c none [.closed c reason] [] s (closeClientConnection fd reason s) := by
  unfold closeClientConnection
  rw [hf]
  dsimp only
  rw [if_neg (by simp [hcl]), releaseInflightBytes_eq]
  have hinflight (hacc : Accounted (Server.buffered c) s) :
      s.globalInflightBytes - Server.buffered c + Server.buffered c = s.globalInflightBytes + 0 ∧
        0 ≤ s.globalInflightBytes - Server.buffered c ∧
        s.globalInflightBytes - Server.buffered c ≤ kMaxInflightBytes := by
    have := hacc.held_le
    have := hacc.bounded
    omega
  cases hs : c.socket with
  | none =>
    refine ⟨hf, rfl, (List.append_nil _).symm,
      ⟨[.released (Server.buffered c) s.globalInflightBytes, .closed c reason],
        List.append_assoc s.trace _ _, rfl, ?_⟩, rfl, rfl, .leave .., ?_⟩
    · intro hacc amount inflight hmem
      have := hacc.held_le
      simp only [List.mem_cons, Event.released.injEq, reduceCtorEq, List.not_mem_nil, or_false] at hmem
      omega
    · exact fun hacc => ⟨(hinflight hacc).1, rfl, (hinflight hacc).2.1, (hinflight hacc).2.2⟩
  | some own =>
    have htrace : s.trace ++ [.epollCtl .del fd {}, .closedFd own] ++
        [.released (Server.buffered c) s.globalInflightBytes] ++ [.closed c reason] =
        s.trace ++ [.epollCtl .del fd {}, .closedFd own,
          .released (Server.buffered c) s.globalInflightBytes, .closed c reason] := by
      simp
    refine ⟨hf, rfl, (List.append_nil _).symm, ⟨_, htrace, rfl, ?_⟩, rfl, rfl, .leave .., ?_⟩
    · intro hacc amount inflight hmem
      have := hacc.held_le
      simp only [List.mem_cons, Event.released.injEq, reduceCtorEq, List.not_mem_nil, or_false,
        false_or] at hmem
      omega
    · exact fun hacc => ⟨(hinflight hacc).1, rfl, (hinflight hacc).2.1, (hinflight hacc).2.2⟩

/-! ## Changes beside the connections -/

/-- The server changed in nothing the machines can see. -/
structure Unmoved (s s' : Server) : Prop where
  clients : s'.clients = s.clients
  heap : s'.timerHeap = s.timerHeap
  trace : ∃ tr, s'.trace = s.trace ++ tr ∧ ∀ e ∈ tr, life? e = none ∧ ∀ a n, e ≠ .released a n
  nextId : s'.nextConnectionId = s.nextConnectionId
  listenFd : s'.listenFd = s.listenFd
  queue : s'.readyQueue = s.readyQueue
  inflight : s'.globalInflightBytes = s.globalInflightBytes
  metric : s'.metrics.globalInflightBytesCurrent = s.metrics.globalInflightBytesCurrent

/-- A change that records nothing. -/
theorem Unmoved.silent (hclients : s'.clients = s.clients) (hheap : s'.timerHeap = s.timerHeap)
    (htrace : s'.trace = s.trace) (hnext : s'.nextConnectionId = s.nextConnectionId)
    (hlisten : s'.listenFd = s.listenFd) (hqueue : s'.readyQueue = s.readyQueue)
    (hinflight : s'.globalInflightBytes = s.globalInflightBytes)
    (hmetric : s'.metrics.globalInflightBytesCurrent = s.metrics.globalInflightBytesCurrent) :
    Unmoved s s' :=
  ⟨hclients, hheap, ⟨[], by rw [htrace, List.append_nil], by simp⟩, hnext, hlisten, hqueue,
    hinflight, hmetric⟩

theorem Unmoved.refl (s : Server) : Unmoved s s :=
  .silent rfl rfl rfl rfl rfl rfl rfl rfl

theorem Unmoved.trans (h₁ : Unmoved s s') (h₂ : Unmoved s' s'') : Unmoved s s'' := by
  obtain ⟨tr₁, htr₁, hnone₁⟩ := h₁.trace
  obtain ⟨tr₂, htr₂, hnone₂⟩ := h₂.trace
  refine ⟨h₂.clients.trans h₁.clients, h₂.heap.trans h₁.heap, ⟨tr₁ ++ tr₂, ?_, fun e he => ?_⟩,
    h₂.nextId.trans h₁.nextId, h₂.listenFd.trans h₁.listenFd, h₂.queue.trans h₁.queue,
    h₂.inflight.trans h₁.inflight, h₂.metric.trans h₁.metric⟩
  · rw [htr₂, htr₁, List.append_assoc]
  · rcases List.mem_append.mp he with he | he
    · exact hnone₁ e he
    · exact hnone₂ e he

/-- Events that belong to no connection are recorded. -/
theorem Unmoved.log (hev : ∀ e ∈ events, life? e = none ∧ ∀ a n, e ≠ .released a n) :
    Unmoved s (s.log events) :=
  ⟨rfl, rfl, ⟨events, rfl, hev⟩, rfl, rfl, rfl, rfl, rfl⟩

theorem Unmoved.recordErrorMetric (s : Server) : Unmoved s (recordErrorMetric s) :=
  .silent rfl rfl rfl rfl rfl rfl rfl rfl

theorem Unmoved.countRequest (s : Server) : Unmoved s (countRequest s) :=
  .silent rfl rfl rfl rfl rfl rfl rfl rfl

theorem Unmoved.recordRejectMetric (statusCode : Nat) (s : Server) :
    Unmoved s (recordRejectMetric statusCode s) := by
  refine .silent rfl rfl rfl rfl rfl rfl rfl ?_
  unfold Core.recordRejectMetric
  split <;> rfl

theorem Unmoved.updateClientPollMask (fd : Fd) (s : Server) :
    Unmoved s (updateClientPollMask fd s) := by
  obtain e | ⟨events, e⟩ := updateClientPollMask_cases fd s
  · rw [e]
    exact .refl s
  · rw [e]
    refine ⟨rfl, rfl, ⟨_, rfl, fun e he => ?_⟩, rfl, rfl, rfl, rfl, rfl⟩
    obtain rfl := List.mem_singleton.mp he
    exact ⟨rfl, nofun⟩

theorem Moves.unmoved (hf : s.find fd = some c) (h : Unmoved s s') :
    Moves fd c (some c) [] [] s s' := by
  obtain ⟨tr, htr, hnone⟩ := h.trace
  refine ⟨hf, h.clients.trans (insert_self hf).symm, h.heap.trans (List.append_nil _).symm,
    ⟨tr, htr, ?_, ?_⟩, h.nextId, h.listenFd, ?_, fun hacc => ⟨?_, ?_, ?_, ?_⟩⟩
  · exact List.filter_eq_nil_iff.mpr fun e he => by simp [(hnone e he).1]
  · exact fun _ amount inflight hmem => absurd rfl ((hnone _ hmem).2 amount inflight)
  · rw [h.queue]
    exact .stay ..
  · rw [h.inflight]
    rfl
  · rw [h.metric, h.inflight]
    exact hacc.metric
  · rw [h.inflight]
    exact hacc.held_le
  · rw [h.inflight]
    exact hacc.bounded

theorem Refines.unmoved (hr : Refines fd p s) (h : Unmoved s s') : Refines fd p s' := by
  obtain ⟨tr, htr, hnone⟩ := h.trace
  have hfind (fd' : Fd) : s'.find fd' = s.find fd' := by rw [Server.find, h.clients]; rfl
  have hhist (id : Nat) : history id s'.trace = history id s.trace := by
    have hnew : history id tr = [] := history_of_others fun e he => by simp [(hnone e he).1]
    rw [htr, history_append, hnew, List.append_nil]
  refine ⟨?_, ?_, ?_, ?_, ?_, ?_, ?_, ?_, ?_, ?_, ?_, ?_⟩
  · simpa only [hfind, hhist, h.heap] using hr.live
  · simpa only [hfind, hhist] using hr.gone
  · simpa only [hfind, h.nextId] using hr.ids
  · simpa only [hfind] using hr.distinct
  · simpa only [hhist, h.nextId, h.heap] using hr.fresh
  · simpa only [h.queue] using hr.nodup
  · simpa only [hfind, h.queue] using hr.queued
  · simpa only [hfind, h.listenFd] using hr.listening
  · simpa only [h.inflight, h.clients] using hr.balance
  · simpa only [h.inflight, h.metric] using hr.metric
  · simpa only [h.inflight] using hr.bounded
  · intro amount inflight hmem
    rw [htr] at hmem
    rcases List.mem_append.mp hmem with hmem | hmem
    · exact hr.releases _ _ hmem
    · exact absurd rfl ((hnone _ hmem).2 amount inflight)

/-! ## Refusals -/

/-- The server after `SendErrorResponseAndClose`, with the answers its `write()` calls got. -/
def refused (fd : Fd) (c : ClientConnection) (statusCode : Nat) (script : List WriteResult)
    (s : Server) : Server :=
  closeClientConnection fd (.errorResponse statusCode)
    ((recordErrorMetric (recordRejectMetric statusCode (s.log [.rejected c statusCode]))).log
      (errorWrites fd c.connectionId (errorResponse statusCode) script))

theorem Moves.refused (hf : s.find fd = some c) (hcl : c.closing = false) (statusCode : Nat)
    (script : List WriteResult) :
    Moves fd c none (refusal fd c statusCode script) [] s (refused fd c statusCode script s) := by
  have hlog : ∀ e ∈ [Event.rejected c statusCode], life? e = some c.connectionId := by simp [life?]
  have hwrites : ∀ e ∈ errorWrites fd c.connectionId (errorResponse statusCode) script,
      life? e = some c.connectionId := fun e he => life?_errorWrites he
  have h₁ := Moves.log hf hlog
  have h₂ := h₁.trans ⟨rfl, rfl⟩ (.unmoved h₁.find_self (.recordRejectMetric statusCode _))
  have h₃ := h₂.trans ⟨rfl, rfl⟩ (.unmoved h₂.find_self (.recordErrorMetric _))
  have h₄ := h₃.trans ⟨rfl, rfl⟩ (.log h₃.find_self hwrites)
  have h₅ := h₄.trans ⟨rfl, rfl⟩ (.close h₄.find_self hcl (.errorResponse statusCode))
  simpa only [refusal, Refine.refused, List.append_nil, List.append_assoc, List.cons_append,
    List.nil_append] using h₅

end WebServer.Refine
