import WebServer.Lib.TableSum
import WebServer.Core.EventLoop
import WebServer.Life.Machine

/-!
# The server runs one machine per connection

`Refines fd p s` says that every registered connection of `s` is in a run of the
machine of `Life/Machine.lean`, the one on `fd` at the point `p` and all others at
rest, and that the shared parts of the server (ids, ReadyQueue, inflight counter)
agree with the connections.
-/

namespace WebServer.Refine

open WebServer.Net WebServer.Http WebServer.Core WebServer.Life

/-- The nodes of one connection in the timer heap. -/
def nodesOf (id : Nat) (heap : List TimerEntry) : List TimerEntry :=
  heap.filter (·.connectionId = id)

/-- The point of each connection while a handler works on `fd`. -/
def pointOf (fd : Fd) (p : Point) (fd' : Fd) : Point := if fd' = fd then p else .rest

structure Refines (fd : Fd) (p : Point) (s : Server) : Prop where
  live : ∀ fd' c, s.find fd' = some c →
    Run fd' c.connectionId (pointOf fd p fd') c (history c.connectionId s.trace)
      (nodesOf c.connectionId s.timerHeap)
  gone : ∀ id, (∀ fd' c, s.find fd' = some c → c.connectionId ≠ id) →
    history id s.trace = [] ∨ ∃ fd', Ended fd' id (history id s.trace)
  ids : ∀ fd' c, s.find fd' = some c → c.connectionId < s.nextConnectionId
  distinct : ∀ fd₁ c₁ fd₂ c₂, s.find fd₁ = some c₁ → s.find fd₂ = some c₂ →
    c₁.connectionId = c₂.connectionId → fd₁ = fd₂
  fresh : ∀ id, s.nextConnectionId ≤ id →
    history id s.trace = [] ∧ nodesOf id s.timerHeap = []
  nodup : s.readyQueue.Nodup
  queued : ∀ fd', fd' ∈ s.readyQueue ↔ ∃ c, s.find fd' = some c ∧ c.inReadyQueue = true
  listening : s.find s.listenFd = none
  balance : s.globalInflightBytes = TableSum.total Server.buffered s.clients
  metric : s.metrics.globalInflightBytesCurrent = s.globalInflightBytes
  bounded : s.globalInflightBytes ≤ kMaxInflightBytes
  releases : ∀ amount inflight, .released amount inflight ∈ s.trace → amount ≤ inflight

/-! ## Changes of one connection -/

/-- What can happen to the ReadyQueue when the flag of `fd` goes from the first value to the
second; `none` is the end of the connection. -/
inductive QueueMoves (fd : Fd) : Bool → Option Bool → List Fd → List Fd → Prop
  | stay (b : Bool) (q : List Fd) : QueueMoves fd b (some b) q q
  | push (q : List Fd) : QueueMoves fd false (some true) q (q ++ [fd])
  | pop (q : List Fd) : QueueMoves fd true (some false) (fd :: q) q
  | leave (b : Bool) (q : List Fd) : QueueMoves fd b none q (q.filter (· ≠ fd))

theorem QueueMoves.purged {fd : Fd} {b : Bool} {q q' : List Fd} (h : QueueMoves fd b none q q') :
    q' = q.filter (· ≠ fd) := by
  cases h
  rfl

/-- The inflight counter has room for the `held` bytes of a connection. -/
structure Accounted (held : Nat) (s : Server) : Prop where
  metric : s.metrics.globalInflightBytesCurrent = s.globalInflightBytes
  held_le : held ≤ s.globalInflightBytes
  bounded : s.globalInflightBytes ≤ kMaxInflightBytes

/-- The server went from `s` to `s'` by a change of the connection `c` of `fd`. -/
structure Moves (fd : Fd) (c : ClientConnection) (after : Option ClientConnection)
    (events : List Event) (nodes : List TimerEntry) (s s' : Server) : Prop where
  found : s.find fd = some c
  clients : s'.clients = after.elim (s.clients.erase fd) (s.clients.insert fd)
  heap : s'.timerHeap = s.timerHeap ++ nodes
  trace : ∃ tr, s'.trace = s.trace ++ tr ∧ tr.filter (fun e => (life? e).isSome) = events ∧
    (Accounted (Server.buffered c) s →
      ∀ amount inflight, .released amount inflight ∈ tr → amount ≤ inflight)
  nextId : s'.nextConnectionId = s.nextConnectionId
  listenFd : s'.listenFd = s.listenFd
  queue : QueueMoves fd c.inReadyQueue (after.map (·.inReadyQueue)) s.readyQueue s'.readyQueue
  inflight : Accounted (Server.buffered c) s →
    s'.globalInflightBytes + Server.buffered c =
        s.globalInflightBytes + after.elim 0 Server.buffered ∧
      Accounted (after.elim 0 Server.buffered) s'

variable {fd fd' : Fd} {p p' : Point} {c : ClientConnection} {after : Option ClientConnection}
  {events : List Event} {nodes : List TimerEntry} {s s' : Server}

theorem nodesOf_append (id : Nat) (heap heap' : List TimerEntry) :
    nodesOf id (heap ++ heap') = nodesOf id heap ++ nodesOf id heap' := List.filter_append ..

namespace Moves

theorem find_self (h : Moves fd c after events nodes s s') : s'.find fd = after := by
  rw [Server.find, h.clients]
  cases after with
  | none => exact Finmap.lookup_erase ..
  | some c' => exact Finmap.lookup_insert ..

theorem find_other (h : Moves fd c after events nodes s s') (hne : fd' ≠ fd) :
    s'.find fd' = s.find fd' := by
  rw [Server.find, h.clients]
  cases after with
  | none => exact Finmap.lookup_erase_ne hne
  | some c' => exact Finmap.lookup_insert_of_ne _ hne

theorem history_self (h : Moves fd c after events nodes s s')
    (hev : ∀ e ∈ events, life? e = some c.connectionId) :
    history c.connectionId s'.trace = history c.connectionId s.trace ++ events := by
  obtain ⟨tr, htr, hfil, -⟩ := h.trace
  rw [htr, history_append, ← history_filter_isSome _ tr, hfil, history_of_lives hev]

theorem history_other (h : Moves fd c after events nodes s s')
    (hev : ∀ e ∈ events, life? e = some c.connectionId) {id : Nat} (hne : id ≠ c.connectionId) :
    history id s'.trace = history id s.trace := by
  obtain ⟨tr, htr, hfil, -⟩ := h.trace
  have hnone : history id events = [] := by
    refine history_of_others fun e he h => hne ?_
    rw [hev e he] at h
    exact (Option.some.inj h).symm
  rw [htr, history_append, ← history_filter_isSome _ tr, hfil, hnone, List.append_nil]

theorem nodes_self (h : Moves fd c after events nodes s s')
    (hn : ∀ n ∈ nodes, n.connectionId = c.connectionId) :
    nodesOf c.connectionId s'.timerHeap = nodesOf c.connectionId s.timerHeap ++ nodes := by
  rw [h.heap, nodesOf_append]
  congr 1
  exact List.filter_eq_self.mpr fun n hmem => decide_eq_true (hn n hmem)

theorem nodes_other (h : Moves fd c after events nodes s s')
    (hn : ∀ n ∈ nodes, n.connectionId = c.connectionId) {id : Nat} (hne : id ≠ c.connectionId) :
    nodesOf id s'.timerHeap = nodesOf id s.timerHeap := by
  have hnone : nodesOf id nodes = [] :=
    List.filter_eq_nil_iff.mpr fun n hmem => by simp [hn n hmem, hne.symm]
  rw [h.heap, nodesOf_append, hnone, List.append_nil]

end Moves

/-! ## The shared parts -/

theorem Refines.accounted (h : Refines fd p s) (hf : s.find fd' = some c) :
    Accounted (Server.buffered c) s := by
  refine ⟨h.metric, ?_, h.bounded⟩
  rw [h.balance]
  exact TableSum.le_total Server.buffered hf

/-- The accounts after a change of one connection. -/
theorem Moves.accounts (hm : Moves fd c after events nodes s s') (h : Refines fd p s) :
    s'.globalInflightBytes = TableSum.total Server.buffered s'.clients ∧
      s'.metrics.globalInflightBytesCurrent = s'.globalInflightBytes ∧
      s'.globalInflightBytes ≤ kMaxInflightBytes := by
  obtain ⟨heq, hafter⟩ := hm.inflight (h.accounted hm.found)
  refine ⟨?_, hafter.metric, hafter.bounded⟩
  have hbal := h.balance
  rw [hm.clients]
  cases after with
  | none =>
    have := TableSum.total_erase Server.buffered hm.found
    simp only [Option.elim_none] at heq ⊢
    omega
  | some c' =>
    have := TableSum.total_replace Server.buffered hm.found c'
    simp only [Option.elim_some] at heq ⊢
    omega

theorem Moves.releases (hm : Moves fd c after events nodes s s') (h : Refines fd p s) :
    ∀ amount inflight, .released amount inflight ∈ s'.trace → amount ≤ inflight := by
  obtain ⟨tr, htr, -, hrel⟩ := hm.trace
  intro amount inflight hmem
  rw [htr] at hmem
  rcases List.mem_append.mp hmem with hmem | hmem
  · exact h.releases _ _ hmem
  · exact hrel (h.accounted hm.found) _ _ hmem

/-- The ReadyQueue after a change of one connection. -/
theorem Moves.queueOk (hm : Moves fd c after events nodes s s') (h : Refines fd p s) :
    s'.readyQueue.Nodup ∧
      ∀ fd', fd' ∈ s'.readyQueue ↔ ∃ c, s'.find fd' = some c ∧ c.inReadyQueue = true := by
  have hself : fd ∈ s.readyQueue ↔ c.inReadyQueue = true := by
    rw [h.queued fd]
    constructor
    · rintro ⟨d, hd, hq⟩
      rw [hm.found] at hd
      cases hd
      exact hq
    · exact fun hq => ⟨c, hm.found, hq⟩
  have hother (fd' : Fd) (hne : fd' ≠ fd) :
      (∃ c, s'.find fd' = some c ∧ c.inReadyQueue = true) ↔ fd' ∈ s.readyQueue := by
    rw [hm.find_other hne, h.queued fd']
  have hfd : (∃ c, s'.find fd = some c ∧ c.inReadyQueue = true) ↔
      after.map (·.inReadyQueue) = some true := by
    rw [hm.find_self]
    cases after <;> simp
  have hmoves := hm.queue
  generalize hb : c.inReadyQueue = b at hmoves hself
  generalize ha : after.map (·.inReadyQueue) = b' at hmoves hfd
  generalize hq : s.readyQueue = q at hmoves hself hother
  generalize hq' : s'.readyQueue = q' at hmoves
  have hnodup : q.Nodup := hq ▸ h.nodup
  cases hmoves with
  | stay =>
    refine ⟨hnodup, fun fd' => ?_⟩
    by_cases hne : fd' = fd
    · subst hne
      rw [hfd, hself]
      simp
    · exact (hother fd' hne).symm
  | push =>
    have hnot : fd ∉ q := by simp [hself]
    refine ⟨hnodup.append (List.nodup_singleton fd) (by simpa using hnot), fun fd' => ?_⟩
    by_cases hne : fd' = fd
    · subst hne
      rw [hfd]
      simp
    · rw [hother fd' hne]
      simp [hne]
  | pop =>
    obtain ⟨hnot, hnodup⟩ := List.nodup_cons.mp hnodup
    refine ⟨hnodup, fun fd' => ?_⟩
    by_cases hne : fd' = fd
    · subst hne
      rw [hfd]
      simp [hnot]
    · rw [hother fd' hne]
      simp [hne]
  | leave =>
    refine ⟨hnodup.filter _, fun fd' => ?_⟩
    by_cases hne : fd' = fd
    · subst hne
      rw [hfd]
      simp
    · rw [hother fd' hne]
      simp [hne]

/-! ## Steps and ends of the machine -/

/-- A change of the connection `c` of `fd` that either continues its run or ends it. -/
theorem Refines.change (h : Refines fd p s) (hm : Moves fd c after events nodes s s')
    (hlives : ∀ e ∈ events, life? e = some c.connectionId)
    (hpushed : ∀ n ∈ nodes, n.connectionId = c.connectionId)
    (hgoesOn : ∀ c', after = some c' → c'.connectionId = c.connectionId ∧
      Run fd c.connectionId p' c' (history c.connectionId s.trace ++ events)
        (nodesOf c.connectionId s.timerHeap ++ nodes))
    (hends : after = none →
      Ended fd c.connectionId (history c.connectionId s.trace ++ events)) : Refines fd p' s' := by
  -- a connection elsewhere is the same as before, and has another id
  have hother {fd' : Fd} {d : ClientConnection} (hne : fd' ≠ fd) (hd : s'.find fd' = some d) :
      s.find fd' = some d ∧ d.connectionId ≠ c.connectionId := by
    rw [hm.find_other hne] at hd
    exact ⟨hd, fun e => hne (h.distinct _ _ _ _ hd hm.found e)⟩
  have hself {d : ClientConnection} (hd : s'.find fd = some d) : after = some d := by
    rw [← hm.find_self, hd]
  obtain ⟨hbalance, hmetric, hbounded⟩ := hm.accounts h
  obtain ⟨hnodup, hqueued⟩ := hm.queueOk h
  refine ⟨fun fd' d hd => ?_, fun id hid => ?_, fun fd' d hd => ?_, fun fd₁ d₁ fd₂ d₂ h₁ h₂ e => ?_,
    fun id hle => ?_, hnodup, hqueued, ?_, hbalance, hmetric, hbounded, hm.releases h⟩
  · by_cases hne : fd' = fd
    · subst hne
      obtain ⟨hdid, hrun⟩ := hgoesOn d (hself hd)
      rwa [hdid, hm.history_self hlives, hm.nodes_self hpushed, pointOf, if_pos rfl]
    · obtain ⟨hd, hdid⟩ := hother hne hd
      rw [hm.history_other hlives hdid, hm.nodes_other hpushed hdid]
      have := h.live fd' d hd
      rwa [pointOf, if_neg hne] at this ⊢
  · by_cases hne : id = c.connectionId
    · subst hne
      rw [hm.history_self hlives]
      cases after with
      | none => exact .inr ⟨fd, hends rfl⟩
      | some c' => exact absurd (hgoesOn c' rfl).1 (hid fd c' hm.find_self)
    · rw [hm.history_other hlives hne]
      apply h.gone id
      intro fd' d hd e
      by_cases hfd : fd' = fd
      · subst hfd
        rw [hm.found] at hd
        cases hd
        exact hne e.symm
      · exact hid fd' d ((hm.find_other hfd).trans hd) e
  · rw [hm.nextId]
    by_cases hne : fd' = fd
    · subst hne
      rw [(hgoesOn d (hself hd)).1]
      exact h.ids _ c hm.found
    · exact h.ids fd' d (hother hne hd).1
  · by_cases hne₁ : fd₁ = fd
    · by_cases hne₂ : fd₂ = fd
      · rw [hne₁, hne₂]
      · subst hne₁
        exact absurd (e.symm.trans (hgoesOn d₁ (hself h₁)).1) (hother hne₂ h₂).2
    · by_cases hne₂ : fd₂ = fd
      · subst hne₂
        exact absurd (e.trans (hgoesOn d₂ (hself h₂)).1) (hother hne₁ h₁).2
      · exact h.distinct _ _ _ _ (hother hne₁ h₁).1 (hother hne₂ h₂).1 e
  · rw [hm.nextId] at hle
    have hne : id ≠ c.connectionId := by
      have := h.ids fd c hm.found
      omega
    rw [hm.history_other hlives hne, hm.nodes_other hpushed hne]
    exact h.fresh id hle
  · have hne : s.listenFd ≠ fd := by
      rintro rfl
      have := h.listening
      rw [hm.found] at this
      cases this
    rw [hm.listenFd, hm.find_other hne]
    exact h.listening

/-- The machine of the connection a handler works on. -/
theorem Refines.run (h : Refines fd p s) (hf : s.find fd = some c) :
    Run fd c.connectionId p c (history c.connectionId s.trace)
      (nodesOf c.connectionId s.timerHeap) := by
  have := h.live fd c hf
  rwa [pointOf, if_pos rfl] at this

/-- **Step.**  A step of the machine on `fd` is a step of the server. -/
theorem Refines.step (h : Refines fd p s) {c' : ClientConnection}
    (hm : Moves fd c (some c') events nodes s s')
    (hs : Step fd (history c.connectionId s.trace) p c events nodes p' c') :
    Refines fd p' s' := by
  apply h.change hm hs.lives fun n hn => (hs.pushed n hn).1
  · intro d hd
    cases hd
    exact ⟨hs.connectionId, (h.run hm.found).step hs⟩
  · intro hnone
    cases hnone

/-- **End.**  When the machine on `fd` ends, its connection leaves the server. -/
theorem Refines.close (h : Refines fd p s) (hm : Moves fd c none events [] s s')
    (he : End fd p c events) : Refines fd p' s' := by
  apply h.change hm he.lives (by simp)
  · intro d hd
    cases hd
  · exact fun _ => ⟨p, c, _, _, events, h.run hm.found, he, rfl⟩

end WebServer.Refine
