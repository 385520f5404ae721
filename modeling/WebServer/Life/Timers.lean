import WebServer.Life.Body

/-!
# Timers of one connection

Cancellation is lazy: a node in the heap counts when it carries the generation of
an armed timer.  Along a run, an armed timer has a node that counts, and a node
that counts carries the deadline of the most recent arming.
-/

namespace WebServer.Life

open WebServer.Net WebServer.Http WebServer.Core

/-- The most recent arming of one kind: the clock and the deadline. -/
def lastArming (kind : TimerKind) (H : List Event) : Option (Time × Time) :=
  (armings kind H).getLast?

structure TimersInOrder (fd : Fd) (c : ClientConnection) (H : List Event)
    (N : List TimerEntry) : Prop where
  owner : ∀ n ∈ N, n.fd = fd ∧ n.connectionId = c.connectionId
  /-- No node is ahead of its timer. -/
  past : ∀ n ∈ N, n.generation ≤ (c.timeout n.kind).generation
  /-- A node of the current generation belongs to an armed timer, with the last deadline. -/
  exact : ∀ n ∈ N, n.generation = (c.timeout n.kind).generation →
    (c.timeout n.kind).armed = true ∧ ∃ now, lastArming n.kind H = some (now, n.deadline)
  armed : ∀ kind, (c.timeout kind).armed = true → ∃ n ∈ N, n.kind = kind ∧ current c n

variable {fd : Fd} {id : Nat} {p p' : Point} {c c' : ClientConnection} {H H' : List Event}
  {events : List Event} {N nodes : List TimerEntry}

/-- Timers that are not touched. -/
theorem TimersInOrder.frame (hI : TimersInOrder fd c H N)
    (hid : c'.connectionId = c.connectionId) (ht : c'.timeout = c.timeout)
    (hH : ∀ kind, armings kind H' = armings kind H) : TimersInOrder fd c' H' N := by
  obtain ⟨ho, hp, he, ha⟩ := hI
  refine ⟨?_, ?_, ?_, ?_⟩
  · simpa only [hid] using ho
  · simpa only [ht] using hp
  · simpa only [ht, lastArming, hH] using he
  · simpa only [current, ht] using ha

/-- When the generation of one timer moves on, all its nodes fall behind. -/
theorem TimersInOrder.outdate (hI : TimersInOrder fd c H N) {kind : TimerKind}
    (hnext : (c'.timeout kind).generation = (c.timeout kind).generation + 1)
    (hother : ∀ k, k ≠ kind → c'.timeout k = c.timeout k) {n : TimerEntry} (hn : n ∈ N) :
    n.generation ≤ (c'.timeout n.kind).generation ∧
      (n.generation = (c'.timeout n.kind).generation → n.kind ≠ kind) := by
  have hpast := hI.past n hn
  by_cases hne : n.kind = kind
  · rw [hne] at hpast ⊢
    rw [hnext]
    constructor
    · exact Nat.le_succ_of_le hpast
    · intro hg
      omega
  · rw [hother _ hne]
    exact ⟨hpast, fun _ => hne⟩

/-- A timer of another kind is still armed, and its node still counts. -/
theorem TimersInOrder.unaffected (hI : TimersInOrder fd c H N) {k : TimerKind}
    (hk : c'.timeout k = c.timeout k) (harmed : (c'.timeout k).armed = true) :
    ∃ n ∈ N, n.kind = k ∧ current c' n := by
  rw [hk] at harmed
  obtain ⟨n, hn, rfl, hc⟩ := hI.armed k harmed
  refine ⟨n, hn, rfl, ?_⟩
  unfold current
  rw [hk]
  exact hc

theorem TimersInOrder.disarm (hI : TimersInOrder fd c H N) (kind : TimerKind) :
    TimersInOrder fd (c.disarm kind) H N := by
  cases hk : (c.timeout kind).armed with
  | false =>
    have : (c.disarm kind).timeout = c.timeout := by simp [ClientConnection.disarm, hk]
    exact hI.frame rfl this fun _ => rfl
  | true =>
    have hother : ∀ k, k ≠ kind → (c.disarm kind).timeout k = c.timeout k := by
      intro k hne
      simp [ClientConnection.disarm, hk, hne]
    have hself : (c.disarm kind).timeout kind = ⟨false, (c.timeout kind).generation + 1⟩ := by
      simp [ClientConnection.disarm, hk]
    have hnext := congrArg TimerSlot.generation hself
    refine ⟨hI.owner, fun n hn => (hI.outdate hnext hother hn).1, fun n hn hg => ?_, fun k hak => ?_⟩
    · have hne := (hI.outdate hnext hother hn).2 hg
      rw [hother _ hne] at hg ⊢
      exact hI.exact n hn hg
    · by_cases hne : k = kind
      · rw [hne, hself] at hak
        cases hak
      · exact hI.unaffected (hother k hne) hak

theorem TimersInOrder.arm (hI : TimersInOrder fd c H N) (kind : TimerKind) (now deadline : Time)
    (hH : ∀ k, armings k H' = armings k H ++ if k = kind then [(now, deadline)] else []) :
    TimersInOrder fd (c.arm kind) H' (N ++ [timerNode kind deadline fd (c.arm kind)]) := by
  have hother : ∀ k, k ≠ kind → (c.arm kind).timeout k = c.timeout k := by
    intro k hne
    simp [hne]
  have hself : (c.arm kind).timeout kind = ⟨true, (c.timeout kind).generation + 1⟩ := by simp
  have hnext := congrArg TimerSlot.generation hself
  have hlast : lastArming kind H' = some (now, deadline) := by simp [lastArming, hH]
  have hrest : ∀ k, k ≠ kind → lastArming k H' = lastArming k H := by
    intro k hne
    simp [lastArming, hH, hne]
  refine ⟨fun n hn => ?_, fun n hn => ?_, fun n hn hg => ?_, fun k hak => ?_⟩
  · rcases List.mem_append.mp hn with hn | hn
    · exact hI.owner n hn
    · obtain rfl := List.mem_singleton.mp hn
      exact ⟨rfl, rfl⟩
  · rcases List.mem_append.mp hn with hn | hn
    · exact (hI.outdate hnext hother hn).1
    · obtain rfl := List.mem_singleton.mp hn
      exact Nat.le_refl _
  · rcases List.mem_append.mp hn with hn | hn
    · have hne := (hI.outdate hnext hother hn).2 hg
      rw [hother _ hne] at hg ⊢
      rw [hrest _ hne]
      exact hI.exact n hn hg
    · obtain rfl := List.mem_singleton.mp hn
      refine ⟨?_, now, hlast⟩
      simp only [timerNode, hself]
  · by_cases hne : k = kind
    · refine ⟨_, List.mem_append_right _ (List.mem_singleton_self _), hne.symm, ?_⟩
      simp [current, timerNode]
    · obtain ⟨n, hn, hkind, hc⟩ := hI.unaffected (hother k hne) hak
      exact ⟨n, List.mem_append_left _ hn, hkind, hc⟩

/-- `Arm*Timeout` with the disarming it begins with. -/
theorem TimersInOrder.rearm (hI : TimersInOrder fd c H N) (kind : TimerKind) (now deadline : Time)
    (hH : ∀ k, armings k H' = armings k H ++ if k = kind then [(now, deadline)] else []) :
    TimersInOrder fd (rearm kind c) H' (N ++ [timerNode kind deadline fd (rearm kind c)]) := by
  cases kind with
  | kHeader => exact (hI.disarm .kIdleKeepAlive).arm _ now deadline hH
  | kBody =>
    exact (((hI.disarm .kHeader).disarm .kBody).disarm .kIdleKeepAlive).arm _ now deadline hH
  | kIdleKeepAlive => exact (hI.disarm .kHeader).arm _ now deadline hH

theorem TimersInOrder.respond (hI : TimersInOrder fd c H N) (keepAlive : Bool)
    (hH : ∀ kind, armings kind H' = armings kind H) :
    TimersInOrder fd (c.respond keepAlive) H' N :=
  ((hI.disarm .kHeader).disarm .kIdleKeepAlive).frame rfl rfl hH

theorem armings_responseWrites (kind : TimerKind) (fd : Fd) (life : Nat) (data : Bytes)
    (script : List WriteResult) : armings kind (responseWrites fd life data script) = [] := by
  simp [armings, responseWrites, armingOf]

theorem TimersInOrder.step (hI : TimersInOrder fd c H N)
    (h : Step fd H p c events nodes p' c') : TimersInOrder fd c' (H ++ events) (N ++ nodes) := by
  cases h
  case idleToHeader now hout hidle =>
    apply hI.rearm .kHeader now _
    intro k
    rw [armings_append]
    cases k <;> rfl
  case drainIdle now hout hh hr hcl hka =>
    apply hI.rearm .kIdleKeepAlive now _
    intro k
    rw [armings_append]
    cases k <;> rfl
  case beginBody r now hr hs hb =>
    refine TimersInOrder.rearm (c := c.beginBody r) (H := H) (hI.frame rfl rfl fun _ => rfl)
      .kBody now _ fun k => ?_
    rw [armings_append]
    cases k <;> rfl
  case settleIdle now hw hin hout hcl hr =>
    apply hI.rearm .kIdleKeepAlive now _
    intro k
    rw [armings_append]
    cases k <;> rfl
  case settleHeader now hw hh hin hout hcl hr =>
    apply hI.rearm .kHeader now _
    intro k
    rw [armings_append]
    cases k <;> rfl
  case bodyDone =>
    rw [List.append_nil N]
    refine TimersInOrder.respond (c := (takeBody c).finishBody) (H := H) ?_ _ fun k => ?_
    · exact TimersInOrder.disarm (c := { takeBody c with
        waitingForRequestBody := false, pendingRequest := {}, pendingBodyBytesTotal := 0,
        pendingBodyBytesRemaining := 0 }) (hI.frame rfl rfl fun _ => rfl) .kBody
    · rw [armings_append]
      exact List.append_nil _
  case request =>
    rw [List.append_nil N]
    apply hI.respond _
    intro k
    rw [armings_append]
    exact List.append_nil _
  all_goals
    rw [List.append_nil N]
    refine hI.frame rfl rfl fun k => ?_
    rw [armings_append]
  case flushed | flushBlocked | sendResponse =>
    rw [armings_responseWrites, List.append_nil]
  all_goals exact List.append_nil _

theorem TimersInOrder.drop {n : TimerEntry} (hI : TimersInOrder fd c H N) (hn : ¬ current c n) :
    TimersInOrder fd c H (N.erase n) := by
  obtain ⟨ho, hp, he, ha⟩ := hI
  have hsub : ∀ m ∈ N.erase n, m ∈ N := fun m => List.mem_of_mem_erase
  refine ⟨fun m hm => ho m (hsub m hm), fun m hm => hp m (hsub m hm),
    fun m hm => he m (hsub m hm), fun kind hk => ?_⟩
  obtain ⟨m, hm, hkind, hc⟩ := ha kind hk
  have hne : m ≠ n := fun e => hn (e ▸ hc)
  exact ⟨m, (List.mem_erase_of_ne hne).mpr hm, hkind, hc⟩

/-- The timers are in order all along a run. -/
theorem Run.timersInOrder (h : Run fd id p c H N) : TimersInOrder fd c H N := by
  induction h with
  | accept peerEndpoint now hc =>
    subst hc
    have h0 : TimersInOrder fd { socket := some fd, peerEndpoint, connectionId := id } [] [] :=
      ⟨nofun, nofun, nofun, nofun⟩
    exact h0.rearm .kHeader now _ fun k => by cases k <;> rfl
  | step _ hs ih => exact ih.step hs
  | drop _ hn ih => exact ih.drop hn

/-! ## Deadlines -/

/-- Every header timer runs for ten seconds from the clock at its arming. -/
theorem Run.header_deadline (h : Run fd id p c H N) :
    ∀ a ∈ armings .kHeader H, a.2 = a.1 + kHeaderTimeout := by
  refine Run.invariant (I := fun _ _ H => ∀ a ∈ armings .kHeader H, a.2 = a.1 + kHeaderTimeout)
    (fun _ now a ha => ?_) ?_ h
  · obtain rfl := List.mem_singleton.mp ha
    rfl
  · intro p p' c c' H N events nodes _ hI hs a ha
    rw [armings_append] at ha
    rcases List.mem_append.mp ha with ha | ha
    · exact hI a ha
    · cases hs
      case flushed | flushBlocked | sendResponse =>
        rw [armings_responseWrites] at ha
        cases ha
      case idleToHeader | settleHeader =>
        obtain rfl := List.mem_singleton.mp ha
        rfl
      all_goals cases ha

end WebServer.Life
