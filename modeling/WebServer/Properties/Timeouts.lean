import WebServer.Kernel.Progress
import WebServer.Life.SlowHeader
import WebServer.Life.Upload
import WebServer.Refine.Reachable

/-!
# Timeouts

Which connections a call of `ProcessExpiredTimers` closes, and what that means for a
connection in the middle of a body and for one that sends its header in drips.
-/

namespace WebServer.Properties

open WebServer.Net WebServer.Http WebServer.Core WebServer.Life WebServer.Refine WebServer.Kernel

variable {fd : Fd} {c : ClientConnection} {now : Time} {s s' : Server}

/-! ## Expiry -/

/-- The most recent arming of one of the armed timers set a deadline that has passed. -/
def TimedOut (now : Time) (c : ClientConnection) (H : List Event) : Prop :=
  ∃ kind, (c.timeout kind).armed = true ∧ ∃ armedAt deadline,
    lastArming kind H = some (armedAt, deadline) ∧ deadline ≤ now

/-- The table loses exactly the keys that are gone. -/
theorem keys_card (he : Expires now s s') :
    s'.clients.keys.card + (s.clients.keys.filter fun fd => s'.find fd = none).card =
      s.clients.keys.card := by
  have hkeys : s'.clients.keys = s.clients.keys.filter fun fd => ¬ s'.find fd = none := by
    ext fd
    rw [Finset.mem_filter, Finmap.mem_keys, Finmap.mem_keys, ← Finmap.lookup_eq_none.not_left,
      ← Finmap.lookup_eq_none.not_left]
    refine ⟨fun hne => ⟨fun hnone => hne ?_, hne⟩, fun h => h.2⟩
    rw [← hnone]
    exact he.kept fd fun hd => hne (he.gone fd hd)
  rw [hkeys, Nat.add_comm]
  exact Finset.card_filter_add_card_filter_not _

/-- What becomes of one connection. -/
theorem processExpiredTimers_find (hs : Reachable s) (hf : s.find fd = some c) (now : Time)
    (ties : List Nat) :
    (TimedOut now c (history c.connectionId s.trace) →
      (processExpiredTimers now ties s).find fd = none) ∧
    (¬ TimedOut now c (history c.connectionId s.trace) →
      (processExpiredTimers now ties s).find fd = some c) := by
  have hrest := atRest_of_reachable hs
  obtain ⟨he, -⟩ := processExpiredTimers_spec now ties hrest
  have hdue : Due now s fd ↔ TimedOut now c _ := due_iff hrest hf
  refine ⟨fun h => he.gone fd (hdue.mpr h), fun h => ?_⟩
  rw [he.kept fd fun hd => h (hdue.mp hd), hf]

theorem closed_iff_timedOut (hs : Reachable s) (hf : s.find fd = some c) {ties : List Nat} :
    (processExpiredTimers now ties s).find fd = none ↔
      TimedOut now c (history c.connectionId s.trace) := by
  obtain ⟨hclosed, hopen⟩ := processExpiredTimers_find hs hf now ties
  refine ⟨fun h => ?_, hclosed⟩
  by_contra hnot
  rw [hopen hnot] at h
  cases h

/-- **Expiry is exact.**  A call closes the connections that have timed out and no other, the
metric counts them, no due node is left, and no number of further turns would change a thing. -/
theorem processExpiredTimers_exact (hs : Reachable s) (now : Time) (ties : List Nat) :
    (∀ fd c, s.find fd = some c → TimedOut now c (history c.connectionId s.trace) →
      (processExpiredTimers now ties s).find fd = none) ∧
    (∀ fd c, s.find fd = some c → ¬ TimedOut now c (history c.connectionId s.trace) →
      (processExpiredTimers now ties s).find fd = some c) ∧
    (∀ fd, s.find fd = none → (processExpiredTimers now ties s).find fd = none) ∧
    (processExpiredTimers now ties s).metrics.timeoutCloseTotal = s.metrics.timeoutCloseTotal +
      (s.clients.keys.filter fun fd => (processExpiredTimers now ties s).find fd = none).card ∧
    (∀ n ∈ (processExpiredTimers now ties s).timerHeap, now < n.deadline) ∧
    ∀ turns, s.timerHeap.length ≤ turns →
      expireLoop now turns ties s = processExpiredTimers now ties s := by
  have hrest := atRest_of_reachable hs
  obtain ⟨he, hlate⟩ := processExpiredTimers_spec now ties hrest
  refine ⟨fun fd c hf => (processExpiredTimers_find hs hf now ties).1,
    fun fd c hf => (processExpiredTimers_find hs hf now ties).2, fun fd hnone => ?_, ?_, hlate,
    fun turns hturns => expireLoop_turns _ _ ties s hturns (Nat.le_refl _)⟩
  · by_cases hd : Due now s fd
    · exact he.gone fd hd
    · rw [he.kept fd hd, hnone]
  · have hcard := keys_card he
    have hcounted := he.counted
    omega

/-- Two connections that have sent nothing, five seconds apart. -/
def twoSilent : SampleRun fun s => (s.find 5).isSome = true ∧
    ((connectionAt s 5).timeout .kHeader).armed = true ∧
    lastArming .kHeader (history (connectionAt s 5).connectionId s.trace) =
      some (0, seconds 10) ∧
    ((processExpiredTimers (seconds 10) [] s).find 6).isSome = true where
  iterations := [accepting 3 5 0, accepting 3 6 (seconds 5)]
  holds := by decide +kernel

/-- Ten seconds after the first was accepted, it is the only one that is closed. -/
theorem processExpiredTimers_exact_twoSilent :
    (processExpiredTimers (seconds 10) [] twoSilent.final).find 5 = none ∧
      ((processExpiredTimers (seconds 10) [] twoSilent.final).find 6).isSome = true := by
  obtain ⟨hfirst, harmed, hlast, hsecond⟩ := twoSilent.holds_final
  have hexact := processExpiredTimers_exact twoSilent.reachable (seconds 10) []
  exact ⟨hexact.1 5 _ (find_connectionAt hfirst) ⟨.kHeader, harmed, 0, _, hlast, Nat.le_refl _⟩,
    hsecond⟩

/-! ## Body uploads -/

/-- A connection that waits for a body is under its body timer alone. -/
def UploadAlone (c : ClientConnection) : Prop :=
  c.waitingForRequestBody = true → (c.timeout .kBody).armed = true ∧
    (c.timeout .kHeader).armed = false ∧ (c.timeout .kIdleKeepAlive).armed = false

/-- An upload that no flush has put under the idle timer is alone. -/
theorem uploadAlone (hs : Reachable s) (hf : s.find fd = some c)
    (hclean : ∀ e ∈ history c.connectionId s.trace, idlesUpload e = false) : UploadAlone c := by
  have hrun := run_of_reachable hs hf
  exact fun hw => ⟨hrun.bodyPhase.timer.trans hw, hrun.upload_alone hclean hw⟩

/-- **Uploads are governed by their body deadline** as long as no flush of an earlier response
arms the idle timer: then no other timer runs, and none closes the connection before the
deadline that was computed when its header was complete. -/
theorem upload_governed (hs : Reachable s) (hf : s.find fd = some c)
    (hclean : ∀ e ∈ history c.connectionId s.trace, idlesUpload e = false) :
    UploadAlone c ∧ (c.waitingForRequestBody = true → ∃ armedAt,
      lastArming .kBody (history c.connectionId s.trace) = some (armedAt,
        calculateBodyReceiveDeadline armedAt c.pendingRequest.contentLength) ∧
      ∀ now ties, (processExpiredTimers now ties s).find fd = none →
        calculateBodyReceiveDeadline armedAt c.pendingRequest.contentLength ≤ now) := by
  have halone := uploadAlone hs hf hclean
  refine ⟨halone, fun hw => ?_⟩
  obtain ⟨armedAt, hlast⟩ := (run_of_reachable hs hf).body_deadline hw
  refine ⟨armedAt, hlast, fun now ties hclosed => ?_⟩
  obtain ⟨hbody, hheader, hidle⟩ := halone hw
  obtain ⟨kind, harmed, t, deadline, hlast', hle⟩ := (closed_iff_timedOut hs hf).mp hclosed
  cases kind with
  | kHeader => simp [hheader] at harmed
  | kIdleKeepAlive => simp [hidle] at harmed
  | kBody =>
    rw [hlast] at hlast'
    cases hlast'
    exact hle

/-- A `GET` answered only in part, with a `POST` behind it whose body is still to come; then
the rest of the response is flushed. -/
def flushedDuringUpload : SampleRun fun s => (s.find 5).isSome = true ∧
    (connectionAt s 5).waitingForRequestBody = true ∧
    ((connectionAt s 5).timeout .kIdleKeepAlive).armed = true where
  iterations :=
    [accepting 3 5 0,
      reading 5 1
        [.got (ascii "GET / HTTP/1.1\r\n\r\nPOST / HTTP/1.1\r\nContent-Length: 5\r\n\r\n")]
        [.wrote 10],
      writing 5 2 [.wrote 1000]]
  holds := by decide +kernel

/-- The flush arms the idle timer in the middle of the upload. -/
theorem not_uploadAlone_flushedDuringUpload :
    ¬ ∀ s, Reachable s → ∀ fd c, s.find fd = some c → UploadAlone c := by
  intro h
  obtain ⟨hopen, hwaits, hidle⟩ := flushedDuringUpload.holds_final
  have halone := h _ flushedDuringUpload.reachable 5 _ (find_connectionAt hopen)
  rw [(halone hwaits).2.2] at hidle
  cases hidle

/-- A `POST` whose body is still to come. -/
def uploadBegun : SampleRun fun s => (s.find 5).isSome = true ∧
    (connectionAt s 5).waitingForRequestBody = true ∧
    ∀ e ∈ history (connectionAt s 5).connectionId s.trace, idlesUpload e = false where
  iterations :=
    [accepting 3 5 0,
      reading 5 1 [.got (ascii "POST / HTTP/1.1\r\nContent-Length: 5\r\n\r\nhe")] []]
  holds := by decide +kernel

theorem upload_governed_uploadBegun :
    (connectionAt uploadBegun.final 5).waitingForRequestBody = true ∧
      UploadAlone (connectionAt uploadBegun.final 5) := by
  obtain ⟨hopen, hwaits, hclean⟩ := uploadBegun.holds_final
  exact ⟨hwaits, (upload_governed uploadBegun.reachable (find_connectionAt hopen) hclean).1⟩

/-! ## Slow headers -/

/-- While its first header is incomplete, only the header timer of a connection can expire. -/
theorem timedOut_iff_header (hs : Reachable s) (hf : s.find fd = some c)
    (hno : HeaderIncomplete (history c.connectionId s.trace)) :
    TimedOut now c (history c.connectionId s.trace) ↔ ∃ armedAt deadline,
      lastArming .kHeader (history c.connectionId s.trace) = some (armedAt, deadline) ∧
        deadline ≤ now := by
  have hrun := run_of_reachable hs hf
  have huntouched := (hrun.dripping hno).1
  constructor
  · rintro ⟨kind, harmed, hlast⟩
    cases kind with
    | kHeader => exact hlast
    | kBody =>
      rw [hrun.bodyPhase.timer, huntouched.noBody] at harmed
      cases harmed
    | kIdleKeepAlive =>
      rw [huntouched.idle] at harmed
      cases harmed
  · exact fun hlast => ⟨.kHeader, huntouched.header, hlast⟩

/-- The header timer of a connection without a complete header has been armed by its `accept4()`
and by every `read()` that returned bytes since. -/
theorem slowHeader_armings (hs : Reachable s) (hf : s.find fd = some c)
    (hno : HeaderIncomplete (history c.connectionId s.trace)) :
    ∃ acceptedAt later, armings .kHeader (history c.connectionId s.trace) =
        (acceptedAt, acceptedAt + kHeaderTimeout) :: later ∧
      later.length = arrivals (history c.connectionId s.trace) := by
  have hrun := run_of_reachable hs hf
  have hdeadline := hrun.header_deadline
  have hlen := (hrun.dripping hno).2.1
  obtain ⟨⟨acceptedAt, deadline⟩, later, hall⟩ := List.exists_cons_of_length_eq_add_one hlen
  rw [hall] at hlen hdeadline
  obtain rfl : deadline = acceptedAt + kHeaderTimeout :=
    hdeadline (acceptedAt, deadline) List.mem_cons_self
  exact ⟨acceptedAt, later, hall, by simpa using hlen⟩

/-- A call adds the armings it makes, each for a time that the clock shows during the call. -/
theorem armings_of_call {call : Call} (hcall : runCall call s = .ok s') (t : Time) (id : Nat)
    (kind : TimerKind) :
    ∃ new, armings kind (history id s'.trace) = armings kind (history id s.trace) ++ new ∧
      ∀ a ∈ new, begins t call ≤ a.1 ∧ a.1 ≤ ends t call := by
  obtain ⟨events, htrace, hwithin⟩ := runCall_armedWithin call t hcall
  refine ⟨armings kind (history id events), by rw [htrace, history_append, armings_append], ?_⟩
  intro a ha
  obtain ⟨e, he, harming⟩ := List.mem_filterMap.mp ha
  refine hwithin e (List.mem_filter.mp he).1 a.1 ?_
  unfold armingOf at harming
  split at harming
  · split at harming
    · cases harming
      rfl
    · cases harming
  · cases harming

/-- **When a slow header is cut off.**  A call of `ProcessExpiredTimers` closes a connection
without a complete header exactly if the last arming of its header timer is ten seconds old. -/
theorem slowHeader_closed_iff (hs : Reachable s) (hf : s.find fd = some c)
    (hno : HeaderIncomplete (history c.connectionId s.trace)) :
    ∃ acceptedAt later armedAt,
      armings .kHeader (history c.connectionId s.trace) =
        (acceptedAt, acceptedAt + kHeaderTimeout) :: later ∧
      later.length = arrivals (history c.connectionId s.trace) ∧
      lastArming .kHeader (history c.connectionId s.trace) =
        some (armedAt, armedAt + kHeaderTimeout) ∧
      ∀ now ties,
        (processExpiredTimers now ties s).find fd = none ↔ armedAt + kHeaderTimeout ≤ now := by
  obtain ⟨acceptedAt, later, hall, hlater⟩ := slowHeader_armings hs hf hno
  have hdeadline := (run_of_reachable hs hf).header_deadline
  obtain ⟨⟨armedAt, deadline⟩, hlast⟩ :
      ∃ a, lastArming .kHeader (history c.connectionId s.trace) = some a := by
    rw [lastArming, hall]
    exact ⟨_, List.getLast?_eq_some_getLast (List.cons_ne_nil _ _)⟩
  obtain rfl : deadline = armedAt + kHeaderTimeout :=
    hdeadline (armedAt, deadline) (List.mem_of_getLast? hlast)
  refine ⟨acceptedAt, later, armedAt, hall, hlater, hlast, fun now ties => ?_⟩
  rw [closed_iff_timedOut hs hf, timedOut_iff_header hs hf hno, hlast]
  constructor
  · rintro ⟨t, deadline, he, hle⟩
    cases he
    exact hle
  · exact fun hle => ⟨_, _, rfl, hle⟩

/-- However its bytes arrive, a connection without a complete header is closed ten seconds
after its `accept4()`. -/
def HeaderBounded (s : Server) : Prop :=
  ∀ fd c acceptedAt deadline later now ties, s.find fd = some c →
    HeaderIncomplete (history c.connectionId s.trace) →
    armings .kHeader (history c.connectionId s.trace) = (acceptedAt, deadline) :: later →
    acceptedAt + kHeaderTimeout ≤ now → (processExpiredTimers now ties s).find fd = none

/-- One byte of a header, nine seconds after the `accept4()`. -/
def drippingHeader : SampleRun fun s => (s.find 5).isSome = true ∧
    HeaderIncomplete (history (connectionAt s 5).connectionId s.trace) ∧
    armings .kHeader (history (connectionAt s 5).connectionId s.trace) =
      [(0, seconds 10), (seconds 9, seconds 19)] ∧
    ((processExpiredTimers (seconds 10) [] s).find 5).isSome = true where
  iterations := [accepting 3 5 0, reading 5 (seconds 9) [.got (ascii "G")] []]
  holds := by unfold HeaderIncomplete; decide +kernel

/-- The byte has moved the deadline: the connection is still there at ten seconds. -/
theorem not_headerBounded_drippingHeader : ¬ ∀ s, Reachable s → HeaderBounded s := by
  intro h
  obtain ⟨hopen, hno, harmings, hkept⟩ := drippingHeader.holds_final
  have hclosed := h _ drippingHeader.reachable 5 _ 0 _ _ (seconds 10) []
    (find_connectionAt hopen) hno harmings (Nat.le_refl _)
  rw [hclosed] at hkept
  cases hkept

/-- The connection is closed nineteen seconds after the `accept4()`, and not before. -/
theorem slowHeader_closed_drippingHeader :
    (processExpiredTimers (seconds 19) [] drippingHeader.final).find 5 = none ∧
      (processExpiredTimers (seconds 18) [] drippingHeader.final).find 5 ≠ none := by
  obtain ⟨hopen, hno, hdrips, -⟩ := drippingHeader.holds_final
  obtain ⟨acceptedAt, later, armedAt, harmings, -, hlast, hclosed⟩ :=
    slowHeader_closed_iff drippingHeader.reachable (find_connectionAt hopen) hno
  rw [lastArming, hdrips] at hlast
  rw [hdrips] at harmings
  cases harmings
  cases hlast
  constructor
  · exact (hclosed _ _).mpr (by decide)
  · exact fun h => absurd ((hclosed _ _).mp h) (by decide)

end WebServer.Properties
