import WebServer.Life.Timers

/-!
# A header that arrives in drips

While a connection has not received a complete header it has done nothing but
read, and every `read()` that returned bytes has armed the header timer again.
-/

namespace WebServer.Life

open WebServer.Net WebServer.Http WebServer.Core

variable {fd : Fd} {id : Nat} {p p' : Point} {c c' : ClientConnection} {H : List Event}
  {events : List Event} {N nodes : List TimerEntry}

/-- How many `read()` calls have returned bytes. -/
def arrivals (H : List Event) : Nat := (H.filter isArrival).length

theorem arrivals_append (H H' : List Event) : arrivals (H ++ H') = arrivals H + arrivals H' := by
  simp [arrivals, List.filter_append]

/-- No complete header has arrived. -/
def HeaderIncomplete (H : List Event) : Prop := Search.find? crlfcrlf (received H) = none

theorem HeaderIncomplete.left (h : HeaderIncomplete (H ++ events)) : HeaderIncomplete H := by
  rw [HeaderIncomplete, received_append] at h
  exact Search.find?_eq_none_of_append h

/-- A connection of which nothing but a part of a header is known. -/
structure Untouched (c : ClientConnection) (H : List Event) : Prop where
  input : c.inputBuffer.storage = received H
  output : c.outputBuffer = []
  noBody : c.waitingForRequestBody = false
  undecided : c.keepAliveEnabled = false
  unpromised : c.closeAfterWrite = false
  notQueued : c.inReadyQueue = false
  notMarked : c.readyForRead = false
  header : (c.timeout .kHeader).armed = true
  idle : (c.timeout .kIdleKeepAlive).armed = false

/-- Bytes that have been received stay received. -/
theorem Untouched.frame {H' : List Event} (hc : Untouched c H) (hr : received H' = received H) :
    Untouched c H' :=
  { hc with input := hc.input.trans hr.symm }

/-- Where such a connection can stand, and how often its header timer has been armed. -/
def Progress (p : Point) (H : List Event) : Prop :=
  match p with
  | .rest | .reading => (armings .kHeader H).length = arrivals H + 1 ∧
      (received H).length ≤ kMaxHeaderBytes
  | .received => (armings .kHeader H).length = arrivals H ∧ received H ≠ []
  | .headers .readFromClient | .settling .readFromClient =>
    (armings .kHeader H).length = arrivals H ∧ received H ≠ [] ∧
      (received H).length ≤ kMaxHeaderBytes
  | _ => False

def Dripping (p : Point) (c : ClientConnection) (H : List Event) : Prop :=
  Untouched c H ∧ Progress p H

theorem not_hasCompleteHeader (h : HeaderIncomplete H) (hc : Untouched c H) :
    c.inputBuffer.findHeaderEnd = none ∧ c.inputBuffer.hasCompleteHeader = false := by
  have : c.inputBuffer.findHeaderEnd = none := by
    rw [DynamicBuffer.findHeaderEnd, hc.input]
    exact h
  exact ⟨this, by rw [DynamicBuffer.hasCompleteHeader, this]; rfl⟩

theorem Dripping.step (hI : Dripping p c H) (hno : HeaderIncomplete H)
    (h : Step fd H p c events nodes p' c') : Dripping p' c' (H ++ events) := by
  obtain ⟨hc, hp⟩ := hI
  have hidle : ∀ {e : Event}, bytesRead e = [] → armingOf .kHeader e = none → isArrival e = false →
      received (H ++ [e]) = received H ∧ armings .kHeader (H ++ [e]) = armings .kHeader H ∧
        arrivals (H ++ [e]) = arrivals H := by
    intro e hb ha hr
    simp [received, hb, armings, ha, arrivals, hr]
  obtain ⟨hend, hhead⟩ := not_hasCompleteHeader hno hc
  cases h
  case beginRead =>
    rw [List.append_nil]
    exact ⟨hc, hp⟩
  case readAgain | readNothing =>
    obtain ⟨hr, ha, hv⟩ := hidle (e := .read c (.failed _)) rfl rfl rfl
    refine ⟨hc.frame hr, ?_⟩
    simp only [Progress, hr, ha, hv]
    exact hp
  case recv data inflight hd hlen hok =>
    have hr : received (H ++ [.read c (.got data),
        .reserved (some c) .inputAppend data.length inflight]) = received H ++ data := by
      simp [received, bytesRead]
    refine ⟨{ hc with input := ?_ }, ?_, ?_⟩
    · rw [hr, ← hc.input]
      rfl
    · have hlen : (armings .kHeader H).length = arrivals H + 1 := hp.1
      rw [armings_append, arrivals_append]
      simp [armings, armingOf, arrivals, isArrival, hd] at hlen ⊢
      exact hlen
    · rw [hr]
      simp [hd]
  case limitOk hw h =>
    obtain ⟨hr, ha, hv⟩ := hidle (e := .limitChecked c) rfl rfl rfl
    refine ⟨hc.frame hr, ?_⟩
    simp only [Progress, hr, ha, hv]
    refine ⟨hp.1, hp.2, ?_⟩
    simp only [DynamicBuffer.headerExceedsLimit, hend, decide_eq_false_iff_not, not_lt,
      DynamicBuffer.size, hc.input] at h
    exact h
  case loopEnd caller =>
    rw [List.append_nil]
    cases caller
    · exact ⟨hc, hp⟩
    · exact hp.elim
  case settleHeader caller now hw hh hin hout hcl hrr =>
    cases caller
    · obtain ⟨hlen, -, hle⟩ := hp
      have hr : received (H ++ [.settled c, .armed c.connectionId .kHeader now
          (now + kHeaderTimeout)]) = received H := by
        simp [received, bytesRead]
      refine ⟨{ hc.frame hr with header := ?_, idle := ?_ }, ?_, ?_⟩
      · simp [rearm]
      · simp [rearm]
      · rw [armings_append, arrivals_append, List.length_append, hlen]
        rfl
      · rw [hr]
        exact hle
    · exact hp.elim
  case resume hq => simp [hc.notQueued] at hq
  case idleToHeader hout hidle => simp [ClientConnection.idleArmed, hc.idle] at hidle
  case flushBegin hp hout => exact absurd hc.output hout
  case readExhausted h => exact absurd (h.trans hp.2) (by decide)
  case bodyPart hw _ _ | bodyDone hw _ => simp [hc.noBody] at hw
  case pop he => simp [hend] at he
  case settleWaiting hw => simp [hc.noBody] at hw
  case settleQueued hh => simp [hhead] at hh
  case settleIdle caller now hw hin hout hcl hrr =>
    cases caller
    · exact absurd (hc.input.symm.trans hin) hp.2.1
    · exact hp.elim
  case settlePass h => simp [hc.output, hc.notMarked] at h
  all_goals exact hp.elim

/-- **Slow headers.**  Until its first header is complete, a connection only reads. -/
theorem Run.dripping (h : Run fd id p c H N) : HeaderIncomplete H → Dripping p c H := by
  refine Run.invariant (I := fun p c H => HeaderIncomplete H → Dripping p c H)
    (fun _ _ _ => ?_) (fun _ hI hs hno => (hI hno.left).step hno.left hs) h
  refine ⟨⟨rfl, rfl, rfl, rfl, rfl, rfl, rfl, ?_, ?_⟩, rfl, Nat.zero_le _⟩
  · simp [rearm]
  · simp [rearm]

end WebServer.Life
