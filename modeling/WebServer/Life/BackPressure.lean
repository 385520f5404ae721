import WebServer.Life.Path
import WebServer.Life.Responses

/-!
# One round fills the output buffer

No request is touched in a handler call while bytes are unsent that were in the output buffer
when the call began.  So whatever the buffer holds, it is from one call: from the last one that
began a response.
-/

namespace WebServer.Life

open WebServer.Net WebServer.Http WebServer.Core

variable {fd : Fd} {id : Nat} {p p₀ p' : Point} {c c₀ c' : ClientConnection} {H E : List Event}
  {events : List Event} {nodes : List TimerEntry} {N : List TimerEntry} {unsent before before' out : Bytes}
  {e : Event}

/-! ## What events show -/

/-- The connection an event shows, as it was just before. -/
def shows? : Event → Option ClientConnection
  | .read c _ | .popped c _ | .limitChecked c | .bodyBegun c _ | .dispatched c .. | .rejected c _
  | .settled c | .drained c | .closed c _ => some c
  | .reserved c .. => c
  | .accepted .. | .epollCtl .. | .write .. | .closedFd _ | .armed .. | .released .. => none

/-- A header is popped and parsed, or a request is dispatched. -/
def takesRequest : Event → Bool
  | .popped .. | .dispatched .. => true
  | _ => false

/-- An event that takes no request, moves no byte of a response and shows the connection `c`, as
far as its output buffer goes, or none. -/
@[mk_iff]
structure Quiet (c : ClientConnection) (e : Event) : Prop where
  takes : takesRequest e = false
  responds : responseOf e = []
  writes : bytesWritten .response e = []
  shows : ∀ d, shows? e = some d → d.outputBuffer = c.outputBuffer

/-- The responses of the last round that began one: of the round with the events `E`, or of an
earlier one, whose responses are `before`. -/
def latest (before : Bytes) (E : List Event) : Bytes :=
  if responses E = [] then before else responses E

theorem latest_append (h : responses events = []) :
    latest before (E ++ events) = latest before E := by
  rw [latest, latest, responses_append, h, List.append_nil]

theorem suffix_latest {out : Bytes} (hb : before <:+ before') (h : out <:+ latest before E) :
    out <:+ latest before' E := by
  unfold latest at h ⊢
  split
  · rename_i hnone
    rw [if_pos hnone] at h
    exact h.trans hb
  · rename_i hsome
    rwa [if_neg hsome] at h

/-- The output buffer `out`, and behind it what is still to be buffered, are what the socket has
not taken of the bytes that were `unsent` when the round began and of the responses of the
round; and they are all from the last round that began a response. -/
def OneRound (unsent before : Bytes) (E : List Event) (out : Bytes) : Prop :=
  ∃ owed, accepted .response E ++ (out ++ owed) = unsent ++ responses E ∧
    out ++ owed <:+ latest before E

theorem OneRound.append (h : OneRound unsent before E out) (ha : accepted .response events = [])
    (hr : responses events = []) : OneRound unsent before (E ++ events) out := by
  obtain ⟨owed, hbytes, hlatest⟩ := h
  refine ⟨owed, ?_, ?_⟩
  · rw [accepted_append, responses_append, ha, hr, List.append_nil, List.append_nil, hbytes]
  · rwa [latest_append hr]

/-- What events show of the output buffer is of one round, and when a request is taken all that
was unsent when this round began has gone out. -/
def Shown (unsent before : Bytes) (E : List Event) : Prop :=
  ∀ pre e post d, E = pre ++ e :: post → shows? e = some d →
    OneRound unsent before pre d.outputBuffer ∧
      (takesRequest e = true → unsent <+: accepted .response pre)

namespace Shown

theorem nil : Shown unsent before [] := by
  intro pre e post d h
  simp at h

theorem concat (h : Shown unsent before E)
    (hround : ∀ d, shows? e = some d → OneRound unsent before E d.outputBuffer)
    (htakes : takesRequest e = true → unsent <+: accepted .response E) :
    Shown unsent before (E ++ [e]) := by
  intro pre e' post d hsplit hshow
  rcases List.eq_nil_or_concat post with rfl | ⟨post', x, rfl⟩
  · obtain ⟨rfl, hlast⟩ := List.append_inj' hsplit rfl
    cases hlast
    exact ⟨hround d hshow, htakes⟩
  · rw [List.concat_eq_append, ← List.cons_append, ← List.append_assoc] at hsplit
    exact h pre e' post' d (List.append_inj' hsplit rfl).1 hshow

/-- Events that show nothing. -/
theorem silent (h : Shown unsent before E)
    (hnone : ∀ e ∈ events, shows? e = none ∧ takesRequest e = false) :
    Shown unsent before (E ++ events) := by
  induction events generalizing E with
  | nil => rwa [List.append_nil]
  | cons e events ih =>
    obtain ⟨hshow, htakes⟩ := hnone e List.mem_cons_self
    rw [← List.singleton_append, ← List.append_assoc]
    refine ih (h.concat (fun d hd => ?_) fun ht => ?_) fun e' he' =>
      hnone e' (List.mem_cons_of_mem _ he')
    · rw [hshow] at hd
      cases hd
    · rw [htakes] at ht
      cases ht

/-- Events that take no request, move no response byte and show the connection as it is. -/
theorem extend (h : Shown unsent before E) (hround : OneRound unsent before E c.outputBuffer)
    (hquiet : ∀ e ∈ events, Quiet c e) : Shown unsent before (E ++ events) := by
  induction events generalizing E with
  | nil => rwa [List.append_nil]
  | cons e events ih =>
    have hone := hquiet e List.mem_cons_self
    have hresp : responses [e] = [] := by simp [responses, hone.responds]
    have hacc : accepted .response [e] = [] := by simp [accepted, hone.writes]
    rw [← List.singleton_append, ← List.append_assoc]
    refine ih (h.concat (fun d hd => ?_) fun ht => ?_) (hround.append hacc hresp) fun e' he' =>
      hquiet e' (List.mem_cons_of_mem _ he')
    · rwa [hone.shows d hd]
    · rw [hone.takes] at ht
      cases ht

theorem mono (hb : before <:+ before') (h : Shown unsent before E) : Shown unsent before' E :=
  fun pre e post d hsplit hshow =>
    (h pre e post d hsplit hshow).imp_left fun ⟨owed, hbytes, hlatest⟩ =>
      ⟨owed, hbytes, suffix_latest hb hlatest⟩

end Shown

/-! ## The invariant -/

/-- The points of a handler call at which no request has been touched in it. -/
def Point.untouched : Point → Bool
  | .rest | .resumed | .flushing _ => true
  | _ => false

/-- What the socket took during the call and what is left are what was unsent before and the
responses of the call; and once a request is touched, all that was unsent before has gone out. -/
structure Drained (c₀ : ClientConnection) (p : Point) (c : ClientConnection) (E : List Event) :
    Prop where
  bytes : accepted .response E ++ (c.outputBuffer ++ p.owed) = c₀.outputBuffer ++ responses E
  gate : p.untouched = true ∧ responses E = [] ∨ c₀.outputBuffer <+: accepted .response E

theorem Point.owed_untouched (h : p.untouched = true) : p.owed = [] := by
  cases p <;> first | rfl | cases h

namespace Drained

/-- An empty output buffer opens the gate. -/
theorem pass (h : Drained c₀ p c E) (hp : p.untouched = true) (hout : c.outputBuffer = []) :
    c₀.outputBuffer <+: accepted .response E := by
  rcases h.gate with ⟨-, hresp⟩ | hpassed
  · have hbytes := h.bytes
    rw [hout, Point.owed_untouched hp, hresp, List.append_nil, List.append_nil, List.append_nil]
      at hbytes
    exact hbytes ▸ List.prefix_rfl
  · exact hpassed

theorem suffix (h : Drained c₀ p c E) :
    c.outputBuffer ++ p.owed <:+ latest c₀.outputBuffer E := by
  have hbytes := h.bytes
  unfold latest
  split
  · rename_i hresp
    rw [hresp, List.append_nil] at hbytes
    exact ⟨_, hbytes⟩
  · rename_i hresp
    obtain ⟨sent, hsent⟩ := h.gate.resolve_left fun hleft => hresp hleft.2
    rw [← hsent, List.append_assoc] at hbytes
    exact ⟨_, List.append_cancel_left hbytes⟩

theorem oneRound (h : Drained c₀ p c E) :
    OneRound c₀.outputBuffer c₀.outputBuffer E c.outputBuffer :=
  ⟨p.owed, h.bytes, h.suffix⟩

/-- Behind the gate all that was unsent has gone out. -/
theorem passed (h : Drained c₀ p c E)
    (hp : p.untouched = false ∨ p.untouched = true ∧ c.outputBuffer = []) :
    c₀.outputBuffer <+: accepted .response E := by
  rcases hp with hp | ⟨hp, hout⟩
  · exact h.gate.resolve_left fun hleft => by simp [hp] at hleft
  · exact h.pass hp hout

/-- A socket that takes nothing keeps the output buffer as it was. -/
theorem blocked (h : Drained c₀ .rest c E) (hout : c₀.outputBuffer ≠ [])
    (hnone : accepted .response E = []) : c.outputBuffer = c₀.outputBuffer := by
  rcases h.gate with ⟨-, hresp⟩ | hpassed
  · have hbytes := h.bytes
    rwa [hnone, hresp, List.nil_append, List.append_nil, Point.owed_untouched rfl,
      List.append_nil] at hbytes
  · rw [hnone] at hpassed
    exact absurd (List.prefix_nil.mp hpassed) hout

end Drained

/-- A request is taken only behind the gate. -/
theorem Point.touched_of_bodyBack {back : Point} {owed : Bytes} (hp : bodyBack p = some back)
    (hallow : p.allows c (.answering back owed)) :
    p.untouched = false ∨ p.untouched = true ∧ c.outputBuffer = [] := by
  cases p with
  | resumed => exact .inr ⟨rfl, hallow.resolve_right (by rintro (h | h) <;> cases h)⟩
  | received | bodyBegun => exact .inl rfl
  | _ => cases hp

theorem Step.gate (hret : p.Returns) (hI : Drained c₀ p c E)
    (hs : Step fd (H ++ E) p c events nodes p' c') (hallow : p.allows c p') :
    p'.untouched = true ∧ responses (E ++ events) = [] ∨
      c₀.outputBuffer <+: accepted .response (E ++ events) := by
  have hpass (h : c₀.outputBuffer <+: accepted .response E) :
      c₀.outputBuffer <+: accepted .response (E ++ events) := by
    rw [accepted_append]
    exact h.trans (List.prefix_append ..)
  rcases hI.gate with ⟨hp, hresp⟩ | hpassed
  · have hquiet (h : responses events = []) : responses (E ++ events) = [] := by
      rw [responses_append, hresp, h, List.append_nil]
    have hback {back : Point} (h : (Point.flushing back).Returns) : back.untouched = true := by
      rcases h with rfl | rfl <;> rfl
    cases hs
    case resume => exact absurd rfl hallow
    case beginRead hout _ | resumeHeaders hout _ _ | resumeNothing hout _ _ =>
      exact .inr (hpass (hI.pass hp hout))
    case bodyDone hbody _ _ =>
      exact .inr (hpass (hI.passed (Point.touched_of_bodyBack hbody hallow)))
    case bodyPart hbody =>
      cases p <;> cases hbody <;> first | exact .inl ⟨rfl, hquiet rfl⟩ | cases hp
    case idleToHeader | pause | flushBegin => exact .inl ⟨rfl, hquiet rfl⟩
    case flushed => exact .inl ⟨rfl, hquiet (responses_responseWrites ..)⟩
    case flushBlocked => exact .inl ⟨hback hret, hquiet (responses_responseWrites ..)⟩
    case flushPaused | drainQueued | drainIdle | drainStop => exact .inl ⟨hback hret, hquiet rfl⟩
    all_goals cases hp
  · exact .inr (hpass hpassed)

theorem Path.drained (hr : Run fd id p₀ c₀ H N) (hp₀ : p₀.untouched = true)
    (h : Path fd H p₀ c₀ p c E) : Drained c₀ p c E := by
  -- the bytes are those of the run before the call and with it
  have hbytes {p c E} (h : Path fd H p₀ c₀ p c E) :
      accepted .response E ++ (c.outputBuffer ++ p.owed) = c₀.outputBuffer ++ responses E := by
    obtain ⟨N', hr'⟩ := h.run hr
    have hbefore : accepted .response H ++ (c₀.outputBuffer ++ p₀.owed) = responses H := hr.delivered
    have hafter : accepted .response (H ++ E) ++ (c.outputBuffer ++ p.owed) = responses (H ++ E) :=
      hr'.delivered
    rw [Point.owed_untouched hp₀, List.append_nil] at hbefore
    rw [accepted_append, responses_append, ← hbefore, List.append_assoc, List.append_assoc] at hafter
    exact List.append_cancel_left hafter
  refine Path.invariant (I := Drained c₀) ⟨hbytes .start, .inl ⟨hp₀, rfl⟩⟩ ?_ h
  intro p p' c c' E events nodes hpath hI hs hallow
  obtain ⟨N', hr'⟩ := hpath.run hr
  exact ⟨hbytes (hpath.step hs hallow), hs.gate hr'.returns hI hallow⟩

/-! ## What the events of a call show -/

theorem silent_responseWrites {data : Bytes} {script : List WriteResult} :
    ∀ e ∈ responseWrites fd id data script, shows? e = none ∧ takesRequest e = false := by
  intro e he
  obtain ⟨answer, -, rfl⟩ := List.mem_map.mp he
  exact ⟨rfl, rfl⟩

theorem Step.shown (hI : Drained c₀ p c E) (h : Shown c₀.outputBuffer c₀.outputBuffer E)
    (hs : Step fd (H ++ E) p c events nodes p' c') (hallow : p.allows c p') :
    Shown c₀.outputBuffer c₀.outputBuffer (E ++ events) := by
  have hround := hI.oneRound
  cases hs
  case pop | request =>
    refine h.concat (fun d hd => ?_) fun _ => hI.passed (.inl rfl)
    cases hd
    exact hround
  case bodyDone hbody _ _ =>
    refine h.concat (fun d hd => ?_) fun _ => hI.passed (Point.touched_of_bodyBack hbody hallow)
    cases hd
    exact hround
  case flushed | flushBlocked | sendResponse => exact h.silent silent_responseWrites
  all_goals
    refine h.extend hround ?_
    simp [quiet_iff, takesRequest, responseOf, bytesWritten, shows?]

theorem quiet_refusal {statusCode : Nat} {script : List WriteResult} :
    ∀ e ∈ refusal fd c statusCode script, Quiet c e := by
  intro e he
  simp only [refusal, List.mem_cons, List.mem_append, List.not_mem_nil, or_false] at he
  rcases he with rfl | he | rfl
  · exact ⟨rfl, rfl, rfl, fun d hd => by cases hd; rfl⟩
  · obtain ⟨⟨offered, answer⟩, -, rfl⟩ := List.mem_map.mp he
    exact ⟨rfl, rfl, rfl, fun d hd => by cases hd⟩
  · exact ⟨rfl, rfl, rfl, fun d hd => by cases hd; rfl⟩

/-- A connection is closed because a `write()` has failed. -/
theorem Shown.writeFailed {attempt : Nat} {data : Bytes} {script : List WriteResult} {errno : Errno}
    (h : Shown unsent before E) (hround : OneRound unsent before E c.outputBuffer)
    (hw : (writeSomeNonBlocking (data.take attempt) script).2.2 = .error errno) :
    Shown unsent before
      (E ++ (responseWrites fd id (data.take attempt) script ++ [.closed c .writeFailed])) := by
  rw [← List.append_assoc]
  refine (h.silent silent_responseWrites).concat (fun d hd => ?_) nofun
  cases hd
  refine hround.append ?_ (responses_responseWrites ..)
  rw [accepted_responseWrites, hw]

theorem End.shown (h : Shown unsent before E) (hround : OneRound unsent before E c.outputBuffer)
    (he : End fd p c events) : Shown unsent before (E ++ events) := by
  cases he
  case flushFailed hw => exact h.writeFailed hround hw
  case sendFailed hw _ => exact h.writeFailed hround hw
  case headerRefused | bodyRefused => exact h.extend hround quiet_refusal
  case recvRefused =>
    refine h.extend hround fun e he => ?_
    rcases List.mem_append.mp he with he | he
    · simp only [List.mem_cons, List.not_mem_nil, or_false] at he
      rcases he with rfl | rfl <;> exact ⟨rfl, rfl, rfl, fun d hd => by cases hd; rfl⟩
    · exact quiet_refusal e he
  case limitExceeded | answerRefused =>
    refine h.extend hround fun e he => ?_
    rcases List.mem_cons.mp he with rfl | he
    · exact ⟨rfl, rfl, rfl, fun d hd => by cases hd; rfl⟩
    · exact quiet_refusal e he
  all_goals
    refine h.extend hround ?_
    simp [quiet_iff, takesRequest, responseOf, bytesWritten, shows?]

theorem Path.shown (hr : Run fd id p₀ c₀ H N) (hp₀ : p₀.untouched = true)
    (h : Path fd H p₀ c₀ p c E) : Shown c₀.outputBuffer c₀.outputBuffer E := by
  refine Path.invariant (I := fun _ _ E => Shown c₀.outputBuffer c₀.outputBuffer E) .nil ?_ h
  intro p p' c c' E events nodes hpath hI hs hallow
  exact hs.shown (hpath.drained hr hp₀) hI hallow

/-- **Back-pressure.**  What a handler call shows of a connection, until it returns or closes
the connection. -/
theorem Course.shown {H : Nat → List Event} {after : Option ClientConnection}
    (hr : Run fd id p₀ c₀ (H c₀.connectionId) N) (hp₀ : p₀.untouched = true)
    (h : Course fd H p₀ (some c₀) p after E) : Shown c₀.outputBuffer c₀.outputBuffer E := by
  cases h with
  | live hpath => exact hpath.shown hr hp₀
  | ended hpath hend => exact hend.shown (hpath.shown hr hp₀) (hpath.drained hr hp₀).oneRound

end WebServer.Life
