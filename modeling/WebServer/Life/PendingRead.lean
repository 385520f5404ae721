import WebServer.Life.Body
import WebServer.Life.Path

/-!
# The mark of a pending read

`ready_for_read` says that a `ReadFromClient` stopped at its budget.  At most points the
connection is then in the ReadyQueue; `ContinueReadyConnection` takes it out of the queue and
keeps the mark, so it has to be sure of getting to the next `ReadFromClient`.
-/

namespace WebServer.Life

open WebServer.Net WebServer.Http WebServer.Core

variable {fd : Fd} {id : Nat} {p p' : Point} {c c' : ClientConnection} {H : List Event}
  {events : List Event} {N nodes : List TimerEntry}

/-! ## The mark is kept -/

/-- A marked connection will be read from: the ReadyQueue gets to it, at once or after the
next flush. -/
def MarkKept (c : ClientConnection) : Prop :=
  c.readyForRead = true → c.inReadyQueue = true ∨ c.outputBuffer ≠ []

/-- The connection has been taken out of the ReadyQueue, and `ContinueReadyConnection` would
return before it reads: the mark is there, no flush is to come, and the body is not complete. -/
def Strandable (c : ClientConnection) : Prop :=
  c.readyForRead = true ∧ c.outputBuffer = [] ∧ c.waitingForRequestBody = true

/-- What a marked connection has to be at each point for its mark to be kept. -/
def Point.keepsMark : Point → ClientConnection → Prop
  | .rest, c => MarkKept c
  | .resumed, c => ¬ c.inReadyQueue = true → ¬ Strandable c
  | .reading, c | .received, c | .headers .readFromClient, c | .parsing .readFromClient _, c
  | .bodyBegun .readFromClient, c | .settling .readFromClient, c =>
    c.readyForRead = true → c.inReadyQueue = true
  | .answering back _, c => back.keepsMark c
  | .headers .continueReady, _ | .parsing .continueReady _, _ | .bodyBegun .continueReady, _
  | .settling .continueReady, _ | .continued, _ | .flushing _, _ => True

/-- A connection in the ReadyQueue keeps its mark everywhere. -/
theorem Point.keepsMark_of_queued (p : Point) (h : c.inReadyQueue = true) : p.keepsMark c := by
  induction p with
  | rest => exact fun _ => .inl h
  | resumed => exact fun hno => absurd h hno
  | reading | received => exact fun _ => h
  | headers caller | parsing caller | bodyBegun caller | settling caller =>
    cases caller
    · exact fun _ => h
    · trivial
  | answering back _ ih => exact ih
  | continued | flushing => trivial

/-- So does one without a mark. -/
theorem Point.keepsMark_of_unmarked (p : Point) (h : c.readyForRead = false) : p.keepsMark c := by
  have hno : ¬ c.readyForRead = true := by simp [h]
  induction p with
  | rest => exact fun hr => absurd hr hno
  | resumed => exact fun _ hs => hno hs.1
  | reading | received => exact fun hr => absurd hr hno
  | headers caller | parsing caller | bodyBegun caller | settling caller =>
    cases caller
    · exact fun hr => absurd hr hno
    · trivial
  | answering back _ ih => exact ih
  | continued | flushing => trivial

/-- Other changes of the connection than these do no harm to the mark. -/
theorem Point.keepsMark_change (hr : c'.readyForRead = c.readyForRead)
    (hq : c'.inReadyQueue = c.inReadyQueue) (hout : c.outputBuffer ≠ [] → c'.outputBuffer ≠ [])
    (hw : c.waitingForRequestBody = false → c'.waitingForRequestBody = false)
    (h : p.keepsMark c) : p.keepsMark c' := by
  induction p with
  | rest =>
    intro hmark
    rw [hr] at hmark
    rw [hq]
    exact (h hmark).imp_right hout
  | resumed =>
    intro hno hs
    rw [hq] at hno
    refine h hno ⟨hr ▸ hs.1, ?_, ?_⟩
    · by_contra hne
      exact hout hne hs.2.1
    · by_contra hne
      simpa [hs.2.2] using hw (by simpa using hne)
  | reading | received =>
    intro hmark
    rw [hr] at hmark
    exact hq.trans (h hmark)
  | headers caller | parsing caller | bodyBegun caller | settling caller =>
    cases caller
    · intro hmark
      rw [hr] at hmark
      exact hq.trans (h hmark)
    · trivial
  | answering back _ ih => exact ih h
  | continued | flushing => trivial

/-- A flush that leaves something behind keeps the mark where it was called. -/
theorem Point.Returns.keepsMark_flushing {back : Point} (h : (Point.flushing back).Returns)
    (hout : c.outputBuffer ≠ []) : back.keepsMark c := by
  rcases h with rfl | rfl
  · exact fun _ => .inr hout
  · exact fun _ hs => hout hs.2.1

theorem Point.keepsMark_bodyBack {back : Point} (hp : bodyBack p = some back)
    (h : p.keepsMark c) : back.keepsMark c := by
  cases p with
  | received | resumed =>
    cases hp
    exact h
  | bodyBegun caller =>
    cases hp
    cases caller
    · exact h
    · trivial
  | _ => cases hp

theorem Caller.keepsMark_back {caller : Caller} (h : (Point.settling caller).keepsMark c) :
    caller.back.keepsMark c := by
  cases caller
  · exact h
  · trivial

/-- Inside a handler call no step loses a mark. -/
theorem Step.keepsMark (hret : p.Returns) (h : p.keepsMark c)
    (hs : Step fd H p c events nodes p' c') (hallow : p.allows c p') : p'.keepsMark c' := by
  cases hs
  case resume => exact absurd rfl hallow
  case beginRead hout hidle => exact fun hr => (h hr).resolve_right (not_not.mpr hout)
  case pause hpause =>
    intro hr
    by_contra hno
    simp only [not_or, not_not] at hno
    exact h hno.1 ⟨hr, hno.2, hpause.resolve_left (not_not.mpr hno.2)⟩
  case continueDone hdone =>
    exact fun hr => .inr (hdone.resolve_right (by simp [hr]))
  case continueRead => exact fun hr => absurd hr Bool.false_ne_true
  case flushBlocked hout _ | flushPaused hout => exact hret.keepsMark_flushing hout
  case drainQueued | settleQueued | readExhausted => exact Point.keepsMark_of_queued _ rfl
  case drainIdle hr _ _ | drainStop hr _ _ => exact Point.keepsMark_of_unmarked _ hr
  case readNothing => exact fun hr => .inl (h hr)
  case bodyPart hw hpart hp =>
    exact Point.keepsMark_change (c := c) rfl rfl id id (Point.keepsMark_bodyBack hp h)
  case bodyDone back hp hw hdone =>
    have hback : back.keepsMark c := Point.keepsMark_bodyBack hp h
    exact Point.keepsMark_change (p := back) (c := c) rfl rfl id (fun _ => rfl) hback
  case appendResponse hok hout =>
    exact Point.keepsMark_change (p := p') (c := c) rfl rfl
      (fun _ => List.append_ne_nil_of_left_ne_nil hout _) id h
  case storeResponse howed hok hout =>
    exact Point.keepsMark_change (p := p') (c := c) rfl rfl (fun _ => howed) id h
  case settleWaiting | settlePass => exact Caller.keepsMark_back h
  case settleIdle hr | settleHeader hr => exact Point.keepsMark_of_unmarked _ hr
  case pop | request | beginBody | loopEnd =>
    rename Caller => caller
    cases caller
    · exact h
    · trivial
  all_goals trivial

/-- **Marks.**  A handler call keeps the mark if it could do so where it began. -/
theorem Path.keepsMark {p₀ : Point} {c₀ : ClientConnection} {E : List Event}
    (h : Path fd H p₀ c₀ p c E) (hret : p₀.Returns) (h0 : p₀.keepsMark c₀) : p.keepsMark c := by
  have hboth : p.Returns ∧ p.keepsMark c := by
    refine Path.invariant (I := fun p c _ => p.Returns ∧ p.keepsMark c) ⟨hret, h0⟩ ?_ h
    intro p p' c c' E events nodes _ hI hs hallow
    exact ⟨hs.returns hI.1, hs.keepsMark hI.1 hI.2 hallow⟩
  exact hboth.2

/-! ## Requests that see the mark -/

def readerOf : Event → List ClientConnection
  | .read c _ => [c]
  | _ => []

/-- The connection as it was at every `read()`. -/
def readers (H : List Event) : List ClientConnection := H.flatMap readerOf

def settledOf : Event → List ClientConnection
  | .settled c => [c]
  | _ => []

/-- The connection as it was when the end of `ProcessBufferedHeaders` looked at the mark. -/
def settlings (H : List Event) : List ClientConnection := H.flatMap settledOf

@[simp] theorem readers_append (H H' : List Event) : readers (H ++ H') = readers H ++ readers H' :=
  List.flatMap_append

@[simp] theorem settlings_append (H H' : List Event) :
    settlings (H ++ H') = settlings H ++ settlings H' := List.flatMap_append

theorem settlings_cons (e : Event) (H : List Event) :
    settlings (e :: H) = settledOf e ++ settlings H := List.flatMap_cons

/-- A request that is taken here will find no mark; after the header loop the mark is cleared
before the next `read()`. -/
def Point.marksCleared : Point → ClientConnection → Prop
  | .resumed, c => c.readyForRead = true → c.inputBuffer.hasCompleteHeader = false
  | .received, c | .headers _, c | .parsing .., c | .bodyBegun _, c | .settling _, c =>
    c.readyForRead = false
  | .flushing back, c | .answering back _, c => back.marksCleared c
  | .rest, _ | .continued, _ | .reading, _ => True

theorem Step.settlings_eq (h : Step fd H p c events nodes p' c') :
    settlings events = [] ∨ settlings events = [c] ∧ ∃ caller, p = .settling caller := by
  cases h
  case settleWaiting | settleQueued | settleIdle | settleHeader | settlePass =>
    exact .inr ⟨rfl, _, rfl⟩
  case flushed | flushBlocked | sendResponse =>
    exact .inl (flatMap_responseWrites (fun _ _ _ _ _ => rfl) ..)
  all_goals exact .inl rfl

theorem End.settlings_eq (h : End fd p c events) :
    settlings events = [] ∨ settlings events = [c] ∧ ∃ caller, p = .settling caller := by
  have hrefusal (code : Nat) (script : List WriteResult) :
      settlings (refusal fd c code script) = [] := flatMap_refusal (fun _ _ _ _ _ => rfl) ..
  cases h
  case allHandled => exact .inr ⟨rfl, _, rfl⟩
  case flushFailed | sendFailed =>
    left
    rw [settlings_append, settlings, flatMap_responseWrites (fun _ _ _ _ _ => rfl)]
    rfl
  case headerRefused | bodyRefused => exact .inl (hrefusal ..)
  case recvRefused =>
    left
    rw [settlings_append, hrefusal]
    rfl
  case limitExceeded | answerRefused =>
    left
    rw [settlings_cons, hrefusal]
    rfl
  all_goals exact .inl rfl

theorem Point.marksCleared.settlings (h : p.marksCleared c)
    (hs : settlings events = [] ∨ settlings events = [c] ∧ ∃ caller, p = .settling caller) :
    ∀ d ∈ settlings events, d.readyForRead = false := by
  intro d hd
  rcases hs with hnone | ⟨hone, caller, rfl⟩
  · rw [hnone] at hd
    cases hd
  · rw [hone] at hd
    obtain rfl := List.mem_singleton.mp hd
    exact h

/-- Other changes of the connection than these do not show the mark to a request. -/
theorem Point.marksCleared_change (hr : c'.readyForRead = c.readyForRead)
    (hin : c'.inputBuffer = c.inputBuffer) (h : p.marksCleared c) : p.marksCleared c' := by
  induction p with
  | resumed =>
    intro hmark
    rw [hin]
    exact h (hr.symm.trans hmark)
  | received | headers | parsing | bodyBegun | settling => exact hr.trans h
  | flushing back ih | answering back _ ih => exact ih h
  | rest | continued | reading => trivial

theorem Caller.marksCleared_back (caller : Caller) (c : ClientConnection) :
    caller.back.marksCleared c := by
  cases caller <;> trivial

/-- A body whose bytes are all taken leaves nothing behind it in an empty buffer. -/
theorem Point.marksCleared_bodyBack {back : Point} (hbody : BodyPhase p c)
    (hw : c.waitingForRequestBody = true) (hp : bodyBack p = some back) (h : p.marksCleared c) :
    back.marksCleared (takeBody c) := by
  cases p with
  | received =>
    cases hp
    trivial
  | bodyBegun caller =>
    cases hp
    exact h
  | resumed =>
    cases hp
    obtain ⟨hempty, -⟩ := (hbody.consumed hw).resolve_left Bool.false_ne_true
    intro _
    exact DynamicBuffer.hasCompleteHeader_of_empty (by simp [takeBody, hempty])
  | _ => cases hp

/-- A step that reads from no marked connection keeps requests from seeing the mark. -/
theorem Step.marksCleared (hbody : BodyPhase p c) (h : p.marksCleared c)
    (hs : Step fd H p c events nodes p' c') (hallow : p.allows c p')
    (hread : ∀ d ∈ readers events, d.readyForRead = false) : p'.marksCleared c' := by
  cases hs
  case resume => exact absurd rfl hallow
  case resumeHeaders hh =>
    by_contra hmark
    have hnone := h (by simpa [Point.marksCleared] using hmark)
    simp [hh] at hnone
  case flushBegin hp hout => rcases hp with rfl | rfl <;> exact h
  case flushed | drainQueued | drainIdle | appendResponse | storeResponse =>
    exact Point.marksCleared_change (c := c) rfl rfl h
  case flushBlocked | flushPaused | drainStop | sendResponse | sentResponse => exact h
  case recv => exact hread c List.mem_cons_self
  case bodyPart hw _ hp => exact Point.marksCleared_bodyBack hbody hw hp h
  case bodyDone back hp hw hdone =>
    have hback : back.marksCleared (takeBody c) := Point.marksCleared_bodyBack hbody hw hp h
    exact Point.marksCleared_change (p := back) (c := takeBody c) rfl rfl hback
  case limitOk | pop | loopEnd | request | beginBody => exact h
  case settleWaiting | settleIdle | settleHeader | settlePass => exact Caller.marksCleared_back _ _
  all_goals trivial

/-- In a handler call that reads from no marked connection, no request sees the mark. -/
theorem Path.marksCleared {p₀ : Point} {c₀ : ClientConnection} {E : List Event}
    (hrun : Run fd id p₀ c₀ H N) (h : Path fd H p₀ c₀ p c E) (h0 : p₀.marksCleared c₀)
    (hread : ∀ d ∈ readers E, d.readyForRead = false) :
    p.marksCleared c ∧ ∀ d ∈ settlings E, d.readyForRead = false := by
  refine Path.invariant (I := fun p c E => (∀ d ∈ readers E, d.readyForRead = false) →
    p.marksCleared c ∧ ∀ d ∈ settlings E, d.readyForRead = false)
      (fun _ => ⟨h0, fun _ hd => absurd hd List.not_mem_nil⟩) ?_ h hread
  intro p p' c c' E events nodes hpath hI hs hallow hread
  rw [readers_append] at hread
  obtain ⟨N', hrun'⟩ := hpath.run hrun
  obtain ⟨hcleared, hsettled⟩ := hI fun d hd => hread d (List.mem_append_left _ hd)
  refine ⟨hs.marksCleared hrun'.bodyPhase hcleared hallow
    fun d hd => hread d (List.mem_append_right _ hd), fun d hd => ?_⟩
  rw [settlings_append] at hd
  exact (List.mem_append.mp hd).elim (hsettled d) (hcleared.settlings hs.settlings_eq d)

theorem Course.marksCleared {p₀ : Point} {c₀ : ClientConnection} {after : Option ClientConnection}
    {E : List Event} {H : Nat → List Event} (hrun : Run fd id p₀ c₀ (H c₀.connectionId) N)
    (h : Course fd H p₀ (some c₀) p after E) (h0 : p₀.marksCleared c₀)
    (hread : ∀ d ∈ readers E, d.readyForRead = false) :
    ∀ d ∈ settlings E, d.readyForRead = false := by
  cases h with
  | live hpath => exact (hpath.marksCleared hrun h0 hread).2
  | ended hpath hend =>
    rw [readers_append] at hread
    obtain ⟨hcleared, hsettled⟩ :=
      hpath.marksCleared hrun h0 fun d hd => hread d (List.mem_append_left _ hd)
    intro d hd
    rw [settlings_append] at hd
    exact (List.mem_append.mp hd).elim (hsettled d) (hcleared.settlings hend.settlings_eq d)

end WebServer.Life
