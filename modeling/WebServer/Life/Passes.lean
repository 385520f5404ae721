import WebServer.Life.Framing
import WebServer.Life.Path

/-!
# Passes over the input buffer

One handler call goes over the input buffer once for every `read()` that returns bytes, and
`ContinueReadyConnection` once more before it reads.  A pass either runs the header loop or takes
bytes of a body.
-/

namespace WebServer.Life

open WebServer.Net WebServer.Http WebServer.Core

variable {fd : Fd} {id : Nat} {p p' p₀ : Point} {c c' c₀ : ClientConnection} {H E : List Event}
  {events : List Event} {N nodes : List TimerEntry}

/-! ## Chunks -/

/-- The chunks that `read()` has returned. -/
def chunks (H : List Event) : List Bytes := (H.map bytesRead).filter (· ≠ [])

theorem chunks_append (H H' : List Event) : chunks (H ++ H') = chunks H ++ chunks H' := by
  rw [chunks, List.map_append, List.filter_append]
  rfl

theorem flatten_chunks (H : List Event) : (chunks H).flatten = received H := by
  induction H with
  | nil => rfl
  | cons e H ih =>
    rw [received_cons, ← ih]
    cases he : bytesRead e with
    | nil => simp [chunks, he]
    | cons b data => simp [chunks, he]

theorem chunks_eq_nil (h : received H = []) : chunks H = [] := by
  refine List.filter_eq_nil_iff.mpr fun data hdata => ?_
  obtain ⟨e, he, rfl⟩ := List.mem_map.mp hdata
  have := List.flatMap_eq_nil_iff.mp h e he
  simp [this]

def burstStep (k : Nat) : Event → Nat
  | .popped .. => k + 1
  | .read _ (.got (_ :: _)) => 0
  | _ => k

/-- The header blocks taken since the last bytes were read, when there were `k` before. -/
def burst (k : Nat) (events : List Event) : Nat := events.foldl burstStep k

theorem burst_append (k : Nat) (H H' : List Event) :
    burst k (H ++ H') = burst (burst k H) H' := List.foldl_append

/-- Where no bytes are read, all header blocks count. -/
theorem burst_quiet (k : Nat) (h : received E = []) :
    burst k E = k + (poppedHeaders E).length := by
  induction E generalizing k with
  | nil => rfl
  | cons e E ih =>
    rw [received_cons, List.append_eq_nil_iff] at h
    rw [poppedHeaders_cons, List.length_append]
    show burst (burstStep k e) E = _
    rw [ih _ h.2, ← Nat.add_assoc]
    congr 1
    cases e with
    | read c answer =>
      cases answer with
      | got data =>
        cases data with
        | nil => rfl
        | cons b data => cases h.1
      | failed errno => rfl
    | _ => rfl

/-! ## Answers and header blocks -/

/-- The header blocks that have been taken and not been answered yet. -/
def unanswered (p : Point) (c : ClientConnection) : Nat :=
  (if p.isParsing then 1 else 0) + (if c.waitingForRequestBody then 1 else 0)

theorem unanswered_of_not_parsing (hp : p.isParsing = false) (c : ClientConnection) :
    unanswered p c = if c.waitingForRequestBody then 1 else 0 := by
  rw [unanswered, hp, if_neg Bool.false_ne_true, Nat.zero_add]

/-- Every header block is answered at most once. -/
theorem Advance.unanswered {data : Bytes} {taken : List Decision} {popped : List Bytes}
    (hbody : BodyPhase p c) (h : Advance p c data taken popped p' c') :
    taken.length + unanswered p' c' = popped.length + unanswered p c := by
  cases h with
  | idle hp hp' h =>
    rw [unanswered_of_not_parsing hp, unanswered_of_not_parsing hp', h.waiting]
    rfl
  | recv data => rfl
  | pop headerEnd he =>
    have hw : c.waitingForRequestBody = false := hbody.noBody rfl
    simp [Life.unanswered, Point.isParsing, hw]
  | request r keepAlive hr hs hb =>
    have hw : c.waitingForRequestBody = false := hbody.noBody rfl
    simp [Life.unanswered, Point.isParsing, hw, ClientConnection.respond]
  | beginBody r hr hs =>
    have hw : c.waitingForRequestBody = false := hbody.noBody rfl
    simp [Life.unanswered, Point.isParsing, hw, rearm, ClientConnection.beginBody]
  | bodyPart hp hw h =>
    obtain ⟨hp, hp'⟩ := bodyBack_isParsing hp
    rw [unanswered_of_not_parsing hp, unanswered_of_not_parsing hp']
    rfl
  | bodyDone keepAlive hp hw h =>
    rw [unanswered_of_not_parsing (bodyBack_isParsing hp).1, unanswered_of_not_parsing rfl, hw]
    simp [ClientConnection.respond, ClientConnection.finishBody]

/-- All the way along a path, header blocks are answered or wait for an answer. -/
theorem Path.unanswered (hrun : Run fd id p₀ c₀ H N) (h : Path fd H p₀ c₀ p c E) :
    (decisions E).length + unanswered p c = (poppedHeaders E).length + unanswered p₀ c₀ := by
  induction h with
  | start => rfl
  | step hpath hs hallow ih =>
    obtain ⟨N', hrun'⟩ := hpath.run hrun
    have hstep := (hs.advance hrun'.returns).unanswered hrun'.bodyPhase
    rw [decisions_append, poppedHeaders_append, List.length_append, List.length_append]
    omega

/-- What is ahead of a path takes in what is read on it and gives out what is decided. -/
theorem Path.framed (hrun : Run fd id p₀ c₀ H N) (h : Path fd H p₀ c₀ p c E) (more : Bytes) :
    ahead p₀ c₀ (received E ++ more) = decisions E ++ ahead p c more := by
  obtain ⟨N', hrun'⟩ := h.run hrun
  have hstart := hrun.framed (received E ++ more)
  have hend := hrun'.framed more
  rw [received_append, decisions_append, List.append_assoc, List.append_assoc, hstart] at hend
  exact List.append_cancel_left hend

/-! ## One pass -/

/-- The points of the header loop. -/
def Point.inLoop : Point → Bool
  | .headers _ => true
  | .parsing .. => true
  | .bodyBegun _ => true
  | .settling _ => true
  | _ => false

/-- A complete header is left to the ReadyQueue. -/
def Settled (c : ClientConnection) : Prop :=
  c.inputBuffer.hasCompleteHeader = true → c.waitingForRequestBody = false → c.inReadyQueue = true

/-- What one pass has done to the connection `c₀`: either it took bytes of a body, of which at
most one request came, or no body was pending and it went through the header loop. -/
def InPass (c₀ : ClientConnection) (p : Point) (c : ClientConnection) (E : List Event) : Prop :=
  match p with
  | .received => decisions E = [] ∧ c.waitingForRequestBody = c₀.waitingForRequestBody
  | .resumed | .flushing .resumed => decisions E = [] ∧ c.waitingForRequestBody = false ∧
      c₀.waitingForRequestBody = false
  | .answering back _ => c₀.waitingForRequestBody = false ∧ back.inLoop = true ∨
      back = .reading ∧ (decisions E).length ≤ 1
  | .rest | .reading | .continued | .flushing .rest => (decisions E).length ≤ 1 ∨
      c₀.waitingForRequestBody = false ∧ Settled c
  | .flushing _ => False
  | .headers _ | .parsing .. | .bodyBegun _ | .settling _ => c₀.waitingForRequestBody = false

theorem InPass.of_inLoop (hp : p.inLoop = true) (h : c₀.waitingForRequestBody = false) :
    InPass c₀ p c E := by
  cases p <;> first | exact h | cases hp

theorem InPass.of_settled (caller : Caller) (h : c₀.waitingForRequestBody = false)
    (hc : Settled c) : InPass c₀ caller.back c E := by
  cases caller <;> exact .inr ⟨h, hc⟩

/-- A step between two points outside of the header loop that decides nothing. -/
theorem InPass.idle (hd : decisions events = []) (hin : c'.inputBuffer = c.inputBuffer)
    (hw : c'.waitingForRequestBody = c.waitingForRequestBody)
    (hq : c.inReadyQueue = true → c'.inReadyQueue = true)
    (h : (decisions E).length ≤ 1 ∨ c₀.waitingForRequestBody = false ∧ Settled c) :
    (decisions (E ++ events)).length ≤ 1 ∨ c₀.waitingForRequestBody = false ∧ Settled c' := by
  rw [decisions_append, hd, List.append_nil]
  refine h.imp id fun ⟨h₀, hc⟩ => ⟨h₀, fun hh hw' => hq (hc ?_ (hw.symm.trans hw'))⟩
  rw [← hin]
  exact hh

theorem InPass.undecided (h : decisions E = []) :
    (decisions (E ++ [])).length ≤ 1 ∨ c₀.waitingForRequestBody = false ∧ Settled c := by
  rw [List.append_nil, h]
  exact .inl (Nat.zero_le 1)

/-- A step of a flush. -/
theorem InPass.flush (hp' : p' = p ∨ p' = .flushing p) (hd : decisions events = [])
    (hin : c'.inputBuffer = c.inputBuffer)
    (hw : c'.waitingForRequestBody = c.waitingForRequestBody)
    (hq : c.inReadyQueue = true → c'.inReadyQueue = true) (h : InPass c₀ (.flushing p) c E) :
    InPass c₀ p' c' (E ++ events) := by
  cases p with
  | rest => rcases hp' with rfl | rfl <;> exact InPass.idle hd hin hw hq h
  | resumed =>
    obtain ⟨hE, hw₁, h₀⟩ := h
    have hresumed : decisions (E ++ events) = [] ∧ c'.waitingForRequestBody = false ∧
        c₀.waitingForRequestBody = false := by
      rw [decisions_append, hE, hd]
      exact ⟨rfl, hw.trans hw₁, h₀⟩
    rcases hp' with rfl | rfl <;> exact hresumed
  | _ => exact False.elim h

/-- A step of an answer. -/
theorem InPass.answer {back : Point} {owed : Bytes} (hd : decisions events = [])
    (h : InPass c₀ (.answering back owed) c E) : InPass c₀ back c' (E ++ events) := by
  rcases h with ⟨h₀, hback⟩ | ⟨rfl, hE⟩
  · exact .of_inLoop hback h₀
  · exact .inl (by rwa [decisions_append, hd, List.append_nil])

theorem InPass.step (hquiet : received events = []) (hI : InPass c₀ p c E)
    (hs : Step fd (H ++ E) p c events nodes p' c') (hallow : p.allows c p') :
    InPass c₀ p' c' (E ++ events) := by
  cases hs
  case resume => exact absurd rfl hallow
  case idleToHeader | beginRead | continueDone | continueRead | readAgain | readNothing =>
    exact InPass.idle rfl rfl rfl id hI
  case readExhausted => exact InPass.idle (c := c) rfl rfl rfl (fun _ => rfl) hI
  case pause => exact InPass.undecided hI.1
  case resumeHeaders => exact hI.2.2
  case resumeNothing => exact InPass.undecided hI.1
  case flushBegin hp hout =>
    rcases hp with rfl | rfl
    · exact InPass.idle rfl rfl rfl id hI
    · exact ⟨by rw [List.append_nil, hI.1], hI.2⟩
  case flushed => exact hI.flush (.inr rfl) (decisions_responseWrites ..) rfl rfl id
  case flushBlocked => exact hI.flush (.inl rfl) (decisions_responseWrites ..) rfl rfl id
  case flushPaused | drainIdle | drainStop => exact hI.flush (.inl rfl) rfl rfl rfl id
  case drainQueued => exact InPass.flush (c := c) (.inl rfl) rfl rfl rfl (fun _ => rfl) hI
  case recv data inflight hd hlen hok => exact absurd hquiet (by simpa [received, bytesRead] using hd)
  case limitOk hw h => exact hI.2.symm.trans hw
  case bodyPart hw h hp =>
    cases p <;> cases hp
    · exact absurd (hI.2.1.symm.trans hw) Bool.false_ne_true
    · exact InPass.undecided hI.1
    · exact hI
  case bodyDone hp hw h =>
    cases p <;> cases hp
    · exact absurd (hI.2.1.symm.trans hw) Bool.false_ne_true
    · exact .inr ⟨rfl, by rw [decisions_append, hI.1]; exact Nat.le_refl 1⟩
    · exact .inl ⟨hI, rfl⟩
  case pop => exact hI
  case loopEnd => exact hI
  case request => exact .inl ⟨hI, rfl⟩
  case beginBody => exact hI
  case settleWaiting hw => exact .of_settled _ hI fun _ hw' => absurd (hw.symm.trans hw') (by simp)
  case settleQueued => exact .inr ⟨hI, fun _ _ => rfl⟩
  case settleIdle hw hin hout hcl hr =>
    have hh := DynamicBuffer.hasCompleteHeader_of_empty hin
    exact .of_settled _ hI fun hh' _ => absurd (hh.symm.trans hh') Bool.false_ne_true
  case settleHeader hh _ _ _ _ =>
    exact .of_settled _ hI fun hh' _ => absurd (hh.symm.trans hh') Bool.false_ne_true
  case settlePass hh _ => exact .of_settled _ hI fun hh' _ => absurd (hh.symm.trans hh') Bool.false_ne_true
  case appendResponse | sentResponse | storeResponse => exact hI.answer rfl
  case sendResponse =>
    exact hI.imp id (And.imp id fun h => by
      rwa [decisions_append, decisions_responseWrites, List.append_nil])

/-! ## Paths -/

theorem InPass.path (h0 : InPass c₀ p₀ c₀ []) (hquiet : received E = [])
    (h : Path fd H p₀ c₀ p c E) : InPass c₀ p c E := by
  induction h with
  | start => exact h0
  | step hpath hs hallow ih =>
    rw [received_append, List.append_eq_nil_iff] at hquiet
    exact (ih hquiet.1).step hquiet.2 hs hallow

/-- A pass that takes bytes of a body answers at most one request. -/
theorem InPass.answers_le (h : InPass c₀ p c E) :
    (decisions E).length ≤ 1 ∨ c₀.waitingForRequestBody = false := by
  have hnil (h : decisions E = []) : (decisions E).length ≤ 1 := by
    rw [h]
    exact Nat.zero_le 1
  unfold InPass at h
  split at h
  · exact .inl (hnil h.1)
  · exact .inl (hnil h.1)
  · exact .inl (hnil h.1)
  · exact h.symm.imp And.right And.left
  · exact h.imp_right And.left
  · exact h.imp_right And.left
  · exact h.imp_right And.left
  · exact h.imp_right And.left
  · exact h.elim
  · exact .inr h
  · exact .inr h
  · exact .inr h
  · exact .inr h

/-- The points at which a pass over the input buffer begins. -/
def StartsPass (p : Point) (c : ClientConnection) : Prop :=
  p = .received ∨ p = .resumed ∧ c.waitingForRequestBody = false

theorem StartsPass.inPass (h : StartsPass p c) : InPass c p c [] := by
  rcases h with rfl | ⟨rfl, hw⟩
  · exact ⟨rfl, rfl⟩
  · exact ⟨rfl, hw, hw⟩

/-- One pass answers no more requests than it may take header blocks, and leaves the next one to
the ReadyQueue. -/
theorem Path.pass {n : Nat} (hn : 1 ≤ n) (hrun : Run fd id p₀ c₀ H N) (h0 : StartsPass p₀ c₀)
    (h : Path fd H p₀ c₀ p c E) (hquiet : received E = []) (hpops : (poppedHeaders E).length ≤ n) :
    (decisions E).length ≤ n ∧ (p = .rest → 1 < (decisions E).length → Settled c) := by
  have hpass := h0.inPass.path hquiet h
  have hcount := h.unanswered hrun
  constructor
  · rcases hpass.answers_le with hle | hw
    · exact hle.trans hn
    · have hstart : Life.unanswered p₀ c₀ = 0 := by
        rcases h0 with rfl | ⟨rfl, -⟩ <;> simp [Life.unanswered, Point.isParsing, hw]
      omega
  · rintro rfl hlt
    have hrest : (decisions E).length ≤ 1 ∨ c₀.waitingForRequestBody = false ∧ Settled c := hpass
    exact (hrest.resolve_left (Nat.not_le_of_lt hlt)).2

/-- Without bytes `HandleClientEvent` answers nothing. -/
theorem Path.quiet_rest (hquiet : received E = []) (h : Path fd H .rest c₀ p c E) :
    decisions E = [] ∧ (p = .rest ∨ p = .reading ∨ p = .flushing .rest) := by
  induction h with
  | start => exact ⟨rfl, .inl rfl⟩
  | step hpath hs hallow ih =>
    rw [received_append, List.append_eq_nil_iff] at hquiet
    obtain ⟨hE, hp⟩ := ih hquiet.1
    rw [decisions_append, hE, List.nil_append]
    rcases hp with rfl | rfl | rfl
    · cases hs
      case resume => exact absurd rfl hallow
      case idleToHeader => exact ⟨rfl, .inl rfl⟩
      case beginRead => exact ⟨rfl, .inr (.inl rfl)⟩
      case flushBegin => exact ⟨rfl, .inr (.inr rfl)⟩
      case bodyPart hp => cases hp
      case bodyDone hp _ _ => cases hp
    · cases hs
      case readAgain => exact ⟨rfl, .inr (.inl rfl)⟩
      case readNothing | readExhausted => exact ⟨rfl, .inl rfl⟩
      case recv data inflight hd hlen hok =>
        exact absurd hquiet.2 (by simpa [received, bytesRead] using hd)
      case flushBegin hp _ => rcases hp with hp | hp <;> cases hp
      case bodyPart hp => cases hp
      case bodyDone hp _ _ => cases hp
    · cases hs
      case flushed => exact ⟨decisions_responseWrites .., .inr (.inr rfl)⟩
      case flushBlocked => exact ⟨decisions_responseWrites .., .inl rfl⟩
      case flushPaused | drainQueued | drainIdle | drainStop => exact ⟨rfl, .inl rfl⟩
      case flushBegin hp _ => rcases hp with hp | hp <;> cases hp
      case bodyPart hp => cases hp
      case bodyDone hp _ _ => cases hp

/-! ## The last pass -/

/-- The events with which bytes are read into the buffer. -/
def recvEvents (c : ClientConnection) (data : Bytes) (inflight : Nat) : List Event :=
  [.read c (.got data), .reserved (some c) .inputAppend data.length inflight]

/-- The path has a last `read()` that returned bytes. -/
def LastRead (fd : Fd) (H : List Event) (p₀ : Point) (c₀ : ClientConnection) (p : Point)
    (c : ClientConnection) (E : List Event) : Prop :=
  ∃ c₁ data inflight E₁ E₂, data ≠ [] ∧ E = E₁ ++ recvEvents c₁ data inflight ++ E₂ ∧
    Path fd H p₀ c₀ .reading c₁ E₁ ∧
    Path fd H p₀ c₀ .received { c₁ with inputBuffer := c₁.inputBuffer.append data }
      (E₁ ++ recvEvents c₁ data inflight) ∧
    Path fd (H ++ (E₁ ++ recvEvents c₁ data inflight)) .received
      { c₁ with inputBuffer := c₁.inputBuffer.append data } p c E₂ ∧ received E₂ = []

theorem Path.lastRead (h : Path fd H p₀ c₀ p c E) :
    received E = [] ∨ LastRead fd H p₀ c₀ p c E := by
  induction h with
  | start => exact .inl rfl
  | @step p p' c c' E events nodes hpath hs hallow ih =>
    by_cases hquiet : received events = []
    · rcases ih with hE | ⟨c₁, data, inflight, E₁, E₂, hd, hE, hread, hrecv, hrest, hE₂⟩
      · exact .inl (by rw [received_append, hE, hquiet]; rfl)
      · refine .inr ⟨c₁, data, inflight, E₁, E₂ ++ events, hd, ?_, hread, hrecv, ?_, ?_⟩
        · rw [hE, List.append_assoc]
        · rw [hE, ← List.append_assoc] at hs
          exact hrest.step hs hallow
        · rw [received_append, hE₂, hquiet]
          rfl
    · cases hs
      case recv data inflight hd hlen hok =>
        have hrecv := hpath.step (.recv data inflight hd hlen hok) hallow
        refine .inr ⟨c, data, inflight, E, [], hd, ?_, hpath, hrecv, .start, rfl⟩
        rw [List.append_nil]
        rfl
      case flushed | flushBlocked | sendResponse =>
        exact absurd (received_responseWrites ..) hquiet
      all_goals exact absurd rfl hquiet

def answers (ds : List Decision) : Nat := ds.countP isAnswer

theorem answers_append (ds ds' : List Decision) :
    answers (ds ++ ds') = answers ds + answers ds' := List.countP_append

theorem answers_le (ds : List Decision) : answers ds ≤ ds.length := List.countP_le_length

/-- What the passes of one handler call find in the input buffer that was not there before. -/
def passes (p₀ : Point) (E : List Event) : List Bytes :=
  (if p₀ = .resumed then [[]] else []) ++ chunks E

theorem flatten_passes (p₀ : Point) (E : List Event) : (passes p₀ E).flatten = received E := by
  unfold passes
  split <;> simp [flatten_chunks]

theorem passes_append (p₀ : Point) (E E' : List Event) :
    passes p₀ (E ++ E') = passes p₀ E ++ chunks E' := by
  rw [passes, chunks_append, ← List.append_assoc, passes]

/-- The requests answered in the last pass of a handler call, and before it. -/
structure Passed (n : Nat) (p₀ : Point) (c₀ : ClientConnection) (E : List Event) (settled : Prop)
    (before last : Nat) : Prop where
  total : answers (decisions E) = before + last
  last_le : last ≤ n
  queued : 1 < last → settled
  before_le : before ≤ answers (ahead p₀ c₀ (passes p₀ E).dropLast.flatten)
  single : (passes p₀ E).length ≤ 1 → before = 0

theorem Path.answers_le (hrun : Run fd id p₀ c₀ H N) (h : Path fd H p₀ c₀ p c E) (more : Bytes) :
    answers (decisions E) ≤ answers (ahead p₀ c₀ (received E ++ more)) := by
  rw [h.framed hrun, answers_append]
  exact Nat.le_add_right ..

/-- Nothing is ahead of a connection at rest that waits for a body. -/
theorem BodyPhase.ahead_eq_nil (hbody : BodyPhase p c) (hp : p.isParsing = false)
    (hmid : p.midBody = false) (hw : c.waitingForRequestBody = true) : ahead p c [] = [] := by
  obtain ⟨hin, hrem⟩ := (hbody.consumed hw).resolve_left (by simp [hmid])
  rw [ahead_of_not_parsing hp, if_pos hw, hin]
  exact if_pos hrem

theorem Path.passed_quiet {n : Nat} (hn : 1 ≤ n) (hrun : Run fd id p₀ c₀ H N)
    (hp₀ : p₀ = .rest ∨ p₀ = .resumed) (h : Path fd H p₀ c₀ p c E) (hquiet : received E = [])
    (hburst : burst 0 E ≤ n) :
    Passed n p₀ c₀ E (p = .rest → Settled c) 0 (answers (decisions E)) := by
  have hle : answers (decisions E) ≤ n ∧
      (1 < answers (decisions E) → p = .rest → Settled c) := by
    have hnone (h : answers (decisions E) = 0) : answers (decisions E) ≤ n ∧
        (1 < answers (decisions E) → p = .rest → Settled c) := by
      rw [h]
      exact ⟨Nat.zero_le n, fun hlt => absurd hlt (by decide)⟩
    rcases hp₀ with rfl | rfl
    · exact hnone (by rw [(h.quiet_rest hquiet).1]; rfl)
    · cases hw : c₀.waitingForRequestBody with
      | true =>
        have hahead := h.answers_le hrun []
        rw [hquiet, List.append_nil, hrun.bodyPhase.ahead_eq_nil rfl rfl hw] at hahead
        exact hnone (Nat.le_zero.mp hahead)
      | false =>
        rw [burst_quiet 0 hquiet, Nat.zero_add] at hburst
        obtain ⟨hlast, hsettled⟩ := h.pass hn hrun (.inr ⟨rfl, hw⟩) hquiet hburst
        have hanswers := Life.answers_le (decisions E)
        exact ⟨hanswers.trans hlast, fun hlt hp => hsettled hp (hlt.trans_le hanswers)⟩
  exact ⟨(Nat.zero_add _).symm, hle.1, hle.2, Nat.zero_le _, fun _ => rfl⟩

theorem burst_recvEvents (k : Nat) (c₁ : ClientConnection) {data : Bytes} (hd : data ≠ [])
    (inflight : Nat) : burst k (recvEvents c₁ data inflight) = 0 := by
  cases data with
  | nil => exact absurd rfl hd
  | cons b data => rfl

theorem chunks_recvEvents (c₁ : ClientConnection) {data : Bytes} (hd : data ≠ [])
    (inflight : Nat) : chunks (recvEvents c₁ data inflight) = [data] := by
  cases data with
  | nil => exact absurd rfl hd
  | cons b data => rfl

/-- Before the only pass nothing is answered. -/
theorem Path.answers_single (hp₀ : p₀ = .rest ∨ p₀ = .resumed) (h : Path fd H p₀ c₀ p c E)
    (hpasses : passes p₀ E = []) : answers (decisions E) = 0 := by
  have hreceived : received E = [] := by rw [← flatten_passes p₀, hpasses, List.flatten_nil]
  rcases hp₀ with rfl | rfl
  · rw [(h.quiet_rest hreceived).1]
    rfl
  · cases hpasses

theorem Path.passed {n : Nat} (hn : 1 ≤ n) (hrun : Run fd id p₀ c₀ H N)
    (hp₀ : p₀ = .rest ∨ p₀ = .resumed) (h : Path fd H p₀ c₀ p c E) (hburst : burst 0 E ≤ n) :
    ∃ before last, Passed n p₀ c₀ E (p = .rest → Settled c) before last := by
  rcases h.lastRead with hquiet | ⟨c₁, data, inflight, E₁, E₂, hd, rfl, hread, hrecv, hrest, hE₂⟩
  · exact ⟨0, _, h.passed_quiet hn hrun hp₀ hquiet hburst⟩
  · obtain ⟨N', hrun'⟩ := hrecv.run hrun
    rw [burst_append, burst_append, burst_recvEvents _ c₁ hd, burst_quiet 0 hE₂,
      Nat.zero_add] at hburst
    obtain ⟨hlast, hsettled⟩ := hrest.pass hn hrun' (.inl rfl) hE₂ hburst
    have hanswers := Life.answers_le (decisions E₂)
    have hpasses : passes p₀ (E₁ ++ recvEvents c₁ data inflight ++ E₂) = passes p₀ E₁ ++ [data] := by
      rw [passes_append, passes_append, chunks_recvEvents c₁ hd, chunks_eq_nil hE₂, List.append_nil]
    refine ⟨answers (decisions E₁), answers (decisions E₂), ?_, hanswers.trans hlast,
      fun hlt hp => hsettled hp (hlt.trans_le hanswers), ?_, fun hle => ?_⟩
    · rw [decisions_append, decisions_append, answers_append, answers_append]
      rfl
    · rw [hpasses, List.dropLast_concat, flatten_passes]
      have hle := hread.answers_le hrun []
      rwa [List.append_nil] at hle
    · rw [hpasses, List.length_append] at hle
      exact hread.answers_single hp₀ (List.length_eq_zero_iff.mp (by simpa using hle))

/-! ## Handler calls -/

theorem answers_refusal (c : ClientConnection) (statusCode : Nat) (script : List WriteResult) :
    answers (decisions (refusal fd c statusCode script)) = 0 := by
  rw [decisions_refusal]
  split <;> rfl

/-- The end of a connection answers nothing. -/
theorem End.answers_eq (h : End fd p c events) : answers (decisions events) = 0 := by
  cases h
  case flushFailed | sendFailed =>
    rw [decisions_append, decisions_responseWrites]
    rfl
  case recvRefused =>
    rw [decisions_append, answers_append, answers_refusal]
    rfl
  case limitExceeded | answerRefused =>
    rw [decisions_cons, answers_append, answers_refusal]
    rfl
  case headerRefused | bodyRefused => exact answers_refusal ..
  all_goals rfl

/-- The end of a connection reads bytes only where there is no room for them. -/
theorem End.chunks (h : End fd p c events) :
    received events = [] ∨ ∃ data, Life.chunks events = [data] := by
  cases h
  case flushFailed | sendFailed =>
    rw [received_append, received_responseWrites]
    exact .inl rfl
  case recvRefused data inflight script hd hover =>
    refine .inr ⟨data, ?_⟩
    rw [chunks_append, chunks_eq_nil (received_refusal ..), List.append_nil]
    exact chunks_recvEvents c hd inflight
  case limitExceeded | answerRefused =>
    rw [received_cons, received_refusal]
    exact .inl rfl
  case headerRefused | bodyRefused => exact .inl (received_refusal ..)
  all_goals exact .inl rfl

theorem Course.passed {n : Nat} {Hs : Nat → List Event} {after : Option ClientConnection}
    (hn : 1 ≤ n) (hrun : Run fd id p₀ c₀ (Hs c₀.connectionId) N) (hp₀ : p₀ = .rest ∨ p₀ = .resumed)
    (h : Course fd Hs p₀ (some c₀) .rest after E) (hburst : burst 0 E ≤ n) :
    ∃ before last, Passed n p₀ c₀ E (∀ c, after = some c → Settled c) before last := by
  cases h with
  | live hpath =>
    obtain ⟨before, last, hpassed⟩ := hpath.passed hn hrun hp₀ hburst
    refine ⟨before, last, { hpassed with queued := fun hlt c hc => ?_ }⟩
    cases hc
    exact hpassed.queued hlt rfl
  | @ended _ c p E events hpath he =>
    have hgone (P : ClientConnection → Prop) : ∀ c, none = some c → P c := fun c hc => by cases hc
    have htotal : answers (decisions (E ++ events)) = answers (decisions E) := by
      rw [decisions_append, answers_append, he.answers_eq, Nat.add_zero]
    rcases he.chunks with hquiet | ⟨data, hdata⟩
    · rw [burst_append, burst_quiet _ hquiet] at hburst
      obtain ⟨before, last, hpassed⟩ := hpath.passed hn hrun hp₀ (by omega)
      have hpasses : passes p₀ (E ++ events) = passes p₀ E := by
        rw [passes_append, chunks_eq_nil hquiet, List.append_nil]
      refine ⟨before, last, htotal.trans hpassed.total, hpassed.last_le, fun _ => hgone _, ?_, ?_⟩
      · rw [hpasses]
        exact hpassed.before_le
      · rw [hpasses]
        exact hpassed.single
    · have hpasses : passes p₀ (E ++ events) = passes p₀ E ++ [data] := by
        rw [passes_append, hdata]
      refine ⟨answers (decisions E), 0, htotal, Nat.zero_le n, fun _ => hgone _, ?_, fun hle => ?_⟩
      · rw [hpasses, List.dropLast_concat, flatten_passes]
        have hle := hpath.answers_le hrun []
        rwa [List.append_nil] at hle
      · rw [hpasses, List.length_append] at hle
        exact hpath.answers_single hp₀ (List.length_eq_zero_iff.mp (by simpa using hle))

/-- What a handler call answers and what can still be answered was complete in the buffer and
the bytes it has read. -/
theorem Course.answers_le {Hs : Nat → List Event} {after : Option ClientConnection}
    (hrun : Run fd id p₀ c₀ (Hs c₀.connectionId) N)
    (h : Course fd Hs p₀ (some c₀) .rest after E) :
    answers (decisions E) + after.elim 0 (fun c => answers (ahead .rest c [])) ≤
      answers (ahead p₀ c₀ (received E)) := by
  cases h with
  | live hpath =>
    have hframed := hpath.framed hrun []
    rw [List.append_nil] at hframed
    rw [hframed, answers_append]
    rfl
  | @ended _ c p E events hpath he =>
    rw [decisions_append, answers_append, he.answers_eq, received_append]
    exact hpath.answers_le hrun _

end WebServer.Life
