import WebServer.Life.Machine

/-!
# The machine during one handler call

A run of the machine tells the whole life of a connection.  A path tells what happens to it
while one handler works on it: the call either never finds the connection, or leaves it somewhere
on a path, or ends its life.
-/

namespace WebServer.Life

open WebServer.Net WebServer.Http WebServer.Core

/-- What one handler call rules out: no second call begins in it, and `ContinueReadyConnection`
goes on only with an empty output buffer. -/
def Point.allows : Point → ClientConnection → Point → Prop
  | .rest, _, p' => p' ≠ .resumed
  | .resumed, c, p' => c.outputBuffer = [] ∨ p' = .rest ∨ p' = .flushing .resumed
  | _, _, _ => True

/-- The machine goes from `p₀` and `c₀` to `p` and `c` in one handler call that began after the
history `H`, and leaves the events `E` in it. -/
inductive Path (fd : Fd) (H : List Event) (p₀ : Point) (c₀ : ClientConnection) :
    Point → ClientConnection → List Event → Prop
  | start : Path fd H p₀ c₀ p₀ c₀ []
  | step {p p' c c' E events nodes} (h : Path fd H p₀ c₀ p c E)
    (hs : Step fd (H ++ E) p c events nodes p' c') (hallow : p.allows c p') :
    Path fd H p₀ c₀ p' c' (E ++ events)

variable {fd : Fd} {H : List Event} {p₀ p p' : Point} {c₀ c c' : ClientConnection}
  {E events : List Event} {nodes : List TimerEntry}

/-- **Invariant rule.**  What holds where a handler call begins and survives every step holds
all along its path. -/
theorem Path.invariant {I : Point → ClientConnection → List Event → Prop} (h0 : I p₀ c₀ [])
    (hstep : ∀ {p p' c c' E events nodes}, Path fd H p₀ c₀ p c E → I p c E →
      Step fd (H ++ E) p c events nodes p' c' → p.allows c p' → I p' c' (E ++ events))
    (h : Path fd H p₀ c₀ p c E) : I p c E := by
  induction h with
  | start => exact h0
  | step hpath hs hallow ih => exact hstep hpath ih hs hallow

/-- A path that begins in a run goes on with it. -/
theorem Path.run {id : Nat} {N : List TimerEntry} (h0 : Run fd id p₀ c₀ H N)
    (h : Path fd H p₀ c₀ p c E) : ∃ N', Run fd id p c (H ++ E) N' := by
  induction h with
  | start => exact ⟨N, by rwa [List.append_nil]⟩
  | step _ hs _ ih =>
    obtain ⟨N', hrun⟩ := ih
    exact ⟨_, List.append_assoc .. ▸ hrun.step hs⟩

theorem Point.allows_of_bodyBack {back : Point} (h : bodyBack p = some back)
    (hout : p = .resumed → c.outputBuffer = []) (p' : Point) : p.allows c p' := by
  cases p <;> cases h
  case resumed => exact .inl (hout rfl)
  all_goals trivial

theorem Path.connectionId (h : Path fd H p₀ c₀ p c E) : c.connectionId = c₀.connectionId := by
  induction h with
  | start => rfl
  | step _ hs _ ih => exact hs.connectionId.trans ih

theorem Path.lives (h : Path fd H p₀ c₀ p c E) : ∀ e ∈ E, life? e = some c₀.connectionId := by
  induction h with
  | start =>
    intro e he
    cases he
  | step hpath hs _ ih =>
    intro e he
    rcases List.mem_append.mp he with he | he
    · exact ih e he
    · rw [hs.lives e he, hpath.connectionId]

/-- Inside a handler call no connection is taken out of the ReadyQueue. -/
theorem Step.queued (h : Step fd H p c events nodes p' c') (hallow : p.allows c p')
    (hq : c.inReadyQueue = true) : c'.inReadyQueue = true := by
  cases h
  case resume => exact absurd rfl hallow
  case drainQueued | settleQueued | readExhausted => rfl
  all_goals exact hq

/-- What a handler call has done so far to the connection on `fd`, from the one it found there to
the one that is there now; `H` is the history of each connection before the call. -/
inductive Course (fd : Fd) (H : Nat → List Event) (p₀ : Point) :
    Option ClientConnection → Point → Option ClientConnection → List Event → Prop
  | absent (p : Point) : Course fd H p₀ none p none []
  | live {c₀ c : ClientConnection} {p : Point} {E : List Event}
    (h : Path fd (H c₀.connectionId) p₀ c₀ p c E) : Course fd H p₀ (some c₀) p (some c) E
  | ended {c₀ c : ClientConnection} {p : Point} {E events : List Event}
    (h : Path fd (H c₀.connectionId) p₀ c₀ p c E) (he : End fd p c events) (p' : Point) :
    Course fd H p₀ (some c₀) p' none (E ++ events)

namespace Course

variable {H : Nat → List Event} {before after : Option ClientConnection}

theorem of_none (h : Course fd H p₀ none p after E) : after = none ∧ E = [] := by
  cases h
  exact ⟨rfl, rfl⟩

/-- A connection that is gone stands at every point. -/
theorem gone (h : Course fd H p₀ before p none E) : Course fd H p₀ before p' none E := by
  cases h with
  | absent => exact .absent p'
  | ended hpath he => exact .ended hpath he p'

theorem step (h : Course fd H p₀ before p (some c) E)
    (hs : Step fd (H c.connectionId ++ E) p c events nodes p' c') (hallow : p.allows c p') :
    Course fd H p₀ before p' (some c') (E ++ events) := by
  cases h with
  | live hpath =>
    rw [hpath.connectionId] at hs
    exact .live (hpath.step hs hallow)

theorem close (h : Course fd H p₀ before p (some c) E) (he : End fd p c events) :
    Course fd H p₀ before p' none (E ++ events) := by
  cases h with
  | live hpath => exact .ended hpath he p'

/-- All events are about the connection the call found. -/
theorem lives (h : Course fd H p₀ before p after E) :
    ∀ e ∈ E, ∃ c₀, before = some c₀ ∧ life? e = some c₀.connectionId := by
  cases h with
  | absent =>
    intro e he
    cases he
  | live hpath => exact fun e he => ⟨_, rfl, hpath.lives e he⟩
  | ended hpath hend =>
    refine fun e he => ⟨_, rfl, ?_⟩
    rcases List.mem_append.mp he with he | he
    · exact hpath.lives e he
    · rw [hend.lives e he, hpath.connectionId]

/-- The connection keeps its id until it is gone. -/
theorem connectionId (h : Course fd H p₀ before p (some c) E) :
    ∃ c₀, before = some c₀ ∧ c.connectionId = c₀.connectionId := by
  cases h with
  | live hpath => exact ⟨_, rfl, hpath.connectionId⟩

end Course

end WebServer.Life
