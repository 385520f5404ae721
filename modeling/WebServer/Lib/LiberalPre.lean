import WebServer.Lib.WeakestPre

/-!
# Weakest liberal preconditions

`wlp f Q s` says that `Q` holds of the value and the final state of `f` if it returns
without an exception.  Invariants are proved with it where totality is known from
elsewhere; the rules are those of `Lib/WeakestPre.lean`, except that an exception satisfies
everything.
-/

namespace LiberalPre

open WeakestPre

variable {σ ε α β : Type}

/-- If `f` returns normally from `s`, then `Q` holds of its value and final state. -/
def wlp (f : StateT σ (Except ε) α) (Q : α → σ → Prop) (s : σ) : Prop :=
  ∀ a s', f s = .ok (a, s') → Q a s'

/-- **Consequence rule.** -/
theorem wlp_mono {f : StateT σ (Except ε) α} {P Q : α → σ → Prop} {s : σ} (h : wlp f P s)
    (hPQ : ∀ a s', P a s' → Q a s') : wlp f Q s :=
  fun a s' e => hPQ a s' (h a s' e)

/-- What total correctness gives is at hand as well. -/
theorem wlp_and {f : StateT σ (Except ε) α} {P Q : α → σ → Prop} {s : σ} (hP : wp f P s)
    (hQ : wlp f Q s) : wlp f (fun a s' => P a s' ∧ Q a s') s := by
  intro a s' e
  obtain ⟨_, _, e', hp⟩ := (wp_iff f P s).mp hP
  rw [e] at e'
  cases e'
  exact ⟨hp, hQ a s' e⟩

@[simp] theorem wlp_pure (a : α) (Q : α → σ → Prop) (s : σ) :
    wlp (pure a : StateT σ (Except ε) α) Q s ↔ Q a s := by
  constructor
  · exact fun h => h a s rfl
  · rintro h _ _ ⟨⟩
    exact h

@[simp] theorem wlp_bind (f : StateT σ (Except ε) α) (g : α → StateT σ (Except ε) β)
    (Q : β → σ → Prop) (s : σ) :
    wlp (f >>= g) Q s ↔ wlp f (fun a s' => wlp (g a) Q s') s := by
  have e : (f >>= g) s = (f s >>= fun p => g p.1 p.2) := rfl
  unfold wlp
  rw [e]
  cases f s with
  | error e =>
    constructor
    · intro _ _ _ e
      cases e
    · intro _ _ _ e
      cases e
  | ok p =>
    constructor
    · rintro h _ _ ⟨⟩
      exact h
    · exact fun h => h p.1 p.2 rfl

@[simp] theorem wlp_get (Q : σ → σ → Prop) (s : σ) :
    wlp (get : StateT σ (Except ε) σ) Q s ↔ Q s s := wlp_pure s Q s

@[simp] theorem wlp_modify (g : σ → σ) (Q : PUnit → σ → Prop) (s : σ) :
    wlp (modify g : StateT σ (Except ε) PUnit) Q s ↔ Q ⟨⟩ (g s) := by
  constructor
  · exact fun h => h _ _ rfl
  · rintro h _ _ ⟨⟩
    exact h

@[simp] theorem wlp_throw (e : ε) (Q : α → σ → Prop) (s : σ) :
    wlp (throw e : StateT σ (Except ε) α) Q s ↔ True := by
  constructor
  · exact fun _ => trivial
  · rintro - _ _ ⟨⟩

@[simp] theorem wlp_lift (x : Except ε α) (Q : α → σ → Prop) (s : σ) :
    wlp (liftM x : StateT σ (Except ε) α) Q s ↔ ∀ a, x = .ok a → Q a s := by
  constructor
  · rintro h a rfl
    exact h a s rfl
  · intro h
    cases x with
    | error e =>
      rintro _ _ ⟨⟩
    | ok a =>
      rintro _ _ ⟨⟩
      exact h a rfl

@[simp] theorem wlp_ite (c : Prop) [Decidable c] (f g : StateT σ (Except ε) α)
    (Q : α → σ → Prop) (s : σ) :
    wlp (if c then f else g) Q s ↔ (c → wlp f Q s) ∧ (¬ c → wlp g Q s) := by
  by_cases h : c <;> simp [h]

end LiberalPre
