import Mathlib.Logic.Basic

/-!
# Weakest preconditions for a state monad that can fail

`wp f Q s` says that `f`, started in `s`, returns without an exception and that
its value and final state satisfy `Q`.  It is total correctness: an exception
anywhere makes it false.  The rules below push `wp` through the monad
operations, so that a `do` block becomes a nested statement about its calls;
`wp_mono` then replaces each call by its own specification.
-/

namespace WeakestPre

variable {σ ε α β : Type}

/-- `f` returns normally from `s`, and `Q` holds of its value and final state. -/
def wp (f : StateT σ (Except ε) α) (Q : α → σ → Prop) (s : σ) : Prop :=
  match f s with
  | .ok (a, s') => Q a s'
  | .error _ => False

theorem wp_iff (f : StateT σ (Except ε) α) (Q : α → σ → Prop) (s : σ) :
    wp f Q s ↔ ∃ a s', f s = .ok (a, s') ∧ Q a s' := by
  unfold wp
  cases h : f s with
  | error e => simp
  | ok p =>
    constructor
    · intro hq
      exact ⟨p.1, p.2, rfl, hq⟩
    · rintro ⟨a, s', e, hq⟩
      cases e
      exact hq

/-- **Consequence rule.** -/
theorem wp_mono {f : StateT σ (Except ε) α} {P Q : α → σ → Prop} {s : σ} (h : wp f P s)
    (hPQ : ∀ a s', P a s' → Q a s') : wp f Q s := by
  obtain ⟨a, s', e, hp⟩ := (wp_iff f P s).mp h
  exact (wp_iff f Q s).mpr ⟨a, s', e, hPQ a s' hp⟩

@[simp] theorem wp_pure (a : α) (Q : α → σ → Prop) (s : σ) :
    wp (pure a : StateT σ (Except ε) α) Q s ↔ Q a s := Iff.rfl

@[simp] theorem wp_bind (f : StateT σ (Except ε) α) (g : α → StateT σ (Except ε) β)
    (Q : β → σ → Prop) (s : σ) :
    wp (f >>= g) Q s ↔ wp f (fun a s' => wp (g a) Q s') s := by
  have e : (f >>= g) s = (f s >>= fun p => g p.1 p.2) := rfl
  unfold wp
  rw [e]
  cases f s with
  | error e => exact Iff.rfl
  | ok p => exact Iff.rfl

@[simp] theorem wp_get (Q : σ → σ → Prop) (s : σ) :
    wp (get : StateT σ (Except ε) σ) Q s ↔ Q s s := Iff.rfl

@[simp] theorem wp_modify (g : σ → σ) (Q : PUnit → σ → Prop) (s : σ) :
    wp (modify g : StateT σ (Except ε) PUnit) Q s ↔ Q ⟨⟩ (g s) := Iff.rfl

@[simp] theorem wp_throw (e : ε) (Q : α → σ → Prop) (s : σ) :
    wp (throw e : StateT σ (Except ε) α) Q s ↔ False := Iff.rfl

@[simp] theorem wp_liftOk (a : α) (Q : α → σ → Prop) (s : σ) :
    wp (liftM (Except.ok a : Except ε α) : StateT σ (Except ε) α) Q s ↔ Q a s := Iff.rfl

@[simp] theorem wp_ite (c : Prop) [Decidable c] (f g : StateT σ (Except ε) α)
    (Q : α → σ → Prop) (s : σ) :
    wp (if c then f else g) Q s ↔ (c → wp f Q s) ∧ (¬ c → wp g Q s) := by
  by_cases h : c <;> simp [h]

end WeakestPre
