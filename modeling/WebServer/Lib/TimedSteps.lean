import Mathlib.Order.Defs.PartialOrder

/-!
# Steps against a clock

A system whose steps happen at a time, and a clock that only moves forward between them.
-/

namespace TimedSteps

variable {τ σ : Type} [Preorder τ] {step : τ → σ → σ → Prop}

/-- From `s` at time `t` on: steps, each at the time the clock shows, and waiting. -/
inductive Chain (step : τ → σ → σ → Prop) (t : τ) (s : σ) : τ → σ → Prop
  | refl : Chain step t s t s
  | step {t' : τ} {s' s'' : σ} : Chain step t s t' s' → step t' s' s'' → Chain step t s t' s''
  | wait {t' t'' : τ} {s' : σ} : Chain step t s t' s' → t' ≤ t'' → Chain step t s t'' s'

namespace Chain

variable {t t' t'' : τ} {s s' s'' : σ}

theorem trans (h : Chain step t s t' s') (h' : Chain step t' s' t'' s'') :
    Chain step t s t'' s'' := by
  induction h' with
  | refl => exact h
  | step _ hs ih => exact ih.step hs
  | wait _ hle ih => exact ih.wait hle

/-- **Invariant rule.**  What every step and every wait keeps, a chain keeps. -/
theorem keeps {P : τ → σ → Prop} (h : Chain step t s t' s')
    (hstep : ∀ t s s', step t s s' → P t s → P t s')
    (hwait : ∀ t t' s, t ≤ t' → P t s → P t' s) (h0 : P t s) : P t' s' := by
  induction h with
  | refl => exact h0
  | step _ hs ih => exact hstep _ _ _ hs ih
  | wait _ hle ih => exact hwait _ _ _ hle ih

/-- **Invariant rule** for what does not depend on the clock. -/
theorem holds {P : σ → Prop} (h : Chain step t s t' s')
    (hstep : ∀ t s s', step t s s' → P s → P s') (h0 : P s) : P s' :=
  h.keeps (P := fun _ => P) hstep (fun _ _ _ _ h => h) h0

end Chain

end TimedSteps
