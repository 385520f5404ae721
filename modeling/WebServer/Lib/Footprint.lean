import Mathlib.Logic.Basic

/-!
# Local programs

A program of a state monad that can fail is local if what it returns depends only on a part of
the state, its view, and what it does outside of the view is an effect that it does to every state
with the same view.  An effect may need room, which a state has or has not.
-/

namespace Footprint

/-- A view of the states, and the effects outside of it. -/
structure Frame (σ η : Type) where
  agree : σ → σ → Prop
  does : η → σ → σ → Prop
  room : η → σ → Prop
  nothing : η
  andThen : η → η → η
  does_nothing : ∀ s, does nothing s s
  does_andThen : ∀ {e e' s s' s''}, does e s s' → does e' s' s'' → does (andThen e e') s s''
  room_andThen : ∀ {e e' s}, room (andThen e e') s →
    room e s ∧ ∀ s', does e s s' → room e' s'

variable {σ η ε α β : Type} {F : Frame σ η} {G G' : η → Prop}

/-- Every run of `f` has an effect from `G`; and if there is room for it, then `f` does the same
from every state with the same view that has room for it as well. -/
def Local (F : Frame σ η) (G : η → Prop) (f : StateT σ (Except ε) α) : Prop :=
  ∀ s a s', f s = .ok (a, s') → ∃ e, G e ∧ F.does e s s' ∧ (F.room e s → ∀ t, F.agree s t →
    F.room e t → ∃ t', f t = .ok (a, t') ∧ F.agree s' t' ∧ F.does e t t')

theorem Local.mono {f : StateT σ (Except ε) α} (h : Local F G f) (hG : ∀ e, G e → G' e) :
    Local F G' f := by
  intro s a s' hrun
  obtain ⟨e, he, hrest⟩ := h s a s' hrun
  exact ⟨e, hG e he, hrest⟩

theorem Local.pure (h : G F.nothing) (a : α) :
    Local F G (pure a : StateT σ (Except ε) α) := by
  rintro s a s' ⟨⟩
  exact ⟨F.nothing, h, F.does_nothing s, fun _ t ht _ => ⟨t, rfl, ht, F.does_nothing t⟩⟩

theorem Local.throw (e : ε) : Local F G (throw e : StateT σ (Except ε) α) := by
  rintro s a s' ⟨⟩

/-- **Sequence rule.**  The effects follow each other, and room for both is room for each. -/
theorem Local.bind {G₁ G₂ : η → Prop} {f : StateT σ (Except ε) α} {g : α → StateT σ (Except ε) β}
    (hf : Local F G₁ f) (hg : ∀ a, Local F G₂ (g a))
    (hG : ∀ e₁ e₂, G₁ e₁ → G₂ e₂ → G (F.andThen e₁ e₂)) : Local F G (f >>= g) := by
  intro s b s'' hrun
  have hbind (s : σ) : (f >>= g) s = (f s >>= fun p => g p.1 p.2) := rfl
  rw [hbind] at hrun
  cases hfs : f s with
  | error e =>
    rw [hfs] at hrun
    cases hrun
  | ok p =>
    rw [hfs] at hrun
    obtain ⟨e₁, h₁, hdoes₁, hlocal₁⟩ := hf s p.1 p.2 hfs
    obtain ⟨e₂, h₂, hdoes₂, hlocal₂⟩ := hg p.1 p.2 b s'' hrun
    refine ⟨F.andThen e₁ e₂, hG e₁ e₂ h₁ h₂, F.does_andThen hdoes₁ hdoes₂, ?_⟩
    intro hroom t ht hroom'
    obtain ⟨hs₁, hs₂⟩ := F.room_andThen hroom
    obtain ⟨ht₁, ht₂⟩ := F.room_andThen hroom'
    obtain ⟨t', hft, ht', hdoes₁'⟩ := hlocal₁ hs₁ t ht ht₁
    obtain ⟨t'', hgt, ht'', hdoes₂'⟩ := hlocal₂ (hs₂ _ hdoes₁) t' ht' (ht₂ _ hdoes₁')
    refine ⟨t'', ?_, ht'', F.does_andThen hdoes₁' hdoes₂'⟩
    rw [hbind, hft]
    exact hgt

theorem Local.ite (c : Prop) [Decidable c] {f g : StateT σ (Except ε) α}
    (hf : c → Local F G f) (hg : ¬ c → Local F G g) : Local F G (if c then f else g) := by
  by_cases h : c
  · rw [if_pos h]
    exact hf h
  · rw [if_neg h]
    exact hg h

/-- A program may look at the state where states with the same view cannot be told apart. -/
theorem Local.get_bind {k : σ → StateT σ (Except ε) α}
    (hview : ∀ s t, F.agree s t → k s = k t) (hk : ∀ s, Local F G (k s)) :
    Local F G (get >>= k) := by
  intro s a s' hrun
  have hget (s : σ) : (get >>= k) s = k s s := rfl
  rw [hget] at hrun
  obtain ⟨e, he, hdoes, hlocal⟩ := hk s s a s' hrun
  refine ⟨e, he, hdoes, fun hroom t ht hroom' => ?_⟩
  rw [hget, ← hview s t ht]
  exact hlocal hroom t ht hroom'

theorem Local.lift (h : G F.nothing) (x : Except ε α) :
    Local F G (liftM x : StateT σ (Except ε) α) := by
  intro s a s' hrun
  cases x with
  | error e => cases hrun
  | ok b =>
    cases hrun
    exact ⟨F.nothing, h, F.does_nothing s, fun _ t ht _ => ⟨t, rfl, ht, F.does_nothing t⟩⟩

/-- A change of the state that is local. -/
theorem Local.modify {g : σ → σ} (h : ∀ s, ∃ e, G e ∧ F.does e s (g s) ∧
    ∀ t, F.agree s t → F.agree (g s) (g t) ∧ F.does e t (g t)) :
    Local F G (modify g : StateT σ (Except ε) PUnit) := by
  rintro s a s' ⟨⟩
  obtain ⟨e, he, hdoes, hlocal⟩ := h s
  exact ⟨e, he, hdoes, fun _ t ht _ => ⟨g t, rfl, hlocal t ht⟩⟩

end Footprint
