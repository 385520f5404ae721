import Mathlib.Data.List.Basic

/-!
# The least element of a bag under a numeric key

A priority queue promises an element with the least key and says nothing about
which one when several are equal.  `top` takes the choice as an argument, so
that whatever is proved about it holds for every way of breaking ties.
-/

namespace Earliest

variable {α : Type} (key : α → Nat)

/-- All elements of `l` with the least key. -/
def least (l : List α) : List α := l.filter fun a => l.all fun b => key a ≤ key b

/-- An element with the least key; `tie` picks one among equals. -/
def top (tie : Nat) (l : List α) : Option α := (least key l)[tie % (least key l).length]?

variable {key} {l : List α} {a : α}

theorem mem_least : a ∈ least key l ↔ a ∈ l ∧ ∀ b ∈ l, key a ≤ key b := by
  simp [least]

theorem least_ne_nil (h : l ≠ []) : least key l ≠ [] := by
  have hex : ∃ a ∈ l, ∀ b ∈ l, key a ≤ key b := by
    induction l with
    | nil => exact absurd rfl h
    | cons x l ih =>
      by_cases hl : l = []
      · subst hl
        exact ⟨x, by simp, by simp⟩
      · obtain ⟨a, ha, hle⟩ := ih hl
        by_cases hx : key x ≤ key a
        · refine ⟨x, by simp, fun b hb => ?_⟩
          rcases List.mem_cons.mp hb with rfl | hb
          · exact Nat.le_refl _
          · exact Nat.le_trans hx (hle b hb)
        · refine ⟨a, List.mem_cons_of_mem _ ha, fun b hb => ?_⟩
          rcases List.mem_cons.mp hb with rfl | hb
          · omega
          · exact hle b hb
  obtain ⟨a, ha, hle⟩ := hex
  exact List.ne_nil_of_mem (mem_least.mpr ⟨ha, hle⟩)

theorem top_mem {tie : Nat} (h : top key tie l = some a) : a ∈ l :=
  (mem_least.mp (List.mem_of_getElem? h)).1

theorem top_le {tie : Nat} (h : top key tie l = some a) : ∀ b ∈ l, key a ≤ key b :=
  (mem_least.mp (List.mem_of_getElem? h)).2

theorem top_eq_none {tie : Nat} (h : top key tie l = none) : l = [] := by
  by_contra hl
  have hlen : 0 < (least key l).length := List.length_pos_iff.mpr (least_ne_nil hl)
  have hlt := Nat.mod_lt tie hlen
  rw [top, List.getElem?_eq_getElem hlt] at h
  cases h

end Earliest
