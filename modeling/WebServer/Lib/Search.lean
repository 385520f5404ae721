import Mathlib.Data.List.Infix

/-!
# Searching a pattern in a list

`find?` is the index of the first occurrence of a pattern, as `std::string::find`
computes it.  Its answer is stable: more input behind a list that already
contains the pattern does not move the first occurrence.
-/

namespace Search

variable {α : Type} [DecidableEq α]

/-- Index of the first occurrence of `pat`. -/
def find? (pat : List α) : List α → Option Nat
  | [] => if pat.isPrefixOf [] then some 0 else none
  | a :: l => if pat.isPrefixOf (a :: l) then some 0 else (find? pat l).map (· + 1)

theorem find?_cons (pat : List α) (a : α) (l : List α) :
    find? pat (a :: l) = if pat <+: a :: l then some 0 else (find? pat l).map (· + 1) := by
  simp only [find?, List.isPrefixOf_iff_prefix]

theorem find?_length_le {pat l : List α} {i : Nat} (h : find? pat l = some i) :
    i + pat.length ≤ l.length := by
  induction l generalizing i with
  | nil =>
    simp only [find?] at h
    split at h
    · rename_i hp
      have := (List.isPrefixOf_iff_prefix.mp hp).length_le
      cases h
      omega
    · cases h
  | cons a l ih =>
    simp only [find?] at h
    split at h
    · rename_i hp
      have := (List.isPrefixOf_iff_prefix.mp hp).length_le
      cases h
      omega
    · obtain ⟨k, hk, rfl⟩ := Option.map_eq_some_iff.mp h
      have := ih hk
      simp only [List.length_cons]
      omega

/-- **Stability.**  Input that arrives later does not move the first occurrence. -/
theorem find?_append {pat l : List α} {i : Nat} (h : find? pat l = some i) (t : List α) :
    find? pat (l ++ t) = some i := by
  induction l generalizing i with
  | nil =>
    simp only [find?] at h
    split at h
    · rename_i hp
      obtain rfl : pat = [] := List.prefix_nil.mp (List.isPrefixOf_iff_prefix.mp hp)
      cases h
      cases t <;> simp [find?]
    · cases h
  | cons a l ih =>
    simp only [find?] at h
    split at h
    · rename_i hp
      have : pat.isPrefixOf (a :: (l ++ t)) = true :=
        List.isPrefixOf_iff_prefix.mpr
          ((List.isPrefixOf_iff_prefix.mp hp).trans (List.prefix_append (a :: l) t))
      simpa [find?, this] using h
    · rename_i hp
      obtain ⟨k, hk, rfl⟩ := Option.map_eq_some_iff.mp h
      have hlen := find?_length_le hk
      -- an occurrence at the front of the longer list would already fit into the shorter one
      have hno : ¬ pat.isPrefixOf (a :: (l ++ t)) = true := by
        intro hpre
        apply hp
        apply List.isPrefixOf_iff_prefix.mpr
        refine List.prefix_of_prefix_length_le (List.isPrefixOf_iff_prefix.mp hpre)
          (List.prefix_append (a :: l) t) ?_
        simp only [List.length_cons]
        omega
      simp [find?, hno, ih hk]

theorem find?_eq_none_of_append {pat l t : List α} (h : find? pat (l ++ t) = none) :
    find? pat l = none := by
  cases hl : find? pat l with
  | none => rfl
  | some i => rw [find?_append hl t] at h; cases h

/-! ## Occurrences -/

theorem prefix_of_find? {pat l : List α} {i : Nat} (h : find? pat l = some i) :
    pat <+: l.drop i := by
  induction l generalizing i with
  | nil =>
    simp only [find?] at h
    split at h
    · rename_i hp
      cases h
      exact List.isPrefixOf_iff_prefix.mp hp
    · cases h
  | cons a l ih =>
    rw [find?_cons] at h
    split at h
    · cases h
      assumption
    · obtain ⟨k, hk, rfl⟩ := Option.map_eq_some_iff.mp h
      exact ih hk

/-- The pattern is found where it occurs. -/
theorem find?_isSome_iff {pat l : List α} : (find? pat l).isSome = true ↔ pat <:+: l := by
  induction l with
  | nil => simp [find?]
  | cons a l ih =>
    rw [find?_cons, List.infix_cons_iff]
    by_cases h : pat <+: a :: l
    · simp [h]
    · simp [h, ih]

theorem find?_singleton_eq_none {a : α} {l : List α} : find? [a] l = none ↔ a ∉ l := by
  rw [← Option.not_isSome_iff_eq_none, find?_isSome_iff, List.singleton_infix_iff]

/-- The first occurrence of an element cuts the list in two. -/
theorem find?_singleton_append {a : α} {before : List α} (h : a ∉ before) (after : List α) :
    find? [a] (before ++ a :: after) = some before.length := by
  induction before with
  | nil => simp [find?]
  | cons b before ih =>
    simp only [List.mem_cons, not_or] at h
    rw [List.cons_append, find?_cons, if_neg (by simp [h.1]), ih h.2]
    rfl

theorem find?_singleton_eq_some {a : α} {l : List α} {n : Nat} (h : find? [a] l = some n) :
    ∃ before after, l = before ++ a :: after ∧ a ∉ before ∧ before.length = n := by
  have hmem : a ∈ l := by
    by_contra hno
    rw [find?_singleton_eq_none.mpr hno] at h
    cases h
  obtain ⟨before, after, rfl, hno⟩ := List.eq_append_cons_of_mem hmem
  rw [find?_singleton_append hno] at h
  exact ⟨before, after, rfl, hno, Option.some.inj h⟩

end Search
