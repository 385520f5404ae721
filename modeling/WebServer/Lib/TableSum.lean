import Mathlib.Data.Finmap
import Mathlib.Algebra.Order.BigOperators.Group.Multiset

/-!
# Sums over a finite map

`total g m` adds up `g` over the values of `m`.  Inserting, replacing and erasing
one key change it by exactly the values involved.
-/

namespace TableSum

variable {K V : Type} [DecidableEq K] {m : Finmap fun _ : K => V} {k : K} {v w : V}

/-- The sum of `g` over all values of `m`. -/
def total (g : V → Nat) (m : Finmap fun _ : K => V) : Nat := (m.entries.map fun e => g e.2).sum

omit [DecidableEq K] in
@[simp] theorem total_empty (g : V → Nat) : total g (∅ : Finmap fun _ : K => V) = 0 := rfl

theorem total_insert_of_absent (g : V → Nat) (h : m.lookup k = none) :
    total g (m.insert k v) = g v + total g m := by
  have hk : k ∉ m := Finmap.lookup_eq_none.mp h
  rw [total, Finmap.entries_insert_of_notMem hk, Multiset.map_cons, Multiset.sum_cons, total]

/-- A present key can be taken out and put back. -/
theorem insert_erase_self (h : m.lookup k = some v) : (m.erase k).insert k v = m := by
  apply Finmap.ext_lookup
  intro x
  by_cases hx : x = k
  · subst hx
    rw [Finmap.lookup_insert, h]
  · rw [Finmap.lookup_insert_of_ne _ hx, Finmap.lookup_erase_ne hx]

theorem insert_erase_replace (w : V) : (m.erase k).insert k w = m.insert k w := by
  apply Finmap.ext_lookup
  intro x
  by_cases hx : x = k
  · subst hx
    rw [Finmap.lookup_insert, Finmap.lookup_insert]
  · rw [Finmap.lookup_insert_of_ne _ hx, Finmap.lookup_insert_of_ne _ hx, Finmap.lookup_erase_ne hx]

theorem total_erase (g : V → Nat) (h : m.lookup k = some v) :
    total g (m.erase k) + g v = total g m := by
  have e := total_insert_of_absent (v := v) g (Finmap.lookup_erase k m)
  rw [insert_erase_self h] at e
  omega

/-- Replacing the value at a present key. -/
theorem total_replace (g : V → Nat) (h : m.lookup k = some v) (w : V) :
    total g (m.insert k w) + g v = total g m + g w := by
  have e := total_insert_of_absent (v := w) g (Finmap.lookup_erase k m)
  rw [insert_erase_replace] at e
  have := total_erase g h
  omega

theorem le_total (g : V → Nat) (h : m.lookup k = some v) : g v ≤ total g m := by
  have := total_erase g h
  omega

end TableSum
