import Mathlib.Data.Finmap
import Mathlib.Order.Defs.PartialOrder

/-!
# Tables in the order of last use

A finite table together with the list of its keys, the one that was not seen for
the longest time in front.  Taking a key out, putting a key at the end and changing
an entry without its time keep the order; the front of the list is then the entry to
expire and to evict first.
-/

universe u v w

variable {Key : Type u} {E : Type v} {T : Type w} [DecidableEq Key] [Preorder T]

/-- `order` lists the keys of `table` once each, by the time their entries were last seen. -/
structure Recency (seen : E → T) (order : List Key) (table : Finmap fun _ : Key => E) : Prop where
  nodup : order.Nodup
  keys : ∀ k, k ∈ order ↔ k ∈ table
  sorted : order.Pairwise fun k k' =>
    ∀ e e', table.lookup k = some e → table.lookup k' = some e' → seen e ≤ seen e'

namespace Recency

variable {seen : E → T} {order : List Key} {table : Finmap fun _ : Key => E} {k k' : Key}
  {e e' : E}

theorem empty (seen : E → T) : Recency seen [] (∅ : Finmap fun _ : Key => E) :=
  ⟨List.nodup_nil, fun k => by simp [Finmap.notMem_empty], List.Pairwise.nil⟩

/-- There are as many entries as keys in the list. -/
theorem card (h : Recency seen order table) : table.keys.card = order.length := by
  have hkeys : table.keys = order.toFinset := by
    ext k
    rw [Finmap.mem_keys, List.mem_toFinset]
    exact (h.keys k).symm
  rw [hkeys, List.toFinset_card_of_nodup h.nodup]

/-- A key is taken out. -/
theorem remove (h : Recency seen order table) (k : Key) :
    Recency seen (order.filter (· ≠ k)) (table.erase k) := by
  refine ⟨h.nodup.filter _, fun k' => ?_, ?_⟩
  · rw [List.mem_filter, Finmap.mem_erase, h.keys k', decide_eq_true_eq, and_comm]
  · apply (h.sorted.filter _).imp
    intro k₁ k₂ hle e₁ e₂ h₁ h₂
    have hlookup {k' : Key} {e' : E} (h' : (table.erase k).lookup k' = some e') :
        table.lookup k' = some e' := by
      have hne : k' ≠ k := by
        rintro rfl
        rw [Finmap.lookup_erase] at h'
        cases h'
      rwa [Finmap.lookup_erase_ne hne] at h'
    exact hle e₁ e₂ (hlookup h₁) (hlookup h₂)

/-- The front is taken out. -/
theorem pop (h : Recency seen (k :: order) table) : Recency seen order (table.erase k) := by
  obtain ⟨hnot, -⟩ := List.nodup_cons.mp h.nodup
  have hfilter : order.filter (· ≠ k) = order := by
    apply List.filter_eq_self.mpr
    intro k' hk'
    rw [decide_eq_true_eq]
    rintro rfl
    exact hnot hk'
  have := h.remove k
  rwa [List.filter_cons_of_neg (by simp), hfilter] at this

/-- A new key whose entry is seen last goes to the end. -/
theorem push (h : Recency seen order table) (hk : k ∉ table)
    (hlast : ∀ k' e', table.lookup k' = some e' → seen e' ≤ seen e) :
    Recency seen (order ++ [k]) (table.insert k e) := by
  have hnot : k ∉ order := fun hmem => hk ((h.keys k).mp hmem)
  have hlookup {k' : Key} (hk' : k' ∈ order) : (table.insert k e).lookup k' = table.lookup k' := by
    apply Finmap.lookup_insert_of_ne
    rintro rfl
    exact hnot hk'
  refine ⟨?_, fun k' => ?_, List.pairwise_append.mpr ⟨?_, List.pairwise_singleton .., ?_⟩⟩
  · exact h.nodup.append (List.nodup_singleton k) (by simpa using hnot)
  · rw [List.mem_append, List.mem_singleton, Finmap.mem_insert, h.keys k', or_comm]
  · apply h.sorted.imp_of_mem
    intro k₁ k₂ hm₁ hm₂ hle e₁ e₂ h₁ h₂
    rw [hlookup hm₁] at h₁
    rw [hlookup hm₂] at h₂
    exact hle e₁ e₂ h₁ h₂
  · intro k₁ hm₁ k₂ hm₂ e₁ e₂ h₁ h₂
    obtain rfl := List.mem_singleton.mp hm₂
    rw [hlookup hm₁] at h₁
    rw [Finmap.lookup_insert] at h₂
    cases h₂
    exact hlast k₁ e₁ h₁

/-- An entry changes, but not the time it was seen. -/
theorem replace (h : Recency seen order table) (hk : table.lookup k = some e)
    (hseen : seen e' = seen e) : Recency seen order (table.insert k e') := by
  have hlookup {k' : Key} {e₁ : E} (h' : (table.insert k e').lookup k' = some e₁) :
      ∃ e₀, table.lookup k' = some e₀ ∧ seen e₀ = seen e₁ := by
    by_cases hne : k' = k
    · subst hne
      rw [Finmap.lookup_insert] at h'
      cases h'
      exact ⟨e, hk, hseen.symm⟩
    · rw [Finmap.lookup_insert_of_ne _ hne] at h'
      exact ⟨e₁, h', rfl⟩
  refine ⟨h.nodup, fun k' => ?_, ?_⟩
  · rw [Finmap.mem_insert, h.keys k']
    constructor
    · exact .inr
    · rintro (rfl | hk')
      · exact Finmap.mem_of_lookup_eq_some hk
      · exact hk'
  · apply h.sorted.imp
    intro k₁ k₂ hle e₁ e₂ h₁ h₂
    obtain ⟨d₁, hd₁, hs₁⟩ := hlookup h₁
    obtain ⟨d₂, hd₂, hs₂⟩ := hlookup h₂
    rw [← hs₁, ← hs₂]
    exact hle d₁ d₂ hd₁ hd₂

/-- **Least recently seen.**  No entry was seen before the front of the list. -/
theorem head_le (h : Recency seen (k :: order) table) (hk : table.lookup k = some e)
    (hk' : table.lookup k' = some e') : seen e ≤ seen e' := by
  rcases List.mem_cons.mp ((h.keys k').mpr (Finmap.mem_of_lookup_eq_some hk')) with rfl | hmem
  · rw [hk] at hk'
    cases hk'
    exact le_refl _
  · exact (List.pairwise_cons.mp h.sorted).1 k' hmem e e' hk hk'

end Recency
