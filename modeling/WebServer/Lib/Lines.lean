import WebServer.Lib.Search

/-!
# Lines

A list is cut into lines at the pairs `cr, lf`.  Cutting and joining are inverse to each
other, and the first occurrence of a pattern that begins with a line end is found line by
line.
-/

namespace Lines

open Search

variable {α : Type} {cr lf : α}

/-- The lines with line ends between them. -/
def join (cr lf : α) : List (List α) → List α
  | [] => []
  | [l] => l
  | l :: l' :: ls => l ++ cr :: lf :: join cr lf (l' :: ls)

theorem join_cons (l : List α) {ls : List (List α)} (h : ls ≠ []) :
    join cr lf (l :: ls) = l ++ cr :: lf :: join cr lf ls := by
  cases ls with
  | nil => exact absurd rfl h
  | cons l' ls => rfl

/-- Every line with a line end behind it. -/
theorem join_append (l : List α) (ls : List (List α)) (t : List α) :
    join cr lf (l :: ls) ++ cr :: lf :: t =
      l ++ cr :: lf :: (ls.flatMap (· ++ [cr, lf]) ++ t) := by
  induction ls generalizing l with
  | nil => rfl
  | cons l' ls ih =>
    rw [join_cons l (by simp), List.append_assoc, List.cons_append, List.cons_append, ih]
    simp

/-! ## Searching -/

variable [DecidableEq α]

/-- A line has no line end inside. -/
def IsLine (cr lf : α) (l : List α) : Prop := find? [cr, lf] l = none

theorem isLine_nil : IsLine cr lf [] := by
  simp [IsLine, find?]

theorem isLine_cons {x : α} {l : List α} :
    IsLine cr lf (x :: l) ↔ ¬ (x = cr ∧ l.head? = some lf) ∧ IsLine cr lf l := by
  have hstart : [cr, lf] <+: x :: l ↔ x = cr ∧ l.head? = some lf := by
    cases l <;> simp [eq_comm]
  unfold IsLine
  rw [find?_cons]
  by_cases h : x = cr ∧ l.head? = some lf
  · rw [if_pos (hstart.mpr h)]
    simp [h]
  · rw [if_neg (mt hstart.mp h), Option.map_eq_none_iff]
    exact ⟨fun hl => ⟨h, hl⟩, And.right⟩

/-- A line end does not begin inside a line. -/
theorem lineEnd_not_prefix (hne : cr ≠ lf) {l : List α} (hl : IsLine cr lf l) (hpos : l ≠ [])
    (pat t : List α) : ¬ cr :: lf :: pat <+: l ++ cr :: lf :: t := by
  intro h
  obtain ⟨x, l, rfl⟩ := List.exists_cons_of_ne_nil hpos
  obtain ⟨hx, hrest⟩ := List.cons_prefix_cons.mp h
  cases l with
  | nil => exact hne (List.cons_prefix_cons.mp hrest).1.symm
  | cons y l =>
    have hy : lf = y := (List.cons_prefix_cons.mp hrest).1
    exact (isLine_cons.mp hl).1 ⟨hx.symm, congrArg some hy.symm⟩

theorem isLine_of_not_mem {l : List α} (h : cr ∉ l) : IsLine cr lf l := by
  induction l with
  | nil => exact isLine_nil
  | cons x l ih =>
    simp only [List.mem_cons, not_or] at h
    exact isLine_cons.mpr ⟨fun hx => h.1 hx.1.symm, ih h.2⟩

/-- **Search line by line.**  A pattern that begins with a line end is found behind the first
line, or not before the second one. -/
theorem find?_line (hne : cr ≠ lf) {l : List α} (hl : IsLine cr lf l) (pat t : List α) :
    find? (cr :: lf :: pat) (l ++ cr :: lf :: t) =
      if pat <+: t then some l.length
      else (find? (cr :: lf :: pat) t).map (· + (l.length + 2)) := by
  induction l with
  | nil =>
    have hsecond : ¬ cr :: lf :: pat <+: lf :: t := fun h => hne (List.cons_prefix_cons.mp h).1
    have hfirst : cr :: lf :: pat <+: cr :: lf :: t ↔ pat <+: t := by simp
    rw [List.nil_append, find?_cons, find?_cons, if_neg hsecond, Option.map_map]
    exact if_congr hfirst rfl rfl
  | cons x l ih =>
    have hno := lineEnd_not_prefix hne hl (List.cons_ne_nil x l) pat t
    rw [List.cons_append] at hno ⊢
    rw [find?_cons, if_neg hno, ih (isLine_cons.mp hl).2]
    split
    · rfl
    · rw [Option.map_map]
      rfl

/-- The first line end is behind the first line. -/
theorem find?_lineEnd (hne : cr ≠ lf) {l : List α} (hl : IsLine cr lf l) (t : List α) :
    find? [cr, lf] (l ++ cr :: lf :: t) = some l.length := by
  rw [find?_line hne hl, if_pos (List.nil_prefix)]

/-- **The end of a block.**  The first empty line is the one behind the block, as long as no
line but the first is empty. -/
theorem find?_blankLine_iff (hne : cr ≠ lf) {l : List α} {ls : List (List α)}
    (hl : ∀ k ∈ l :: ls, IsLine cr lf k) (t : List α) :
    find? [cr, lf, cr, lf] (join cr lf (l :: ls) ++ cr :: lf :: cr :: lf :: t) =
        some (join cr lf (l :: ls)).length ↔ ∀ k ∈ ls, k ≠ [] := by
  induction ls generalizing l with
  | nil =>
    have hfirst := find?_line hne (hl l (by simp)) [cr, lf] (cr :: lf :: t)
    rw [if_pos ⟨t, rfl⟩] at hfirst
    simpa [join] using hfirst
  | cons l' ls ih =>
    have hl' : ∀ k ∈ l' :: ls, IsLine cr lf k := fun k hk => hl k (List.mem_cons_of_mem _ hk)
    have hcons := @join_cons _ cr lf l _ (List.cons_ne_nil l' ls)
    rw [hcons, List.append_assoc, List.cons_append, List.cons_append,
      find?_line hne (hl l (by simp)), List.length_append, List.length_cons, List.length_cons]
    by_cases hempty : l' = []
    · have hstart : [cr, lf] <+: join cr lf (l' :: ls) ++ cr :: lf :: cr :: lf :: t := by
        rw [join_append, hempty]
        exact ⟨_, rfl⟩
      rw [if_pos hstart]
      constructor
      · intro h
        have := Option.some.inj h
        omega
      · exact fun h => absurd hempty (h l' List.mem_cons_self)
    · have hstart : ¬ [cr, lf] <+: join cr lf (l' :: ls) ++ cr :: lf :: cr :: lf :: t := by
        rw [join_append]
        exact lineEnd_not_prefix hne (hl' l' List.mem_cons_self) hempty _ _
      rw [if_neg hstart]
      constructor
      · intro h k hk
        obtain ⟨i, hi, hlen⟩ := Option.map_eq_some_iff.mp h
        have hi : find? [cr, lf, cr, lf] (join cr lf (l' :: ls) ++ cr :: lf :: cr :: lf :: t) =
            some (join cr lf (l' :: ls)).length := by
          rw [hi]
          congr 1
          omega
        rcases List.mem_cons.mp hk with rfl | hk
        · exact hempty
        · exact (ih hl').mp hi k hk
      · intro h
        rw [(ih hl').mpr fun k hk => h k (List.mem_cons_of_mem _ hk), Option.map_some]
        congr 1
        omega

/-! ## Cutting -/

/-- The lines between the line ends. -/
def split (cr lf : α) : List α → List (List α)
  | [] => [[]]
  | [x] => [[x]]
  | x :: y :: rest =>
    if x = cr ∧ y = lf then [] :: split cr lf rest
    else (split cr lf (y :: rest)).modifyHead (x :: ·)

theorem split_ne_nil (l : List α) : split cr lf l ≠ [] := by
  fun_induction split cr lf l with
  | case1 => simp
  | case2 => simp
  | case3 => simp
  | case4 x y rest h ih => simpa using ih

theorem split_lineEnd (hne : cr ≠ lf) (l t : List α) :
    split cr lf (l ++ cr :: lf :: t) = split cr lf l ++ split cr lf t := by
  fun_induction split cr lf l with
  | case1 => simp [split]
  | case2 x => simp [split, hne]
  | case3 x y rest h ih => simp [split, h, ih]
  | case4 x y rest h ih =>
    obtain ⟨k, ks, hk⟩ := List.exists_cons_of_ne_nil (@split_ne_nil _ cr lf _ (y :: rest))
    rw [List.cons_append, List.cons_append, split, if_neg h, ← List.cons_append, ih, hk]
    rfl

theorem split_isLine {l : List α} (h : IsLine cr lf l) : split cr lf l = [l] := by
  fun_induction split cr lf l with
  | case1 => rfl
  | case2 => rfl
  | case3 x y rest hxy => exact absurd ⟨hxy.1, congrArg some hxy.2⟩ (isLine_cons.mp h).1
  | case4 x y rest hxy ih => simp [ih (isLine_cons.mp h).2]

theorem join_split (l : List α) : join cr lf (split cr lf l) = l := by
  fun_induction split cr lf l with
  | case1 => rfl
  | case2 => rfl
  | case3 x y rest h ih => rw [join_cons _ (split_ne_nil _), ih, h.1, h.2, List.nil_append]
  | case4 x y rest h ih =>
    obtain ⟨k, ks, hk⟩ := List.exists_cons_of_ne_nil (@split_ne_nil _ cr lf _ (y :: rest))
    rw [hk] at ih ⊢
    rw [← ih]
    cases ks <;> rfl

theorem isLine_of_mem_split {k l : List α} (h : k ∈ split cr lf l) : IsLine cr lf k := by
  fun_induction split cr lf l generalizing k with
  | case1 =>
    rw [List.mem_singleton.mp h]
    exact isLine_nil
  | case2 x =>
    rw [List.mem_singleton.mp h]
    exact isLine_cons.mpr ⟨by simp, isLine_nil⟩
  | case3 x y rest hxy ih =>
    rcases List.mem_cons.mp h with rfl | h
    · exact isLine_nil
    · exact ih h
  | case4 x y rest hxy ih =>
    have hjoin := @join_split _ cr lf _ (y :: rest)
    obtain ⟨j, ks, hk⟩ := List.exists_cons_of_ne_nil (@split_ne_nil _ cr lf _ (y :: rest))
    rw [hk] at h ih hjoin
    rcases List.mem_cons.mp h with rfl | h
    · refine isLine_cons.mpr ⟨fun hx => hxy ⟨hx.1, ?_⟩, ih List.mem_cons_self⟩
      -- the first element of the rest is in its first line, unless that line is empty
      obtain ⟨j', rfl⟩ : ∃ j', j = lf :: j' := by
        cases j with
        | nil => cases hx.2
        | cons z j => exact ⟨j, by rw [Option.some.inj hx.2]⟩
      cases ks with
      | nil => exact (List.cons.inj hjoin).1.symm
      | cons k' ks => exact (List.cons.inj hjoin).1.symm
    · exact ih (List.mem_cons_of_mem _ h)

/-- Lines that were joined are cut at the same places. -/
theorem split_join (hne : cr ≠ lf) {l : List α} {ls : List (List α)}
    (h : ∀ k ∈ l :: ls, IsLine cr lf k) : split cr lf (join cr lf (l :: ls)) = l :: ls := by
  induction ls generalizing l with
  | nil => exact split_isLine (h l List.mem_cons_self)
  | cons l' ls ih =>
    rw [join_cons l (by simp), split_lineEnd hne, split_isLine (h l List.mem_cons_self),
      ih fun k hk => h k (List.mem_cons_of_mem _ hk)]
    rfl

end Lines
