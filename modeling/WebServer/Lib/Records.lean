import Mathlib.Data.List.Basic
import WebServer.Lib.Search

/-!
# Records as text

A record is written as words `key cut value` with a separator between them, and a text as one
record a line.  Reading a text that was written so gives back the records.
-/

namespace Records

open Search

variable {α β ε κ : Type}

/-! ## Words -/

/-- The longest runs without a separator. -/
def words (sep : α → Bool) (text : List α) : List (List α) :=
  (text.splitOnP sep).filter fun w => !w.isEmpty

/-- A word is not empty and has no separator inside. -/
structure IsWord (sep : α → Bool) (w : List α) : Prop where
  ne_nil : w ≠ []
  inside : ∀ x ∈ w, sep x = false

variable {sep : α → Bool} {x : α} {w : List α} {ws : List (List α)}

theorem words_nil : words sep [] = [] := by
  simp [words]

theorem words_word (h : IsWord sep w) : words sep w = [w] := by
  rw [words, List.splitOnP_eq_singleton h.inside]
  simp [h.ne_nil]

theorem words_append_cons (h : IsWord sep w) (hx : sep x = true) (text : List α) :
    words sep (w ++ x :: text) = w :: words sep text := by
  rw [words, List.splitOnP_append_cons_of_forall_mem h.inside x hx]
  simp [words, h.ne_nil]

/-- Words that were joined come apart again. -/
theorem words_intercalate (h : ∀ w ∈ ws, IsWord sep w) (hx : sep x = true) :
    words sep ([x].intercalate ws) = ws := by
  induction ws with
  | nil => exact words_nil
  | cons w ws ih =>
    have hw := h w List.mem_cons_self
    have hws := ih fun w' h' => h w' (List.mem_cons_of_mem _ h')
    cases ws with
    | nil => simpa using words_word hw
    | cons w' ws =>
      rw [List.intercalate_cons_cons, List.append_assoc, List.singleton_append,
        words_append_cons hw hx, hws]

theorem mem_intercalate {y : α} (h : y ∈ [x].intercalate ws) : y = x ∨ ∃ w ∈ ws, y ∈ w := by
  induction ws with
  | nil => cases h
  | cons w ws ih =>
    cases ws with
    | nil => exact .inr ⟨w, List.mem_cons_self, by simpa using h⟩
    | cons w' ws =>
      rw [List.intercalate_cons_cons, List.append_assoc, List.singleton_append] at h
      rcases List.mem_append.mp h with h | h
      · exact .inr ⟨w, List.mem_cons_self, h⟩
      rcases List.mem_cons.mp h with h | h
      · exact .inl h
      · rcases ih h with h | ⟨w'', hw, h⟩
        · exact .inl h
        · exact .inr ⟨w'', List.mem_cons_of_mem _ hw, h⟩

/-- Joined words begin with no separator. -/
theorem head?_intercalate {y : α} (h : ∀ w ∈ ws, IsWord sep w)
    (hy : y ∈ ([x].intercalate ws).head?) : sep y = false := by
  cases ws with
  | nil => cases hy
  | cons w ws =>
    have hw := h w List.mem_cons_self
    obtain ⟨a, w, rfl⟩ := List.exists_cons_of_ne_nil hw.ne_nil
    have hfirst : y = a := by
      cases ws with
      | nil => simpa [eq_comm] using hy
      | cons w' ws => simpa [List.intercalate_cons_cons, eq_comm] using hy
    rw [hfirst]
    exact hw.inside a List.mem_cons_self

/-- Joined words end with no separator. -/
theorem getLast?_intercalate {y : α} (h : ∀ w ∈ ws, IsWord sep w)
    (hy : y ∈ ([x].intercalate ws).getLast?) : sep y = false := by
  induction ws with
  | nil => cases hy
  | cons w ws ih =>
    have hw := h w List.mem_cons_self
    cases ws with
    | nil => exact hw.inside y (List.mem_of_getLast? (by simpa using hy))
    | cons w' ws =>
      have hrest : [x].intercalate (w' :: ws) ≠ [] := by
        obtain ⟨a, w', rfl⟩ := List.exists_cons_of_ne_nil (h w' (by simp)).ne_nil
        cases ws <;> simp [List.intercalate_cons_cons]
      rw [List.intercalate_cons_cons, List.getLast?_append_of_ne_nil _ hrest] at hy
      exact ih (fun w'' hw'' => h w'' (List.mem_cons_of_mem _ hw'')) hy

/-! ## Dictionaries -/

/-- An entry of a dictionary that keeps the order in which its keys came. -/
def assign [DecidableEq κ] (key : κ) (value : β) : List (κ × β) → List (κ × β)
  | [] => [(key, value)]
  | (k, v) :: rest => if k = key then (key, value) :: rest else (k, v) :: assign key value rest

theorem assign_new [DecidableEq κ] {key : κ} {entries : List (κ × β)}
    (h : key ∉ entries.map Prod.fst) (value : β) :
    assign key value entries = entries ++ [(key, value)] := by
  induction entries with
  | nil => rfl
  | cons entry entries ih =>
    rw [List.map_cons, List.mem_cons, not_or] at h
    rw [assign, if_neg (Ne.symm h.1), ih h.2]
    rfl

/-! ## Records -/

variable [DecidableEq α]

/-- One word goes into the record; a word without `cut` is skipped. -/
def readField (cut : α) (readValue : List α → Except ε β) (record : List (List α × β))
    (word : List α) : Except ε (List (List α × β)) :=
  match find? [cut] word with
  | none => .ok record
  | some i => do
    let value ← readValue (word.drop (i + 1))
    return assign (word.take i) value record

/-- The words of a line, from left to right. -/
def readRecord (sep : α → Bool) (cut : α) (readValue : List α → Except ε β) (line : List α) :
    Except ε (List (List α × β)) :=
  (words sep line).foldlM (readField cut readValue) []

def printField (cut : α) (print : β → List α) (field : List α × β) : List α :=
  field.1 ++ cut :: print field.2

def printRecord (x cut : α) (print : β → List α) (record : List (List α × β)) : List α :=
  [x].intercalate (record.map (printField cut print))

variable {cut : α} {readValue : List α → Except ε β} {print : β → List α}
  {record : List (List α × β)}

/-- What is written can be read: keys and values do not collide with the separators. -/
structure Readable (sep : α → Bool) (cut : α) (readValue : List α → Except ε β)
    (print : β → List α) (record : List (List α × β)) : Prop where
  mark : sep cut = false
  keys : ∀ field ∈ record, cut ∉ field.1 ∧ ∀ y ∈ field.1, sep y = false
  values : ∀ field ∈ record, ∀ y ∈ print field.2, sep y = false
  distinct : (record.map Prod.fst).Nodup
  inverse : ∀ value, readValue (print value) = .ok value

theorem readField_printField {key : List α} (hcut : cut ∉ key)
    (hinverse : ∀ value, readValue (print value) = .ok value)
    (hnew : key ∉ record.map Prod.fst) (value : β) :
    readField cut readValue record (printField cut print (key, value)) =
      .ok (record ++ [(key, value)]) := by
  unfold readField printField
  rw [find?_singleton_append hcut]
  have hkey : (key ++ cut :: print value).take key.length = key := List.take_left' rfl
  have hvalue : (key ++ cut :: print value).drop (key.length + 1) = print value := by
    rw [← List.drop_drop, List.drop_left' rfl]
    rfl
  dsimp only
  rw [hkey, hvalue, hinverse]
  exact congrArg Except.ok (assign_new hnew value)

/-- The fields that are read go behind those that have been read. -/
theorem foldlM_readField (hcut : ∀ field ∈ record, cut ∉ field.1)
    (hinverse : ∀ value, readValue (print value) = .ok value) (before : List (List α × β))
    (hdistinct : ((before ++ record).map Prod.fst).Nodup) :
    (record.map (printField cut print)).foldlM (readField cut readValue) before =
      .ok (before ++ record) := by
  induction record generalizing before with
  | nil =>
    rw [List.append_nil]
    rfl
  | cons field record ih =>
    obtain ⟨key, value⟩ := field
    have hnew : key ∉ before.map Prod.fst := by
      rw [List.map_append, List.map_cons] at hdistinct
      intro hmem
      exact (List.nodup_append.mp hdistinct).2.2 key hmem key List.mem_cons_self rfl
    have hmore : ((before ++ [(key, value)] ++ record).map Prod.fst).Nodup := by
      rwa [List.append_assoc]
    have hread := readField_printField (hcut (key, value) List.mem_cons_self) hinverse hnew value
    rw [List.map_cons, List.foldlM_cons, hread]
    show List.foldlM _ (before ++ [(key, value)]) _ = _
    rw [ih (fun field' h => hcut field' (List.mem_cons_of_mem _ h)) _ hmore, List.append_assoc]
    rfl

omit [DecidableEq α] in
/-- A written record is a line of words. -/
theorem Readable.isWord (h : Readable sep cut readValue print record) :
    ∀ w ∈ record.map (printField cut print), IsWord sep w := by
  intro w hw
  obtain ⟨field, hfield, rfl⟩ := List.mem_map.mp hw
  constructor
  · simp [printField]
  · intro y hy
    rcases List.mem_append.mp hy with hy | hy
    · exact (h.keys field hfield).2 y hy
    · rcases List.mem_cons.mp hy with rfl | hy
      · exact h.mark
      · exact h.values field hfield y hy

omit [DecidableEq α] in
/-- Words and the separator between them are all there is in a line. -/
theorem Readable.mem_printRecord (h : Readable sep cut readValue print record) {y : α}
    (hy : y ∈ printRecord x cut print record) : y = x ∨ sep y = false := by
  rcases mem_intercalate hy with hy | ⟨w, hw, hy⟩
  · exact .inl hy
  · exact .inr ((h.isWord w hw).inside y hy)

/-- **Round trip.**  A record that was written is read. -/
theorem readRecord_printRecord (h : Readable sep cut readValue print record) (hx : sep x = true) :
    readRecord sep cut readValue (printRecord x cut print record) = .ok record := by
  unfold readRecord printRecord
  rw [words_intercalate h.isWord hx]
  have hdistinct : ((([] : List (List α × β)) ++ record).map Prod.fst).Nodup := h.distinct
  exact foldlM_readField (fun field hf => (h.keys field hf).1) h.inverse [] hdistinct

end Records
