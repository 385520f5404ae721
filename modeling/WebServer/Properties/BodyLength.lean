import Mathlib.Data.List.DropRight
import WebServer.Properties.RequestGrammar

/-!
# The length of a body

`ParseContentLengthValue` leaves the reading of numbers to `std::stoull`, and the last
`Content-Length` line of a block decides.
-/

namespace WebServer.Properties

open WebServer.Net WebServer.Http

variable {header : Bytes} {method : HttpMethod} {uri version value : Bytes} {n : Nat}
  {fields : List (Bytes × Bytes)} {request : HttpRequest}

/-! ## Trimming -/

theorem trim_eq (text : Bytes) : trim text = (text.dropWhile isSpace).rdropWhile isSpace := rfl

theorem trim_head {b : UInt8} {rest text : Bytes} (h : trim text = b :: rest) :
    isSpace b = false := by
  have hstart : b :: rest <+: text.dropWhile isSpace := h ▸ List.rdropWhile_prefix isSpace _
  obtain ⟨more, hmore⟩ := hstart
  have hself := List.dropWhile_idempotent isSpace text
  rw [← hmore, List.cons_append, List.dropWhile_cons] at hself
  by_contra hspace
  rw [if_pos (by simpa using hspace)] at hself
  have hlen := congrArg List.length hself
  have hle := (List.dropWhile_sublist (l := rest ++ more) isSpace).length_le
  simp only [List.length_cons] at hlen
  omega

theorem dropWhile_trim (text : Bytes) : (trim text).dropWhile isSpace = trim text := by
  cases h : trim text with
  | nil => rfl
  | cons b rest => simp [trim_head h]

theorem trim_trim (text : Bytes) : trim (trim text) = trim text := by
  rw [trim_eq, dropWhile_trim, trim_eq, List.rdropWhile_idempotent]

/-! ## Numbers -/

/-- What `std::stoull` makes of the digits behind a sign. -/
def signedValue (sign digits : Bytes) : Nat :=
  if sign = [45] then (2 ^ 64 - digitsValue digits) % 2 ^ 64 else digitsValue digits

/-- An optional sign and digits of a number below `2^64`. -/
structure IsNumber (text sign digits : Bytes) : Prop where
  text_eq : text = sign ++ digits
  signed : sign ∈ [[], [43], [45]]
  ne_nil : digits ≠ []
  all : ∀ b ∈ digits, isDigit b = true
  bounded : digitsValue digits < 2 ^ 64

/-- A text without leading blanks begins with a sign or with what is read as digits. -/
theorem exists_sign (text : Bytes) : ∃ sign rest, text = sign ++ rest ∧
    sign ∈ [[], [43], [45]] ∧ (sign = [] → text.head? ≠ some 43 ∧ text.head? ≠ some 45) := by
  by_cases hplus : text.head? = some 43
  · obtain ⟨rest, rfl⟩ := List.head?_eq_some_iff.mp hplus
    exact ⟨[43], rest, rfl, by simp, by simp⟩
  · by_cases hminus : text.head? = some 45
    · obtain ⟨rest, rfl⟩ := List.head?_eq_some_iff.mp hminus
      exact ⟨[45], rest, rfl, by simp, by simp⟩
    · exact ⟨[], text, rfl, by simp, fun _ => ⟨hplus, hminus⟩⟩

theorem stoull_sign {sign rest : Bytes} (hblank : (sign ++ rest).dropWhile isSpace = sign ++ rest)
    (hsign : sign ∈ [[], [43], [45]])
    (hnone : sign = [] → rest.head? ≠ some 43 ∧ rest.head? ≠ some 45) :
    stoull (sign ++ rest) =
      if rest.takeWhile isDigit = [] then none
      else if 2 ^ 64 ≤ digitsValue (rest.takeWhile isDigit) then none
      else some (signedValue sign (rest.takeWhile isDigit),
        sign.length + (rest.takeWhile isDigit).length) := by
  have htake : (sign ++ rest).takeWhile isSpace = [] := by
    have hlen := congrArg List.length (List.takeWhile_append_dropWhile (p := isSpace) (l := sign ++ rest))
    rw [List.length_append, hblank] at hlen
    exact List.eq_nil_of_length_eq_zero (by omega)
  unfold stoull signedValue
  dsimp only
  rw [hblank, htake]
  simp only [List.mem_cons, List.not_mem_nil, or_false] at hsign
  rcases hsign with rfl | rfl | rfl
  · simp [hnone rfl]
  · simp
  · simp

/-- **Reading a length.**  A value is read if it is a number, up to one sign. -/
theorem number_of_parse (h : parseContentLengthValue value = some n) :
    ∃ sign digits, IsNumber (trim value) sign digits ∧ n = signedValue sign digits := by
  obtain ⟨sign, rest, htext, hsign, hnone⟩ := exists_sign (trim value)
  have hblank := dropWhile_trim value
  rw [htext] at hblank hnone
  have hread := stoull_sign hblank hsign fun hs => by simpa [hs] using hnone hs
  unfold parseContentLengthValue at h
  dsimp only at h
  rw [htext, hread] at h
  split at h
  · cases h
  · by_cases hempty : rest.takeWhile isDigit = []
    · rw [if_pos hempty] at h
      cases h
    · by_cases hlarge : 2 ^ 64 ≤ digitsValue (rest.takeWhile isDigit)
      · rw [if_neg hempty, if_pos hlarge] at h
        cases h
      · rw [if_neg hempty, if_neg hlarge] at h
        dsimp only at h
        split at h
        · rename_i hparsed
          cases h
          -- all of the text was read, so there is nothing behind the digits
          have hall : rest.takeWhile isDigit = rest := by
            rw [List.length_append] at hparsed
            exact (List.takeWhile_prefix isDigit).eq_of_length (by omega)
          rw [hall] at hempty hlarge ⊢
          refine ⟨sign, rest, ⟨htext, hsign, hempty, ?_, by omega⟩, rfl⟩
          exact List.takeWhile_eq_self_iff.mp hall
        · cases h

/-! ## The lines of a block -/

/-- Every value is a string of digits of a number below `2^64`, and all of them denote the length
of the body. -/
def Unambiguous (fields : List (Bytes × Bytes)) (request : HttpRequest) : Prop :=
  ∀ field ∈ fields, IsContentLength field → field.2 ≠ [] ∧ (∀ b ∈ field.2, isDigit b = true) ∧
    digitsValue field.2 < 2 ^ 64 ∧ request.contentLength = digitsValue field.2

theorem Grammatical.trimmed (h : Grammatical header method uri version fields) :
    ∀ field ∈ fields, trim field.2 = field.2 := by
  obtain ⟨_, lines, -, -, -, -, hfields⟩ := h.lines
  clear h
  induction hfields with
  | nil => simp
  | cons hfield hfields ih =>
    refine List.forall_mem_cons.mpr ⟨?_, ih⟩
    cases hfield
    exact trim_trim _

/-- **The length of a body.**  In an accepted block every `Content-Length` value is, up to one
leading sign, a non-empty string of digits that denotes a number below `2^64`.  The last line
decides: if its value has no sign, it denotes the length. -/
theorem contentLength_lastLine (hparse : parseRequestHeader header = .ok request)
    (h : Grammatical header method uri version fields)
    (hlength : ∃ field ∈ fields, IsContentLength field) :
    (∀ field ∈ fields, IsContentLength field → ∃ sign digits, IsNumber field.2 sign digits) ∧
      ∃ value, lastValue (ascii "content-length") fields = some value ∧
        ((∀ b ∈ value, isDigit b = true) → request.contentLength = digitsValue value) := by
  have hnumber (field : Bytes × Bytes) (hmem : field ∈ fields) (hname : IsContentLength field) :
      ∃ n sign digits, parseContentLengthValue field.2 = some n ∧
        IsNumber field.2 sign digits ∧ n = signedValue sign digits := by
    obtain ⟨n, hn⟩ := Option.isSome_iff_exists.mp (h.lengths field hmem hname)
    obtain ⟨sign, digits, hnum, hvalue⟩ := number_of_parse hn
    rw [h.trimmed field hmem] at hnum
    exact ⟨n, sign, digits, hn, hnum, hvalue⟩
  refine ⟨fun field hmem hname => ?_, ?_⟩
  · obtain ⟨_, sign, digits, -, hnum, -⟩ := hnumber field hmem hname
    exact ⟨sign, digits, hnum⟩
  · have hdesc := h.describes hparse
    cases hlast : lastValue (ascii "content-length") fields with
    | none =>
      obtain ⟨field, hmem, hname⟩ := hlength
      exact absurd hname (lastValue_eq_none.mp hlast field hmem)
    | some value =>
      refine ⟨value, rfl, fun hdigits => ?_⟩
      obtain ⟨n, sign, digits, hn, hnum, hvalue⟩ := hnumber _ (lastValue_mem hlast) rfl
      have hsign : sign = [] := by
        have hsigned := hnum.signed
        have hall : ∀ b ∈ sign, isDigit b = true := by
          intro b hb
          refine hdigits b ?_
          rw [show value = sign ++ digits from hnum.text_eq]
          exact List.mem_append_left _ hb
        simp only [List.mem_cons, List.not_mem_nil, or_false] at hsigned
        rcases hsigned with rfl | rfl | rfl
        · rfl
        · exact absurd (hall 43 List.mem_cons_self) (by decide)
        · exact absurd (hall 45 List.mem_cons_self) (by decide)
      have hlen : request.contentLength? = some n := by
        rw [hdesc.contentLength, hlast]
        exact hn
      rw [show value = sign ++ digits from hnum.text_eq, hsign, List.nil_append,
        HttpRequest.contentLength, hlen, Option.getD_some, hvalue, hsign]
      rfl

/-- The header lines of `repeatedLength`. -/
def repeatedFields : List (Bytes × Bytes) :=
  [(ascii "content-length", ascii "5"), (ascii "x", []), (ascii "content-length", ascii "7")]

theorem grammatical_repeatedLength :
    Grammatical repeatedLength .kPost (ascii "/a") (ascii "HTTP/1.1") repeatedFields := by
  have hrequest : IsRequestLine (ascii "POST /a HTTP/1.1") .kPost (ascii "/a") (ascii "HTTP/1.1") :=
    @IsRequestLine.mk .kPost (ascii "POST") (ascii "/a") (ascii "HTTP/1.1") (by simp) (by decide)
      (by decide) (by simp)
  have hfirst : IsHeaderField (ascii "Content-Length: 5") (ascii "content-length", ascii "5") :=
    @IsHeaderField.mk (ascii "Content-Length") (ascii " 5") (by decide) (by decide)
  have hsecond : IsHeaderField (ascii "X: ") (ascii "x", []) :=
    @IsHeaderField.mk (ascii "X") (ascii " ") (by decide) (by decide)
  have hthird : IsHeaderField (ascii "CONTENT-length : 7") (ascii "content-length", ascii "7") :=
    @IsHeaderField.mk (ascii "CONTENT-length ") (ascii " 7") (by decide) (by decide)
  refine ⟨⟨_, _, ?_, ?_, hrequest, ?_, .cons hfirst (.cons hsecond (.cons hthird .nil))⟩, ?_⟩
  · decide
  · exact Lines.isLine_of_not_mem (by decide)
  · simp only [List.forall_mem_cons]
    refine ⟨?_, ?_, ?_, by simp⟩
    all_goals exact Lines.isLine_of_not_mem (by decide)
  · unfold repeatedFields IsContentLength
    decide

/-- Two lines with different lengths are accepted. -/
theorem not_unambiguous_repeatedLength : ¬ ∀ header request method uri version fields,
    IsBlock header → parseRequestHeader header = .ok request →
      Grammatical header method uri version fields →
        (∃ field ∈ fields, IsContentLength field) → Unambiguous fields request := by
  intro h
  have hblock : IsBlock repeatedLength := ⟨60, by decide +kernel, by decide +kernel⟩
  have hok : ((parseRequestHeader repeatedLength).toOption).isSome = true := by decide +kernel
  cases hparse : parseRequestHeader repeatedLength with
  | error e =>
    rw [hparse] at hok
    cases hok
  | ok request =>
    have hall := h _ request _ _ _ _ hblock hparse grammatical_repeatedLength
      ⟨_, List.mem_cons_self, rfl⟩
    obtain ⟨-, -, -, hfive⟩ := hall (ascii "content-length", ascii "5") (by simp [repeatedFields]) rfl
    obtain ⟨-, -, -, hseven⟩ := hall (ascii "content-length", ascii "7") (by simp [repeatedFields]) rfl
    exact absurd (hfive.symm.trans hseven) (by decide)

/-- The second of the two lengths counts. -/
theorem contentLength_lastLine_repeatedLength : ∃ request,
    parseRequestHeader repeatedLength = .ok request ∧ request.contentLength = 7 := by
  have hok : ((parseRequestHeader repeatedLength).toOption).isSome = true := by decide +kernel
  cases hparse : parseRequestHeader repeatedLength with
  | error e =>
    rw [hparse] at hok
    cases hok
  | ok request =>
    obtain ⟨-, value, hvalue, hlength⟩ := contentLength_lastLine hparse grammatical_repeatedLength
      ⟨_, List.mem_cons_self, rfl⟩
    obtain rfl : ascii "7" = value := Option.some.inj hvalue
    have hdigits : (ascii "7").all isDigit = true := by decide
    exact ⟨request, rfl, hlength (List.all_eq_true.mp hdigits)⟩

end WebServer.Properties
