import WebServer.Http.Grammar

/-!
# The parser accepts exactly its grammar

On a block, `parseRequestHeader` succeeds when the block is grammatical, is not chunked and
has the length a `POST` needs.  It then holds what the last line of each name says; otherwise
its error names the first of these that fails.
-/

namespace WebServer.Properties

open WebServer.Net WebServer.Http

variable {header : Bytes} {method : HttpMethod} {uri version : Bytes}
  {fields : List (Bytes × Bytes)} {field : Bytes × Bytes} {request request' : HttpRequest}

/-! ## Fields -/

/-- The value of the last line with this name. -/
def lastValue (name : Bytes) (fields : List (Bytes × Bytes)) : Option Bytes :=
  fields.reverse.lookup name

/-- A `transfer-encoding` line that mentions `chunked`, in any letter case. -/
def IsChunked (field : Bytes × Bytes) : Prop :=
  field.1 = ascii "transfer-encoding" ∧ ascii "chunked" <:+: lowercaseCopy field.2

def IsContentLength (field : Bytes × Bytes) : Prop := field.1 = ascii "content-length"

theorem lastValue_concat (name : Bytes) (fields : List (Bytes × Bytes)) (field : Bytes × Bytes) :
    lastValue name (fields ++ [field]) =
      if field.1 = name then some field.2 else lastValue name fields := by
  rw [lastValue, List.reverse_append]
  exact (HttpRequest.lookup_cons_eq_ite name field.1 field.2 fields.reverse).trans
    (if_congr eq_comm rfl rfl)

theorem lastValue_eq_none {name : Bytes} :
    lastValue name fields = none ↔ ∀ field ∈ fields, field.1 ≠ name := by
  induction fields using List.reverseRecOn with
  | nil => simp [lastValue]
  | append_singleton fields field ih =>
    rw [lastValue_concat, List.forall_mem_append, List.forall_mem_singleton, ← ih]
    by_cases h : field.1 = name <;> simp [h]

theorem lastValue_mem {name value : Bytes} (h : lastValue name fields = some value) :
    (name, value) ∈ fields := by
  induction fields using List.reverseRecOn with
  | nil => cases h
  | append_singleton fields field ih =>
    rw [lastValue_concat] at h
    split at h
    · rename_i hname
      cases h
      exact List.mem_append_right _ (List.mem_singleton.mpr (Prod.ext hname.symm rfl))
    · exact List.mem_append_left _ (ih h)

/-- The request holds what the lines say. -/
structure Describes (method : HttpMethod) (uri version : Bytes) (fields : List (Bytes × Bytes))
    (request : HttpRequest) : Prop where
  method : request.method = method
  uri : request.uri = uri
  version : request.version = version
  headers : ∀ name, request.findHeader name = lastValue name fields
  contentLength : request.contentLength? =
    (lastValue (ascii "content-length") fields).bind parseContentLengthValue
  chunked : request.chunkedTransferEncoding = true ↔ ∃ field ∈ fields, IsChunked field

theorem Describes.nil (method : HttpMethod) (uri version : Bytes) :
    Describes method uri version [] { method, uri, version } :=
  ⟨rfl, rfl, rfl, fun _ => rfl, rfl, by simp⟩

theorem addField_ok_iff : (∃ request', addField request field = .ok request') ↔
    (IsContentLength field → (parseContentLengthValue field.2).isSome = true) := by
  unfold addField IsContentLength
  by_cases h : field.1 = ascii "content-length"
  · cases hp : parseContentLengthValue field.2 <;> simp [h]
  · simp [h]

theorem addField_error {e : ParseError} (h : addField request field = .error e) :
    e = .kBadRequest := by
  unfold addField at h
  by_cases hname : field.1 = ascii "content-length"
  · cases hp : parseContentLengthValue field.2 with
    | none =>
      simp only [hname, hp, if_true] at h
      cases h
      rfl
    | some n =>
      simp only [hname, hp, if_true] at h
      cases h
  · simp only [hname, if_false] at h
    cases h

theorem isChunked_iff : IsChunked field ↔
    (field.1 = ascii "transfer-encoding" && containsChunkedToken field.2) = true := by
  simp [IsChunked, containsChunkedToken, Search.find?_isSome_iff]

theorem noteField_chunked : (noteField request field).chunkedTransferEncoding = true ↔
    request.chunkedTransferEncoding = true ∨ IsChunked field := by
  rw [isChunked_iff, noteField]
  split
  · rename_i h
    simp [h, HttpRequest.markChunkedTransferEncoding]
  · rename_i h
    simp [h, HttpRequest.addHeader]

/-- Apart from the mark, a line only adds its name and value. -/
theorem noteField_eq : ∃ chunked, noteField request field =
    { request.addHeader field.1 field.2 with chunkedTransferEncoding := chunked } := by
  unfold noteField
  dsimp only
  split
  · exact ⟨true, rfl⟩
  · exact ⟨_, rfl⟩

theorem noteField_findHeader (name : Bytes) : (noteField request field).findHeader name =
    if name = field.1 then some field.2 else request.findHeader name := by
  obtain ⟨chunked, h⟩ := @noteField_eq field request
  rw [h]
  exact HttpRequest.findHeader_addHeader request field.1 field.2 name

/-- **One more line.** -/
theorem Describes.addField (h : Describes method uri version fields request)
    (hadd : addField request field = .ok request') :
    Describes method uri version (fields ++ [field]) request' := by
  obtain ⟨chunked, hnote⟩ := @noteField_eq field request
  have hheaders (name : Bytes) : (noteField request field).findHeader name =
      lastValue name (fields ++ [field]) := by
    rw [noteField_findHeader, lastValue_concat, h.headers]
    exact if_congr eq_comm rfl rfl
  have hchunked : (noteField request field).chunkedTransferEncoding = true ↔
      ∃ f ∈ fields ++ [field], IsChunked f := by
    rw [noteField_chunked, h.chunked]
    simp [or_and_right, exists_or]
  have hmethod : (noteField request field).method = method := by rw [hnote]; exact h.method
  have huri : (noteField request field).uri = uri := by rw [hnote]; exact h.uri
  have hversion : (noteField request field).version = version := by rw [hnote]; exact h.version
  unfold Http.addField at hadd
  by_cases hname : field.1 = ascii "content-length"
  · rw [if_pos hname] at hadd
    cases hp : parseContentLengthValue field.2 with
    | none =>
      rw [hp] at hadd
      cases hadd
    | some n =>
      rw [hp] at hadd
      cases hadd
      refine ⟨hmethod, huri, hversion, hheaders, ?_, hchunked⟩
      rw [lastValue_concat, if_pos hname]
      exact hp.symm
  · rw [if_neg hname] at hadd
    cases hadd
    refine ⟨hmethod, huri, hversion, hheaders, ?_, hchunked⟩
    rw [lastValue_concat, if_neg hname, ← h.contentLength, hnote]
    rfl

/-! ## All lines -/

theorem addFields_ok (hlengths : ∀ field ∈ fields, IsContentLength field →
      (parseContentLengthValue field.2).isSome = true)
    (h : Describes method uri version [] request) :
    ∃ request', fields.foldlM addField request = .ok request' ∧
      Describes method uri version fields request' := by
  induction fields using List.reverseRecOn with
  | nil => exact ⟨request, rfl, h⟩
  | append_singleton fields field ih =>
    rw [List.forall_mem_append, List.forall_mem_singleton] at hlengths
    obtain ⟨q, hq, hdesc⟩ := ih hlengths.1
    obtain ⟨q', hq'⟩ := (@addField_ok_iff field q).mpr hlengths.2
    refine ⟨q', ?_, hdesc.addField hq'⟩
    rw [List.foldlM_append, hq]
    show (Http.addField q field >>= fun request => pure request) = _
    rw [hq']
    rfl

/-- Lines that parse are fields, and their lengths can be read. -/
theorem fields_of_parseLines {lines : List Bytes} (h : parseLines lines request = .ok request') :
    ∃ fields, List.Forall₂ IsHeaderField lines fields ∧ ∀ field ∈ fields, IsContentLength field →
      (parseContentLengthValue field.2).isSome = true := by
  induction lines generalizing request with
  | nil => exact ⟨[], .nil, by simp⟩
  | cons line lines ih =>
    have hcons : parseLines (line :: lines) request =
        (parseHeaderLine line request >>= parseLines lines) := rfl
    rw [hcons] at h
    cases hline : parseHeaderLine line request with
    | error e =>
      rw [hline] at h
      cases h
    | ok q =>
      rw [hline] at h
      obtain ⟨fields, hfields, hlengths⟩ := ih h
      by_cases hfield : ∃ field, IsHeaderField line field
      · obtain ⟨field, hfield⟩ := hfield
        rw [parseHeaderLine_field hfield] at hline
        have hlength := addField_ok_iff.mp ⟨q, hline⟩
        exact ⟨field :: fields, .cons hfield hfields, List.forall_mem_cons.mpr ⟨hlength, hlengths⟩⟩
      · rw [parseHeaderLine_no_field fun field hf => hfield ⟨field, hf⟩] at hline
        cases hline

theorem parseLines_fields {lines : List Bytes} (h : List.Forall₂ IsHeaderField lines fields)
    (request : HttpRequest) : parseLines lines request = fields.foldlM addField request := by
  induction h generalizing request with
  | nil => rfl
  | @cons line field lines fields hfield hfields ih =>
    have hcons : parseLines (line :: lines) request =
        (parseHeaderLine line request >>= parseLines lines) := rfl
    rw [hcons, parseHeaderLine_field hfield, List.foldlM_cons]
    exact congrArg _ (funext ih)

theorem parseLines_error {lines : List Bytes} {e : ParseError}
    (h : parseLines lines request = .error e) : e = .kBadRequest := by
  induction lines generalizing request with
  | nil => cases h
  | cons line lines ih =>
    have hcons : parseLines (line :: lines) request =
        (parseHeaderLine line request >>= parseLines lines) := rfl
    rw [hcons] at h
    cases hline : parseHeaderLine line request with
    | ok q =>
      rw [hline] at h
      exact ih h
    | error e' =>
      rw [hline] at h
      cases h
      by_cases hfield : ∃ field, IsHeaderField line field
      · obtain ⟨field, hfield⟩ := hfield
        rw [parseHeaderLine_field hfield] at hline
        exact addField_error hline
      · rw [parseHeaderLine_no_field fun field hf => hfield ⟨field, hf⟩] at hline
        cases hline
        rfl

/-! ## Blocks -/

/-- The grammar of header blocks, with the parts of the request line and the names and values
of the header lines. -/
structure Grammatical (header : Bytes) (method : HttpMethod) (uri version : Bytes)
    (fields : List (Bytes × Bytes)) : Prop where
  lines : ∃ requestLine lines, header = block requestLine lines ∧
    IsLine requestLine ∧ IsRequestLine requestLine method uri version ∧
    (∀ line ∈ lines, IsLine line) ∧ List.Forall₂ IsHeaderField lines fields
  lengths : ∀ field ∈ fields, IsContentLength field →
    (parseContentLengthValue field.2).isSome = true

theorem ne_nil_of_fields {lines : List Bytes} (h : List.Forall₂ IsHeaderField lines fields) :
    ∀ line ∈ lines, line ≠ [] := by
  induction h with
  | nil => simp
  | cons hfield hfields ih =>
    refine List.forall_mem_cons.mpr ⟨?_, ih⟩
    cases hfield
    simp

theorem Grammatical.parse (h : Grammatical header method uri version fields) :
    ∃ request, Describes method uri version fields request ∧
      parseRequestHeader header = checkRequest request := by
  obtain ⟨requestLine, lines, rfl, hr, hrequest, hlines, hfields⟩ := h.lines
  have hne : ∀ line ∈ lines, IsLine line ∧ line ≠ [] :=
    fun line hmem => ⟨hlines line hmem, ne_nil_of_fields hfields line hmem⟩
  obtain ⟨request, hparsed, hdesc⟩ := addFields_ok h.lengths (Describes.nil method uri version)
  refine ⟨request, hdesc, ?_⟩
  rw [parseRequestHeader_block hr hne,
    (parseRequestLine_ok_iff requestLine {} _).mpr ⟨method, uri, version, hrequest, rfl⟩]
  show (parseLines lines { method, uri, version } >>= checkRequest) = _
  rw [parseLines_fields hfields, hparsed]
  rfl

theorem parse_of_not_grammatical (hheader : IsBlock header)
    (h : ∀ method uri version fields, ¬ Grammatical header method uri version fields) :
    parseRequestHeader header = .error .kBadRequest := by
  obtain ⟨requestLine, lines, rfl, hr, hlines⟩ := hheader.lines
  rw [parseRequestHeader_block hr hlines]
  cases hrequest : parseRequestLine requestLine {} with
  | error e =>
    rw [parseRequestLine_error hrequest]
    rfl
  | ok q =>
    show (parseLines lines q >>= checkRequest) = _
    cases hparsed : parseLines lines q with
    | error e =>
      rw [parseLines_error hparsed]
      rfl
    | ok request =>
      obtain ⟨method, uri, version, hline, -⟩ := (parseRequestLine_ok_iff ..).mp hrequest
      obtain ⟨fields, hfields, hlengths⟩ := fields_of_parseLines hparsed
      exact absurd ⟨⟨requestLine, lines, rfl, hr, hline, fun l hl => (hlines l hl).1, hfields⟩,
        hlengths⟩ (h method uri version fields)

/-- A `POST` needs a length. -/
def LacksLength (method : HttpMethod) (fields : List (Bytes × Bytes)) : Prop :=
  method = .kPost ∧ ∀ field ∈ fields, ¬ IsContentLength field

theorem Describes.hasContentLength (h : Describes method uri version fields request)
    (hlengths : ∀ field ∈ fields, IsContentLength field →
      (parseContentLengthValue field.2).isSome = true) :
    request.hasContentLength = false ↔ ∀ field ∈ fields, ¬ IsContentLength field := by
  have hiff := @lastValue_eq_none fields (ascii "content-length")
  rw [HttpRequest.hasContentLength, h.contentLength]
  cases hlast : lastValue (ascii "content-length") fields with
  | none => simpa [IsContentLength] using hiff.mp hlast
  | some value =>
    have hmem := lastValue_mem hlast
    rw [Option.bind_some, hlengths _ hmem rfl]
    simp only [Bool.true_eq_false, false_iff]
    exact fun hnone => hnone _ hmem rfl

/-- The last checks, in the order of the code. -/
theorem Describes.check (h : Describes method uri version fields request)
    (hlengths : ∀ field ∈ fields, IsContentLength field →
      (parseContentLengthValue field.2).isSome = true) :
    (checkRequest request = .error .kNotImplementedChunked ∧ ∃ field ∈ fields, IsChunked field) ∨
      (¬ ∃ field ∈ fields, IsChunked field) ∧
        (checkRequest request = .error .kLengthRequired ∧ LacksLength method fields ∨
          checkRequest request = .ok request ∧ ¬ LacksLength method fields) := by
  unfold checkRequest LacksLength
  rw [h.method, ← h.hasContentLength hlengths, ← h.chunked]
  cases request.chunkedTransferEncoding with
  | true => simp
  | false =>
    by_cases hlacks : method = .kPost ∧ request.hasContentLength = false
    · simp [hlacks]
    · simp only [not_and, Bool.not_eq_false] at hlacks
      by_cases hpost : method = .kPost
      · simp [hpost, hlacks hpost]
      · simp [hpost]

/-- What becomes of a grammatical block. -/
theorem Grammatical.outcome (h : Grammatical header method uri version fields) :
    (parseRequestHeader header = .error .kNotImplementedChunked ∧
        ∃ field ∈ fields, IsChunked field) ∨
      (¬ ∃ field ∈ fields, IsChunked field) ∧
        (parseRequestHeader header = .error .kLengthRequired ∧ LacksLength method fields ∨
          ∃ request, parseRequestHeader header = .ok request ∧
            Describes method uri version fields request ∧ ¬ LacksLength method fields) := by
  obtain ⟨request, hdesc, hparse⟩ := h.parse
  rw [hparse]
  refine (hdesc.check h.lengths).imp_right fun ⟨hchunked, hcheck⟩ => ⟨hchunked, ?_⟩
  exact hcheck.imp_right fun ⟨hok, hlength⟩ => ⟨request, hok, hdesc, hlength⟩

theorem Grammatical.describes (h : Grammatical header method uri version fields)
    (hparse : parseRequestHeader header = .ok request) :
    Describes method uri version fields request := by
  rcases h.outcome with ⟨he, -⟩ | ⟨-, ⟨he, -⟩ | ⟨request', hok, hdesc, -⟩⟩
  · exact absurd (hparse.symm.trans he) (by simp)
  · exact absurd (hparse.symm.trans he) (by simp)
  · rw [hparse] at hok
    cases hok
    exact hdesc

/-- **The parser accepts exactly its grammar.**  On a block it succeeds if the block is
grammatical, no line is chunked and no length is lacking, and then it holds what the lines say.
Otherwise it reports the first of the three that fails. -/
theorem parseRequestHeader_grammar (hheader : IsBlock header) :
    ((∃ request, parseRequestHeader header = .ok request) ↔
        ∃ method uri version fields, Grammatical header method uri version fields ∧
          (¬ ∃ field ∈ fields, IsChunked field) ∧ ¬ LacksLength method fields) ∧
      (∀ request method uri version fields, parseRequestHeader header = .ok request →
        Grammatical header method uri version fields →
          Describes method uri version fields request) ∧
      (parseRequestHeader header = .error .kBadRequest ↔
        ¬ ∃ method uri version fields, Grammatical header method uri version fields) ∧
      (parseRequestHeader header = .error .kNotImplementedChunked ↔
        ∃ method uri version fields, Grammatical header method uri version fields ∧
          ∃ field ∈ fields, IsChunked field) ∧
      (parseRequestHeader header = .error .kLengthRequired ↔
        ∃ method uri version fields, Grammatical header method uri version fields ∧
          (¬ ∃ field ∈ fields, IsChunked field) ∧ LacksLength method fields) := by
  have hbad (hno : ¬ ∃ method uri version fields, Grammatical header method uri version fields) :
      parseRequestHeader header = .error .kBadRequest :=
    parse_of_not_grammatical hheader fun method uri version fields h =>
      hno ⟨method, uri, version, fields, h⟩
  -- an outcome other than a bad request comes from a grammatical block
  have hgood {outcome : Except ParseError HttpRequest}
      (hparse : parseRequestHeader header = outcome) (hne : outcome ≠ .error .kBadRequest) :
      ∃ method uri version fields, Grammatical header method uri version fields := by
    by_contra hno
    exact hne (hparse.symm.trans (hbad hno))
  refine ⟨⟨?_, ?_⟩, ?_, ⟨?_, hbad⟩, ⟨?_, ?_⟩, ⟨?_, ?_⟩⟩
  · rintro ⟨request, hok⟩
    obtain ⟨method, uri, version, fields, h⟩ := hgood hok (by simp)
    rcases h.outcome with ⟨he, -⟩ | ⟨hchunked, ⟨he, -⟩ | ⟨_, -, -, hlength⟩⟩
    · exact absurd (hok.symm.trans he) (by simp)
    · exact absurd (hok.symm.trans he) (by simp)
    · exact ⟨method, uri, version, fields, h, hchunked, hlength⟩
  · rintro ⟨method, uri, version, fields, h, hchunked, hlength⟩
    rcases h.outcome with ⟨-, hc⟩ | ⟨-, ⟨-, hl⟩ | ⟨request, hok, -⟩⟩
    · exact absurd hc hchunked
    · exact absurd hl hlength
    · exact ⟨request, hok⟩
  · exact fun request method uri version fields hok h => h.describes hok
  · rintro he ⟨method, uri, version, fields, h⟩
    rcases h.outcome with ⟨he', -⟩ | ⟨-, ⟨he', -⟩ | ⟨request, hok, -⟩⟩
    · exact absurd (he.symm.trans he') (by simp)
    · exact absurd (he.symm.trans he') (by simp)
    · exact absurd (he.symm.trans hok) (by simp)
  · intro he
    obtain ⟨method, uri, version, fields, h⟩ := hgood he (by simp)
    rcases h.outcome with ⟨-, hc⟩ | ⟨-, ⟨he', -⟩ | ⟨request, hok, -⟩⟩
    · exact ⟨method, uri, version, fields, h, hc⟩
    · exact absurd (he.symm.trans he') (by simp)
    · exact absurd (he.symm.trans hok) (by simp)
  · rintro ⟨method, uri, version, fields, h, hc⟩
    exact h.outcome.elim And.left fun hno => absurd hc hno.1
  · intro he
    obtain ⟨method, uri, version, fields, h⟩ := hgood he (by simp)
    rcases h.outcome with ⟨he', -⟩ | ⟨hchunked, ⟨-, hl⟩ | ⟨request, hok, -⟩⟩
    · exact absurd (he.symm.trans he') (by simp)
    · exact ⟨method, uri, version, fields, h, hchunked, hl⟩
    · exact absurd (he.symm.trans hok) (by simp)
  · rintro ⟨method, uri, version, fields, h, hchunked, hlength⟩
    rcases h.outcome with ⟨-, hc⟩ | ⟨-, ⟨he, -⟩ | ⟨request, -, -, hl⟩⟩
    · exact absurd hc hchunked
    · exact he
    · exact absurd hlength hl

/-- A `POST` whose length is given twice. -/
def repeatedLength : Bytes :=
  ascii "POST /a HTTP/1.1\r\nContent-Length: 5\r\nX: \r\nCONTENT-length : 7\r\n\r\n"

theorem parseRequestHeader_grammar_repeatedLength : IsBlock repeatedLength ∧
    ∃ method uri version fields, Grammatical repeatedLength method uri version fields ∧
      (¬ ∃ field ∈ fields, IsChunked field) ∧ ¬ LacksLength method fields := by
  have hblock : IsBlock repeatedLength := ⟨60, by decide +kernel, by decide +kernel⟩
  have hok : ((parseRequestHeader repeatedLength).toOption).isSome = true := by decide +kernel
  refine ⟨hblock, (parseRequestHeader_grammar hblock).1.mp ?_⟩
  cases hparse : parseRequestHeader repeatedLength with
  | ok request => exact ⟨request, rfl⟩
  | error e =>
    rw [hparse] at hok
    cases hok

end WebServer.Properties
