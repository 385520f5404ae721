import WebServer.Http.Parser
import WebServer.Http.Response
import WebServer.Lib.Lines
import WebServer.Net.DynamicBuffer

/-!
# The grammar of header blocks

What a header block is, stated without a parser: a request line, header lines and an empty
line.  `parseRequestHeader` computes on a block what its lines say.
-/

namespace WebServer.Http

open WebServer.Net

/-! ## Blocks -/

abbrev IsLine (l : Bytes) : Prop := Lines.IsLine 13 10 l

/-- `request-line CRLF (header-line CRLF)* CRLF`. -/
def block (requestLine : Bytes) (lines : List Bytes) : Bytes :=
  requestLine ++ crlf ++ lines.flatMap (· ++ crlf) ++ crlf

/-- `CRLFCRLF` occurs exactly once, at the end. -/
def IsBlock (header : Bytes) : Prop :=
  ∃ headerEnd, Search.find? crlfcrlf header = some headerEnd ∧ header.length = headerEnd + 4

/-- What `PopNextHeader` returns is a block. -/
theorem isBlock_take {input : Bytes} {headerEnd : Nat}
    (h : Search.find? crlfcrlf input = some headerEnd) : IsBlock (input.take (headerEnd + 4)) := by
  have hlen := Search.find?_length_le h
  have htake : (input.take (headerEnd + 4)).length = headerEnd + 4 := by
    rw [List.length_take]
    exact Nat.min_eq_left hlen
  cases hf : Search.find? crlfcrlf (input.take (headerEnd + 4)) with
  | some n =>
    have hsame := Search.find?_append hf (input.drop (headerEnd + 4))
    rw [List.take_append_drop, h] at hsame
    exact ⟨n, hf, by rw [htake, Option.some.inj hsame]⟩
  | none =>
    -- the occurrence in the input lies within the bytes taken
    have hstart : crlfcrlf <+: (input.take (headerEnd + 4)).drop headerEnd := by
      rw [List.drop_take, Nat.add_sub_cancel_left]
      exact (List.prefix_take_iff.mpr ⟨Search.prefix_of_find? h, Nat.le_refl _⟩)
    have hsome := Search.find?_isSome_iff.mpr (hstart.isInfix.trans (List.drop_suffix ..).isInfix)
    rw [hf] at hsome
    cases hsome

/-- **The lines of a block.**  A block consists of lines, and no header line is empty. -/
theorem IsBlock.lines {header : Bytes} (h : IsBlock header) : ∃ requestLine lines,
    header = block requestLine lines ∧ IsLine requestLine ∧
      ∀ line ∈ lines, IsLine line ∧ line ≠ [] := by
  obtain ⟨headerEnd, hfind, hlen⟩ := h
  obtain ⟨requestLine, lines, hlines⟩ :=
    List.exists_cons_of_ne_nil (@Lines.split_ne_nil _ 13 10 _ (header.take headerEnd))
  have hjoin : Lines.join 13 10 (requestLine :: lines) = header.take headerEnd := by
    rw [← hlines, Lines.join_split]
  have hline : ∀ line ∈ requestLine :: lines, IsLine line := by
    intro line hmem
    rw [← hlines] at hmem
    exact Lines.isLine_of_mem_split hmem
  have hheader : header = Lines.join 13 10 (requestLine :: lines) ++ 13 :: 10 :: 13 :: 10 :: [] := by
    rw [hjoin]
    conv_lhs => rw [← List.take_append_drop headerEnd header]
    congr 1
    refine ((Search.prefix_of_find? hfind).eq_of_length ?_).symm
    rw [List.length_drop, hlen]
    exact (Nat.add_sub_cancel_left ..).symm
  refine ⟨requestLine, lines, ?_, hline requestLine List.mem_cons_self, fun line hmem => ?_⟩
  · rw [hheader, Lines.join_append]
    simp [block, crlf]
  · refine ⟨hline line (List.mem_cons_of_mem _ hmem), ?_⟩
    refine (Lines.find?_blankLine_iff (by decide) hline []).mp ?_ line hmem
    rw [← hheader, hjoin, List.length_take, Nat.min_eq_left (by omega)]
    exact hfind

/-! ## Lines -/

/-- `METHOD SP URI SP VERSION`. -/
inductive IsRequestLine : Bytes → HttpMethod → Bytes → Bytes → Prop
  | mk {method token uri version}
    (htoken : (token, method) ∈ [(ascii "GET", HttpMethod.kGet), (ascii "POST", .kPost)])
    (huri : uri ≠ []) (hspace : 32 ∉ uri)
    (hversion : version ∈ [ascii "HTTP/1.0", ascii "HTTP/1.1"]) :
    IsRequestLine (token ++ 32 :: (uri ++ 32 :: version)) method uri version

/-- A header line, with its name as it is looked up and its value. -/
inductive IsHeaderField : Bytes → Bytes × Bytes → Prop
  | mk {before after} (hcolon : 58 ∉ before) (hname : lowercaseCopy (trim before) ≠ []) :
    IsHeaderField (before ++ 58 :: after) (lowercaseCopy (trim before), trim after)

/-- The request with the name and the value of a line, and the mark for `chunked`. -/
def noteField (request : HttpRequest) (field : Bytes × Bytes) : HttpRequest :=
  let request := request.addHeader field.1 field.2
  if field.1 = ascii "transfer-encoding" && containsChunkedToken field.2 then
    request.markChunkedTransferEncoding
  else request

/-- What `ParseHeaderLine` does with the name and the value of a line. -/
def addField (request : HttpRequest) (field : Bytes × Bytes) : Except ParseError HttpRequest :=
  if field.1 = ascii "content-length" then
    match parseContentLengthValue field.2 with
    | none => .error .kBadRequest
    | some contentLength => .ok ((noteField request field).setContentLength contentLength)
  else .ok (noteField request field)

theorem parseRequestLine_append {token uri : Bytes} (ht : 32 ∉ token) (hu : 32 ∉ uri)
    (version : Bytes) (request : HttpRequest) :
    parseRequestLine (token ++ 32 :: (uri ++ 32 :: version)) request =
      if parseMethodToken token = .kUnknown || uri = [] || !isSupportedVersion version then
        .error .kBadRequest
      else .ok { request with method := parseMethodToken token, uri, version } := by
  have hrest : (token ++ 32 :: (uri ++ 32 :: version)).drop (token.length + 1) =
      uri ++ 32 :: version := by
    rw [← List.drop_drop, List.drop_left, List.drop_one, List.tail_cons]
  have hversion : (token ++ 32 :: (uri ++ 32 :: version)).drop
      (token.length + 1 + uri.length + 1) = version := by
    rw [Nat.add_assoc, ← List.drop_drop, hrest, ← List.drop_drop, List.drop_left, List.drop_one,
      List.tail_cons]
  rw [parseRequestLine, Search.find?_singleton_append ht]
  dsimp only
  rw [hrest, Search.find?_singleton_append hu]
  dsimp only
  rw [hversion, List.take_left, List.take_left]

theorem parseMethodToken_iff {token : Bytes} {method : HttpMethod} (h : method ≠ .kUnknown) :
    parseMethodToken token = method ↔
      (token, method) ∈ [(ascii "GET", HttpMethod.kGet), (ascii "POST", .kPost)] := by
  have hne : ascii "POST" ≠ ascii "GET" := by decide
  unfold parseMethodToken
  by_cases hget : token = ascii "GET"
  · simp [hget, hne.symm, eq_comm]
  · by_cases hpost : token = ascii "POST"
    · simp [hpost, hne, hne.symm, eq_comm]
    · simp [hget, hpost, h.symm]

/-- **The request line.** -/
theorem parseRequestLine_ok_iff (line : Bytes) (request request' : HttpRequest) :
    parseRequestLine line request = .ok request' ↔ ∃ method uri version,
      IsRequestLine line method uri version ∧ request' = { request with method, uri, version } := by
  constructor
  · intro h
    have hfound := h
    unfold parseRequestLine at hfound
    split at hfound
    · cases hfound
    · rename_i firstSpace hfirst
      obtain ⟨token, rest, rfl, ht, rfl⟩ := Search.find?_singleton_eq_some hfirst
      rw [← List.drop_drop, List.drop_left, List.drop_one, List.tail_cons] at hfound
      split at hfound
      · cases hfound
      · rename_i uriLength hsecond
        obtain ⟨uri, version, rfl, hu, rfl⟩ := Search.find?_singleton_eq_some hsecond
        rw [parseRequestLine_append ht hu] at h
        split at h
        · cases h
        · rename_i hcond
          simp only [Bool.or_eq_true, decide_eq_true_eq, Bool.not_eq_true', not_or,
            Bool.not_eq_false] at hcond
          cases h
          refine ⟨_, uri, version, .mk ((parseMethodToken_iff hcond.1.1).mp rfl) hcond.1.2 hu ?_, rfl⟩
          have hversion := hcond.2
          simp only [isSupportedVersion, Bool.or_eq_true, decide_eq_true_eq] at hversion
          simpa [or_comm] using hversion
  · rintro ⟨method, uri, version, hline, rfl⟩
    cases hline with
    | @mk _ token _ _ htoken huri hspace hversion =>
      have hmethod : method ≠ .kUnknown ∧ 32 ∉ token := by
        simp only [List.mem_cons, Prod.mk.injEq, List.not_mem_nil, or_false] at htoken
        rcases htoken with ⟨rfl, rfl⟩ | ⟨rfl, rfl⟩ <;> exact of_decide_eq_true rfl
      have hsupported : isSupportedVersion version = true := by
        simp only [List.mem_cons, List.not_mem_nil, or_false] at hversion
        rcases hversion with rfl | rfl <;> rfl
      rw [parseRequestLine_append hmethod.2 hspace, (parseMethodToken_iff hmethod.1).mpr htoken,
        if_neg (by simp [hmethod.1, huri, hsupported])]

theorem parseRequestLine_error {line : Bytes} {request : HttpRequest} {e : ParseError}
    (h : parseRequestLine line request = .error e) : e = .kBadRequest := by
  unfold parseRequestLine at h
  split at h
  · cases h
    rfl
  · split at h
    · cases h
      rfl
    · dsimp only at h
      split at h
      · cases h
        rfl
      · cases h

/-- **A header line.** -/
theorem parseHeaderLine_field {line : Bytes} {field : Bytes × Bytes} (h : IsHeaderField line field)
    (request : HttpRequest) : parseHeaderLine line request = addField request field := by
  obtain ⟨hcolon, hname⟩ := h
  rename_i before after
  obtain ⟨n, hn⟩ : ∃ n, before.length = n + 1 := by
    refine ⟨before.length - 1, ?_⟩
    have : before ≠ [] := by
      rintro rfl
      exact hname rfl
    have := List.length_pos_of_ne_nil this
    omega
  have htake : (before ++ 58 :: after).take (n + 1) = before := by
    rw [← hn, List.take_left]
  have hdrop : (before ++ 58 :: after).drop (n + 2) = after := by
    rw [show n + 2 = before.length + 1 by omega, ← List.drop_drop, List.drop_left, List.drop_one,
      List.tail_cons]
  rw [parseHeaderLine, Search.find?_singleton_append hcolon, hn]
  dsimp only
  rw [htake, hdrop, if_neg hname]
  rfl

theorem parseHeaderLine_no_field {line : Bytes} (h : ∀ field, ¬ IsHeaderField line field)
    (request : HttpRequest) : parseHeaderLine line request = .error .kBadRequest := by
  unfold parseHeaderLine
  split
  · rfl
  · rfl
  · rename_i n hfind
    obtain ⟨before, after, rfl, hcolon, hn⟩ := Search.find?_singleton_eq_some hfind
    rw [List.take_left' hn]
    dsimp only
    split
    · rfl
    · rename_i hname
      exact absurd (.mk hcolon hname) (h _)

/-! ## Parsing a block -/

/-- The lines of a block one after another. -/
def parseLines (lines : List Bytes) (request : HttpRequest) : Except ParseError HttpRequest :=
  lines.foldlM (fun request line => parseHeaderLine line request) request

/-- The loop over the header lines sees every line, and ends at the empty one. -/
theorem parseHeaderLines_block {lines : List Bytes} (h : ∀ line ∈ lines, IsLine line ∧ line ≠ [])
    {fuel : Nat} (hfuel : (lines.flatMap (· ++ crlf) ++ crlf).length ≤ fuel)
    (request : HttpRequest) :
    parseHeaderLines fuel (lines.flatMap (· ++ crlf) ++ crlf) request =
      parseLines lines request := by
  induction lines generalizing fuel request with
  | nil =>
    obtain ⟨fuel, rfl⟩ : ∃ n, fuel = n + 1 := ⟨fuel - 1, by simp [crlf] at hfuel; omega⟩
    rfl
  | cons line lines ih =>
    obtain ⟨hline, hne⟩ := h line List.mem_cons_self
    obtain ⟨fuel, rfl⟩ : ∃ n, fuel = n + 1 := ⟨fuel - 1, by simp [crlf] at hfuel; omega⟩
    have hrest : (line :: lines).flatMap (· ++ crlf) ++ crlf =
        line ++ 13 :: 10 :: (lines.flatMap (· ++ crlf) ++ crlf) := by
      simp [crlf]
    have hdrop : (line ++ 13 :: 10 :: (lines.flatMap (· ++ crlf) ++ crlf)).drop
        (line.length + 2) = lines.flatMap (· ++ crlf) ++ crlf := by
      rw [← List.drop_drop, List.drop_left]
      rfl
    rw [hrest] at hfuel ⊢
    rw [List.length_append, List.length_cons, List.length_cons] at hfuel
    rw [parseHeaderLines, if_neg (by simp), Lines.find?_lineEnd (by decide) hline]
    dsimp only
    rw [List.take_left, if_neg hne, hdrop, parseLines, List.foldlM_cons]
    cases parseHeaderLine line request with
    | error e => rfl
    | ok request' => exact ih (fun l hl => h l (List.mem_cons_of_mem _ hl)) (by omega) request'

/-- The checks behind the last header line. -/
def checkRequest (request : HttpRequest) : Except ParseError HttpRequest :=
  if request.chunkedTransferEncoding then .error .kNotImplementedChunked
  else if request.method = .kPost && !request.hasContentLength then .error .kLengthRequired
  else .ok request

/-- **A block is parsed line by line.** -/
theorem parseRequestHeader_block {requestLine : Bytes} {lines : List Bytes}
    (hr : IsLine requestLine) (h : ∀ line ∈ lines, IsLine line ∧ line ≠ []) :
    parseRequestHeader (block requestLine lines) =
      (parseRequestLine requestLine {} >>= fun request =>
        parseLines lines request >>= checkRequest) := by
  have hblock : block requestLine lines =
      requestLine ++ 13 :: 10 :: (lines.flatMap (· ++ crlf) ++ crlf) := by
    simp [block, crlf]
  have hdrop : (block requestLine lines).drop (requestLine.length + 2) =
      lines.flatMap (· ++ crlf) ++ crlf := by
    rw [hblock, ← List.drop_drop, List.drop_left]
    rfl
  have hfind : Search.find? [13, 10] (block requestLine lines) = some requestLine.length := by
    rw [hblock]
    exact Lines.find?_lineEnd (by decide) hr _
  have htake : (block requestLine lines).take requestLine.length = requestLine := by
    rw [hblock, List.take_left]
  rw [parseRequestHeader, hfind]
  dsimp only
  rw [htake, hdrop]
  cases parseRequestLine requestLine {} with
  | error e => rfl
  | ok request =>
    dsimp only
    rw [parseHeaderLines_block h (Nat.le_refl _)]
    cases hl : parseLines lines request with
    | error e =>
      show _ = parseLines lines request >>= checkRequest
      rw [hl]
      rfl
    | ok request' =>
      show _ = parseLines lines request >>= checkRequest
      rw [hl]
      rfl

end WebServer.Http
