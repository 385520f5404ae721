import WebServer.Http.Client

/-!
# Responses decode back

A client that reads the bytes of any sequence of responses gets back their status codes,
`Connection` options and bodies.  Bodies may hold anything, also what looks like the head
of a response.
-/

namespace WebServer.Properties

open WebServer.Net WebServer.Http

/-- A reason phrase holds neither CR nor LF. -/
abbrev ReasonPhrase := { text : Bytes // 13 ∉ text ∧ 10 ∉ text }

/-- A response of one of the two builders. -/
inductive BuiltResponse
  | ok (body : Bytes) (keepAlive : Bool)
  | error (statusCode : Nat) (reasonPhrase : ReasonPhrase) (body : Bytes)

namespace BuiltResponse

def bytes : BuiltResponse → Bytes
  | ok body keepAlive => buildSimpleOkResponse body keepAlive
  | error statusCode reasonPhrase body => buildSimpleErrorResponse statusCode reasonPhrase.1 body

def statusCode : BuiltResponse → Nat
  | ok .. => 200
  | error statusCode .. => statusCode

def connection : BuiltResponse → Bytes
  | ok _ keepAlive => if keepAlive then ascii "keep-alive" else ascii "close"
  | error .. => ascii "close"

def body : BuiltResponse → Bytes
  | ok body _ => body
  | error _ _ body => body

/-- What the client is to see of it. -/
def reply (r : BuiltResponse) : Reply :=
  { statusCode := r.statusCode, connection := some r.connection, body := r.body }

def statusLine : BuiltResponse → Bytes
  | ok .. => ascii "HTTP/1.1 200 OK"
  | error statusCode reasonPhrase _ =>
    ascii "HTTP/1.1 " ++ decimal statusCode ++ [32] ++ reasonPhrase.1

/-- The lines in front of the empty one. -/
def headerLines (r : BuiltResponse) : List Bytes :=
  [r.statusLine, ascii "Connection: " ++ r.connection, ascii "Content-Type: text/plain",
    ascii "Content-Length: " ++ decimal r.body.length]

/-- Both builders write their lines, an empty line and the body. -/
theorem bytes_eq (r : BuiltResponse) (rest : Bytes) :
    r.bytes ++ rest =
      Lines.join 13 10 r.headerLines ++ 13 :: 10 :: 13 :: 10 :: (r.body ++ rest) := by
  have hclose : ascii "Connection: close" = ascii "Connection: " ++ ascii "close" := rfl
  cases r with
  | ok body keepAlive =>
    simp [bytes, buildSimpleOkResponse, headerLines, statusLine, connection, BuiltResponse.body,
      Lines.join, crlf]
  | error statusCode reasonPhrase body =>
    simp [bytes, buildSimpleErrorResponse, headerLines, statusLine, connection, BuiltResponse.body,
      Lines.join, crlf, hclose]

theorem cr_not_mem_decimal (n : Nat) : 13 ∉ decimal n :=
  fun h => absurd (isDigit_of_mem_decimal h) (by decide)

theorem cr_not_mem_statusLine (r : BuiltResponse) : 13 ∉ r.statusLine := by
  cases r with
  | ok body keepAlive => exact of_decide_eq_true rfl
  | error statusCode reasonPhrase body =>
    have hversion : 13 ∉ ascii "HTTP/1.1 " := of_decide_eq_true rfl
    simp [statusLine, hversion, cr_not_mem_decimal, reasonPhrase.2.1]

theorem isLine_headerLines (r : BuiltResponse) :
    ∀ line ∈ r.headerLines, Lines.IsLine 13 10 line ∧ line ≠ [] := by
  have hconnection : 13 ∉ ascii "Connection: " ++ r.connection := by
    rcases r with ⟨_, _ | _⟩ | _ <;> exact of_decide_eq_true rfl
  have hlength : 13 ∉ ascii "Content-Length: " := of_decide_eq_true rfl
  have hstatus : r.statusLine ≠ [] := by
    cases r <;> simp [statusLine, ascii]
  intro line hline
  simp only [headerLines, List.mem_cons, List.not_mem_nil, or_false] at hline
  rcases hline with rfl | rfl | rfl | rfl
  · exact ⟨Lines.isLine_of_not_mem r.cr_not_mem_statusLine, hstatus⟩
  · exact ⟨Lines.isLine_of_not_mem hconnection, by simp [ascii]⟩
  · exact ⟨Lines.isLine_of_not_mem (of_decide_eq_true rfl), by simp [ascii]⟩
  · refine ⟨Lines.isLine_of_not_mem ?_, by simp [ascii]⟩
    simp [hlength, cr_not_mem_decimal]

/-- The head ends at the first `CRLFCRLF`, whatever the body holds. -/
theorem find?_headerEnd (r : BuiltResponse) (rest : Bytes) :
    Search.find? [13, 10, 13, 10] (r.bytes ++ rest) =
      some (Lines.join 13 10 r.headerLines).length := by
  rw [bytes_eq]
  refine (Lines.find?_blankLine_iff (by decide) (fun line hline => ?_) _).mpr fun line hline => ?_
  · exact (r.isLine_headerLines line hline).1
  · exact (r.isLine_headerLines line (List.mem_cons_of_mem _ hline)).2

/-- A status code is followed by a blank or by nothing. -/
theorem readStatusCode_decimal (n : Nat) (reasonPhrase : Bytes) :
    readStatusCode (ascii "HTTP/1.1 " ++ decimal n ++ [32] ++ reasonPhrase) = some n := by
  have hfind : Search.find? [32] (ascii "HTTP/1.1 ") = some 8 := by decide
  have hdrop : (ascii "HTTP/1.1 " ++ (decimal n ++ ([32] ++ reasonPhrase))).drop 9 =
      decimal n ++ ([32] ++ reasonPhrase) := rfl
  have hdigits : ∀ b ∈ decimal n, decide (b ≠ 32) = true := by
    intro b hb
    refine decide_eq_true fun h => ?_
    rw [h] at hb
    exact absurd (isDigit_of_mem_decimal hb) (by decide)
  rw [List.append_assoc, List.append_assoc, readStatusCode, Search.find?_append hfind]
  dsimp only
  rw [hdrop, List.takeWhile_append_of_pos hdigits]
  simp [readDecimal_decimal]

theorem readStatusCode_statusLine (r : BuiltResponse) :
    readStatusCode r.statusLine = some r.statusCode := by
  cases r with
  | ok body keepAlive => exact of_decide_eq_true rfl
  | error statusCode reasonPhrase body => exact readStatusCode_decimal statusCode reasonPhrase.1

theorem strip_decimal (n : Nat) : strip (32 :: decimal n) = decimal n := by
  have hkeep {digits : Bytes} (h : ∀ b ∈ digits, isDigit b = true) :
      digits.dropWhile isBlank = digits := by
    cases digits with
    | nil => rfl
    | cons d digits =>
      simp [isBlank_of_isDigit (h d List.mem_cons_self)]
  have hfirst : isBlank 32 = true := rfl
  unfold strip
  rw [List.dropWhile_cons_of_pos hfirst, hkeep fun b => isDigit_of_mem_decimal,
    hkeep fun b hb => isDigit_of_mem_decimal (List.mem_reverse.mp hb), List.reverse_reverse]

theorem readHeaderLine_contentLength (headers : List (Bytes × Bytes)) (n : Nat) :
    readHeaderLine headers (ascii "Content-Length: " ++ decimal n) =
      HttpRequest.insertOrAssign (ascii "content-length") (decimal n) headers := by
  have hfind : Search.find? [58] (ascii "Content-Length: ") = some 14 := by decide
  have hname : (ascii "Content-Length: " ++ decimal n).take 14 = ascii "Content-Length" := rfl
  have hvalue : (ascii "Content-Length: " ++ decimal n).drop 15 = 32 :: decimal n := rfl
  have hkey : lowercaseCopy (strip (ascii "Content-Length")) = ascii "content-length" := by decide
  rw [readHeaderLine, Search.find?_append hfind]
  dsimp only
  rw [hname, hvalue, hkey, strip_decimal]

/-- The headers of a response. -/
theorem readHeaderLines (r : BuiltResponse) : r.headerLines.tail.foldl readHeaderLine [] =
    [(ascii "connection", r.connection), (ascii "content-type", ascii "text/plain"),
      (ascii "content-length", decimal r.body.length)] := by
  have hconnection : readHeaderLine [] (ascii "Connection: " ++ r.connection) =
      [(ascii "connection", r.connection)] := by
    rcases r with ⟨_, _ | _⟩ | _ <;> exact of_decide_eq_true rfl
  have htype (value : Bytes) : readHeaderLine [(ascii "connection", value)]
      (ascii "Content-Type: text/plain") =
        [(ascii "connection", value), (ascii "content-type", ascii "text/plain")] := rfl
  rw [headerLines, List.tail_cons, List.foldl_cons, List.foldl_cons, List.foldl_cons,
    List.foldl_nil, hconnection, htype, readHeaderLine_contentLength]
  rfl

/-- **One response.**  The client reads it, and goes on behind it. -/
theorem readHttpResponse_bytes (r : BuiltResponse) (rest : Bytes) :
    readHttpResponse (r.bytes ++ rest) = some (r.reply, rest) := by
  have hlines : Lines.split 13 10 (Lines.join 13 10 r.headerLines) = r.headerLines :=
    Lines.split_join (by decide) fun line hline => (r.isLine_headerLines line hline).1
  have hdrop : (r.bytes ++ rest).drop ((Lines.join 13 10 r.headerLines).length + 4) =
      r.body ++ rest := by
    rw [bytes_eq, ← List.drop_drop, List.drop_left]
    rfl
  unfold readHttpResponse
  rw [find?_headerEnd]
  dsimp only
  rw [hdrop, bytes_eq, List.take_left, hlines, readHeaderLines,
    show r.headerLines.headD [] = r.statusLine from rfl, readStatusCode_statusLine,
    show List.lookup (ascii "content-length") _ = some (decimal r.body.length) from rfl,
    Option.getD_some, readDecimal_decimal]
  dsimp only
  rw [if_neg (by simp), List.take_left, List.drop_left]
  rfl

end BuiltResponse

/-- **Responses decode back uniquely.**  From the bytes of any sequence of responses the client
recovers the status codes, the `Connection` options and the bodies, with nothing left over. -/
theorem readResponses_bytes (rs : List BuiltResponse) :
    readResponses (rs.flatMap BuiltResponse.bytes).length (rs.flatMap BuiltResponse.bytes) =
      some (rs.map BuiltResponse.reply) := by
  have hfuel (fuel : Nat) (h : (rs.flatMap BuiltResponse.bytes).length ≤ fuel) :
      readResponses fuel (rs.flatMap BuiltResponse.bytes) = some (rs.map BuiltResponse.reply) := by
    induction rs generalizing fuel with
    | nil => cases fuel <;> rfl
    | cons r rs ih =>
      have hpos := Search.find?_length_le (r.find?_headerEnd [])
      rw [List.append_nil, List.length_cons] at hpos
      rw [List.flatMap_cons, List.length_append] at h
      obtain ⟨fuel, rfl⟩ : ∃ n, fuel = n + 1 := ⟨fuel - 1, by omega⟩
      have hne : r.bytes ++ rs.flatMap BuiltResponse.bytes ≠ [] :=
        List.append_ne_nil_of_left_ne_nil (List.ne_nil_of_length_pos (by omega)) _
      rw [List.flatMap_cons, readResponses, if_neg hne, r.readHttpResponse_bytes]
      dsimp only
      rw [ih fuel (by omega)]
      rfl
  exact hfuel _ (Nat.le_refl _)

end WebServer.Properties
