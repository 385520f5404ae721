import WebServer.Http.Parser
import WebServer.Http.Response
import WebServer.Lib.Lines

/-!
# A client

A client that splits the bytes the server has sent at the first `CRLFCRLF`, reads the
`Content-Length`, takes that many bytes and keeps what is behind them for the next
response.  `read_http_response` of `scripts/sanitizer_smoke.py` takes one response apart in
the same way, but returns only its status code and its body, and drops what `recv()` brought
behind it.
-/

namespace WebServer.Http

open WebServer.Net

/-! ## Decimal numbers -/

/-- `int(text)` of a text of digits; other texts are not read. -/
def readDecimal (text : Bytes) : Option Nat :=
  if text ≠ [] && text.all isDigit then some (digitsValue text) else none

theorem digitsValue_concat (digits : Bytes) (d : UInt8) :
    digitsValue (digits ++ [d]) = 10 * digitsValue digits + (d.toNat - 48) :=
  List.foldl_append

/-- The last digit comes off the end. -/
theorem decimal_eq (n : Nat) :
    decimal n = (if n < 10 then [] else decimal (n / 10)) ++ [UInt8.ofNat (48 + n % 10)] := by
  have hdigit : ∀ d < 10, UInt8.ofNat (Nat.digitChar d).toNat = UInt8.ofNat (48 + d) := by decide
  unfold decimal
  rw [Nat.toDigits_eq_if (by decide)]
  split
  · rename_i h
    simp [hdigit n h, Nat.mod_eq_of_lt h]
  · simp [hdigit (n % 10) (Nat.mod_lt n (by decide))]

theorem decimal_ne_nil (n : Nat) : decimal n ≠ [] := by
  rw [decimal_eq]
  simp

theorem isDigit_of_mem_decimal {n : Nat} {b : UInt8} (h : b ∈ decimal n) : isDigit b = true := by
  have hdigit : ∀ d < 10, isDigit (UInt8.ofNat (48 + d)) = true := by decide
  induction n using Nat.strongRecOn with
  | ind n ih =>
    rw [decimal_eq] at h
    rcases List.mem_append.mp h with h | h
    · split at h
      · cases h
      · exact ih (n / 10) (by omega) h
    · rw [List.mem_singleton.mp h]
      exact hdigit (n % 10) (Nat.mod_lt n (by decide))

/-- **Printing and reading a number.** -/
theorem readDecimal_decimal (n : Nat) : readDecimal (decimal n) = some n := by
  have hdigit : ∀ d < 10, (UInt8.ofNat (48 + d)).toNat - 48 = d := by decide
  have hvalue : digitsValue (decimal n) = n := by
    induction n using Nat.strongRecOn with
    | ind n ih =>
      have hlast := hdigit (n % 10) (Nat.mod_lt n (by decide))
      rw [decimal_eq, digitsValue_concat, hlast]
      split
      · simp only [digitsValue, List.foldl_nil]
        omega
      · rw [ih (n / 10) (by omega)]
        omega
  have hall : (decimal n).all isDigit = true :=
    List.all_eq_true.mpr fun b => isDigit_of_mem_decimal
  simp [readDecimal, decimal_ne_nil, hall, hvalue]

/-! ## Responses -/

/-- What `str.strip()` takes off a text that was decoded as `latin1`. -/
def isBlank (b : UInt8) : Bool :=
  b = 32 || (9 ≤ b && b ≤ 13) || (28 ≤ b && b ≤ 31) || b = 133 || b = 160

def strip (text : Bytes) : Bytes :=
  ((text.dropWhile isBlank).reverse.dropWhile isBlank).reverse

theorem isBlank_of_isDigit {b : UInt8} (h : isDigit b = true) : isBlank b = false := by
  simp only [isDigit, isBlank, Bool.and_eq_true, decide_eq_true_eq, Bool.or_eq_false_iff,
    Bool.and_eq_false_iff, decide_eq_false_iff_not, UInt8.le_iff_toNat_le, ← UInt8.toNat_inj,
    UInt8.reduceToNat] at h ⊢
  omega

/-- A line behind the status line; one without a colon is skipped. -/
def readHeaderLine (headers : List (Bytes × Bytes)) (line : Bytes) : List (Bytes × Bytes) :=
  match Search.find? [58] line with
  | none => headers
  | some colon =>
    HttpRequest.insertOrAssign (lowercaseCopy (strip (line.take colon)))
      (strip (line.drop (colon + 1))) headers

/-- The second word of the status line. -/
def readStatusCode (line : Bytes) : Option Nat :=
  match Search.find? [32] line with
  | none => none
  | some space => readDecimal ((line.drop (space + 1)).takeWhile (· ≠ 32))

/-- A response as the client sees it. -/
structure Reply where
  statusCode : Nat
  connection : Option Bytes
  body : Bytes
  deriving DecidableEq, Repr

/-- The first response and the bytes behind it; `none` if it is not complete. -/
def readHttpResponse (data : Bytes) : Option (Reply × Bytes) :=
  match Search.find? [13, 10, 13, 10] data with
  | none => none
  | some headerEnd =>
    let headerLines := Lines.split 13 10 (data.take headerEnd)
    let headers := headerLines.tail.foldl readHeaderLine []
    let body := data.drop (headerEnd + 4)
    match readStatusCode (headerLines.headD []),
      readDecimal ((headers.lookup (ascii "content-length")).getD (ascii "0")) with
    | some statusCode, some contentLength =>
      if body.length < contentLength then none
      else some ({ statusCode, connection := headers.lookup (ascii "connection"),
                   body := body.take contentLength }, body.drop contentLength)
    | _, _ => none

/-- One response after another, until nothing is left over.  Every response is at least
four bytes long, so a fuel of the length of the input is enough. -/
def readResponses : Nat → Bytes → Option (List Reply)
  | 0, data => if data = [] then some [] else none
  | fuel + 1, data =>
    if data = [] then some []
    else
      match readHttpResponse data with
      | none => none
      | some (reply, rest) => (readResponses fuel rest).map (reply :: ·)

/-- The responses a client that keeps what is behind a body has read when these bytes have arrived.
Of one that is not complete it still waits for the rest. -/
def readReplies : Nat → Bytes → List Reply
  | 0, _ => []
  | fuel + 1, data =>
    match readHttpResponse data with
    | none => []
    | some (reply, rest) => reply :: readReplies fuel rest

def repliesIn (data : Bytes) : List Reply := readReplies data.length data

end WebServer.Http
