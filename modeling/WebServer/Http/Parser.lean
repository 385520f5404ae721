import Mathlib.Algebra.Group.Nat.Defs
import WebServer.Lib.Search
import WebServer.Http.Request

/-!
# The header parser

`HttpParser` of `http/http_parser.cpp`, on the bytes of one header block as
`PopNextHeader` returns it.  `ParseError::kNone` is the `ok` side of the result.
`std::isspace` and `std::tolower` are those of the C locale.
-/

namespace WebServer.Http

open WebServer.Net

inductive ParseError
  | kBadRequest
  | kLengthRequired
  | kNotImplementedChunked
  deriving DecidableEq, Repr

def isSpace (b : UInt8) : Bool := b = 32 || (9 ≤ b && b ≤ 13)

def toLower (b : UInt8) : UInt8 := if 65 ≤ b && b ≤ 90 then b + 32 else b

def isDigit (b : UInt8) : Bool := 48 ≤ b && b ≤ 57

def lowercaseCopy (text : Bytes) : Bytes := text.map toLower

def trim (text : Bytes) : Bytes :=
  ((text.dropWhile isSpace).reverse.dropWhile isSpace).reverse

def parseMethodToken (token : Bytes) : HttpMethod :=
  if token = ascii "GET" then .kGet
  else if token = ascii "POST" then .kPost
  else .kUnknown

def isSupportedVersion (version : Bytes) : Bool :=
  version = ascii "HTTP/1.1" || version = ascii "HTTP/1.0"

def containsChunkedToken (value : Bytes) : Bool :=
  (Search.find? (ascii "chunked") (lowercaseCopy value)).isSome

/-- The number a run of decimal digits denotes. -/
def digitsValue (digits : Bytes) : Nat := digits.foldl (fun n d => 10 * n + (d.toNat - 48)) 0

/-- `std::stoull` in base 10: blanks, a sign, digits.  The value with the number of bytes
it was read from, or `none` where it throws (no digit, or more than `2^64 - 1`).  A minus
sign negates modulo `2^64`. -/
def stoull (text : Bytes) : Option (Nat × Nat) :=
  let afterBlanks := text.dropWhile isSpace
  let negative := afterBlanks.head? = some 45
  let signed := negative || afterBlanks.head? = some 43
  let digits := (if signed then afterBlanks.tail else afterBlanks).takeWhile isDigit
  let value := digitsValue digits
  if digits = [] then none
  else if 2 ^ 64 ≤ value then none
  else
    some (if negative then (2 ^ 64 - value) % 2 ^ 64 else value,
      (text.takeWhile isSpace).length + (if signed then 1 else 0) + digits.length)

def parseContentLengthValue (value : Bytes) : Option Nat :=
  let trimmed := trim value
  if trimmed = [] then none
  else
    match stoull trimmed with
    | none => none
    | some (contentLength, parsed) => if parsed = trimmed.length then some contentLength else none

def parseRequestLine (line : Bytes) (request : HttpRequest) : Except ParseError HttpRequest :=
  match Search.find? [32] line with
  | none => .error .kBadRequest
  | some firstSpace =>
    match Search.find? [32] (line.drop (firstSpace + 1)) with
    | none => .error .kBadRequest
    | some uriLength =>
      let uri := (line.drop (firstSpace + 1)).take uriLength
      let version := line.drop (firstSpace + 1 + uriLength + 1)
      let method := parseMethodToken (line.take firstSpace)
      if method = .kUnknown || uri = [] || !isSupportedVersion version then .error .kBadRequest
      else .ok { request with method := method, uri := uri, version := version }

def parseHeaderLine (line : Bytes) (request : HttpRequest) : Except ParseError HttpRequest :=
  match Search.find? [58] line with
  | none => .error .kBadRequest
  | some 0 => .error .kBadRequest
  | some (n + 1) =>
    let key := lowercaseCopy (trim (line.take (n + 1)))
    let value := trim (line.drop (n + 2))
    if key = [] then .error .kBadRequest
    else
      let request := request.addHeader key value
      let request :=
        if key = ascii "transfer-encoding" && containsChunkedToken value then
          request.markChunkedTransferEncoding
        else request
      if key = ascii "content-length" then
        match parseContentLengthValue value with
        | none => .error .kBadRequest
        | some contentLength => .ok (request.setContentLength contentLength)
      else .ok request

/-- The loop over the header lines, on the bytes from the cursor on.  Every turn moves the
cursor by at least two bytes, so a fuel of the length never runs out before the input. -/
def parseHeaderLines : Nat → Bytes → HttpRequest → Except ParseError HttpRequest
  | 0, _, request => .ok request
  | fuel + 1, rest, request =>
    if rest = [] then .ok request
    else
      match Search.find? [13, 10] rest with
      | none => .error .kBadRequest
      | some lineEnd =>
        if rest.take lineEnd = [] then .ok request
        else
          match parseHeaderLine (rest.take lineEnd) request with
          | .error e => .error e
          | .ok request => parseHeaderLines fuel (rest.drop (lineEnd + 2)) request

def parseRequestHeader (header : Bytes) : Except ParseError HttpRequest :=
  match Search.find? [13, 10] header with
  | none => .error .kBadRequest
  | some firstLineEnd =>
    match parseRequestLine (header.take firstLineEnd) {} with
    | .error e => .error e
    | .ok request =>
      let rest := header.drop (firstLineEnd + 2)
      match parseHeaderLines rest.length rest request with
      | .error e => .error e
      | .ok request =>
        if request.chunkedTransferEncoding then .error .kNotImplementedChunked
        else if request.method = .kPost && !request.hasContentLength then .error .kLengthRequired
        else .ok request

example : (parseRequestHeader (ascii "POST / HTTP/1.0\r\nContent-Length: 5\r\n\r\n")).toOption =
    some { method := .kPost, uri := [47], version := ascii "HTTP/1.0",
           headers := [(ascii "content-length", [53])], contentLength? := some 5 } := by
  decide +kernel

end WebServer.Http
