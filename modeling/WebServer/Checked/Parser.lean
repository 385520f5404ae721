import WebServer.Checked.Arguments
import WebServer.Http.Parser

/-!
# The checks of the header parser

`ParseRequestHeader` and `ParseContentLengthValue` test their output arguments.
-/

namespace WebServer.Checked

open WebServer.Net WebServer.Http

def parseContentLengthValue (value : Bytes) (contentLength : Pointer Nat) :
    Except Check (Option Nat) :=
  match contentLength with
  | .null => .error (.nullArgument "content_length")
  | .to _ => .ok (Http.parseContentLengthValue value)

def parseHeaderLine (line : Bytes) (request : HttpRequest) :
    Except Check (Except ParseError HttpRequest) :=
  match Search.find? [58] line with
  | none => .ok (.error .kBadRequest)
  | some 0 => .ok (.error .kBadRequest)
  | some (n + 1) =>
    let key := lowercaseCopy (trim (line.take (n + 1)))
    let value := trim (line.drop (n + 2))
    if key = [] then .ok (.error .kBadRequest)
    else
      let request := request.addHeader key value
      let request :=
        if key = ascii "transfer-encoding" && containsChunkedToken value then
          request.markChunkedTransferEncoding
        else request
      if key = ascii "content-length" then
        match parseContentLengthValue value (.to 0) with
        | .error c => .error c
        | .ok none => .ok (.error .kBadRequest)
        | .ok (some contentLength) => .ok (.ok (request.setContentLength contentLength))
      else .ok (.ok request)

def parseHeaderLines : Nat → Bytes → HttpRequest → Except Check (Except ParseError HttpRequest)
  | 0, _, request => .ok (.ok request)
  | fuel + 1, rest, request =>
    if rest = [] then .ok (.ok request)
    else
      match Search.find? [13, 10] rest with
      | none => .ok (.error .kBadRequest)
      | some lineEnd =>
        if rest.take lineEnd = [] then .ok (.ok request)
        else
          match parseHeaderLine (rest.take lineEnd) request with
          | .error c => .error c
          | .ok (.error e) => .ok (.error e)
          | .ok (.ok request) => parseHeaderLines fuel (rest.drop (lineEnd + 2)) request

def parseRequestHeader (header : Bytes) (request : Pointer HttpRequest) :
    Except Check (Except ParseError HttpRequest) :=
  match request with
  | .null => .error (.nullArgument "request")
  | .to _ =>
    match Search.find? [13, 10] header with
    | none => .ok (.error .kBadRequest)
    | some firstLineEnd =>
      match parseRequestLine (header.take firstLineEnd) {} with
      | .error e => .ok (.error e)
      | .ok request =>
        let rest := header.drop (firstLineEnd + 2)
        match parseHeaderLines rest.length rest request with
        | .error c => .error c
        | .ok (.error e) => .ok (.error e)
        | .ok (.ok request) =>
          if request.chunkedTransferEncoding then .ok (.error .kNotImplementedChunked)
          else if request.method = .kPost && !request.hasContentLength then
            .ok (.error .kLengthRequired)
          else .ok (.ok request)

theorem parseHeaderLine_eq (line : Bytes) (request : HttpRequest) :
    parseHeaderLine line request = .ok (Http.parseHeaderLine line request) := by
  unfold parseHeaderLine Http.parseHeaderLine
  rcases Search.find? [58] line with _ | _ | n
  · rfl
  · rfl
  · dsimp only
    split
    · rfl
    · split
      · dsimp only [parseContentLengthValue]
        cases Http.parseContentLengthValue (trim (line.drop (n + 2))) <;> rfl
      · rfl

theorem parseHeaderLines_eq (fuel : Nat) (rest : Bytes) (request : HttpRequest) :
    parseHeaderLines fuel rest request = .ok (Http.parseHeaderLines fuel rest request) := by
  induction fuel generalizing rest request with
  | zero => rfl
  | succ fuel ih =>
    unfold parseHeaderLines Http.parseHeaderLines
    split
    · rfl
    · cases Search.find? [13, 10] rest with
      | none => rfl
      | some lineEnd =>
        dsimp only
        split
        · rfl
        · rw [parseHeaderLine_eq]
          cases Http.parseHeaderLine (rest.take lineEnd) request with
          | error e => rfl
          | ok request => exact ih ..

theorem parseRequestHeader_eq (header : Bytes) (request : HttpRequest) :
    parseRequestHeader header (.to request) = .ok (Http.parseRequestHeader header) := by
  unfold parseRequestHeader Http.parseRequestHeader
  dsimp only
  cases Search.find? [13, 10] header with
  | none => rfl
  | some firstLineEnd =>
    dsimp only
    cases parseRequestLine (header.take firstLineEnd) {} with
    | error e => rfl
    | ok request =>
      dsimp only
      rw [parseHeaderLines_eq]
      cases Http.parseHeaderLines _ _ request with
      | error e => rfl
      | ok request =>
        dsimp only
        split
        · rfl
        · split <;> rfl

end WebServer.Checked
