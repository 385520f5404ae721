import WebServer.Net.Socket

/-!
# Responses

The two response builders of `http/http_response.cpp`.
-/

namespace WebServer.Http

open WebServer.Net

/-- A number as `operator<<` prints it. -/
def decimal (n : Nat) : Bytes := (Nat.toDigits 10 n).map fun c => UInt8.ofNat c.toNat

def crlf : Bytes := [13, 10]

def buildSimpleOkResponse (body : Bytes) (keepAlive : Bool) : Bytes :=
  ascii "HTTP/1.1 200 OK" ++ crlf ++
  ascii "Connection: " ++ (if keepAlive then ascii "keep-alive" else ascii "close") ++ crlf ++
  ascii "Content-Type: text/plain" ++ crlf ++
  ascii "Content-Length: " ++ decimal body.length ++ crlf ++
  crlf ++
  body

def buildSimpleErrorResponse (statusCode : Nat) (reasonPhrase body : Bytes) : Bytes :=
  ascii "HTTP/1.1 " ++ decimal statusCode ++ [32] ++ reasonPhrase ++ crlf ++
  ascii "Connection: close" ++ crlf ++
  ascii "Content-Type: text/plain" ++ crlf ++
  ascii "Content-Length: " ++ decimal body.length ++ crlf ++
  crlf ++
  body

theorem buildSimpleOkResponse_ne_nil (body : Bytes) (keepAlive : Bool) :
    buildSimpleOkResponse body keepAlive ≠ [] := by
  simp [buildSimpleOkResponse, crlf]

end WebServer.Http
