import WebServer.Net.Socket

/-!
# Parsed requests

`HttpRequest` of `http/http_request.cpp`.  The header map is an association list
with the update rule of `insert_or_assign`.
-/

namespace WebServer.Http

open WebServer.Net

inductive HttpMethod
  | kUnknown
  | kGet
  | kPost
  deriving DecidableEq, Repr

structure HttpRequest where
  method : HttpMethod := .kUnknown
  uri : Bytes := []
  version : Bytes := []
  headers : List (Bytes × Bytes) := []
  contentLength? : Option Nat := none
  chunkedTransferEncoding : Bool := false
  deriving DecidableEq, Repr

namespace HttpRequest

/-- `insert_or_assign`: a known key gets the new value, an unknown one is added. -/
def insertOrAssign (key value : Bytes) : List (Bytes × Bytes) → List (Bytes × Bytes)
  | [] => [(key, value)]
  | (k, v) :: rest =>
    if k = key then (key, value) :: rest else (k, v) :: insertOrAssign key value rest

def addHeader (r : HttpRequest) (key value : Bytes) : HttpRequest :=
  { r with headers := insertOrAssign key value r.headers }

def setContentLength (r : HttpRequest) (n : Nat) : HttpRequest := { r with contentLength? := some n }

def markChunkedTransferEncoding (r : HttpRequest) : HttpRequest :=
  { r with chunkedTransferEncoding := true }

def hasContentLength (r : HttpRequest) : Bool := r.contentLength?.isSome

/-- `content_length_.value_or(0)`. -/
def contentLength (r : HttpRequest) : Nat := r.contentLength?.getD 0

def findHeader (r : HttpRequest) (key : Bytes) : Option Bytes := r.headers.lookup key

theorem lookup_cons_eq_ite (k key value : Bytes) (l : List (Bytes × Bytes)) :
    ((key, value) :: l).lookup k = if k = key then some value else l.lookup k := by
  by_cases h : k = key
  · simp [h]
  · have hb : (k == key) = false := by simp [h]
    simp [List.lookup_cons, hb, h]

theorem lookup_insertOrAssign (key value k : Bytes) (l : List (Bytes × Bytes)) :
    (insertOrAssign key value l).lookup k = if k = key then some value else l.lookup k := by
  induction l with
  | nil => rw [insertOrAssign, lookup_cons_eq_ite]
  | cons p l ih =>
    obtain ⟨k', v'⟩ := p
    rw [insertOrAssign, lookup_cons_eq_ite]
    split
    · rename_i hk
      subst hk
      rw [lookup_cons_eq_ite]
      split <;> rfl
    · rename_i hk
      rw [lookup_cons_eq_ite, ih]
      by_cases h : k = k'
      · subst h
        rw [if_pos rfl, if_neg hk, if_pos rfl]
      · rw [if_neg h, if_neg h]

/-- The last value added under a name is the one that is found. -/
theorem findHeader_addHeader (r : HttpRequest) (key value k : Bytes) :
    (r.addHeader key value).findHeader k = if k = key then some value else r.findHeader k :=
  lookup_insertOrAssign key value k r.headers

end HttpRequest

end WebServer.Http
