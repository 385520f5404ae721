import WebServer.Lib.Search
import WebServer.Net.Socket

/-!
# The input buffer

`DynamicBuffer` of `net/dynamic_buffer.cpp`: bytes read but not yet consumed, and
the search for the `CRLFCRLF` that ends a header block.
-/

namespace WebServer.Net

/-- `"\r\n\r\n"`. -/
def crlfcrlf : Bytes := [13, 10, 13, 10]

structure DynamicBuffer where
  storage : Bytes := []
  deriving DecidableEq, Repr

namespace DynamicBuffer

def append (b : DynamicBuffer) (data : Bytes) : DynamicBuffer := ⟨b.storage ++ data⟩

def size (b : DynamicBuffer) : Nat := b.storage.length

def empty (b : DynamicBuffer) : Bool := b.storage.isEmpty

/-- Position of the first `CRLFCRLF`; `npos` is `none`. -/
def findHeaderEnd (b : DynamicBuffer) : Option Nat := Search.find? crlfcrlf b.storage

def hasCompleteHeader (b : DynamicBuffer) : Bool := b.findHeaderEnd.isSome

/-- The whole buffer counts while no boundary is visible, the first block afterwards. -/
def headerExceedsLimit (b : DynamicBuffer) (limit : Nat) : Bool :=
  match b.findHeaderEnd with
  | none => limit < b.size
  | some headerEnd => limit < headerEnd + 4

/-- The first header block with its `CRLFCRLF`, and the buffer without it. -/
def popNextHeader (b : DynamicBuffer) : Except Fault (Bytes × DynamicBuffer) :=
  match b.findHeaderEnd with
  | none => .error (.logicError "no complete header in buffer")
  | some headerEnd => .ok (b.storage.take (headerEnd + 4), ⟨b.storage.drop (headerEnd + 4)⟩)

def consumePrefix (b : DynamicBuffer) (count : Nat) : Except Fault DynamicBuffer :=
  if b.size < count then
    .error (.outOfRange "cannot consume more bytes than buffer currently stores")
  else .ok ⟨b.storage.drop count⟩

@[simp] theorem size_append (b : DynamicBuffer) (data : Bytes) :
    (b.append data).size = b.size + data.length := by simp [append, size]

@[simp] theorem storage_append (b : DynamicBuffer) (data : Bytes) :
    (b.append data).storage = b.storage ++ data := rfl

theorem empty_iff {b : DynamicBuffer} : b.empty = true ↔ b.storage = [] := List.isEmpty_iff

theorem hasCompleteHeader_of_empty {b : DynamicBuffer} (h : b.storage = []) :
    b.hasCompleteHeader = false := by
  rw [hasCompleteHeader, findHeaderEnd, h]
  rfl

/-- A buffer with a complete header gives it out, and loses exactly that block. -/
theorem popNextHeader_ok {b : DynamicBuffer} (h : b.hasCompleteHeader = true) :
    ∃ headerEnd, b.findHeaderEnd = some headerEnd ∧ headerEnd + 4 ≤ b.size ∧
      b.popNextHeader =
        .ok (b.storage.take (headerEnd + 4), ⟨b.storage.drop (headerEnd + 4)⟩) := by
  obtain ⟨headerEnd, he⟩ := Option.isSome_iff_exists.mp h
  refine ⟨headerEnd, he, ?_, ?_⟩
  · exact Search.find?_length_le he
  · simp [popNextHeader, he]

theorem consumePrefix_ok {b : DynamicBuffer} {count : Nat} (h : count ≤ b.size) :
    b.consumePrefix count = .ok ⟨b.storage.drop count⟩ := by
  simp [consumePrefix, Nat.not_lt.mpr h]

end DynamicBuffer

end WebServer.Net
