/-!
Places in source text. A position is a byte offset into the UTF-8 text of one file, a span is a
pair of positions. Offsets are 32-bit words, so `Position.ofBytes` keeps the low 32 bits of a byte
count; below 4 GiB of text that is the count itself.
-/

namespace ScriptCheck

/-- A byte offset together with the name of the file it points into. -/
structure Position where
  offset : Nat
  file : String
deriving DecidableEq

namespace Position

/-- One more than the largest offset, which has 32 bits. -/
def limit : Nat := 4294967296

/-- The position after `n` bytes of `file`. -/
def ofBytes (file : String) (n : Nat) : Position := ⟨n % limit, file⟩

/-- The position of things that stand in no file. -/
def nowhere : Position := ⟨0, "<null>"⟩

@[simp] theorem ofBytes_file (file : String) (n : Nat) : (ofBytes file n).file = file := rfl

end Position

/-- The text from `start` up to, and not including, `stop`. -/
structure Span where
  start : Position
  stop : Position
deriving DecidableEq

namespace Span

/-- The `length` bytes of `file` that follow the first `n`. -/
def ofBytes (file : String) (n length : Nat) : Span :=
  ⟨.ofBytes file n, .ofBytes file (n + length)⟩

/-- The span of things that stand in no file. -/
def nowhere : Span := ⟨.nowhere, .nowhere⟩

/-- From the start of the first span to the end of the second. -/
def join (a b : Span) : Span := ⟨a.start, b.stop⟩

end Span

end ScriptCheck
