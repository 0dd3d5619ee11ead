import ScriptCheck.Source.Line
import ScriptCheck.Source.Position

/-!
A cursor on source text, moved by bytes. It may be moved past the end of the text or into the middle
of a character, where nothing can be read.
-/

namespace ScriptCheck

/-- The text behind the first `n` bytes, if a character starts or the text ends there. -/
def dropBytes : Nat → List Char → Option (List Char)
  | 0, cs => some cs
  | _ + 1, [] => none
  | n + 1, c :: cs => if c.utf8Size ≤ n + 1 then dropBytes (n + 1 - c.utf8Size) cs else none

/-- A place in the text of a file. -/
structure Cursor where
  file : String
  source : List Char
  offset : Nat

namespace Cursor

/-- The start of a text. -/
def ofSource (source file : String) : Cursor := ⟨file, source.toList, 0⟩

/-- The cursor moved by `n` bytes. -/
def advance (c : Cursor) (n : Nat) : Cursor := { c with offset := c.offset + n }

/-- Whether the cursor stands at or past the end. -/
def atEnd (c : Cursor) : Bool := byteLength c.source ≤ c.offset

/-- The text behind the cursor. -/
def remainder? (c : Cursor) : Option (List Char) := dropBytes c.offset c.source

/-- The character behind the cursor, or NUL at the end. -/
def current? (c : Cursor) : Option Char := c.remainder?.map (·.headD '\x00')

/-- The position of the cursor. -/
def position (c : Cursor) : Position := .ofBytes c.file c.offset

/-- The span of the `length` bytes behind the cursor. -/
def spanOf (c : Cursor) (length : Nat) : Span := .ofBytes c.file c.offset length

end Cursor

end ScriptCheck
