/-!
Lines of a text. A line ends with its newline, the last one may lack it, and `lineAt` finds the
line that holds a byte offset by walking over the lines once.
-/

namespace ScriptCheck

/-- The number of bytes of a list of characters in UTF-8. -/
def byteLength : List Char → Nat
  | [] => 0
  | c :: cs => c.utf8Size + byteLength cs

@[simp] theorem byteLength_append (a b : List Char) :
    byteLength (a ++ b) = byteLength a + byteLength b := by
  induction a with
  | nil => simp [byteLength]
  | cons c cs ih => simp [byteLength, ih, Nat.add_assoc]

/-- Every character has a byte. -/
theorem length_le_byteLength (cs : List Char) : cs.length ≤ byteLength cs := by
  induction cs with
  | nil => exact Nat.le_refl 0
  | cons c cs ih =>
    have hc := c.utf8Size_pos
    rw [byteLength, List.length_cons]
    omega

/-- The lines of a text, each with the newline that ends it. A text that ends with a newline has
no empty line after it. -/
def splitLines : List Char → List (List Char)
  | [] => []
  | c :: cs =>
    if c = '\n' then [c] :: splitLines cs
    else match splitLines cs with
      | [] => [[c]]
      | line :: lines => (c :: line) :: lines

/-- No character is lost between the lines. -/
theorem splitLines_flatten (cs : List Char) : (splitLines cs).flatten = cs := by
  induction cs with
  | nil => rfl
  | cons c cs ih =>
    rw [splitLines]
    split
    · simp [ih]
    · split <;> simp_all

/-- A line of a text, counted from 1, and an offset within it. -/
structure LinePlace where
  number : Nat
  text : List Char
  column : Nat
deriving DecidableEq

/-- Walks over lines, of which the first has the given number and start offset. -/
def findLine (offset : Nat) : Nat → Nat → List (List Char) → Option LinePlace
  | _, _, [] => none
  | number, start, line :: lines =>
    if start ≤ offset ∧ offset < start + byteLength line then
      some ⟨number, line, offset - start⟩
    else findLine offset (number + 1) (start + byteLength line) lines

/-- The line that holds a byte offset, or `none` at and past the end of the text. -/
def lineAt (content : String) (offset : Nat) : Option LinePlace :=
  findLine offset 1 0 (splitLines content.toList)

end ScriptCheck
