import Mathlib.Data.List.DropRight
import ScriptCheck.Source.Line

/-!
Lines found in a text. A line starts behind a newline or where the text starts, and goes on up to its
first newline or to the end of the text. Splitting a text gives the lines before such a line, the line
itself and those behind it, so that a byte offset in the line finds it, with the number of newlines
before it.
-/

namespace ScriptCheck

/-- What stands between two parts of a text is one of its lines. -/
structure IsLine (earlier line later : List Char) : Prop where
  starts : earlier = [] ∨ ∃ cs, earlier = cs ++ ['\n']
  ends : ('\n' ∉ line ∧ line ≠ [] ∧ later = []) ∨ ∃ cs, '\n' ∉ cs ∧ line = cs ++ ['\n']

/-! ### Splitting -/

/-- A newline ends the lines before it. -/
theorem splitLines_append_newline (cs rest : List Char) :
    splitLines (cs ++ '\n' :: rest) = splitLines (cs ++ ['\n']) ++ splitLines rest := by
  induction cs with
  | nil => simp [splitLines]
  | cons c cs ih =>
    rw [List.cons_append, List.cons_append, splitLines, splitLines, ih]
    split
    · rfl
    · cases hlines : splitLines (cs ++ ['\n']) with
      | nil =>
        have hflat := splitLines_flatten (cs ++ ['\n'])
        simp [hlines] at hflat
      | cons line lines => rfl

theorem splitLines_of_not_mem {cs : List Char} (h : '\n' ∉ cs) (hne : cs ≠ []) :
    splitLines cs = [cs] := by
  induction cs with
  | nil => exact absurd rfl hne
  | cons c cs ih =>
    obtain ⟨hc, hcs⟩ : c ≠ '\n' ∧ '\n' ∉ cs := by simpa [eq_comm] using h
    rw [splitLines, if_neg hc]
    cases cs with
    | nil => rfl
    | cons d ds => rw [ih hcs (List.cons_ne_nil d ds)]

theorem splitLines_newline {cs : List Char} (h : '\n' ∉ cs) :
    splitLines (cs ++ ['\n']) = [cs ++ ['\n']] := by
  induction cs with
  | nil => rfl
  | cons c cs ih =>
    obtain ⟨hc, hcs⟩ : c ≠ '\n' ∧ '\n' ∉ cs := by simpa [eq_comm] using h
    rw [List.cons_append, splitLines, if_neg hc, ih hcs]

/-- Every newline ends one line. -/
theorem length_splitLines_newline (cs : List Char) :
    (splitLines (cs ++ ['\n'])).length = (cs ++ ['\n']).count '\n' := by
  induction cs with
  | nil => rfl
  | cons c cs ih =>
    rw [List.cons_append, splitLines, List.count_cons]
    split
    · rename_i hc
      simp [ih, hc]
    · rename_i hc
      cases hlines : splitLines (cs ++ ['\n']) with
      | nil =>
        have hflat := splitLines_flatten (cs ++ ['\n'])
        simp [hlines] at hflat
      | cons line lines =>
        rw [hlines] at ih
        simpa [hc] using ih

namespace IsLine

variable {earlier line later : List Char}

theorem split (h : IsLine earlier line later) :
    splitLines (earlier ++ (line ++ later)) = splitLines earlier ++ line :: splitLines later := by
  have hline : splitLines (line ++ later) = line :: splitLines later := by
    rcases h.ends with ⟨hnone, hne, rfl⟩ | ⟨cs, hnone, rfl⟩
    · rw [List.append_nil, splitLines_of_not_mem hnone hne]
      rfl
    · rw [List.append_assoc, List.singleton_append, splitLines_append_newline,
        splitLines_newline hnone, List.singleton_append]
  rcases h.starts with rfl | ⟨cs, rfl⟩
  · exact hline
  · rw [List.append_assoc, List.singleton_append, splitLines_append_newline, hline]

theorem length_before (h : IsLine earlier line later) :
    (splitLines earlier).length = earlier.count '\n' := by
  rcases h.starts with rfl | ⟨cs, rfl⟩
  · rfl
  · exact length_splitLines_newline cs

end IsLine

/-! ### Finding -/

/-- Lines that end at or before an offset are passed over. -/
theorem findLine_append {offset : Nat} {ys : List (List Char)} :
    ∀ (xs : List (List Char)) {number start : Nat}, start + byteLength xs.flatten ≤ offset →
      findLine offset number start (xs ++ ys) =
        findLine offset (number + xs.length) (start + byteLength xs.flatten) ys
  | [], _, _, _ => rfl
  | x :: xs, number, start, h => by
    rw [List.flatten_cons, byteLength_append, ← Nat.add_assoc] at h ⊢
    rw [List.cons_append, findLine, if_neg (by omega), findLine_append xs h, List.length_cons]
    congr 1
    omega

/-- An offset in a line finds this line, its number and its column. -/
theorem lineAt_of_isLine {content : String} {earlier line later : List Char} {column : Nat}
    (hcontent : content.toList = earlier ++ (line ++ later)) (h : IsLine earlier line later)
    (hcolumn : column < byteLength line) :
    lineAt content (byteLength earlier + column) = some ⟨earlier.count '\n' + 1, line, column⟩ := by
  have hflat := splitLines_flatten earlier
  rw [lineAt, hcontent, h.split, findLine_append, hflat, Nat.zero_add, findLine, if_pos (by omega),
    h.length_before, Nat.add_sub_cancel_left, Nat.add_comm 1]
  rw [hflat]
  omega

/-! ### The line around a character -/

/-- The text of the line that holds the character between two parts of a text, without a newline. -/
def lineAround (before : List Char) (c : Char) (after : List Char) : List Char :=
  before.rtakeWhile (· ≠ '\n') ++ c :: after.takeWhile (· ≠ '\n')

/-- What stands before the line of a place is nothing or ends with a newline. -/
theorem rdropWhile_newline (before : List Char) :
    before.rdropWhile (· ≠ '\n') = [] ∨ ∃ cs, before.rdropWhile (· ≠ '\n') = cs ++ ['\n'] := by
  induction before using List.reverseRecOn with
  | nil => exact .inl (List.rdropWhile_nil _)
  | append_singleton before c ih =>
    rw [List.rdropWhile_concat]
    by_cases hc : c = '\n'
    · simp [hc]
    · simpa [hc] using ih

/-- What stands behind the line of a place is nothing or starts with a newline. -/
theorem dropWhile_newline (after : List Char) :
    after.dropWhile (· ≠ '\n') = [] ∨ ∃ cs, after.dropWhile (· ≠ '\n') = '\n' :: cs := by
  induction after with
  | nil => exact .inl rfl
  | cons c after ih =>
    rw [List.dropWhile_cons]
    by_cases hc : c = '\n'
    · simp [hc]
    · simpa [hc] using ih

theorem newline_not_mem_lineAround (before after : List Char) {c : Char} (hc : c ≠ '\n') :
    '\n' ∉ lineAround before c after := by
  intro hmem
  rcases List.mem_append.1 hmem with hmem | hmem
  · simpa using List.mem_rtakeWhile_imp hmem
  · rcases List.mem_cons.1 hmem with hmem | hmem
    · exact hc hmem.symm
    · simpa using List.mem_takeWhile_imp hmem

/-- The line around a character, with the newline that ends it if there is one, is a line of the
text. -/
theorem isLine_around (before after : List Char) {c : Char} (hc : c ≠ '\n') :
    IsLine (before.rdropWhile (· ≠ '\n'))
      (lineAround before c after ++ (after.dropWhile (· ≠ '\n')).take 1)
      ((after.dropWhile (· ≠ '\n')).drop 1) := by
  have hline := newline_not_mem_lineAround before after hc
  refine ⟨rdropWhile_newline before, ?_⟩
  rcases dropWhile_newline after with hrest | ⟨cs, hrest⟩
  · rw [hrest]
    refine .inl ⟨?_, ?_, rfl⟩
    · simpa using hline
    · simp [lineAround]
  · rw [hrest]
    exact .inr ⟨_, hline, rfl⟩

end ScriptCheck
