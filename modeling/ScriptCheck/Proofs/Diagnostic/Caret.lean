import ScriptCheck.Diagnostic.Excerpt
import ScriptCheck.Proofs.Lexing.Seam
import ScriptCheck.Proofs.Source.Lines

/-!
Where the caret stands. An excerpt prints the line that holds the character a diagnostic points at,
without the spaces before it and the blanks behind it, and below that a caret. Before the caret there is
a dash for every byte of the text that the line prints before the character, so that the caret stands in
the column of the character if and only if that text has no character of more than one byte.
-/

namespace ScriptCheck

/-! ### Blanks and bytes -/

section

variable {p : Char → Bool} {c : Char} (hc : p c = false) (lead rest : List Char)

include hc

theorem takeWhile_append_cons : (lead ++ c :: rest).takeWhile p = lead.takeWhile p := by
  induction lead with
  | nil => simp [hc]
  | cons d lead ih => rw [List.cons_append, List.takeWhile_cons, List.takeWhile_cons, ih]

theorem dropWhile_append_cons : (lead ++ c :: rest).dropWhile p = lead.dropWhile p ++ c :: rest := by
  induction lead with
  | nil => simp [hc]
  | cons d lead ih =>
    rw [List.cons_append, List.dropWhile_cons, List.dropWhile_cons, ih]
    split <;> rfl

end

/-- Blanks are taken off behind the last character that is none. -/
theorem Text.trimEnd_append {c : Char} (hc : isBlank c = false) (lead rest : List Char) :
    trimEnd (lead ++ c :: rest) = lead ++ c :: trimEnd rest := by
  simp [trimEnd, dropWhile_append_cons hc]

/-- The newline behind a text, if there is one, is taken off with the blanks. -/
theorem Text.trimEnd_newline (text after : List Char) :
    trimEnd (text ++ (after.dropWhile (· ≠ '\n')).take 1) = trimEnd text := by
  rcases dropWhile_newline after with hrest | ⟨cs, hrest⟩
  · rw [hrest, List.take_nil, List.append_nil]
  · have hblank : isBlank '\n' = true := by decide
    rw [hrest]
    simp [trimEnd, hblank]

/-- Text has as many bytes as characters if and only if no character has more than one. -/
theorem byteLength_eq_length_iff (cs : List Char) :
    byteLength cs = cs.length ↔ ∀ c ∈ cs, c.utf8Size = 1 := by
  induction cs with
  | nil => simp [byteLength]
  | cons c cs ih =>
    have hc := c.utf8Size_pos
    have hcs := length_le_byteLength cs
    rw [byteLength, List.length_cons, List.forall_mem_cons]
    constructor
    · intro h
      exact ⟨by omega, ih.1 (by omega)⟩
    · rintro ⟨hone, hones⟩
      rw [hone, ih.2 hones, Nat.add_comm]

/-- Spaces have one byte each. -/
theorem byteLength_indent (cs : List Char) :
    byteLength cs = (cs.takeWhile (· = ' ')).length + byteLength (cs.dropWhile (· = ' ')) := by
  have hspaces : byteLength (cs.takeWhile (· = ' ')) = (cs.takeWhile (· = ' ')).length := by
    refine (byteLength_eq_length_iff _).2 fun c hc => ?_
    have hspace : c = ' ' := by simpa using List.mem_takeWhile_imp hc
    subst hspace
    rfl
  rw [← hspaces, ← byteLength_append, List.takeWhile_append_dropWhile]

namespace Diagnostic

/-! ### Rows -/

/-- What a printed line shows before the character behind a part of a text. -/
def shownBefore (before : List Char) : List Char :=
  (before.rtakeWhile (· ≠ '\n')).dropWhile (· = ' ')

/-- A printed line, with its number in front. -/
def printedLine (number text : List Char) : List Char := number ++ ' ' :: '|' :: ' ' :: text

/-- A caret behind dashes, which start where the text of a printed line does. -/
def caretLine (number : List Char) (dashes : Nat) : List Char :=
  padLeft ' ' (number.length + 2) ['|'] ++ ' ' :: (List.replicate dashes '-' ++ ['^'])

/-- The only caret of its line stands behind the margin and the dashes. -/
theorem idxOf_caretLine (number : List Char) (dashes : Nat) :
    (caretLine number dashes).idxOf '^' = number.length + 3 + dashes ∧
      (caretLine number dashes).count '^' = 1 := by
  have hmargin : '^' ∉ padLeft ' ' (number.length + 2) ['|'] ++ ' ' :: List.replicate dashes '-' := by
    simp [padLeft]
  have hline : caretLine number dashes =
      (padLeft ' ' (number.length + 2) ['|'] ++ ' ' :: List.replicate dashes '-') ++ ['^'] := by
    simp [caretLine]
  rw [hline]
  refine ⟨?_, ?_⟩
  · rw [List.idxOf_append_of_notMem hmargin]
    simp [padLeft]
    omega
  · rw [List.count_append, List.count_eq_zero.2 hmargin]
    rfl

variable {d : Diagnostic} {content : String} {before after : List Char} {c : Char}

/-- The rows for the line around a character, with a caret for this character. -/
theorem rows_around (hc : Text.isBlank c = false) (number : Nat) :
    rows ⟨number, lineAround before c after ++ (after.dropWhile (· ≠ '\n')).take 1,
        byteLength (before.rtakeWhile (· ≠ '\n'))⟩ =
      padLeft ' ' ((toString number).toList.length + 2) ['|'] ++ '\n' ::
        (printedLine (toString number).toList
            (shownBefore before ++ c :: Text.trimEnd (after.takeWhile (· ≠ '\n'))) ++ '\n' ::
          (caretLine (toString number).toList (byteLength (shownBefore before)) ++ ['\n'])) := by
  have hspace : decide (c = ' ') = false := by
    refine decide_eq_false ?_
    rintro rfl
    cases hc
  have hline : lineAround before c after ++ (after.dropWhile (· ≠ '\n')).take 1 =
      before.rtakeWhile (· ≠ '\n') ++
        c :: (after.takeWhile (· ≠ '\n') ++ (after.dropWhile (· ≠ '\n')).take 1) := by
    rw [lineAround, List.append_assoc, List.cons_append]
  have hcolumn : byteLength (before.rtakeWhile (· ≠ '\n')) -
      ((before.rtakeWhile (· ≠ '\n')).takeWhile (· = ' ')).length =
        byteLength (shownBefore before) := by
    rw [byteLength_indent (before.rtakeWhile (· ≠ '\n')), Nat.add_sub_cancel_left, shownBefore]
  rw [rows]
  dsimp only
  rw [drop_length_takeWhile, hline, takeWhile_append_cons hspace, dropWhile_append_cons hspace,
    Text.trimEnd_append hc, Text.trimEnd_newline, hcolumn]
  simp [printedLine, caretLine, padLeft, shownBefore]

/-! ### Excerpts -/

/-- A diagnostic points at a character that is no blank. -/
structure PointsAt (d : Diagnostic) (content : String) (before : List Char) (c : Char)
    (after : List Char) : Prop where
  content : content.toList = before ++ c :: after
  offset : d.position.offset = byteLength before
  visible : Text.isBlank c = false

/-- The lines above the rows of an excerpt. -/
def heading (d : Diagnostic) : List Char :=
  (d.header ++ "\n-> " ++ d.position.file ++ "\n").toList

/-- The line of a diagnostic is the one around the character it points at. -/
theorem PointsAt.lineAt (h : d.PointsAt content before c after) :
    ScriptCheck.lineAt content d.position.offset =
      some ⟨before.count '\n' + 1, lineAround before c after ++ (after.dropWhile (· ≠ '\n')).take 1,
        byteLength (before.rtakeWhile (· ≠ '\n'))⟩ := by
  have hnewline : c ≠ '\n' := by
    rintro rfl
    cases h.visible
  have hbefore : before.rdropWhile (· ≠ '\n') ++ before.rtakeWhile (· ≠ '\n') = before :=
    List.rdropWhile_append_rtakeWhile
  have hcontent : content.toList = before.rdropWhile (· ≠ '\n') ++
      ((lineAround before c after ++ (after.dropWhile (· ≠ '\n')).take 1) ++
        (after.dropWhile (· ≠ '\n')).drop 1) := by
    rw [List.append_assoc, List.take_append_drop, lineAround, List.append_assoc, List.cons_append,
      List.takeWhile_append_dropWhile, ← List.append_assoc, hbefore, h.content]
  have hcount : (before.rdropWhile (· ≠ '\n')).count '\n' = before.count '\n' := by
    have hnone : (before.rtakeWhile (· ≠ '\n')).count '\n' = 0 := by
      refine List.count_eq_zero.2 fun hmem => ?_
      simpa using List.mem_rtakeWhile_imp hmem
    conv_rhs => rw [← hbefore, List.count_append, hnone, Nat.add_zero]
  have hwithin : byteLength (before.rtakeWhile (· ≠ '\n')) <
      byteLength (lineAround before c after ++ (after.dropWhile (· ≠ '\n')).take 1) := by
    have hc := c.utf8Size_pos
    simp only [lineAround, byteLength_append, byteLength]
    omega
  have hfound := lineAt_of_isLine hcontent (isLine_around before after hnewline) hwithin
  rwa [← byteLength_append, hbefore, ← h.offset, hcount] at hfound

/-- Below its heading an excerpt prints the line that holds the character, without the spaces before it
and the blanks behind it, and a line with one caret. The caret stands in the column of the character if
and only if all that is printed before the character has one byte for each character. -/
theorem excerpt_caret (h : d.PointsAt content before c after) :
    ∃ number printed caret rest : List Char,
      (d.excerpt content).toList =
        d.heading ++ (padLeft ' ' (number.length + 2) ['|'] ++ '\n' ::
          (printed ++ '\n' :: (caret ++ ['\n']))) ∧
      number = (toString (before.count '\n' + 1)).toList ∧
      printed = printedLine number
        (Text.trimEnd ((lineAround before c after).dropWhile (· = ' '))) ∧
      printed = printedLine number (shownBefore before) ++ c :: rest ∧
      caret.count '^' = 1 ∧
      caret.idxOf '^' = (printedLine number []).length + byteLength (shownBefore before) ∧
      (caret.idxOf '^' = (printedLine number (shownBefore before)).length ↔
        ∀ x ∈ shownBefore before, x.utf8Size = 1) := by
  have hspace : decide (c = ' ') = false := by
    refine decide_eq_false ?_
    rintro rfl
    cases h.visible
  have hshown : Text.trimEnd ((lineAround before c after).dropWhile (· = ' ')) =
      shownBefore before ++ c :: Text.trimEnd (after.takeWhile (· ≠ '\n')) := by
    rw [lineAround, dropWhile_append_cons hspace, Text.trimEnd_append h.visible, shownBefore]
  have hcaret := idxOf_caretLine (toString (before.count '\n' + 1)).toList
    (byteLength (shownBefore before))
  refine ⟨_, _, _, Text.trimEnd (after.takeWhile (· ≠ '\n')), ?_, rfl, rfl, ?_, hcaret.2, ?_, ?_⟩
  · rw [excerpt, h.lineAt, String.toList_append, String.toList_ofList, rows_around h.visible, hshown]
    rfl
  · rw [hshown]
    simp [printedLine]
  · rw [hcaret.1]
    simp [printedLine]
  · rw [hcaret.1, ← byteLength_eq_length_iff]
    simp only [printedLine, List.length_append, List.length_cons]
    omega

/-- A diagnostic in the second line of a source, behind an indentation. -/
theorem excerpt_caret_indented :
    ∃ d : Diagnostic, ∃ number printed caret rest : List Char,
      d.PointsAt "int x = 1;\n  string s = x;\n" "int x = 1;\n  string s = ".toList 'x' [';', '\n'] ∧
      (d.excerpt "int x = 1;\n  string s = x;\n").toList =
        d.heading ++ (padLeft ' ' (number.length + 2) ['|'] ++ '\n' ::
          (printed ++ '\n' :: (caret ++ ['\n']))) ∧
      printed = "2 | string s = ".toList ++ 'x' :: rest ∧ caret.count '^' = 1 ∧
      caret.idxOf '^' = "2 | string s = ".toList.length := by
  have hpoints : (Diagnostic.mk (.typeMismatch "string" "int") ⟨24, "a.ts"⟩).PointsAt
      "int x = 1;\n  string s = x;\n" "int x = 1;\n  string s = ".toList 'x' [';', '\n'] :=
    ⟨by decide, by decide, by decide⟩
  obtain ⟨number, printed, caret, rest, htext, rfl, -, hprinted, hone, -, hcolumn⟩ :=
    excerpt_caret hpoints
  have hbefore : printedLine (toString ("int x = 1;\n  string s = ".toList.count '\n' + 1)).toList
      (shownBefore "int x = 1;\n  string s = ".toList) = "2 | string s = ".toList := by decide +kernel
  have hbytes := (byteLength_eq_length_iff (shownBefore "int x = 1;\n  string s = ".toList)).1
    (by decide +kernel)
  rw [hbefore] at hprinted hcolumn
  exact ⟨_, _, _, _, rest, hpoints, htext, hprinted, hone, hcolumn.2 hbytes⟩

/-- Behind a character of two bytes the caret stands one column too far to the right. -/
theorem excerpt_caret_accent :
    (Diagnostic.mk (.variableNotDeclared "x") ⟨7, "a.ts"⟩).PointsAt "\"é\" + x;" "\"é\" + ".toList 'x'
      [';'] ∧
    (Diagnostic.mk (.variableNotDeclared "x") ⟨7, "a.ts"⟩).excerpt "\"é\" + x;" =
      "ResolutionError: VariableNotDeclared (Variable `x` not declared)\n-> a.ts\n" ++
        "  |\n" ++ "1 | \"é\" + x;" ++ "\n" ++ "  | -------^" ++ "\n" ∧
    "1 | \"é\" + x;".toList.idxOf 'x' = 10 ∧ "  | -------^".toList.idxOf '^' = 11 :=
  ⟨⟨by decide, by decide, by decide⟩, by decide +kernel, by decide, by decide⟩

end Diagnostic

end ScriptCheck
