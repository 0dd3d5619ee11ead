import Mathlib.Data.List.Forall2
import ScriptCheck.Proofs.Ty.Printable
import ScriptCheck.Ty.Printer

/-!
The written form of types as tokens. A type has its lexemes, from left to right, and the written form of
a printable type is scanned as these. Words and numbers in it end before a blank, a comma or a bracket,
and no mark in it stands before a character that would make it another one.
-/

namespace ScriptCheck

/-! ### Lexemes -/

/-- Lists of lexemes with a lexeme between them. -/
def separatedBy (l : Lexeme) : List (List Lexeme) → List Lexeme
  | [] => []
  | ls :: rest => ls ++ rest.flatMap (l :: ·)

namespace Ty

mutual

/-- The lexemes of a type. -/
def lexemes : Ty → List Lexeme
  | .named name _ => [wordLexeme name]
  | .union members => separatedBy (.pipe, "|") (allLexemes members)
  | .array element =>
    wordLexeme "Array" :: (.less, "<") :: (elementLexemes element ++ [(.greater, ">")])
  | .interface ⟨_, props, index⟩ =>
    (.openCurly, "\x7b") :: (separatedBy (.comma, ",") (propLexemes props ++ indexLexemes index) ++
      [(.closeCurly, "\x7d")])
  | .function ⟨params, result⟩ =>
    (.openParen, "(") :: (separatedBy (.comma, ",") (paramLexemes params) ++
      (.closeParen, ")") :: (.colonColon, "::") :: lexemes result)
  | .classType ⟨name, _, _, _⟩ => [wordLexeme name]
  | .literal value => [Expr.literalLexeme value]
  | .intersection members => separatedBy (.ampersand, "&") (allLexemes members)
termination_by structural t => t

/-- The lexemes of each of the types. -/
def allLexemes : List Ty → List (List Lexeme)
  | [] => []
  | t :: ts => lexemes t :: allLexemes ts
termination_by structural ts => ts

/-- The lexemes of the element of an array. -/
def elementLexemes : Option Ty → List Lexeme
  | none => [wordLexeme "never"]
  | some t => lexemes t
termination_by structural t => t

/-- The lexemes of each of the properties. -/
def propLexemes : List (Property Ty) → List (List Lexeme)
  | [] => []
  | ⟨name, type, writable⟩ :: ps =>
    ((if writable then [] else [wordLexeme "const"]) ++
      wordLexeme name :: (.colon, ":") :: lexemes type) :: propLexemes ps
termination_by structural ps => ps

/-- The lexemes of each of the index signatures. -/
def indexLexemes : List (IndexKey × Ty) → List (List Lexeme)
  | [] => []
  | (key, type) :: is =>
    ((.openBracket, "[") :: wordLexeme key.display :: (.closeBracket, "]") :: (.colon, ":") ::
      lexemes type) :: indexLexemes is
termination_by structural is => is

/-- The lexemes of each of the parameters. -/
def paramLexemes : List (String × Ty) → List (List Lexeme)
  | [] => []
  | (name, type) :: ps => (lexemes type ++ [wordLexeme name]) :: paramLexemes ps
termination_by structural ps => ps

end

end Ty

/-! ### Pieces of text -/

theorem Spells.mono {A B : Option Char → Prop} {cs : List Char} {ls : List Lexeme}
    (h : Spells A cs ls) (hBA : ∀ next, B next → A next) : Spells B cs ls :=
  fun _ _ _ _ hrest => h (hBA _ hrest)

/-- A mark with a blank behind it. -/
theorem spells_spacedMark (m : TokenKind × String × Option Char) (h : m ∈ typeMarks)
    (hblank : m.2.2 ≠ some ' ') : Spells anywhere (m.2.1.toList ++ [' ']) [(m.1, m.2.1)] := by
  refine (spells_mark h).upTo .blank rfl ?_
  rintro x hx ⟨⟩
  exact hblank hx

theorem toList_joinWith (separator : String) (s : String) (ss : List String) :
    (joinWith separator (s :: ss)).toList =
      s.toList ++ ss.flatMap fun t => separator.toList ++ t.toList := by
  induction ss generalizing s with
  | nil => simp [joinWith]
  | cons t ss ih =>
    have hjoin : joinWith separator (s :: t :: ss) = s ++ separator ++ joinWith separator (t :: ss) :=
      rfl
    rw [hjoin, String.toList_append, String.toList_append, ih, List.flatMap_cons, List.append_assoc,
      List.append_assoc]

/-- Pieces with separators between them. -/
theorem spells_joinWith {separator : String} {d : Char} {l : Lexeme}
    (hseparator : Spells anywhere separator.toList [l]) (hd : separator.toList.head? = some d)
    (happart : Apart (some d)) {ss : List String} {lss : List (List Lexeme)}
    (h : List.Forall₂ (fun s ls => Spells Apart s.toList ls) ss lss) :
    Spells Apart (joinWith separator ss).toList (separatedBy l lss) := by
  have htail {ss : List String} {lss : List (List Lexeme)}
      (h : List.Forall₂ (fun s ls => Spells Apart s.toList ls) ss lss) :
      Spells Apart (ss.flatMap fun t => separator.toList ++ t.toList) (lss.flatMap (l :: ·)) ∧
        ∀ next, Apart next →
          Apart ((ss.flatMap fun t => separator.toList ++ t.toList).head?.or next) := by
    induction h with
    | nil => exact ⟨.nil, fun _ hnext => hnext⟩
    | cons hs _ ih =>
      refine ⟨(hseparator.before hs).append ih.1 ih.2, fun next _ => ?_⟩
      rw [List.flatMap_cons, List.append_assoc, List.head?_append, hd]
      exact happart
  cases h with
  | nil => exact .nil
  | cons hs hss =>
    rw [toList_joinWith]
    exact hs.append (htail hss).1 (htail hss).2

/-! ### Types -/

/-- A text is scanned as a type: it spells its lexemes and does not start with a sign of equality. -/
structure SpellsType (cs : List Char) (ls : List Lexeme) : Prop where
  spells : Spells Apart cs ls
  starts : ∃ c, cs.head? = some c ∧ c ≠ '='

theorem SpellsType.join {separator : String} {d : Char} {l : Lexeme}
    (hseparator : Spells anywhere separator.toList [l]) (hd : separator.toList.head? = some d)
    (happart : Apart (some d)) {ss : List String} {lss : List (List Lexeme)}
    (h : List.Forall₂ (fun s ls => SpellsType s.toList ls) ss lss) (hne : ss ≠ []) :
    SpellsType (joinWith separator ss).toList (separatedBy l lss) := by
  refine ⟨spells_joinWith hseparator hd happart (h.imp fun _ _ hs => hs.spells), ?_⟩
  cases h with
  | nil => exact absurd rfl hne
  | cons hs _ =>
    obtain ⟨c, hc, hequals⟩ := hs.starts
    rw [toList_joinWith]
    exact ⟨c, by rw [List.head?_append, hc, Option.some_or], hequals⟩

theorem spellsType_word (word : String) (h : isWord word = true) :
    SpellsType word.toList [wordLexeme word] := by
  refine ⟨spells_word word h, ?_⟩
  obtain ⟨c, cs, hword, hc, -⟩ := exists_of_isWord h
  refine ⟨c, by rw [hword, List.head?_cons], ?_⟩
  rintro rfl
  cases hc

theorem spellsType_literal {value : Literal} (h : value.Printable) :
    SpellsType value.display.toList [Expr.literalLexeme value] := by
  cases value with
  | int n =>
    obtain ⟨n, rfl⟩ := Int.eq_ofNat_of_zero_le h.1
    have htext : (Literal.int n).display.toList = natText n := String.toList_ofList
    have hlexeme : Expr.literalLexeme (.int n) = (.number, String.ofList (natText n)) := rfl
    have hne : natText n ≠ [] := Nat.toDigits_ne_nil
    obtain ⟨c, cs, hdigits⟩ := List.exists_cons_of_ne_nil hne
    have hc : isDigit c = true := isDigit_of_mem_natText (n := n) (by simp [hdigits])
    rw [htext, hlexeme]
    refine ⟨spells_natText n, c, by rw [hdigits, List.head?_cons], ?_⟩
    rintro rfl
    cases hc
  | float _ => exact h.elim
  | text s =>
    refine ⟨(spells_quote h).mono fun _ _ => trivial, '"', ?_, by decide⟩
    rw [Literal.display, Text.quote, String.toList_ofList]
    rfl
  | bool b =>
    cases b with
    | true => exact spellsType_word "true" (by decide)
    | false => exact spellsType_word "false" (by decide)

theorem SpellsType.array {cs : List Char} {ls : List Lexeme} (h : SpellsType cs ls) :
    SpellsType ("Array<".toList ++ (cs ++ ">".toList))
      (wordLexeme "Array" :: (.less, "<") :: (ls ++ [(.greater, ">")])) := by
  have hclose : Spells Apart ">".toList [(.greater, ">")] := by
    refine (spells_openMark (x := '=') (by decide)).mono ?_
    rintro next hnext rfl
    exact (hnext '=' rfl).2.2 rfl
  have hinside : Spells Apart (cs ++ ">".toList) (ls ++ [(.greater, ">")]) :=
    h.spells.upTo hclose rfl (by decide)
  have hopened : Spells Apart ("<".toList ++ (cs ++ ">".toList))
      ((.less, "<") :: (ls ++ [(.greater, ">")])) := by
    obtain ⟨c, hc, hequals⟩ := h.starts
    refine (spells_openMark (x := '=') (by decide)).upTo hinside (by rw [List.head?_append, hc]; rfl) ?_
    exact fun heq => hequals (Option.some.inj heq)
  exact ⟨(spells_word "Array" (by decide)).upTo hopened rfl (by decide), 'A', rfl, by decide⟩

theorem spells_comma : Spells anywhere ", ".toList [(.comma, ",")] :=
  spells_spacedMark (.comma, ",", none) (by decide) (by decide)

/-- Entries between curly brackets. -/
theorem SpellsType.braced {ss : List String} {lss : List (List Lexeme)}
    (h : List.Forall₂ (fun s ls => Spells Apart s.toList ls) ss lss) :
    SpellsType (bracedEntries ss).toList
      ((.openCurly, "\x7b") :: (separatedBy (.comma, ",") lss ++ [(.closeCurly, "\x7d")])) := by
  have hopen : Spells anywhere "\x7b".toList [(.openCurly, "\x7b")] :=
    spells_closedMark (by decide)
  have hclose : Spells Apart "\x7d".toList [(.closeCurly, "\x7d")] :=
    (spells_closedMark (by decide)).mono fun _ _ => trivial
  cases h with
  | nil => exact ⟨hopen.before hclose, '\x7b', rfl, by decide⟩
  | @cons s ls ss lss hs hss =>
    have hentries := spells_joinWith spells_comma rfl (by decide) (.cons hs hss)
    have hclosed := hentries.upTo (Spells.blank.before hclose) rfl (by decide)
    refine ⟨?_, '\x7b', ?_, by decide⟩
    · have htext : (bracedEntries (s :: ss)).toList = "\x7b".toList ++ ([' '] ++
          ((joinWith ", " (s :: ss)).toList ++ ([' '] ++ "\x7d".toList))) := by
        simp [bracedEntries]
      rw [htext]
      exact hopen.before (Spells.blank.before hclosed)
    · simp [bracedEntries]

/-- Parameters between parentheses and a result. -/
theorem SpellsType.arrow {ss : List String} {lss : List (List Lexeme)} {cs : List Char}
    {ls : List Lexeme} (h : List.Forall₂ (fun s ls => Spells Apart s.toList ls) ss lss)
    (hresult : SpellsType cs ls) :
    SpellsType ("(".toList ++ ((joinWith ", " ss).toList ++ (") :: ".toList ++ cs)))
      ((.openParen, "(") :: (separatedBy (.comma, ",") lss ++
        (.closeParen, ")") :: (.colonColon, "::") :: ls)) := by
  have hopen : Spells anywhere "(".toList [(.openParen, "(")] := spells_closedMark (by decide)
  have hclose : Spells anywhere ") ".toList [(.closeParen, ")")] :=
    spells_spacedMark (.closeParen, ")", none) (by decide) (by decide)
  have hcolons : Spells anywhere ":: ".toList [(.colonColon, "::")] :=
    spells_spacedMark (.colonColon, "::", none) (by decide) (by decide)
  have hparams := spells_joinWith spells_comma rfl (by decide) h
  have hbehind : Spells Apart (") :: ".toList ++ cs) ((.closeParen, ")") :: (.colonColon, "::") :: ls) :=
    (hclose.before hcolons).before hresult.spells
  exact ⟨hopen.before (hparams.upTo hbehind rfl (by decide)), '(', rfl, by decide⟩

theorem spells_param {name : String} {cs : List Char} {ls : List Lexeme}
    (hname : isIdentifier name = true) (h : SpellsType cs ls) :
    Spells Apart (cs ++ (" ".toList ++ name.toList)) (ls ++ [wordLexeme name]) := by
  have hword := spells_word name (Bool.and_eq_true_iff.1 hname).1
  exact h.spells.upTo (Spells.blank.before hword) rfl (by decide)

theorem spells_entry {key : List Char} {ks : List Lexeme} {cs : List Char} {ls : List Lexeme}
    (hkey : Spells Apart key ks) (h : SpellsType cs ls) :
    Spells Apart (key ++ (": ".toList ++ cs)) (ks ++ (.colon, ":") :: ls) := by
  have hcolon : Spells anywhere ": ".toList [(.colon, ":")] :=
    spells_spacedMark (.colon, ":", some ':') (by decide) (by decide)
  exact hkey.upTo (hcolon.before h.spells) rfl (by decide)

/-- The name of a property, with the mark of one that cannot be written to. -/
theorem spells_propertyName {name : String} (hname : isIdentifier name = true) (writable : Bool) :
    Spells Apart ((if writable then "" else "const ").toList ++ name.toList)
      ((if writable then [] else [wordLexeme "const"]) ++ [wordLexeme name]) := by
  have hword := spells_word name (Bool.and_eq_true_iff.1 hname).1
  cases writable with
  | true => exact hword
  | false =>
    have hconst := (spells_word "const" (by decide)).upTo (Spells.blank.before hword) rfl (by decide)
    exact hconst

theorem spells_indexKey (key : IndexKey) :
    Spells Apart ("[".toList ++ (key.display.toList ++ "]".toList))
      [(.openBracket, "["), wordLexeme key.display, (.closeBracket, "]")] := by
  have hopen : Spells anywhere "[".toList [(.openBracket, "[")] := spells_closedMark (by decide)
  have hclose : Spells Apart "]".toList [(.closeBracket, "]")] :=
    (spells_closedMark (by decide)).mono fun _ _ => trivial
  have hword := spells_word key.display (by cases key <;> decide)
  exact hopen.before (hword.upTo hclose rfl (by decide))

namespace Ty

mutual

/-- The written form of a printable type is scanned as the lexemes of the type. -/
theorem display_spells : ∀ t : Ty, t.Printable → SpellsType t.display.toList t.lexemes
  | .named name [], h => by
    have hwords : ∀ name ∈ intrinsicTypeNames, isWord name = true := by decide
    exact spellsType_word name (hwords name h.1)
  | .union members, h => by
    have hpipe : Spells anywhere " | ".toList [(.pipe, "|")] :=
      Spells.blank.before (spells_spacedMark (.pipe, "|", some '|') (by decide) (by decide))
    rcases members with _ | ⟨m, ms⟩
    · cases h.1
    · exact .join hpipe rfl (by decide) (displayAll_spell (m :: ms) h.2.2.1) nofun
  | .array (some t), h => by
    have htext : (array (some t)).display.toList =
        "Array<".toList ++ (t.display.toList ++ ">".toList) := by
      simp [display, displayElement]
    rw [htext]
    exact (display_spells t h).array
  | .interface ⟨none, props, index⟩, h =>
    .braced (List.rel_append (displayProps_spell props h.2.1) (displayIndex_spell index h.2.2))
  | .function ⟨params, result⟩, h => by
    have htext : (function ⟨params, result⟩).display.toList =
        "(".toList ++ ((joinWith ", " (displayParams params)).toList ++
          (") :: ".toList ++ result.display.toList)) := by
      simp [display]
    rw [htext]
    exact .arrow (displayParams_spell params h.1) (display_spells result h.2)
  | .literal value, h => spellsType_literal h
  | .intersection members, h => by
    have hampersand : Spells anywhere " & ".toList [(.ampersand, "&")] :=
      Spells.blank.before (spells_spacedMark (.ampersand, "&", some '&') (by decide) (by decide))
    rcases members with _ | ⟨m, ms⟩
    · cases h.1
    · exact .join hampersand rfl (by decide) (displayAll_spell (m :: ms) h.2.2.1) nofun
termination_by structural t => t

theorem displayAll_spell : ∀ ts : List Ty, AllPrintable ts →
    List.Forall₂ (fun s ls => SpellsType s.toList ls) (displayAll ts) (allLexemes ts)
  | [], _ => .nil
  | t :: ts, h => .cons (display_spells t h.1) (displayAll_spell ts h.2)
termination_by structural ts => ts

theorem displayProps_spell : ∀ ps : List (Property Ty), PropsPrintable ps →
    List.Forall₂ (fun s ls => Spells Apart s.toList ls) (displayProps ps) (propLexemes ps)
  | [], _ => .nil
  | ⟨name, type, writable⟩ :: ps, h => by
    refine .cons ?_ (displayProps_spell ps h.2.2)
    have hentry := spells_entry (spells_propertyName h.1 writable) (display_spells type h.2.1)
    simpa only [String.toList_append, List.append_assoc, List.singleton_append] using hentry
termination_by structural ps => ps

theorem displayIndex_spell : ∀ is : List (IndexKey × Ty), IndexPrintable is →
    List.Forall₂ (fun s ls => Spells Apart s.toList ls) (displayIndex is) (indexLexemes is)
  | [], _ => .nil
  | (key, type) :: is, h => by
    refine .cons ?_ (displayIndex_spell is h.2)
    have hentry := spells_entry (spells_indexKey key) (display_spells type h.1)
    have htext : ("[" ++ key.display ++ "]: " ++ type.display).toList =
        "[".toList ++ (key.display.toList ++ "]".toList) ++ (": ".toList ++ type.display.toList) := by
      simp
    rw [htext]
    exact hentry
termination_by structural is => is

theorem displayParams_spell : ∀ ps : List (String × Ty), ParamsPrintable ps →
    List.Forall₂ (fun s ls => Spells Apart s.toList ls) (displayParams ps) (paramLexemes ps)
  | [], _ => .nil
  | (name, type) :: ps, h => by
    refine .cons ?_ (displayParams_spell ps h.2.2)
    rw [String.toList_append, String.toList_append, List.append_assoc]
    exact spells_param h.1 (display_spells type h.2.1)
termination_by structural ps => ps

end

/-- The tokens of the written form of a printable type are those of the type. -/
theorem tokenize_display {t : Ty} (h : t.Printable) (file : String) :
    ∃ ts last, tokenize t.display file = .ok (ts ++ [last]) ∧ ts.map Token.lexeme = t.lexemes ∧
      last.kind = .eof := by
  have hend : scan file (0 + byteLength t.display.toList) [] =
      .ok [.endOf (.ofBytes file (0 + byteLength t.display.toList) 0)] := by rw [scan]
  have hnone : Apart ([] : List Char).head? := by rintro c ⟨⟩
  obtain ⟨ts, hscan, hts⟩ := (display_spells t h).spells hnone hend
  rw [List.append_nil] at hscan
  exact ⟨ts, _, hscan, hts, rfl⟩

end Ty

end ScriptCheck
