import Mathlib.Tactic.SplitIfs
import ScriptCheck.Proofs.Expr.Rendering
import ScriptCheck.Proofs.Integer
import ScriptCheck.Proofs.Lexing.Encodings

/-!
Texts and the tokens they are scanned as. A piece of text spells lexemes if it is scanned as tokens with
these, whatever is written behind it; only the first character behind it may matter, since a word, a
number or a mark goes on as far as it can. Pieces are put together where that character is harmless.
-/

namespace ScriptCheck

open LexRule

/-- A text is scanned as lexemes wherever the character behind it, if there is one, is admitted. -/
def Spells (admits : Option Char → Prop) (cs : List Char) (ls : List Lexeme) : Prop :=
  ∀ ⦃file : String⦄ ⦃offset : Nat⦄ ⦃rest : List Char⦄ ⦃vs : List Token⦄, admits rest.head? →
    scan file (offset + byteLength cs) rest = .ok vs →
    ∃ us, scan file offset (cs ++ rest) = .ok (us ++ vs) ∧ us.map Token.lexeme = ls

/-- Any character is admitted. -/
def anywhere : Option Char → Prop := fun _ => True

/-- Characters behind which a word, a number or a type does not go on. -/
def Apart (next : Option Char) : Prop :=
  ∀ c ∈ next, isWordPart c = false ∧ c ≠ '.' ∧ c ≠ '='

instance : DecidablePred Apart
  | none => .isTrue nofun
  | some c => decidable_of_iff (isWordPart c = false ∧ c ≠ '.' ∧ c ≠ '=') (by simp [Apart])

namespace Spells

variable {A B : Option Char → Prop} {cs ds : List Char} {ls ms : List Lexeme}

theorem nil : Spells A [] [] :=
  fun _ _ _ _ _ h => ⟨[], h, rfl⟩

theorem blank : Spells A [' '] [] := by
  intro file offset rest vs _ h
  refine ⟨[], ?_, rfl⟩
  rw [List.singleton_append, scan_blank (by decide)]
  exact h

theorem append (h : Spells A cs ls) (h' : Spells B ds ms)
    (hnext : ∀ next, B next → A (ds.head?.or next)) : Spells B (cs ++ ds) (ls ++ ms) := by
  intro file offset rest vs hrest hscan
  rw [byteLength_append, ← Nat.add_assoc] at hscan
  obtain ⟨us, hus, rfl⟩ := h' hrest hscan
  have hhead : A (ds ++ rest).head? := by
    rw [List.head?_append]
    exact hnext _ hrest
  obtain ⟨ts, hts, rfl⟩ := h hhead hus
  refine ⟨ts ++ us, ?_, List.map_append⟩
  rw [List.append_assoc, List.append_assoc]
  exact hts

/-- A piece that admits anything stands before any other. -/
theorem before (h : Spells anywhere cs ls) (h' : Spells B ds ms) : Spells B (cs ++ ds) (ls ++ ms) :=
  h.append h' fun _ _ => trivial

/-- A piece stands before another whose first character it admits. -/
theorem upTo {d : Char} (h : Spells A cs ls) (h' : Spells B ds ms) (hd : ds.head? = some d)
    (hA : A (some d)) : Spells B (cs ++ ds) (ls ++ ms) :=
  h.append h' fun _ _ => by rw [hd]; exact hA

/-- A text that the first matching rule takes as a whole. -/
theorem of_first? {l : Lexeme} (rule : LexRule) (hne : cs ≠ [])
    (hfirst : ∀ rest, A rest.head? → first? (cs ++ rest) = some (rule, cs.length))
    (htoken : ∀ file offset, ∃ t, rule.token? file offset cs = .ok (some t) ∧ t.lexeme = l) :
    Spells A cs [l] := by
  intro file offset rest vs hrest hscan
  obtain ⟨c, cs, rfl⟩ := List.exists_cons_of_ne_nil hne
  obtain ⟨t, ht, rfl⟩ := htoken file offset
  have hmatch : first? (c :: (cs ++ rest)) = some (rule, (c :: cs).length) := hfirst rest hrest
  refine ⟨[t], ?_, rfl⟩
  rw [List.cons_append, scan_cons hmatch, ← List.cons_append, List.take_left, List.drop_left, ht,
    hscan]
  rfl

end Spells

/-! ### Words and numbers -/

namespace LexRule

theorem takeWhile_of_all {p : Char → Bool} {cs rest : List Char} (hcs : ∀ c ∈ cs, p c = true)
    (hrest : ∀ c ∈ rest.head?, p c = false) : (cs ++ rest).takeWhile p = cs := by
  have hnil : rest.takeWhile p = [] := by
    cases rest with
    | nil => rfl
    | cons c rest => simp [hrest c rfl]
  rw [List.takeWhile_append_of_pos hcs, hnil, List.append_nil]

theorem first?_word {c : Char} {cs rest : List Char} (hc : isWordStart c = true)
    (hcs : cs.all isWordPart = true) (hrest : Apart rest.head?) :
    first? (c :: cs ++ rest) = some (.word, (c :: cs).length) := by
  have htake : (cs ++ rest).takeWhile isWordPart = cs :=
    takeWhile_of_all (List.all_eq_true.1 hcs) fun d hd => (hrest d hd).1
  simp [first?, all, length?, hc, htake, Nat.add_comm]

theorem isDigit_of_isWordPart {c : Char} (h : isWordPart c = false) : isDigit c = false := by
  rw [isWordPart, Bool.or_eq_false_iff] at h
  exact h.2

theorem not_wordStart_of_digit {c : Char} (h : isDigit c = true) : isWordStart c = false := by
  simp only [isDigit, Bool.and_eq_true, decide_eq_true_eq, Char.le_def,
    UInt32.le_iff_toNat_le] at h
  have hdigit : 48 ≤ c.toNat ∧ c.toNat ≤ 57 := h
  rw [Bool.eq_false_iff]
  intro hword
  simp only [isWordStart, Bool.or_eq_true, Bool.and_eq_true, decide_eq_true_eq, Char.le_def,
    UInt32.le_iff_toNat_le, beq_iff_eq] at hword
  rcases hword with (hword | hword) | rfl
  · have : 97 ≤ c.toNat := hword.1
    omega
  · have : 65 ≤ c.toNat := hword.1
    omega
  · exact absurd hdigit.2 (by decide)

theorem first?_digits {cs rest : List Char} (hne : cs ≠ []) (hcs : ∀ c ∈ cs, isDigit c = true)
    (hrest : Apart rest.head?) : first? (cs ++ rest) = some (.number, cs.length) := by
  have htake : (cs ++ rest).takeWhile isDigit = cs :=
    takeWhile_of_all hcs fun d hd => isDigit_of_isWordPart (hrest d hd).1
  have hnumber : LexRule.number.length? (cs ++ rest) = some cs.length := by
    simp only [length?, htake, List.drop_left, List.length_eq_zero_iff, if_neg hne]
    split
    · exact absurd rfl (hrest '.' rfl).2.1
    · rfl
  obtain ⟨c, cs, rfl⟩ := List.exists_cons_of_ne_nil hne
  have hword : isWordStart c = false := not_wordStart_of_digit (hcs c (List.mem_cons_self ..))
  rw [first?, all, List.findSome?_cons, List.findSome?_cons, hnumber]
  simp [length?, hword]

end LexRule

/-- The lexeme of a word. -/
def wordLexeme (word : String) : Lexeme := ((TokenKind.ofWord? word).getD .identifier, word)

/-- Whether a text is one word. -/
def isWord (word : String) : Bool :=
  match word.toList with
  | [] => false
  | c :: cs => isWordStart c && cs.all isWordPart

theorem exists_of_isWord {word : String} (h : isWord word = true) :
    ∃ c cs, word.toList = c :: cs ∧ isWordStart c = true ∧ cs.all isWordPart = true := by
  unfold isWord at h
  split at h
  next => cases h
  next c cs hword =>
    rw [Bool.and_eq_true] at h
    exact ⟨c, cs, hword, h⟩

theorem spells_word (word : String) (h : isWord word = true) :
    Spells Apart word.toList [wordLexeme word] := by
  obtain ⟨c, cs, hword, hc, hcs⟩ := exists_of_isWord h
  refine .of_first? .word (by simp [hword]) (fun rest hrest => ?_) fun file offset => ?_
  · rw [hword]
    exact first?_word hc hcs hrest
  · refine ⟨_, rfl, ?_⟩
    rw [String.ofList_toList]
    rfl

theorem spells_natText (n : Nat) :
    Spells Apart (natText n) [(.number, String.ofList (natText n))] :=
  .of_first? .number Nat.toDigits_ne_nil
    (fun _ hrest => first?_digits Nat.toDigits_ne_nil (fun _ => isDigit_of_mem_natText) hrest)
    fun _ _ => ⟨_, rfl, rfl⟩

/-! ### Marks -/

/-- The marks of types, each with the character that would make it another mark. -/
def typeMarks : List (TokenKind × String × Option Char) :=
  [(.less, "<", some '='), (.greater, ">", some '='), (.pipe, "|", some '|'),
   (.ampersand, "&", some '&'), (.colon, ":", some ':'), (.colonColon, "::", none),
   (.comma, ",", none), (.openParen, "(", none), (.closeParen, ")", none),
   (.openCurly, "\x7b", none), (.closeCurly, "\x7d", none), (.openBracket, "[", none),
   (.closeBracket, "]", none)]

/-- Whether a rule takes nothing at a mark unless the given character stands behind it: it starts at
another character, or is the mark with that character. -/
def LexRule.spares (spelling : String) (extension : Option Char) (rule : LexRule) : Bool :=
  spelling.toList.head?.all (!rule.startsAt ·) ||
    match rule with
    | .mark _ longer => extension.any fun x => longer.toList == spelling.toList ++ [x]
    | _ => false

theorem typeMarks_spared : ∀ m ∈ typeMarks, m.2.1 ≠ "" ∧ .mark m.1 m.2.1 ∈ all ∧
    ∀ rule ∈ all.takeWhile (· ≠ .mark m.1 m.2.1), rule.spares m.2.1 m.2.2 = true := by
  decide

theorem length?_of_spares {spelling : String} {extension : Option Char} {rule : LexRule}
    (hspelling : spelling ≠ "") (hrule : rule ∈ all) (h : rule.spares spelling extension = true)
    {rest : List Char} (hrest : ∀ x ∈ extension, rest.head? ≠ some x) :
    rule.length? (spelling.toList ++ rest) = none := by
  obtain ⟨c, cs, hcs⟩ := List.exists_cons_of_ne_nil (mt String.toList_eq_nil_iff.1 hspelling)
  unfold spares at h
  rcases Bool.or_eq_true_iff.1 h with helse | hmark
  · rw [hcs, List.head?_cons, Option.all_some, Bool.not_eq_true'] at helse
    rw [hcs, List.cons_append]
    exact length?_of_not_startsAt hrule helse
  · clear h
    split at hmark
    next kind longer =>
      cases extension with
      | none => cases hmark
      | some x =>
        have hlonger : longer.toList = spelling.toList ++ [x] := by simpa using hmark
        have hnot : ¬ (longer.toList.isPrefixOf (spelling.toList ++ rest) = true) := by
          rw [List.isPrefixOf_iff_prefix, hlonger, List.prefix_append_right_inj]
          rintro ⟨tail, rfl⟩
          exact hrest x rfl rfl
        rw [length?, if_neg hnot]
    next => cases hmark

theorem spells_mark {kind : TokenKind} {spelling : String} {extension : Option Char}
    (h : (kind, spelling, extension) ∈ typeMarks) :
    Spells (fun next => ∀ x ∈ extension, next ≠ some x) spelling.toList [(kind, spelling)] := by
  obtain ⟨hne, hrule, hspared⟩ := typeMarks_spared _ h
  refine .of_first? (.mark kind spelling) (mt String.toList_eq_nil_iff.1 hne) (fun rest hrest => ?_)
    fun file offset => ⟨_, rfl, ?_⟩
  · refine first?_of_before hrule (fun r hr => ?_) ?_
    · exact length?_of_spares hne (List.takeWhile_subset _ hr) (hspared r hr) hrest
    · have hprefix : spelling.toList.isPrefixOf (spelling.toList ++ rest) = true :=
        List.isPrefixOf_iff_prefix.2 (List.prefix_append ..)
      rw [length?, if_pos hprefix]
  · rw [Token.lexeme, String.ofList_toList]

/-- A mark that no character extends. -/
theorem spells_closedMark {kind : TokenKind} {spelling : String}
    (h : (kind, spelling, none) ∈ typeMarks) : Spells anywhere spelling.toList [(kind, spelling)] :=
  fun _ _ _ _ _ => spells_mark h nofun

/-- A mark that one character extends. -/
theorem spells_openMark {kind : TokenKind} {spelling : String} {x : Char}
    (h : (kind, spelling, some x) ∈ typeMarks) :
    Spells (· ≠ some x) spelling.toList [(kind, spelling)] := by
  intro file offset rest vs hrest
  refine spells_mark h ?_
  rintro y ⟨⟩
  exact hrest

/-! ### Texts -/

section

variable {c : Char} {cs : List Char} {s : String}

/-- The characters of texts that are written as themselves or with a letter behind a backslash. -/
def isPlain (c : Char) : Bool :=
  (0x20 ≤ c.toNat && c.toNat < 0x7F) || c == '\n' || c == '\r' || c == '\t' || c == '\x00'

/-- A plain character may be written in its quoted form. -/
theorem writtenAs_quoteChar (h : isPlain c = true) : WrittenAs '"' c (Text.quoteChar c) := by
  unfold Text.quoteChar
  split_ifs with h₁ h₂ h₃ h₄ h₅ h₆ h₇
  · exact .short (by rw [h₁]; decide)
  · exact .short (by rw [h₂]; decide)
  · exact .short (by rw [h₃]; decide)
  · exact .short (by rw [h₄]; decide)
  · exact .short (by rw [h₅]; decide)
  · exact .short (by rw [h₆]; decide)
  · have hascii : 0x20 ≤ c.toNat ∧ c.toNat < 0x7F := by simpa [isPlain, h₃, h₄, h₅, h₆] using h
    rw [Text.isCombining_of_lt (by omega), Text.isUnprintable_of_ascii hascii.1 hascii.2] at h₇
    cases h₇
  · exact .itself h₂ h₁

theorem encodes_quoted (h : ∀ c ∈ cs, isPlain c = true) :
    Encodes '"' cs (cs.flatMap Text.quoteChar) := by
  induction cs with
  | nil => exact .nil
  | cons c cs ih =>
    obtain ⟨hc, hcs⟩ := List.forall_mem_cons.1 h
    exact .cons (writtenAs_quoteChar hc) (ih hcs)

/-- A plain text between quotes is scanned as that text. -/
theorem spells_quote (h : ∀ c ∈ s.toList, isPlain c = true) :
    Spells anywhere (Text.quote s).toList [(.text, s)] := by
  have htext : (Text.quote s).toList = '"' :: (s.toList.flatMap Text.quoteChar ++ ['"']) := by
    rw [Text.quote, String.toList_ofList, List.cons_append]
  have hquoted := encodes_quoted h
  refine .of_first? (.quoted '"') (by rw [htext]; exact nofun) (fun rest _ => ?_) fun file offset => ?_
  · rw [htext, List.cons_append, List.append_assoc, List.singleton_append,
      first?_encodes (.inl rfl) hquoted, List.length_cons, List.length_append]
    rfl
  · have hinner : unescape (Text.quote s).toList.tail.dropLast = some s.toList := by
      rw [htext, List.tail_cons, List.dropLast_concat, unescape_encodes hquoted]
    simp only [token?, hinner, String.ofList_toList]
    exact ⟨_, rfl, rfl⟩

end

end ScriptCheck
