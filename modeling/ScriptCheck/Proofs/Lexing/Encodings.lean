import ScriptCheck.Proofs.Lexing.Faithful

/-!
Texts between quotes, however their characters are written. A character may stand for itself, for a
letter behind a backslash or for two hexadecimal digits, and each may be chosen anew for every character.
Where the text ends and what it says are found by two separate walks: both take what one character is
written as in one piece, so that both keep in step up to the closing quote.
-/

namespace ScriptCheck

/-! ### Ways of writing a text -/

/-- The characters that have an escape of two characters, each with the second of these. -/
def shortEscapes : List (Char × Char) :=
  [('\n', 'n'), ('\t', 't'), ('\r', 'r'), ('\x00', '0'), ('\\', '\\'), ('"', '"'), ('\x27', '\x27')]

/-- The hexadecimal digits of a number below 16, in either case. -/
def hexDigits (n : Nat) : List Char := [Nat.digitChar n, (Nat.digitChar n).toUpper]

/-- The ways of writing a character of a text between the given quotes. -/
inductive WrittenAs (quote : Char) : Char → List Char → Prop where
  | itself {c : Char} (hslash : c ≠ '\\') (hquote : c ≠ quote) : WrittenAs quote c [c]
  | short {c e : Char} (h : (c, e) ∈ shortEscapes) : WrittenAs quote c ['\\', e]
  | hex {c a b : Char} (hc : c.toNat < 0x100) (ha : a ∈ hexDigits (c.toNat / 16))
      (hb : b ∈ hexDigits (c.toNat % 16)) : WrittenAs quote c ['\\', 'x', a, b]

/-- The ways of writing a text between the given quotes. -/
inductive Encodes (quote : Char) : List Char → List Char → Prop where
  | nil : Encodes quote [] []
  | cons {c : Char} {cs piece pieces : List Char} (hc : WrittenAs quote c piece)
      (hcs : Encodes quote cs pieces) : Encodes quote (c :: cs) (piece ++ pieces)

/-! ### Hexadecimal digits -/

/-- A digit has its value in either case, and neither ends a text nor starts an escape. -/
theorem hexDigits_spec : ∀ n < 16, ∀ a ∈ hexDigits n,
    hexValue? a = some n ∧ a ≠ '\\' ∧ a ≠ '"' ∧ a ≠ '\x27' := by
  -- The digits are listed, and not looked for among all characters.
  have hlisted : (List.range 16).all (fun n => (hexDigits n).all fun a =>
      hexValue? a = some n ∧ a ≠ '\\' ∧ a ≠ '"' ∧ a ≠ '\x27') = true := by decide
  intro n hn a ha
  have hdigits := List.all_eq_true.1 hlisted n (List.mem_range.2 hn)
  exact of_decide_eq_true (List.all_eq_true.1 hdigits a ha)

theorem char_of_hex (c : Char) : Char.ofNat (16 * (c.toNat / 16) + c.toNat % 16) = c := by
  rw [Nat.div_add_mod, Char.ofNat_toNat]

/-! ### One character -/

section

variable {quote c : Char} {piece more : List Char}

theorem unescape_of_ne (h : c ≠ '\\') : unescape (c :: more) = (unescape more).map (c :: ·) := by
  cases more with
  | nil => rfl
  | cons d more =>
    rw [unescape.eq_def]
    exact if_pos h

theorem unescape_letter {e : Char} (h : (e, c) ∈ escapeLetters) :
    unescape ('\\' :: e :: more) = (unescape more).map (c :: ·) := by
  have hletters : ∀ p ∈ escapeLetters, p.1 ≠ 'x' ∧ escapeLetters.lookup p.1 = some p.2 := by decide
  obtain ⟨hx, hlookup⟩ := hletters (e, c) h
  rw [unescape.eq_def]
  simp only [ne_eq, not_true_eq_false, if_false, if_neg hx, hlookup]

/-- The walk to the closing quote takes a character in one piece. -/
theorem closingQuote_writtenAs (hquote : quote = '"' ∨ quote = '\x27') (h : WrittenAs quote c piece)
    (hmore : more ≠ []) :
    closingQuote quote (piece ++ more) = (closingQuote quote more).map (· + piece.length) := by
  have hslash : '\\' ≠ quote := by
    rcases hquote with rfl | rfl <;> decide
  obtain ⟨d, rest, rfl⟩ := List.exists_cons_of_ne_nil hmore
  cases h with
  | itself hc hq => rw [List.singleton_append, closingQuote, if_neg hq, if_neg hc]; rfl
  | @short e he =>
    have hnewline : ∀ p ∈ shortEscapes, p.2 ≠ '\n' := by decide
    rw [List.cons_append, List.singleton_append, closingQuote, if_neg hslash, if_pos rfl,
      if_neg (hnewline _ he)]
    rfl
  | @hex a b hc ha hb =>
    have hdigit {x : Char} {n : Nat} (hn : n < 16) (hx : x ∈ hexDigits n) : x ≠ '\\' ∧ x ≠ quote := by
      obtain ⟨-, hx, hdouble, hsingle⟩ := hexDigits_spec n hn x hx
      refine ⟨hx, ?_⟩
      rcases hquote with rfl | rfl
      · exact hdouble
      · exact hsingle
    obtain ⟨ha, haquote⟩ := hdigit (by omega) ha
    obtain ⟨hb, hbquote⟩ := hdigit (by omega) hb
    simp only [List.cons_append, List.nil_append]
    rw [closingQuote, if_neg hslash, if_pos rfl, if_neg (by decide), closingQuote, if_neg haquote,
      if_neg ha, closingQuote, if_neg hbquote, if_neg hb]
    simp [Option.map_map, Function.comp_def]

/-- The walk that resolves escapes takes a character in one piece. -/
theorem unescape_writtenAs (h : WrittenAs quote c piece) :
    unescape (piece ++ more) = (unescape more).map (c :: ·) := by
  cases h with
  | itself hc _ => rw [List.singleton_append, unescape_of_ne hc]
  | @short e he =>
    have hletters : ∀ p ∈ shortEscapes, (p.2, p.1) ∈ escapeLetters := by decide
    rw [List.cons_append, List.singleton_append, unescape_letter (hletters _ he)]
  | @hex a b hc ha hb =>
    obtain ⟨ha, -⟩ := hexDigits_spec _ (by omega) a ha
    obtain ⟨hb, -⟩ := hexDigits_spec _ (by omega) b hb
    simp only [List.cons_append, List.nil_append]
    rw [unescape.eq_def]
    simp only [ne_eq, not_true_eq_false, if_false, if_true, ha, hb, char_of_hex c]

end

/-! ### A whole text -/

section

variable {quote : Char} {cs pieces more : List Char}

/-- A text is closed by the quote behind it and no sooner. -/
theorem closingQuote_encodes (hquote : quote = '"' ∨ quote = '\x27') (h : Encodes quote cs pieces) :
    closingQuote quote (pieces ++ quote :: more) = some (pieces.length + 1) := by
  induction h with
  | nil => cases more <;> rw [List.nil_append, closingQuote, if_pos rfl] <;> rfl
  | cons hc _ ih =>
    rw [List.append_assoc, closingQuote_writtenAs hquote hc (by simp), ih, Option.map_some,
      List.length_append]
    congr 1
    omega

/-- Resolving the escapes of a text gives the text. -/
theorem unescape_encodes (h : Encodes quote cs pieces) : unescape pieces = some cs := by
  induction h with
  | nil => rfl
  | cons hc _ ih => rw [unescape_writtenAs hc, ih, Option.map_some]

theorem first?_encodes (hquote : quote = '"' ∨ quote = '\x27') (h : Encodes quote cs pieces) :
    LexRule.first? (quote :: (pieces ++ quote :: more)) = some (.quoted quote, pieces.length + 2) := by
  obtain ⟨hrule, hbefore⟩ : .quoted quote ∈ LexRule.all ∧
      ∀ r ∈ LexRule.all.takeWhile (· ≠ .quoted quote), r ∈ LexRule.all ∧ r.startsAt quote = false := by
    rcases hquote with rfl | rfl <;> decide
  refine LexRule.first?_of_before hrule (fun r hr => ?_) ?_
  · exact LexRule.length?_of_not_startsAt (hbefore r hr).1 (hbefore r hr).2
  · rw [LexRule.length?, if_pos rfl, closingQuote_encodes hquote h, Option.map_some]

end

/-- A text between quotes is one token that says what was written, however each of its characters was
written: as itself, by its escape of two characters or by two hexadecimal digits. The token spans the
whole source and only the end follows. -/
theorem tokenize_encoded {quote : Char} (hquote : quote = '"' ∨ quote = '\x27') {value source : String}
    {pieces : List Char} (h : Encodes quote value.toList pieces)
    (hsource : source.toList = quote :: (pieces ++ [quote])) (file : String) :
    tokenize source file = .ok [⟨.text, value, .ofBytes file 0 (byteLength source.toList)⟩,
      .endOf (.ofBytes file (byteLength source.toList) 0)] ∧
    (byteLength source.toList < Position.limit →
      Span.ofBytes file 0 (byteLength source.toList) = ⟨⟨0, file⟩, ⟨byteLength source.toList, file⟩⟩) := by
  have hlength : source.toList.length = pieces.length + 2 := by simp [hsource]
  have hinner : unescape source.toList.tail.dropLast = some value.toList := by
    rw [hsource, List.tail_cons, List.dropLast_concat, unescape_encodes h]
  have htoken : (LexRule.quoted quote).token? file 0 source.toList =
      .ok (some ⟨.text, value, .ofBytes file 0 (byteLength source.toList)⟩) := by
    simp only [LexRule.token?, hinner, String.ofList_toList]
  have hscan : scan file 0 source.toList = (do
      let made ← (LexRule.quoted quote).token? file 0 source.toList
      let later ← scan file (0 + byteLength source.toList) []
      return made.toList ++ later) := by
    have hstep : scan file 0 (quote :: (pieces ++ [quote])) = _ := scan_cons (first?_encodes hquote h)
    rw [← hsource, ← hlength, List.take_length, List.drop_length] at hstep
    exact hstep
  refine ⟨?_, fun hlimit => ?_⟩
  · rw [tokenize, hscan, htoken, scan, Nat.zero_add]
    rfl
  · rw [Span.ofBytes, Nat.zero_add, Position.ofBytes_of_lt hlimit]
    rfl

/-- A text with a character by digits of either case, a newline and the other quote as themselves, and a
digit behind digits that have ended. -/
theorem tokenize_encoded_mixed :
    Encodes '\x27' "é\n\"J0".toList "\\xE9\n\"\\x4a0".toList ∧
    tokenize "'\\xE9\n\"\\x4a0'" "a.ts" =
      .ok [⟨.text, "é\n\"J0", ⟨⟨0, "a.ts"⟩, ⟨13, "a.ts"⟩⟩⟩, .endOf ⟨⟨13, "a.ts"⟩, ⟨13, "a.ts"⟩⟩] := by
  have hupper : WrittenAs '\x27' 'é' ['\\', 'x', 'E', '9'] := .hex (by decide) (by decide) (by decide)
  have hnewline : WrittenAs '\x27' '\n' ['\n'] := .itself (by decide) (by decide)
  have hother : WrittenAs '\x27' '"' ['"'] := .itself (by decide) (by decide)
  have hlower : WrittenAs '\x27' 'J' ['\\', 'x', '4', 'a'] := .hex (by decide) (by decide) (by decide)
  have hdigit : WrittenAs '\x27' '0' ['0'] := .itself (by decide) (by decide)
  have h : Encodes '\x27' "é\n\"J0".toList "\\xE9\n\"\\x4a0".toList :=
    .cons hupper (.cons hnewline (.cons hother (.cons hlower (.cons hdigit .nil))))
  exact ⟨h, (tokenize_encoded (.inr rfl) h rfl "a.ts").1⟩

end ScriptCheck
