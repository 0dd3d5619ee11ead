import ScriptCheck.Diagnostic
import ScriptCheck.Number.Reading
import ScriptCheck.Source.Line
import ScriptCheck.Text.Blank
import ScriptCheck.Token

/-!
Tokens read from source text. A list of lexical rules is tried in order at every place; the first
rule that matches takes its whole match, and the scan goes on behind it. Blanks and comments give no
token. Where no rule matches, the character there is rejected.
-/

namespace ScriptCheck

/-! ### Lexical rules -/

/-- The classes of text that a scan can take in one step. -/
inductive LexRule where
  | word
  | number
  | blank
  | quoted (quote : Char)
  | comment
  | mark (kind : TokenKind) (spelling : String)
deriving DecidableEq

/-- Whether a character may start a word. -/
def isWordStart (c : Char) : Bool := ('a' ≤ c && c ≤ 'z') || ('A' ≤ c && c ≤ 'Z') || c == '_'

/-- Whether a character may continue a word. -/
def isWordPart (c : Char) : Bool := isWordStart c || isDigit c

/-- How many of the characters behind an opening quote belong to the text, up to and including the
closing quote. A backslash takes the character behind it along, but not a newline. -/
def closingQuote (quote : Char) : List Char → Option Nat
  | [] => none
  | [c] => if c = quote then some 1 else none
  | c :: d :: rest =>
    if c = quote then some 1
    else if c = '\\' then
      if d = '\n' then none else (closingQuote quote rest).map (· + 2)
    else (closingQuote quote (d :: rest)).map (· + 1)

namespace LexRule

/-- How many characters a rule matches at the front of a text. -/
def length? : LexRule → List Char → Option Nat
  | .word, cs =>
    match cs with
    | [] => none
    | c :: rest => if isWordStart c then some (1 + (rest.takeWhile isWordPart).length) else none
  | .number, cs =>
    let whole := (cs.takeWhile isDigit).length
    if whole = 0 then none
    else match cs.drop whole with
      | '.' :: rest =>
        let places := (rest.takeWhile isDigit).length
        if places = 0 then some whole else some (whole + 1 + places)
      | _ => some whole
  | .blank, cs =>
    let n := (cs.takeWhile Text.isBlank).length
    if n = 0 then none else some n
  | .quoted quote, cs =>
    match cs with
    | [] => none
    | c :: rest => if c = quote then (closingQuote quote rest).map (· + 1) else none
  | .comment, cs =>
    match cs with
    | '/' :: '/' :: rest => some (2 + (rest.takeWhile (· ≠ '\n')).length)
    | _ => none
  | .mark _ spelling, cs =>
    if spelling.toList.isPrefixOf cs then some spelling.toList.length else none

/-- All rules, in the order in which they are tried: a mark comes before every mark that it
starts with. -/
def all : List LexRule :=
  [.word, .number, .blank, .quoted '"', .quoted '\x27', .comment,
   .mark .openBracket "[", .mark .closeBracket "]",
   .mark .openCurly "\x7b", .mark .closeCurly "\x7d",
   .mark .openParen "(", .mark .closeParen ")",
   .mark .equals "==", .mark .notEquals "!=", .mark .bang "!", .mark .assignment "=",
   .mark .lessEquals "<=", .mark .less "<", .mark .greaterEquals ">=", .mark .greater ">",
   .mark .or "||", .mark .and "&&", .mark .pipe "|", .mark .ampersand "&",
   .mark .dotDot "..", .mark .dot ".", .mark .semicolon ";",
   .mark .colonColon "::", .mark .colon ":", .mark .comma ",",
   .mark .plusPlus "++", .mark .minusMinus "--",
   .mark .plusEquals "+=", .mark .minusEquals "-=", .mark .starEquals "*=", .mark .slashEquals "/=",
   .mark .plus "+", .mark .dash "-", .mark .slash "/", .mark .star "*", .mark .percent "%"]

/-- The first rule that matches at the front of a text, and how many characters it takes. -/
def first? (cs : List Char) : Option (LexRule × Nat) :=
  all.findSome? fun r => (r.length? cs).map (r, ·)

theorem closingQuote_pos {quote : Char} {cs : List Char} {n : Nat}
    (h : closingQuote quote cs = some n) : 0 < n := by
  fun_induction closingQuote quote cs generalizing n <;> simp_all <;> omega

/-- A rule matches at least one character, unless it is the mark without any. -/
theorem length?_pos {r : LexRule} {cs : List Char} {n : Nat}
    (hr : ∀ kind, r ≠ .mark kind "") (h : r.length? cs = some n) : 0 < n := by
  cases r with
  | word =>
    cases cs <;> simp [length?] at h
    omega
  | number =>
    simp only [length?] at h
    split at h
    · simp at h
    · split at h
      · split at h <;> simp at h <;> omega
      · simp at h; omega
  | blank =>
    simp only [length?] at h
    split at h
    · simp at h
    · simp at h; omega
  | quoted q =>
    cases cs <;> simp [length?] at h
    obtain ⟨_, m, hm, rfl⟩ := h
    omega
  | comment =>
    simp only [length?] at h
    split at h
    · simp at h; omega
    · simp at h
  | mark kind spelling =>
    simp only [length?] at h
    split at h
    · simp at h
      subst h
      have : spelling ≠ "" := fun e => hr kind (by rw [e])
      exact List.length_pos_iff.2 (mt String.toList_eq_nil_iff.1 this)
    · simp at h

/-- The first rule that matches takes at least one character. -/
theorem first?_pos {cs : List Char} {r : LexRule} {n : Nat} (h : first? cs = some (r, n)) :
    0 < n := by
  obtain ⟨r', hmem, hr'⟩ := List.exists_of_findSome?_eq_some h
  obtain ⟨m, hm, he⟩ := Option.map_eq_some_iff.1 hr'
  obtain ⟨rfl, rfl⟩ := Prod.mk.inj he
  refine length?_pos (fun kind e => ?_) hm
  subst e
  simp [all] at hmem

end LexRule

/-! ### Escapes -/

/-- The value of a hexadecimal digit of either case. -/
def hexValue? (c : Char) : Option Nat :=
  if isDigit c then some (digitValue c)
  else if 'a' ≤ c && c ≤ 'f' then some (c.toNat - 'a'.toNat + 10)
  else if 'A' ≤ c && c ≤ 'F' then some (c.toNat - 'A'.toNat + 10)
  else none

/-- The characters that a backslash and a letter stand for. -/
def escapeLetters : List (Char × Char) :=
  [('n', '\n'), ('t', '\t'), ('r', '\r'), ('0', '\x00'), ('\\', '\\'), ('"', '"'), ('\x27', '\x27')]

/-- The text that stands between quotes, with its escapes resolved. A backslash and `x` take one or
two hexadecimal digits, and without any there is no text; another backslash stands for itself. -/
def unescape : List Char → Option (List Char)
  | [] => some []
  | [c] => some [c]
  | c :: e :: rest =>
    if c ≠ '\\' then (unescape (e :: rest)).map (c :: ·)
    else if e = 'x' then
      match rest with
      | [] => none
      | [a] => (hexValue? a).map fun m => [Char.ofNat m]
      | a :: b :: rest =>
        match hexValue? a, hexValue? b with
        | some m, some n => (unescape rest).map (Char.ofNat (16 * m + n) :: ·)
        | some m, none => (unescape (b :: rest)).map (Char.ofNat m :: ·)
        | none, _ => none
    else match escapeLetters.lookup e with
      | some d => (unescape rest).map (d :: ·)
      | none => (unescape rest).map fun cs => '\\' :: e :: cs
termination_by structural cs => cs

/-! ### Scanning -/

namespace LexRule

/-- The token that a rule makes of the text it took, if it makes one. -/
def token? (r : LexRule) (file : String) (offset : Nat) (taken : List Char) :
    Except Diagnostic (Option Token) :=
  let span := Span.ofBytes file offset (byteLength taken)
  let value := String.ofList taken
  match r with
  | .word => .ok (some ⟨(TokenKind.ofWord? value).getD .identifier, value, span⟩)
  | .number => .ok (some ⟨.number, value, span⟩)
  | .blank | .comment => .ok none
  | .quoted _ =>
    match unescape taken.tail.dropLast with
    | some inner => .ok (some ⟨.text, String.ofList inner, span⟩)
    | none => .error ⟨.unrecognisedToken "\\x", span.start⟩
  | .mark kind _ => .ok (some ⟨kind, value, span⟩)

end LexRule

/-- The tokens of a text that starts at the given byte offset of a file. -/
def scan (file : String) (offset : Nat) (cs : List Char) : Except Diagnostic (List Token) :=
  match cs with
  | [] => .ok [.endOf (.ofBytes file offset 0)]
  | c :: rest =>
    match _h : LexRule.first? (c :: rest) with
    | none => .error ⟨.unrecognisedToken (String.singleton c), .ofBytes file offset⟩
    | some (rule, n) => do
      let taken := (c :: rest).take n
      let token? ← rule.token? file offset taken
      let tokens ← scan file (offset + byteLength taken) ((c :: rest).drop n)
      return token?.toList ++ tokens
termination_by cs.length
decreasing_by
  have := LexRule.first?_pos _h
  simp only [List.length_drop, List.length_cons]
  omega

/-- The name of the file that a source without one is said to come from. -/
def defaultFile : String := "shell"

/-- The tokens of a source. -/
def tokenize (source : String) (file : String) : Except Diagnostic (List Token) :=
  scan file 0 source.toList

end ScriptCheck
