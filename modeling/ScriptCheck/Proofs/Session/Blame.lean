import ScriptCheck.Proofs.Lexing.Faithful
import ScriptCheck.Proofs.Session.Layout

/-!
Where a rejected program is said to be wrong. Behind the lexer every stage reports a failure at the start
of a token of the source; the lexer itself reports the place where it stopped, which is where no rule
matches or where a rule matches a text of which it makes no token. Both are places of the source, at
which a character starts or the source ends.
-/

namespace ScriptCheck

variable {file : String}

/-! ### Where a scan stops -/

/-- A scan takes text up to a place where no rule matches, or where the rule that does makes no token. The
text that it takes before comes last. -/
inductive ScanStops (file : String) : Nat → List Char → List Char → Prop where
  | unmatched {offset : Nat} {c : Char} {rest : List Char}
      (hfirst : LexRule.first? (c :: rest) = none) : ScanStops file offset (c :: rest) []
  | unmade {offset n : Nat} {c : Char} {rest : List Char} {rule : LexRule} {d : Diagnostic}
      (hfirst : LexRule.first? (c :: rest) = some (rule, n))
      (hmade : rule.token? file offset ((c :: rest).take n) = .error d) :
      ScanStops file offset (c :: rest) []
  | behind {offset n : Nat} {c : Char} {rest before : List Char} {rule : LexRule}
      {made : Option Token} (hfirst : LexRule.first? (c :: rest) = some (rule, n))
      (hmade : rule.token? file offset ((c :: rest).take n) = .ok made)
      (h : ScanStops file (offset + byteLength ((c :: rest).take n)) ((c :: rest).drop n) before) :
      ScanStops file offset (c :: rest) ((c :: rest).take n ++ before)

/-- A scan that fails reports the place where it stops. -/
theorem scan_stops {cs : List Char} {offset : Nat} {d : Diagnostic}
    (h : scan file offset cs = .error d) :
    ∃ before, ScanStops file offset cs before ∧
      d.position = .ofBytes file (offset + byteLength before) := by
  induction hlength : cs.length using Nat.strongRecOn generalizing offset cs with
  | ind length ih =>
    subst hlength
    cases cs with
    | nil =>
      rw [scan] at h
      cases h
    | cons c rest =>
      cases hfirst : LexRule.first? (c :: rest) with
      | none =>
        refine ⟨[], .unmatched hfirst, ?_⟩
        rcases scan_fails h with hd | ⟨rule, n, made, hsome, -⟩
        · exact hd
        · rw [hfirst] at hsome
          cases hsome
      | some found =>
        obtain ⟨rule, n⟩ := found
        cases hmade : rule.token? file offset ((c :: rest).take n) with
        | error e =>
          rw [scan_cons hfirst, hmade] at h
          cases h
          exact ⟨[], .unmade hfirst hmade, LexRule.position_of_token?_error hmade⟩
        | ok made =>
          have hpos := LexRule.first?_pos hfirst
          have hshorter : ((c :: rest).drop n).length < (c :: rest).length := by
            simp only [List.length_drop, List.length_cons]
            omega
          have hrest : scan file (offset + byteLength ((c :: rest).take n)) ((c :: rest).drop n) =
              .error d := by
            rw [scan_cons hfirst, hmade] at h
            cases hscan : scan file (offset + byteLength ((c :: rest).take n)) ((c :: rest).drop n) with
            | error e =>
              simp only [hscan] at h
              cases h
              rfl
            | ok us =>
              simp only [hscan] at h
              cases h
          obtain ⟨before, hstops, hposition⟩ := ih _ hshorter hrest rfl
          refine ⟨_, .behind hfirst hmade hstops, ?_⟩
          rw [hposition, byteLength_append, Nat.add_assoc]

/-! ### Places of a source -/

/-- A place of a text: a character starts there, or the text ends. -/
def IsBoundary (source : List Char) (offset : Nat) : Prop :=
  ∃ before rest, source = before ++ rest ∧ byteLength before = offset

theorem IsBoundary.le {source : List Char} {offset : Nat} (h : IsBoundary source offset) :
    offset ≤ byteLength source := by
  obtain ⟨before, rest, rfl, rfl⟩ := h
  rw [byteLength_append]
  exact Nat.le_add_right ..

/-- The text that a scan takes before it stops is the first part of its text. -/
theorem ScanStops.isPrefix {offset : Nat} {cs before : List Char}
    (h : ScanStops file offset cs before) : before <+: cs := by
  induction h with
  | unmatched _ => exact List.nil_prefix
  | unmade _ _ => exact List.nil_prefix
  | @behind offset n c rest before rule made _ _ _ ih =>
    obtain ⟨after, hafter⟩ := ih
    exact ⟨after, by rw [List.append_assoc, hafter, List.take_append_drop]⟩

/-- Tokens start at places of their source, the last one too. -/
theorem Faithful.start {source : List Char} {start : Nat} {ts : List Token} {t : Token}
    (h : Faithful source file start ts) (ht : t ∈ ts) :
    t.span.start.file = file ∧ IsBoundary source t.span.start.offset := by
  obtain ⟨us, rfl, hus⟩ := h.closed
  rcases List.mem_append.1 ht with ht | ht
  · obtain ⟨text, rest, ⟨before, hsource, hstart, -⟩, -⟩ := (hus t ht).slice
    exact ⟨(hus t ht).startFile, before, text ++ rest, hsource, hstart⟩
  · rw [List.mem_singleton.1 ht]
    exact ⟨rfl, source, [], (List.append_nil source).symm, rfl⟩

/-! ### Rejections -/

variable {s : Session} {source : String} {d : Diagnostic}

/-- Behind the lexer a program is rejected where one of its tokens starts. -/
theorem Session.rejected_at_token {ts : List Token} (htokens : tokenize source file = .ok ts)
    (h : (s.check source file).1 = .error (.rejected d)) : ∃ t ∈ ts, d.position = t.span.start := by
  obtain ⟨us, last, rfl, hlast, -⟩ := tokenize_closed htokens
  rw [check_of_tokens htokens] at h
  rcases checkTokens_error hlast h with ⟨d', hd, hposition⟩ | ⟨hnever, -⟩
  · cases hd
    exact hposition
  · cases hnever

/-- A source that cannot be tokenized is rejected with the diagnostic of the lexer. -/
theorem Session.rejected_unread {d' : Diagnostic} (htokens : tokenize source file = .error d')
    (h : (s.check source file).1 = .error (.rejected d)) : d = d' := by
  obtain ⟨after, hcheck, -⟩ := check_of_fails (s := s) (.unread htokens)
  rw [hcheck] at h
  cases h
  rfl

/-- A source whose offsets fit and that is rejected is rejected in its file: at the start of one of its
tokens, whichever stage behind the lexer rejects it, or where the lexer stops. In either case that is a
place of the source. -/
theorem checkSource_blames (source file : String)
    (hlimit : byteLength source.toList < Position.limit)
    (h : checkSource source file = .error (.rejected d)) :
    d.position.file = file ∧
      (∀ ts, tokenize source file = .ok ts → ∃ t ∈ ts, d.position = t.span.start) ∧
      (∀ d', tokenize source file = .error d' → d = d' ∧
        ∃ before, ScanStops file 0 source.toList before ∧ d.position.offset = byteLength before) ∧
      IsBoundary source.toList d.position.offset ∧
      d.position.offset ≤ byteLength source.toList := by
  cases htokens : tokenize source file with
  | ok ts =>
    obtain ⟨t, ht, hposition⟩ := Session.rejected_at_token htokens h
    have hstart := ((scan_covers htokens).faithful [] rfl hlimit).start ht
    rw [← hposition] at hstart
    refine ⟨hstart.1, ?_, nofun, hstart.2, hstart.2.le⟩
    rintro _ ⟨⟩
    exact ⟨t, ht, hposition⟩
  | error d' =>
    obtain rfl := Session.rejected_unread htokens h
    obtain ⟨before, hstops, hposition⟩ := scan_stops htokens
    obtain ⟨rest, hsource⟩ := hstops.isPrefix
    have hbefore : d.position = ⟨byteLength before, file⟩ := by
      rw [← hsource, byteLength_append] at hlimit
      rw [hposition, Nat.zero_add, Position.ofBytes_of_lt (by omega)]
    have hplace : IsBoundary source.toList d.position.offset := by
      rw [hbefore]
      exact ⟨before, rest, hsource.symm, rfl⟩
    rw [hbefore] at hplace ⊢
    refine ⟨rfl, nofun, ?_, hplace, hplace.le⟩
    rintro _ ⟨⟩
    exact ⟨rfl, before, hstops, rfl⟩

theorem exists_rejected_where {α : Type} {x : Except Failure α} {test : Diagnostic → Bool}
    (h : (match x with
      | .error (.rejected d) => test d
      | _ => false) = true) : ∃ d, x = .error (.rejected d) ∧ test d = true := by
  cases x with
  | ok a => cases h
  | error f =>
    cases f with
    | rejected d => exact ⟨d, rfl, h⟩
    | stuck => cases h

/-- A value of the wrong type in the second line of a source, and an escape without digits behind an
accent. -/
theorem checkSource_blames_escape :
    (∃ d ts, checkSource "int x = 1;\nstring s = x;" "a.ts" = .error (.rejected d) ∧
      d.position = ⟨22, "a.ts"⟩ ∧ tokenize "int x = 1;\nstring s = x;" "a.ts" = .ok ts ∧
      ∃ t ∈ ts, d.position = t.span.start) ∧
    ∃ d before, checkSource "let a = \"é\" + \"\\xg\";" "a.ts" = .error (.rejected d) ∧
      d.position = ⟨15, "a.ts"⟩ ∧
      ScanStops "a.ts" 0 "let a = \"é\" + \"\\xg\";".toList before ∧ byteLength before = 15 := by
  have htyped : ∃ d, checkSource "int x = 1;\nstring s = x;" "a.ts" = .error (.rejected d) ∧
      decide (d.position = ⟨22, "a.ts"⟩) = true := exists_rejected_where (by decide +kernel)
  have hescape : ∃ d, checkSource "let a = \"é\" + \"\\xg\";" "a.ts" = .error (.rejected d) ∧
      decide (d.position = ⟨15, "a.ts"⟩) = true := exists_rejected_where (by decide +kernel)
  refine ⟨?_, ?_⟩
  · obtain ⟨d, hcheck, hposition⟩ := htyped
    obtain ⟨-, hstart, -⟩ := checkSource_blames _ _ (by decide) hcheck
    have hread : (tokenize "int x = 1;\nstring s = x;" "a.ts").isOk = true := by decide +kernel
    cases htokens : tokenize "int x = 1;\nstring s = x;" "a.ts" with
    | ok ts => exact ⟨d, ts, hcheck, of_decide_eq_true hposition, rfl, hstart ts htokens⟩
    | error d' =>
      rw [htokens] at hread
      cases hread
  · obtain ⟨d, hcheck, hposition⟩ := hescape
    obtain ⟨-, -, hstops, -⟩ := checkSource_blames _ _ (by decide) hcheck
    have hunread : (tokenize "let a = \"é\" + \"\\xg\";" "a.ts").isOk = false := by decide +kernel
    cases htokens : tokenize "let a = \"é\" + \"\\xg\";" "a.ts" with
    | ok ts =>
      rw [htokens] at hunread
      cases hunread
    | error d' =>
      obtain ⟨-, before, hstops, hoffset⟩ := hstops d' htokens
      rw [of_decide_eq_true hposition] at hoffset
      exact ⟨d, before, hcheck, of_decide_eq_true hposition, hstops, hoffset.symm⟩

end ScriptCheck
