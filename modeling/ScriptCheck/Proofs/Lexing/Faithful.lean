import ScriptCheck.Proofs.Lexing.Seam

/-!
A scan loses nothing of its text. Every step takes at least one character and goes on behind it; what the
steps take is put together again as the text, of which the tokens are slices and the rest is blanks and
comments. Where a scan fails, the text before that place is scanned without a failure: a rule that takes
no more than a part of a text takes the same when only that part is there.
-/

namespace ScriptCheck

variable {file : String}

/-! ### Rules on a part of a text -/

theorem takeWhile_of_length_le {p : Char → Bool} {cs ds : List Char}
    (h : ((cs ++ ds).takeWhile p).length ≤ cs.length) :
    (cs ++ ds).takeWhile p = cs.takeWhile p := by
  induction cs with
  | nil => simpa using h
  | cons c cs ih =>
    rw [List.cons_append, List.takeWhile_cons] at h ⊢
    rw [List.takeWhile_cons]
    split
    · rename_i hc
      rw [if_pos hc, List.length_cons, List.length_cons] at h
      rw [ih (Nat.le_of_succ_le_succ h)]
    · rfl

/-- A text that is closed within its first part is closed there without the second. -/
theorem closingQuote_of_le {quote : Char} {ds : List Char} : ∀ {cs : List Char} {n : Nat},
    closingQuote quote (cs ++ ds) = some n → n ≤ cs.length → closingQuote quote cs = some n
  | [], n, h, hn => by
    have hpos := LexRule.closingQuote_pos h
    simp only [List.length_nil] at hn
    omega
  | [c], n, h, hn => by
    cases ds with
    | nil => exact h
    | cons d ds =>
      simp only [List.cons_append, List.nil_append, closingQuote] at h
      split at h
      · rename_i hc
        rw [closingQuote, if_pos hc, h]
      · -- The closing quote stands behind the only character.
        exfalso
        simp only [List.length_cons, List.length_nil] at hn
        split at h
        · split at h
          · cases h
          · obtain ⟨m, -, rfl⟩ := Option.map_eq_some_iff.1 h
            omega
        · obtain ⟨m, hm, rfl⟩ := Option.map_eq_some_iff.1 h
          have hpos := LexRule.closingQuote_pos hm
          omega
  | c :: d :: cs, n, h, hn => by
    rw [List.cons_append, List.cons_append, closingQuote] at h
    rw [closingQuote]
    split at h
    · rename_i hc
      rw [if_pos hc, h]
    · rename_i hc
      rw [if_neg hc]
      split at h
      · rename_i hescape
        rw [if_pos hescape]
        split at h
        · cases h
        · rename_i hd
          obtain ⟨m, hm, rfl⟩ := Option.map_eq_some_iff.1 h
          simp only [List.length_cons] at hn
          rw [if_neg hd, closingQuote_of_le hm (by omega)]
          rfl
      · rename_i hescape
        obtain ⟨m, hm, rfl⟩ := Option.map_eq_some_iff.1 h
        simp only [List.length_cons] at hn
        have hle : m ≤ (d :: cs).length := by
          simp only [List.length_cons]
          omega
        rw [if_neg hescape, closingQuote_of_le hm hle]
        rfl

/-- What is taken up to a closing quote ends with it. -/
theorem take_closingQuote {quote : Char} {cs : List Char} {n : Nat}
    (h : closingQuote quote cs = some n) : ∃ inner, cs.take n = inner ++ [quote] := by
  fun_induction closingQuote quote cs generalizing n with
  | case1 | case3 | case5 => cases h
  | case2 | case4 =>
    cases h
    exact ⟨[], rfl⟩
  | case6 d rest hn hq ih =>
    obtain ⟨m, hm, rfl⟩ := Option.map_eq_some_iff.1 h
    obtain ⟨inner, hinner⟩ := ih hm
    exact ⟨'\\' :: d :: inner, by simp [hinner]⟩
  | case7 c d rest hc hd ih =>
    obtain ⟨m, hm, rfl⟩ := Option.map_eq_some_iff.1 h
    obtain ⟨inner, hinner⟩ := ih hm
    exact ⟨c :: inner, by simp [hinner]⟩

namespace LexRule

/-- A rule that takes no more than the first part of a text takes the same of that part alone. -/
theorem length?_of_le {r : LexRule} {cs ds : List Char} {n : Nat}
    (h : r.length? (cs ++ ds) = some n) (hpos : 0 < n) (hn : n ≤ cs.length) :
    r.length? cs = some n := by
  obtain ⟨c, cs, rfl⟩ : ∃ c tail, cs = c :: tail :=
    List.exists_cons_of_ne_nil fun hnil => by
      subst hnil
      simp only [List.length_nil] at hn
      omega
  cases r with
  | word =>
    simp only [List.cons_append, length?] at h ⊢
    split at h
    · rename_i hc
      cases h
      simp only [List.length_cons] at hn
      rw [if_pos hc, takeWhile_of_length_le (by omega)]
    · cases h
  | number =>
    simp only [length?] at h ⊢
    have hwhole : (((c :: cs) ++ ds).takeWhile isDigit).length ≤ n := by
      split at h
      · cases h
      · split at h
        · split at h <;> cases h <;> omega
        · cases h
          exact Nat.le_refl _
    rw [takeWhile_of_length_le (Nat.le_trans hwhole hn)] at h hwhole
    split at h
    · cases h
    · rename_i hsome
      rw [if_neg hsome]
      rw [List.drop_append_of_le_length (Nat.le_trans hwhole hn)] at h
      have hlength : ((c :: cs).drop ((c :: cs).takeWhile isDigit).length).length =
          (c :: cs).length - ((c :: cs).takeWhile isDigit).length := List.length_drop
      -- Either the point stands in the first part, or behind it and without a digit.
      cases hdrop : (c :: cs).drop ((c :: cs).takeWhile isDigit).length with
      | nil =>
        rw [hdrop] at h hlength
        simp only [List.length_nil] at hlength
        split at h
        · split at h
          · exact h
          · cases h
            omega
        · exact h
      | cons d tail =>
        rw [hdrop] at h hlength
        simp only [List.length_cons] at hlength hn
        by_cases hd : d = '.'
        · subst hd
          simp only [List.cons_append] at h ⊢
          have hplaces : ((tail ++ ds).takeWhile isDigit).length ≤ tail.length := by
            split at h
            · omega
            · cases h
              omega
          rw [takeWhile_of_length_le hplaces] at h
          exact h
        · simpa [hd] using h
  | blank =>
    simp only [length?] at h ⊢
    split at h
    · cases h
    · cases h
      rw [takeWhile_of_length_le hn, if_neg]
      rw [takeWhile_of_length_le hn] at hpos
      omega
  | quoted quote =>
    simp only [List.cons_append, length?] at h ⊢
    split at h
    · rename_i hc
      obtain ⟨m, hm, rfl⟩ := Option.map_eq_some_iff.1 h
      rw [if_pos hc, closingQuote_of_le hm (Nat.le_of_succ_le_succ hn)]
      rfl
    · cases h
  | comment =>
    cases cs with
    | nil =>
      simp only [List.length_cons, List.length_nil] at hn
      simp only [length?] at h
      split at h
      · cases h
        omega
      · cases h
    | cons d cs =>
      simp only [List.cons_append, length?] at h ⊢
      split at h
      · rename_i rest heq
        cases heq
        cases h
        simp only [List.length_cons] at hn
        rw [takeWhile_of_length_le (by omega)]
        rfl
      · cases h
  | mark kind spelling =>
    simp only [length?] at h ⊢
    split at h
    · rename_i hprefix
      cases h
      have hcs := List.prefix_of_prefix_length_le (List.isPrefixOf_iff_prefix.1 hprefix)
        (List.prefix_append (c :: cs) ds) hn
      rw [if_pos (List.isPrefixOf_iff_prefix.2 hcs)]
    · cases h

/-- A rule that matches still matches if more follows. -/
theorem length?_append {r : LexRule} {cs : List Char} {n : Nat} (hr : ∀ kind, r ≠ .mark kind "")
    (h : r.length? cs = some n) (ds : List Char) : ∃ m, r.length? (cs ++ ds) = some m := by
  obtain ⟨c, cs, rfl⟩ : ∃ c tail, cs = c :: tail :=
    List.exists_cons_of_ne_nil fun hnil => by
      subst hnil
      have hpos := length?_pos hr h
      have hle := length?_le h
      simp only [List.length_nil] at hle
      omega
  have hstarts := startsAt_of_length? hr h
  cases r with
  | word => exact ⟨_, if_pos hstarts⟩
  | number =>
    have hdigit : isDigit c = true := hstarts
    simp only [List.cons_append, length?, List.takeWhile_cons, hdigit, if_true, List.length_cons,
      Nat.add_eq_zero_iff, Nat.one_ne_zero, and_false, if_false]
    split
    · split <;> exact ⟨_, rfl⟩
    · exact ⟨_, rfl⟩
  | blank =>
    have hblank : Text.isBlank c = true := hstarts
    simp [length?, hblank]
  | quoted quote =>
    simp only [List.cons_append, length?] at h ⊢
    split at h
    · rename_i hc
      obtain ⟨m, hm, -⟩ := Option.map_eq_some_iff.1 h
      rw [if_pos hc, closingQuote_append hm ds]
      exact ⟨_, rfl⟩
    · cases h
  | comment =>
    simp only [length?] at h
    split at h
    · rename_i heq
      cases heq
      exact ⟨_, rfl⟩
    · cases h
  | mark kind spelling =>
    simp only [length?] at h ⊢
    split at h
    · rename_i hprefix
      have hwhole := (List.isPrefixOf_iff_prefix.1 hprefix).trans (List.prefix_append (c :: cs) ds)
      exact ⟨_, if_pos (List.isPrefixOf_iff_prefix.2 hwhole)⟩
    · cases h

/-- The first rule that matches a text, if it takes no more than a first part, is the first that matches
that part. -/
theorem first?_of_le {cs ds : List Char} {rule : LexRule} {n : Nat}
    (h : first? (cs ++ ds) = some (rule, n)) (hn : n ≤ cs.length) : first? cs = some (rule, n) := by
  have hpos := first?_pos h
  have hall : ∀ rs : List LexRule, (∀ r ∈ rs, r ∈ all) →
      rs.findSome? (fun r => (r.length? (cs ++ ds)).map (r, ·)) = some (rule, n) →
      rs.findSome? (fun r => (r.length? cs).map (r, ·)) = some (rule, n) := by
    intro rs
    induction rs with
    | nil => exact fun _ h => h
    | cons r rs ih =>
      intro hrs hfound
      rw [List.findSome?_cons] at hfound ⊢
      cases hwhole : r.length? (cs ++ ds) with
      | none =>
        rw [hwhole] at hfound
        -- A rule that does not match the whole does not match the part either.
        have hpart : r.length? cs = none := by
          cases hpart : r.length? cs with
          | none => rfl
          | some m =>
            obtain ⟨m', hm'⟩ := length?_append (ne_empty_of_mem (hrs r (List.mem_cons_self ..))) hpart ds
            rw [hwhole] at hm'
            cases hm'
        rw [hpart]
        exact ih (fun r hr => hrs r (List.mem_cons_of_mem _ hr)) hfound
      | some m =>
        rw [hwhole] at hfound
        cases hfound
        rw [length?_of_le hwhole hpos hn]
        rfl
  exact hall all (fun _ hr => hr) h

end LexRule

/-! ### One step -/

theorem LexRule.position_of_token?_error {rule : LexRule} {offset : Nat} {taken : List Char} {d : Diagnostic}
    (h : rule.token? file offset taken = .error d) : d.position = .ofBytes file offset := by
  cases rule with
  | word | number | blank | comment | mark => cases h
  | quoted quote =>
    simp only [token?] at h
    split at h
    · cases h
    · cases h
      rfl

/-- A scan fails where no rule matches or no token is made, or behind what its first step took. -/
theorem scan_fails {offset : Nat} {c : Char} {rest : List Char} {d : Diagnostic}
    (h : scan file offset (c :: rest) = .error d) :
    d.position = .ofBytes file offset ∨
      ∃ rule n made, LexRule.first? (c :: rest) = some (rule, n) ∧
        rule.token? file offset ((c :: rest).take n) = .ok made ∧
        scan file (offset + byteLength ((c :: rest).take n)) ((c :: rest).drop n) = .error d := by
  cases hfirst : LexRule.first? (c :: rest) with
  | none =>
    rw [scan_none file offset hfirst] at h
    cases h
    exact .inl rfl
  | some found =>
    obtain ⟨rule, n⟩ := found
    cases hmade : rule.token? file offset ((c :: rest).take n) with
    | error e =>
      rw [scan_cons hfirst, hmade] at h
      cases h
      exact .inl (LexRule.position_of_token?_error hmade)
    | ok made =>
      rw [scan_made hfirst hmade] at h
      cases hscan : scan file (offset + byteLength ((c :: rest).take n)) ((c :: rest).drop n) with
      | error e =>
        rw [hscan] at h
        cases h
        exact .inr ⟨rule, n, made, rfl, hmade, hscan⟩
      | ok us =>
        rw [hscan] at h
        cases h

/-- A step of a scan fails where it stands, or takes whole characters, makes at most one token of them
and goes on behind them. -/
theorem scan_step (file : String) (offset : Nat) (c : Char) (rest : List Char) :
    (∃ d, scan file offset (c :: rest) = .error d ∧ d.position = .ofBytes file offset) ∨
      ∃ taken left made, taken ≠ [] ∧ c :: rest = taken ++ left ∧ made.length ≤ 1 ∧
        scan file offset (c :: rest) =
          (scan file (offset + byteLength taken) left).map (made ++ ·) := by
  cases hscan : scan file offset (c :: rest) with
  | error d =>
    rcases scan_fails hscan with hd | ⟨rule, n, made, hfirst, hmade, hleft⟩
    · exact .inl ⟨d, rfl, hd⟩
    · have hpos := LexRule.first?_pos hfirst
      refine .inr ⟨(c :: rest).take n, (c :: rest).drop n, [], ?_, (List.take_append_drop ..).symm,
        Nat.zero_le _, ?_⟩
      · simp only [ne_eq, List.take_eq_nil_iff]
        rintro (rfl | h)
        · omega
        · cases h
      · rw [hleft]
        rfl
  | ok ts =>
    obtain ⟨rule, n, made, us, hfirst, hmade, hleft, rfl⟩ := scan_ok hscan
    have hpos := LexRule.first?_pos hfirst
    refine .inr ⟨(c :: rest).take n, (c :: rest).drop n, made.toList, ?_,
      (List.take_append_drop ..).symm, ?_, ?_⟩
    · simp only [ne_eq, List.take_eq_nil_iff]
      rintro (rfl | h)
      · omega
      · cases h
    · cases made <;> simp
    · rw [hleft]
      rfl

/-! ### Text without tokens -/

/-- What a scan passes over in front of a text: blanks, and comments of which each runs up to a newline or
to the end. -/
inductive Skipped : List Char → List Char → Prop where
  | nil {rest : List Char} : Skipped [] rest
  | blank {c : Char} {gap rest : List Char} (hc : Text.isBlank c = true) (h : Skipped gap rest) :
      Skipped (c :: gap) rest
  | comment {text gap rest : List Char} (htext : '\n' ∉ text)
      (hstop : ∀ c ∈ (gap ++ rest).head?, c = '\n') (h : Skipped gap rest) :
      Skipped ('/' :: '/' :: (text ++ gap)) rest

namespace Skipped

theorem append {a b rest : List Char} (ha : Skipped a (b ++ rest)) (hb : Skipped b rest) :
    Skipped (a ++ b) rest := by
  generalize hwhole : b ++ rest = whole at ha
  induction ha with
  | nil => exact hb
  | blank hc _ ih => exact .blank hc (ih hwhole)
  | comment htext hstop _ ih =>
    rw [List.cons_append, List.cons_append, List.append_assoc]
    refine .comment htext ?_ (ih hwhole)
    rwa [List.append_assoc, hwhole]

theorem blanks {gap : List Char} (rest : List Char) (h : ∀ c ∈ gap, Text.isBlank c = true) :
    Skipped gap rest := by
  induction gap with
  | nil => exact .nil
  | cons c gap ih =>
    exact .blank (h c (List.mem_cons_self ..)) (ih fun d hd => h d (List.mem_cons_of_mem _ hd))

end Skipped

/-- What a rule takes without a token is skipped. -/
theorem LexRule.skipped_of_none {rule : LexRule} {offset n : Nat} {cs taken : List Char}
    (hlength : rule.length? cs = some n) (h : rule.token? file offset taken = .ok none) :
    Skipped (cs.take n) (cs.drop n) := by
  cases rule with
  | word | number | mark => cases h
  | quoted quote =>
    simp only [token?] at h
    split at h <;> cases h
  | blank =>
    simp only [length?] at hlength
    split at hlength
    · cases hlength
    · cases hlength
      rw [take_length_takeWhile]
      exact .blanks _ (List.all_eq_true.1 List.all_takeWhile)
  | comment =>
    simp only [length?] at hlength
    split at hlength
    · rename_i rest
      cases hlength
      rw [Nat.add_comm, List.take_succ_cons, List.take_succ_cons, List.drop_succ_cons,
        List.drop_succ_cons, take_length_takeWhile, drop_length_takeWhile,
        ← List.append_nil (rest.takeWhile _)]
      refine .comment (fun hmem => ?_) (fun c hc => ?_) .nil
      · simpa using List.all_eq_true.1 List.all_takeWhile _ hmem
      · have hhead := List.head?_dropWhile_not (fun c => decide (c ≠ '\n')) rest
        rw [List.nil_append] at hc
        rw [Option.mem_def.1 hc] at hhead
        simpa using hhead
    · cases hlength

/-! ### Tokens as slices -/

/-- What the token of a text has as its value: for a text between quotes what is written there with its
escapes resolved, and else the text itself. -/
def Token.Writes (t : Token) (lexeme : List Char) : Prop :=
  if t.kind = .text then
    ∃ quote inner, lexeme = quote :: (inner ++ [quote]) ∧ unescape inner = some t.value.toList
  else t.value = String.ofList lexeme

theorem LexRule.length?_of_first? {cs : List Char} {rule : LexRule} {n : Nat}
    (h : first? cs = some (rule, n)) : rule.length? cs = some n := by
  obtain ⟨r, -, hmatch⟩ := List.exists_of_findSome?_eq_some h
  obtain ⟨m, hm, heq⟩ := Option.map_eq_some_iff.1 hmatch
  cases heq
  exact hm

/-- A token has the span of what was taken and says what is written there. -/
theorem LexRule.token?_writes {rule : LexRule} (hrule : rule ∈ all) {offset n : Nat} {cs : List Char}
    {t : Token} (hlength : rule.length? cs = some n)
    (h : rule.token? file offset (cs.take n) = .ok (some t)) :
    t.span = .ofBytes file offset (byteLength (cs.take n)) ∧ t.Writes (cs.take n) := by
  cases rule with
  | word =>
    cases h
    refine ⟨rfl, ?_⟩
    rw [Token.Writes, if_neg]
    cases hword : TokenKind.ofWord? (String.ofList (cs.take n)) with
    | none => exact nofun
    | some kind => exact fun heq => TokenKind.ofWord?_ne (by decide) _ (hword.trans (congrArg some heq))
  | number =>
    cases h
    exact ⟨rfl, rfl⟩
  | blank | comment => cases h
  | quoted quote =>
    simp only [token?] at h
    split at h
    · rename_i inner hinner
      cases h
      refine ⟨rfl, ?_⟩
      cases cs with
      | nil => cases hlength
      | cons c rest =>
        simp only [length?] at hlength
        split at hlength
        · rename_i hc
          obtain ⟨m, hm, rfl⟩ := Option.map_eq_some_iff.1 hlength
          obtain ⟨text, htext⟩ := take_closingQuote hm
          rw [List.take_succ_cons, htext] at hinner ⊢
          refine ⟨quote, text, by rw [hc], ?_⟩
          simpa using hinner
        · cases hlength
    · cases h
  | mark kind spelling =>
    cases h
    have hmarks : ∀ r ∈ all, ∀ kind spelling, r = .mark kind spelling → kind ≠ .text := by
      simp [all]
    exact ⟨rfl, by rw [Token.Writes, if_neg (hmarks _ hrule kind spelling rfl)]⟩

/-- A text is the tokens of a scan in their order, with skipped text before each and behind the last. -/
inductive Covers (file : String) : Nat → List Char → List Token → Prop where
  | done {offset : Nat} {gap : List Char} (hgap : Skipped gap []) :
      Covers file offset gap [.endOf (.ofBytes file (offset + byteLength gap) 0)]
  | token {offset : Nat} {gap lexeme rest : List Char} {t : Token} {ts : List Token}
      (hgap : Skipped gap (lexeme ++ rest)) (hlexeme : lexeme ≠ []) (hkind : t.kind ≠ .eof)
      (hspan : t.span = .ofBytes file (offset + byteLength gap) (byteLength lexeme))
      (hwrites : t.Writes lexeme)
      (h : Covers file (offset + byteLength gap + byteLength lexeme) rest ts) :
      Covers file offset (gap ++ (lexeme ++ rest)) (t :: ts)

/-- More text that is skipped may stand in front. -/
theorem Covers.skip {offset : Nat} {gap cs : List Char} {ts : List Token} (hgap : Skipped gap cs)
    (h : Covers file (offset + byteLength gap) cs ts) : Covers file offset (gap ++ cs) ts := by
  cases h with
  | done hcs =>
    rw [Nat.add_assoc, ← byteLength_append]
    exact .done (.append (by rwa [List.append_nil]) hcs)
  | token hrest hlexeme hkind hspan hwrites h =>
    rw [Nat.add_assoc offset, ← byteLength_append] at hspan h
    rw [← List.append_assoc]
    exact .token (.append hgap hrest) hlexeme hkind hspan hwrites h

theorem scan_covers {cs : List Char} {offset : Nat} {ts : List Token}
    (h : scan file offset cs = .ok ts) : Covers file offset cs ts := by
  induction hlength : cs.length using Nat.strongRecOn generalizing offset cs ts with
  | ind length ih =>
    subst hlength
    cases cs with
    | nil =>
      rw [scan] at h
      cases h
      exact .done .nil
    | cons c rest =>
      obtain ⟨rule, n, made, us, hfirst, hmade, hscan, rfl⟩ := scan_ok h
      have hpos := LexRule.first?_pos hfirst
      have hrule := LexRule.mem_of_first? hfirst
      have htaken := LexRule.length?_of_first? hfirst
      have hshorter : ((c :: rest).drop n).length < (c :: rest).length := by
        simp only [List.length_drop, List.length_cons]
        omega
      have hrest := ih _ hshorter hscan rfl
      rw [← List.take_append_drop n (c :: rest)]
      cases made with
      | none => exact .skip (LexRule.skipped_of_none htaken hmade) hrest
      | some t =>
        obtain ⟨hspan, hwrites⟩ := LexRule.token?_writes hrule htaken hmade
        have hgap : Skipped [] ((c :: rest).take n ++ (c :: rest).drop n) := .nil
        refine .token hgap ?_ (LexRule.token?_kind hrule hmade) hspan hwrites hrest
        simp only [ne_eq, List.take_eq_nil_iff]
        rintro (rfl | h)
        · omega
        · cases h

/-! ### Places in the text -/

/-- What stands in a text from one byte offset up to another. Both are places where a character starts
or the text ends. -/
def IsSlice (source : List Char) (start stop : Nat) (text rest : List Char) : Prop :=
  ∃ before, source = before ++ (text ++ rest) ∧ byteLength before = start ∧
    byteLength (before ++ text) = stop

/-- Skipped text from one byte offset up to another. -/
def IsGap (source : List Char) (start stop : Nat) : Prop :=
  ∃ text rest, IsSlice source start stop text rest ∧ Skipped text rest

/-- The offsets between which text stands before each token, where the text before the first starts at
the given offset. -/
def gaps : Nat → List Token → List (Nat × Nat)
  | _, [] => []
  | start, t :: ts => (start, t.span.start.offset) :: gaps t.span.stop.offset ts

/-- A token of the text of a file: a slice of it that is not empty. -/
structure Token.IsRead (source : List Char) (file : String) (t : Token) : Prop where
  kind : t.kind ≠ .eof
  startFile : t.span.start.file = file
  stopFile : t.span.stop.file = file
  nonempty : t.span.start.offset < t.span.stop.offset
  inside : t.span.stop.offset ≤ byteLength source
  slice : ∃ text rest, IsSlice source t.span.start.offset t.span.stop.offset text rest ∧ t.Writes text

/-- The tokens of the text of a file from a byte offset on. -/
structure Faithful (source : List Char) (file : String) (start : Nat) (ts : List Token) : Prop where
  closed : ∃ us, ts = us ++ [.endOf ⟨⟨byteLength source, file⟩, ⟨byteLength source, file⟩⟩] ∧
    ∀ t ∈ us, t.IsRead source file
  after : ∀ t ∈ ts, start ≤ t.span.start.offset
  ordered : ts.Pairwise fun t u => t.span.stop.offset ≤ u.span.start.offset
  gapsSkipped : ∀ gap ∈ gaps start ts, IsGap source gap.1 gap.2

theorem byteLength_pos {cs : List Char} (h : cs ≠ []) : 0 < byteLength cs := by
  obtain ⟨c, cs, rfl⟩ := List.exists_cons_of_ne_nil h
  have hc := Char.utf8Size_pos c
  rw [byteLength]
  omega

theorem Position.ofBytes_of_lt {n : Nat} (h : n < limit) : ofBytes file n = ⟨n, file⟩ := by
  rw [ofBytes, Nat.mod_eq_of_lt h]

theorem IsGap.le {source : List Char} {start stop : Nat} (h : IsGap source start stop) :
    start ≤ stop := by
  obtain ⟨text, rest, ⟨before, -, rfl, rfl⟩, -⟩ := h
  rw [byteLength_append]
  exact Nat.le_add_right ..

/-- The places of a token that is written behind a part of the text. -/
theorem Token.isRead_of_span {before lexeme rest : List Char} {t : Token}
    (hlimit : byteLength (before ++ (lexeme ++ rest)) < Position.limit) (hlexeme : lexeme ≠ [])
    (hkind : t.kind ≠ .eof) (hwrites : t.Writes lexeme)
    (hspan : t.span = .ofBytes file (byteLength before) (byteLength lexeme)) :
    t.IsRead (before ++ (lexeme ++ rest)) file ∧ t.span.start.offset = byteLength before ∧
      t.span.stop.offset = byteLength (before ++ lexeme) := by
  have hpos := byteLength_pos hlexeme
  simp only [byteLength_append] at hlimit
  have hstart : t.span.start = ⟨byteLength before, file⟩ := by
    rw [hspan]
    exact Position.ofBytes_of_lt (by omega)
  have hstop : t.span.stop = ⟨byteLength (before ++ lexeme), file⟩ := by
    rw [hspan, byteLength_append]
    exact Position.ofBytes_of_lt (by omega)
  refine ⟨⟨hkind, ?_, ?_, ?_, ?_, lexeme, rest, ⟨before, rfl, ?_, ?_⟩, hwrites⟩, ?_, ?_⟩ <;>
    simp only [hstart, hstop, byteLength_append] <;> omega

/-- A token and what was skipped before it stand before tokens of the text behind it. -/
theorem Faithful.cons {source : List Char} {start : Nat} {t : Token} {ts : List Token}
    (ht : t.IsRead source file) (hgap : IsGap source start t.span.start.offset)
    (h : Faithful source file t.span.stop.offset ts) : Faithful source file start (t :: ts) := by
  obtain ⟨⟨us, rfl, hus⟩, hafter, hordered, hgaps⟩ := h
  have hstart := hgap.le
  have hspan := ht.nonempty
  refine ⟨⟨t :: us, rfl, List.forall_mem_cons.2 ⟨ht, hus⟩⟩, ?_,
    List.pairwise_cons.2 ⟨hafter, hordered⟩, List.forall_mem_cons.2 ⟨hgap, hgaps⟩⟩
  intro u hu
  rcases List.mem_cons.1 hu with rfl | hu
  · exact hstart
  · have hle := hafter u hu
    omega

theorem Covers.faithful {offset : Nat} {cs : List Char} {ts : List Token}
    (h : Covers file offset cs ts) (before : List Char) (hbefore : byteLength before = offset)
    (hlimit : byteLength (before ++ cs) < Position.limit) :
    Faithful (before ++ cs) file offset ts := by
  induction h generalizing before with
  | @done offset gap hgap =>
    have hend : byteLength (before ++ gap) = offset + byteLength gap := by
      rw [byteLength_append, hbefore]
    have hspan : Span.ofBytes file (offset + byteLength gap) 0 =
        ⟨⟨byteLength (before ++ gap), file⟩, ⟨byteLength (before ++ gap), file⟩⟩ := by
      rw [Span.ofBytes, Nat.add_zero, ← hend, Position.ofBytes_of_lt hlimit]
    rw [hspan]
    refine ⟨⟨[], rfl, List.forall_mem_nil _⟩, ?_, List.pairwise_singleton .., ?_⟩
    · intro t ht
      rw [List.mem_singleton.1 ht]
      exact hend ▸ Nat.le_add_right ..
    · intro g hg
      rw [List.mem_singleton.1 hg]
      exact ⟨gap, [], ⟨before, by rw [List.append_nil], hbefore, rfl⟩, hgap⟩
  | @token offset gap lexeme rest t ts hgap hlexeme hkind hspan hwrites _ ih =>
    have hstart : byteLength (before ++ gap) = offset + byteLength gap := by
      rw [byteLength_append, hbefore]
    have hstop : byteLength (before ++ gap ++ lexeme) =
        offset + byteLength gap + byteLength lexeme := by
      rw [byteLength_append, hstart]
    have hrest := ih (before ++ gap ++ lexeme) hstop (by simpa only [List.append_assoc] using hlimit)
    rw [← hstart] at hspan
    rw [← List.append_assoc] at hlimit
    obtain ⟨hread, hstart', hstop'⟩ := Token.isRead_of_span hlimit hlexeme hkind hwrites hspan
    rw [← List.append_assoc]
    refine .cons hread ?_ ?_
    · refine ⟨gap, lexeme ++ rest, ⟨before, List.append_assoc .., hbefore, hstart'.symm⟩, hgap⟩
    · rw [hstop', hstop, ← List.append_assoc]
      exact hrest

/-! ### Failure -/

/-- A scan that fails would have succeeded if the text ended at the place of the failure. -/
theorem scan_before_error {cs : List Char} {offset : Nat} {d : Diagnostic}
    (h : scan file offset cs = .error d) :
    ∃ before rest ts, cs = before ++ rest ∧ rest ≠ [] ∧
      d.position = .ofBytes file (offset + byteLength before) ∧ scan file offset before = .ok ts := by
  induction hlength : cs.length using Nat.strongRecOn generalizing offset cs with
  | ind length ih =>
    subst hlength
    cases cs with
    | nil =>
      rw [scan] at h
      cases h
    | cons c rest =>
      rcases scan_fails h with hd | ⟨rule, n, made, hfirst, hmade, hscan⟩
      · exact ⟨[], c :: rest, _, rfl, List.cons_ne_nil c rest, hd, by rw [scan]⟩
      · have hpos := LexRule.first?_pos hfirst
        have hle := LexRule.first?_le hfirst
        have hshorter : ((c :: rest).drop n).length < (c :: rest).length := by
          simp only [List.length_drop, List.length_cons]
          omega
        obtain ⟨before, after, ts, hdrop, hafter, hposition, hbefore⟩ := ih _ hshorter hscan rfl
        have htaken : ((c :: rest).take n).length = n := List.length_take_of_le hle
        have hsource : c :: rest = ((c :: rest).take n ++ before) ++ after := by
          rw [List.append_assoc, ← hdrop, List.take_append_drop]
        have hpart : LexRule.first? ((c :: rest).take n ++ before) = some (rule, n) := by
          rw [hsource] at hfirst
          refine LexRule.first?_of_le hfirst ?_
          rw [List.length_append, htaken]
          exact Nat.le_add_right ..
        obtain ⟨c', rest', hcons⟩ : ∃ c' rest', (c :: rest).take n ++ before = c' :: rest' := by
          refine List.exists_cons_of_ne_nil fun hnil => ?_
          have hzero := congrArg List.length hnil
          simp only [List.length_append, htaken, List.length_nil] at hzero
          omega
        refine ⟨(c :: rest).take n ++ before, after, made.toList ++ ts, hsource, hafter, ?_, ?_⟩
        · rw [hposition, byteLength_append, Nat.add_assoc]
        · rw [hcons] at hpart ⊢
          rw [scan_cons hpart, ← hcons, List.take_left' htaken, List.drop_left' htaken, hmade]
          show (scan _ _ _ >>= _) = _
          rw [hbefore]
          rfl

/-- Tokenizing loses nothing of a source whose offsets fit: every step takes at least one whole
character; tokens are slices of the source in their order, with blanks and comments between them, and the
last one alone marks the end; and a failure stands before a character up to which the source can be
tokenized. -/
theorem tokenize_faithful (source file : String)
    (hlimit : byteLength source.toList < Position.limit) :
    (∀ offset c rest,
      (∃ d, scan file offset (c :: rest) = .error d ∧ d.position = .ofBytes file offset) ∨
        ∃ taken left made, taken ≠ [] ∧ c :: rest = taken ++ left ∧ made.length ≤ 1 ∧
          scan file offset (c :: rest) =
            (scan file (offset + byteLength taken) left).map (made ++ ·)) ∧
    (∀ ts, tokenize source file = .ok ts → Faithful source.toList file 0 ts) ∧
    ∀ d, tokenize source file = .error d →
      ∃ before rest ts, source.toList = before ++ rest ∧ rest ≠ [] ∧
        d.position = ⟨byteLength before, file⟩ ∧ tokenize (String.ofList before) file = .ok ts := by
  refine ⟨scan_step file, fun ts h => ?_, fun d h => ?_⟩
  · exact (scan_covers h).faithful [] rfl hlimit
  · obtain ⟨before, rest, ts, hsource, hrest, hposition, hscan⟩ := scan_before_error h
    refine ⟨before, rest, ts, hsource, hrest, ?_, ?_⟩
    · rw [hsource, byteLength_append] at hlimit
      rw [hposition, Nat.zero_add, Position.ofBytes, Nat.mod_eq_of_lt (by omega)]
    · rwa [tokenize, String.toList_ofList]

/-- A text and a comment with characters of two bytes, and the same source with one of them where no
token starts. -/
theorem tokenize_faithful_accents :
    (∃ ts, tokenize "f(\"é\") // é\n;" "a.ts" = .ok ts ∧
      Faithful "f(\"é\") // é\n;".toList "a.ts" 0 ts) ∧
    ∃ d before rest ts, tokenize "f(\"é\") // é\n; é" "a.ts" = .error d ∧
      "f(\"é\") // é\n; é".toList = before ++ rest ∧ rest ≠ [] ∧
      d.position = ⟨byteLength before, "a.ts"⟩ ∧ tokenize (String.ofList before) "a.ts" = .ok ts := by
  have hsucceeds : (tokenize "f(\"é\") // é\n;" "a.ts").isOk = true := by decide +kernel
  have hfails : (tokenize "f(\"é\") // é\n; é" "a.ts").isOk = false := by decide +kernel
  refine ⟨?_, ?_⟩
  · cases h : tokenize "f(\"é\") // é\n;" "a.ts" with
    | ok ts => exact ⟨ts, rfl, (tokenize_faithful _ _ (by decide)).2.1 ts h⟩
    | error d => simp [h, Except.isOk, Except.toBool] at hsucceeds
  · cases h : tokenize "f(\"é\") // é\n; é" "a.ts" with
    | ok ts => simp [h, Except.isOk, Except.toBool] at hfails
    | error d =>
      obtain ⟨before, rest, ts, hbefore⟩ := (tokenize_faithful _ _ (by decide)).2.2 d h
      exact ⟨d, before, rest, ts, rfl, hbefore⟩

end ScriptCheck
