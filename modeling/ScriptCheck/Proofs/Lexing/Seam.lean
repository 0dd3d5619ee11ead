import ScriptCheck.Proofs.Relabel.Syntax
import ScriptCheck.Token.Lexer

/-!
Tokens do not grow together over a newline. What the rules take at a place of a text they also take there
if the text goes on behind a newline, except that blanks go on; so the tokens of two texts with a newline
between them are those of the first without its end, and those of the second, moved behind the first.
-/

namespace ScriptCheck

variable {file : String}

/-! ### Rules at the seam -/

theorem takeWhile_seam {p : Char → Bool} (hp : p '\n' = false) (ds cs : List Char) :
    (cs ++ '\n' :: ds).takeWhile p = cs.takeWhile p := by
  induction cs with
  | nil => simp [hp]
  | cons c cs ih => rw [List.cons_append, List.takeWhile_cons, List.takeWhile_cons, ih]

theorem take_length_takeWhile (p : Char → Bool) (cs : List Char) :
    cs.take (cs.takeWhile p).length = cs.takeWhile p :=
  (List.prefix_iff_eq_take.1 (List.takeWhile_prefix _)).symm

theorem drop_length_takeWhile (p : Char → Bool) (cs : List Char) :
    cs.drop (cs.takeWhile p).length = cs.dropWhile p := by
  calc cs.drop (cs.takeWhile p).length
      = (cs.takeWhile p ++ cs.dropWhile p).drop (cs.takeWhile p).length := by
        rw [List.takeWhile_append_dropWhile]
    _ = cs.dropWhile p := List.drop_left

theorem isPrefixOf_seam (ds : List Char) : ∀ (ps cs : List Char), '\n' ∉ ps →
    ps.isPrefixOf (cs ++ '\n' :: ds) = ps.isPrefixOf cs
  | [], _, _ => by rw [List.isPrefixOf_nil_left, List.isPrefixOf_nil_left]
  | p :: ps, [], h => by
    have hp : (p == '\n') = false := beq_false_of_ne fun heq => h (heq ▸ List.mem_cons_self ..)
    rw [List.nil_append, List.isPrefixOf_cons_cons, hp, Bool.false_and]
    rfl
  | p :: ps, c :: cs, h => by
    rw [List.cons_append, List.isPrefixOf_cons_cons, List.isPrefixOf_cons_cons,
      isPrefixOf_seam ds ps cs fun hmem => h (List.mem_cons_of_mem _ hmem)]

theorem closingQuote_le {quote : Char} {cs : List Char} {n : Nat}
    (h : closingQuote quote cs = some n) : n ≤ cs.length := by
  fun_induction closingQuote quote cs generalizing n with
  | case1 | case3 | case5 => cases h
  | case2 | case4 =>
    cases h
    simp
  | case6 d rest _ _ ih =>
    obtain ⟨m, hm, rfl⟩ := Option.map_eq_some_iff.1 h
    have hle := ih hm
    simp only [List.length_cons]
    omega
  | case7 c d rest _ _ ih =>
    obtain ⟨m, hm, rfl⟩ := Option.map_eq_some_iff.1 h
    have hle := ih hm
    simp only [List.length_cons] at hle ⊢
    omega

/-- A text that is closed stays closed at the same place if more follows. -/
theorem closingQuote_append {quote : Char} {cs : List Char} {n : Nat}
    (h : closingQuote quote cs = some n) (ds : List Char) :
    closingQuote quote (cs ++ ds) = some n := by
  fun_induction closingQuote quote cs generalizing n with
  | case1 | case3 | case5 => cases h
  | case2 =>
    cases h
    cases ds with
    | nil => simp [closingQuote]
    | cons d ds => simp [closingQuote]
  | case4 d rest =>
    cases h
    simp [closingQuote]
  | case6 d rest hn hq ih =>
    obtain ⟨m, hm, rfl⟩ := Option.map_eq_some_iff.1 h
    rw [List.cons_append, List.cons_append, closingQuote, if_neg hq, if_pos rfl, if_neg hn, ih hm]
    rfl
  | case7 c d rest hc hd ih =>
    obtain ⟨m, hm, rfl⟩ := Option.map_eq_some_iff.1 h
    rw [List.cons_append, List.cons_append, closingQuote, if_neg hc, if_neg hd]
    rw [List.cons_append] at ih
    rw [ih hm]
    rfl

namespace LexRule

/-- A rule takes no more characters than there are. -/
theorem length?_le {r : LexRule} {cs : List Char} {n : Nat} (h : r.length? cs = some n) :
    n ≤ cs.length := by
  cases r with
  | word =>
    cases cs with
    | nil => cases h
    | cons c rest =>
      simp only [length?] at h
      split at h
      · cases h
        have hle := (List.takeWhile_prefix isWordPart (l := rest)).length_le
        simp only [List.length_cons]
        omega
      · cases h
  | number =>
    simp only [length?] at h
    have hle := (List.takeWhile_prefix isDigit (l := cs)).length_le
    split at h
    · cases h
    · split at h
      · rename_i rest hdrop
        have hlen := congrArg List.length hdrop
        have hplaces := (List.takeWhile_prefix isDigit (l := rest)).length_le
        simp only [List.length_drop, List.length_cons] at hlen
        split at h <;> cases h <;> omega
      · cases h
        exact hle
  | blank =>
    simp only [length?] at h
    split at h
    · cases h
    · cases h
      exact (List.takeWhile_prefix Text.isBlank (l := cs)).length_le
  | quoted quote =>
    cases cs with
    | nil => cases h
    | cons c rest =>
      simp only [length?] at h
      split at h
      · obtain ⟨m, hm, rfl⟩ := Option.map_eq_some_iff.1 h
        exact Nat.succ_le_succ (closingQuote_le hm)
      · cases h
  | comment =>
    simp only [length?] at h
    split at h
    · rename_i rest
      cases h
      have hle := (List.takeWhile_prefix (· ≠ '\n') (l := rest)).length_le
      simp only [List.length_cons]
      omega
    · cases h
  | mark kind spelling =>
    simp only [length?] at h
    split at h
    · rename_i hprefix
      cases h
      exact (List.isPrefixOf_iff_prefix.1 hprefix).length_le
    · cases h

theorem first?_le {cs : List Char} {r : LexRule} {n : Nat} (h : first? cs = some (r, n)) :
    n ≤ cs.length := by
  obtain ⟨r', -, hr'⟩ := List.exists_of_findSome?_eq_some h
  obtain ⟨m, hm, he⟩ := Option.map_eq_some_iff.1 hr'
  obtain ⟨rfl, rfl⟩ := Prod.mk.inj he
  exact length?_le hm

/-- Whether a rule may match where the given character stands. -/
def startsAt (c : Char) : LexRule → Bool
  | .word => isWordStart c
  | .number => isDigit c
  | .blank => Text.isBlank c
  | .quoted quote => c == quote
  | .comment => c == '/'
  | .mark _ spelling => spelling.toList.head? == some c

theorem startsAt_of_length? {r : LexRule} {c : Char} {rest : List Char} {n : Nat}
    (hr : ∀ kind, r ≠ .mark kind "") (h : r.length? (c :: rest) = some n) : r.startsAt c = true := by
  cases r with
  | word =>
    simp only [length?] at h
    split at h
    · assumption
    · cases h
  | number =>
    simp only [length?] at h
    split at h
    · cases h
    · rename_i hwhole
      cases hdigit : isDigit c with
      | true => exact hdigit
      | false => simp [hdigit] at hwhole
  | blank =>
    simp only [length?] at h
    split at h
    · cases h
    · rename_i hsome
      cases hblank : Text.isBlank c with
      | true => exact hblank
      | false => simp [hblank] at hsome
  | quoted quote =>
    simp only [length?] at h
    split at h
    · exact beq_iff_eq.2 ‹_›
    · cases h
  | comment =>
    simp only [length?] at h
    split at h
    · rename_i heq
      cases heq
      rfl
    · cases h
  | mark kind spelling =>
    simp only [length?] at h
    split at h
    · rename_i hprefix
      cases hspelling : spelling.toList with
      | nil => exact absurd (String.toList_eq_nil_iff.1 hspelling) fun heq => hr kind (by rw [heq])
      | cons p ps =>
        rw [hspelling, List.isPrefixOf_cons_cons, Bool.and_eq_true, beq_iff_eq] at hprefix
        simp only [startsAt, hspelling, hprefix.1, List.head?_cons, beq_self_eq_true]
    · cases h

/-- What is asked of the rules: a mark is written on one line and does not stand for the end, and no
other rule starts at a quote. -/
def isSeparable (r : LexRule) : Bool :=
  match r with
  | .mark kind spelling => !spelling.toList.contains '\n' && kind != .eof
  | .quoted quote => all.all fun r' => !r'.startsAt quote || r' == .quoted quote
  | _ => true

theorem isSeparable_of_mem : ∀ r ∈ all, r.isSeparable = true := by decide

theorem ne_empty_of_mem {r : LexRule} (hr : r ∈ all) (kind : TokenKind) : r ≠ .mark kind "" := by
  rintro rfl
  simp [all] at hr

theorem length?_of_not_startsAt {rule : LexRule} {c : Char} {rest : List Char} (hrule : rule ∈ all)
    (h : rule.startsAt c = false) : rule.length? (c :: rest) = none := by
  cases hlength : rule.length? (c :: rest) with
  | none => rfl
  | some n =>
    have hstarts := startsAt_of_length? (ne_empty_of_mem hrule) hlength
    rw [h] at hstarts
    cases hstarts

/-- A rule is found first if the rules before it take nothing. -/
theorem first?_of_before {rule : LexRule} {cs : List Char} {n : Nat} (hrule : rule ∈ all)
    (hbefore : ∀ r ∈ all.takeWhile (· ≠ rule), r.length? cs = none) (h : rule.length? cs = some n) :
    first? cs = some (rule, n) := by
  unfold first?
  generalize all = rules at hrule hbefore
  induction rules with
  | nil => cases hrule
  | cons r rules ih =>
    by_cases heq : r = rule
    · rw [heq, List.findSome?_cons, h]
      rfl
    · rw [List.takeWhile_cons, if_pos (by simpa using heq), List.forall_mem_cons] at hbefore
      rw [List.findSome?_cons, hbefore.1]
      exact ih ((List.mem_cons.1 hrule).resolve_left (Ne.symm heq)) hbefore.2

/-- If a rule matches at a character that is not blank, every rule takes the same there when a newline
and more follow. -/
theorem length?_seam {c : Char} {rest : List Char} {found : LexRule × Nat}
    (hfirst : first? (c :: rest) = some found) (hblank : Text.isBlank c = false) (ds : List Char)
    {r : LexRule} (hr : r ∈ all) :
    r.length? (c :: rest ++ '\n' :: ds) = r.length? (c :: rest) := by
  have hseparable := isSeparable_of_mem r hr
  cases r with
  | word => simp only [List.cons_append, length?, takeWhile_seam (p := isWordPart) (by decide) ds rest]
  | number =>
    simp only [length?, takeWhile_seam (p := isDigit) (by decide) ds (c :: rest)]
    have hle := (List.takeWhile_prefix isDigit (l := c :: rest)).length_le
    rw [List.drop_append_of_le_length hle]
    cases (c :: rest).drop ((c :: rest).takeWhile isDigit).length with
    | nil => rfl
    | cons d tail =>
      by_cases hd : d = '.'
      · subst hd
        simp only [List.cons_append, takeWhile_seam (p := isDigit) (by decide) ds tail]
      · simp [hd]
  | blank =>
    simp only [List.cons_append, length?, List.takeWhile_cons, hblank]
    rfl
  | quoted quote =>
    simp only [List.cons_append, length?]
    by_cases hquote : c = quote
    · -- No other rule starts at the quote, so that it is closed before the newline.
      obtain ⟨r', hr', hmatch⟩ := List.exists_of_findSome?_eq_some hfirst
      obtain ⟨m, hm, -⟩ := Option.map_eq_some_iff.1 hmatch
      have hstarts := startsAt_of_length? (ne_empty_of_mem hr') hm
      have halone := List.all_eq_true.1 hseparable r' hr'
      rw [← hquote, hstarts, Bool.not_true, Bool.false_or, beq_iff_eq] at halone
      rw [halone, length?, if_pos rfl] at hm
      obtain ⟨n, hn, -⟩ := Option.map_eq_some_iff.1 hm
      rw [if_pos hquote, if_pos hquote, ← hquote, hn, closingQuote_append hn]
    · rw [if_neg hquote, if_neg hquote]
  | comment =>
    cases rest with
    | nil => simp [length?]
    | cons d tail =>
      by_cases hslash : c = '/' ∧ d = '/'
      · obtain ⟨rfl, rfl⟩ := hslash
        simp only [List.cons_append, length?, takeWhile_seam (p := (· ≠ '\n')) (by decide) ds tail]
      · have hnone (tail : List Char) : comment.length? (c :: d :: tail) = none := by
          simp only [length?]
          split
          · rename_i heq
            cases heq
            exact absurd ⟨rfl, rfl⟩ hslash
          · rfl
        rw [hnone]
        exact hnone _
  | mark kind spelling =>
    simp only [isSeparable, Bool.and_eq_true, Bool.not_eq_true', List.contains_eq_mem,
      decide_eq_false_iff_not] at hseparable
    simp only [length?, isPrefixOf_seam ds spelling.toList (c :: rest) hseparable.1]

/-- A rule that matches at a character that is not blank also matches when a newline and more
follow. -/
theorem first?_seam {c : Char} {rest : List Char} {found : LexRule × Nat}
    (hfirst : first? (c :: rest) = some found) (hblank : Text.isBlank c = false) (ds : List Char) :
    first? (c :: rest ++ '\n' :: ds) = some found := by
  rw [← hfirst]
  unfold first?
  have hall : ∀ rs : List LexRule, (∀ r ∈ rs, r ∈ all) →
      rs.findSome? (fun r => (r.length? (c :: rest ++ '\n' :: ds)).map (r, ·)) =
        rs.findSome? (fun r => (r.length? (c :: rest)).map (r, ·)) := by
    intro rs
    induction rs with
    | nil => exact fun _ => rfl
    | cons r rs ih =>
      intro hrs
      rw [List.findSome?_cons, List.findSome?_cons,
        length?_seam hfirst hblank ds (hrs r (List.mem_cons_self ..)),
        ih fun r hr => hrs r (List.mem_cons_of_mem _ hr)]
  exact hall all fun _ hr => hr

end LexRule

theorem not_wordStart_of_blank {c : Char} (h : Text.isBlank c = true) : isWordStart c = false := by
  rw [Bool.eq_false_iff]
  intro hword
  have hword' : (97 ≤ c.toNat ∧ c.toNat ≤ 122) ∨ (65 ≤ c.toNat ∧ c.toNat ≤ 90) ∨ c.toNat = 95 := by
    simp only [isWordStart, Bool.or_eq_true, Bool.and_eq_true, decide_eq_true_eq, Char.le_def,
      UInt32.le_iff_toNat_le, beq_iff_eq] at hword
    rcases hword with (hword | hword) | rfl
    · exact .inl hword
    · exact .inr (.inl hword)
    · exact .inr (.inr rfl)
  simp only [Text.isBlank, Bool.or_eq_true, Bool.and_eq_true, decide_eq_true_eq, beq_iff_eq] at h
  omega

theorem not_digit_of_blank {c : Char} (h : Text.isBlank c = true) : isDigit c = false := by
  rw [Bool.eq_false_iff]
  intro hdigit
  simp only [isDigit, Bool.and_eq_true, decide_eq_true_eq, Char.le_def,
    UInt32.le_iff_toNat_le] at hdigit
  have hdigit' : 48 ≤ c.toNat ∧ c.toNat ≤ 57 := hdigit
  simp only [Text.isBlank, Bool.or_eq_true, Bool.and_eq_true, decide_eq_true_eq, beq_iff_eq] at h
  omega

/-- At a blank, blanks are taken. -/
theorem LexRule.first?_blank {c : Char} (h : Text.isBlank c = true) (rest : List Char) :
    first? (c :: rest) = some (.blank, (rest.takeWhile Text.isBlank).length + 1) := by
  simp [first?, all, length?, not_wordStart_of_blank h, not_digit_of_blank h, h]

/-! ### Scanning -/

section

variable {offset : Nat} {c : Char} {rest : List Char}

theorem scan_cons {rule : LexRule} {n : Nat} (h : LexRule.first? (c :: rest) = some (rule, n)) :
    scan file offset (c :: rest) = (do
      let token? ← rule.token? file offset ((c :: rest).take n)
      let tokens ← scan file (offset + byteLength ((c :: rest).take n)) ((c :: rest).drop n)
      return token?.toList ++ tokens) := by
  rw [scan]
  split
  · rename_i hnone
    rw [h] at hnone
    cases hnone
  · rename_i hsome
    rw [h] at hsome
    cases hsome
    rfl

/-- A scan that makes its first step goes on behind what it took. -/
theorem scan_made {rule : LexRule} {n : Nat} {made : Option Token}
    (h : LexRule.first? (c :: rest) = some (rule, n))
    (hmade : rule.token? file offset ((c :: rest).take n) = .ok made) :
    scan file offset (c :: rest) =
      (scan file (offset + byteLength ((c :: rest).take n)) ((c :: rest).drop n)).map (made.toList ++ ·) := by
  rw [scan_cons h, hmade]
  rfl

theorem scan_none (file : String) (offset : Nat) (h : LexRule.first? (c :: rest) = none) :
    scan file offset (c :: rest) =
      .error ⟨.unrecognisedToken (String.singleton c), .ofBytes file offset⟩ := by
  rw [scan]
  split
  · rfl
  · rename_i hsome
    rw [h] at hsome
    cases hsome

/-- Blanks give no tokens. -/
theorem scan_dropBlanks (file : String) (offset : Nat) (cs : List Char) :
    scan file offset cs = scan file (offset + byteLength (cs.takeWhile Text.isBlank))
      (cs.dropWhile Text.isBlank) := by
  cases cs with
  | nil => rfl
  | cons c rest =>
    by_cases h : Text.isBlank c = true
    · rw [scan_cons (LexRule.first?_blank h rest), List.take_succ_cons, List.drop_succ_cons,
        take_length_takeWhile, drop_length_takeWhile, List.takeWhile_cons, if_pos h,
        List.dropWhile_cons, if_pos h]
      show (scan _ _ _ >>= fun tokens => pure tokens) = _
      exact bind_pure _
    · rw [List.takeWhile_cons, if_neg h, List.dropWhile_cons, if_neg h]
      rfl

theorem scan_blank (h : Text.isBlank c = true) (offset : Nat) (rest : List Char) :
    scan file offset (c :: rest) = scan file (offset + c.utf8Size) rest := by
  rw [scan_dropBlanks file offset (c :: rest), scan_dropBlanks file _ rest, List.takeWhile_cons,
    if_pos h, List.dropWhile_cons, if_pos h, byteLength, Nat.add_assoc]

end

/-- A word has no kind but those of the reserved words. -/
theorem TokenKind.ofWord?_ne {kind : TokenKind} (hkind : ∀ p ∈ reserved, p.2 ≠ kind) (word : String) :
    ofWord? word ≠ some kind := by
  intro h
  obtain ⟨before, after, hreserved, -⟩ := List.lookup_eq_some_iff.1 h
  exact hkind (word, kind) (hreserved ▸ List.mem_append_right _ List.mem_cons_self) rfl

/-- No rule makes a token that marks the end. -/
theorem LexRule.token?_kind {rule : LexRule} (hrule : rule ∈ all) {offset : Nat} {taken : List Char}
    {t : Token} (h : rule.token? file offset taken = .ok (some t)) : t.kind ≠ .eof := by
  cases rule with
  | word =>
    cases h
    cases hword : TokenKind.ofWord? (String.ofList taken) with
    | none => exact nofun
    | some kind => exact fun heq => TokenKind.ofWord?_ne (by decide) _ (hword.trans (congrArg some heq))
  | number =>
    cases h
    exact nofun
  | blank | comment => cases h
  | quoted quote =>
    simp only [token?] at h
    split at h
    · cases h
      exact nofun
    · cases h
  | mark kind spelling =>
    cases h
    have hseparable := isSeparable_of_mem _ hrule
    simp only [isSeparable, Bool.and_eq_true, bne_iff_ne] at hseparable
    exact hseparable.2

theorem LexRule.mem_of_first? {cs : List Char} {rule : LexRule} {n : Nat}
    (h : first? cs = some (rule, n)) : rule ∈ all := by
  obtain ⟨r, hr, hmatch⟩ := List.exists_of_findSome?_eq_some h
  obtain ⟨m, -, heq⟩ := Option.map_eq_some_iff.1 hmatch
  cases heq
  exact hr

theorem byteLength_take_add_drop (offset : Nat) (cs : List Char) (n : Nat) :
    offset + byteLength (cs.take n) + byteLength (cs.drop n) = offset + byteLength cs := by
  rw [Nat.add_assoc, ← byteLength_append, List.take_append_drop]

/-- What a scan that succeeds does at its first place. -/
theorem scan_ok {offset : Nat} {c : Char} {rest : List Char} {ts : List Token}
    (h : scan file offset (c :: rest) = .ok ts) :
    ∃ rule n token? us, LexRule.first? (c :: rest) = some (rule, n) ∧
      rule.token? file offset ((c :: rest).take n) = .ok token? ∧
      scan file (offset + byteLength ((c :: rest).take n)) ((c :: rest).drop n) = .ok us ∧
      ts = token?.toList ++ us := by
  cases hfirst : LexRule.first? (c :: rest) with
  | none =>
    rw [scan_none file offset hfirst] at h
    cases h
  | some found =>
    obtain ⟨rule, n⟩ := found
    cases htoken : rule.token? file offset ((c :: rest).take n) with
    | error d =>
      rw [scan_cons hfirst, htoken] at h
      cases h
    | ok token? =>
      rw [scan_made hfirst htoken] at h
      cases hscan : scan file (offset + byteLength ((c :: rest).take n)) ((c :: rest).drop n) with
      | error d =>
        rw [hscan] at h
        cases h
      | ok us =>
        rw [hscan] at h
        cases h
        exact ⟨rule, n, token?, us, rfl, htoken, hscan, rfl⟩

/-- The tokens of a text are those before its end and the one that marks it. If a newline and another
text follow, the tokens of that text stand in place of the end. -/
theorem scan_seam {offset : Nat} {cs : List Char} {ts : List Token}
    (h : scan file offset cs = .ok ts) (ds : List Char) :
    ∃ us, ts = us ++ [.endOf (.ofBytes file (offset + byteLength cs) 0)] ∧
      (∀ t ∈ us, t.kind ≠ .eof) ∧
      ∀ {vs : List Token}, scan file (offset + byteLength cs + 1) ds = .ok vs →
        scan file offset (cs ++ '\n' :: ds) = .ok (us ++ vs) := by
  -- A blank is passed alone: the blanks behind it may go on over the newline.
  induction hlength : cs.length using Nat.strongRecOn generalizing offset cs ts with
  | ind length ih =>
    subst hlength
    cases cs with
    | nil =>
      rw [scan] at h
      cases h
      refine ⟨[], rfl, fun _ ht => absurd ht List.not_mem_nil, fun {vs} hvs => ?_⟩
      rw [List.nil_append, scan_blank (by decide)]
      exact hvs
    | cons c rest =>
      by_cases hblank : Text.isBlank c = true
      · rw [scan_blank hblank] at h
        obtain ⟨us, hts, hus, hmore⟩ := ih rest.length (Nat.lt_succ_self _) h rfl
        rw [byteLength, ← Nat.add_assoc]
        refine ⟨us, hts, hus, fun hvs => ?_⟩
        rw [List.cons_append, scan_blank hblank]
        exact hmore hvs
      · obtain ⟨rule, n, made, ts', hfirst, hmade, hscan, rfl⟩ := scan_ok h
        have hpos := LexRule.first?_pos hfirst
        have hle := LexRule.first?_le hfirst
        have hshorter : ((c :: rest).drop n).length < (c :: rest).length := by
          simp only [List.length_drop, List.length_cons]
          omega
        have hbytes := byteLength_take_add_drop offset (c :: rest) n
        obtain ⟨us, rfl, hus, hmore⟩ := ih _ hshorter hscan rfl
        rw [hbytes] at hmore ⊢
        refine ⟨made.toList ++ us, (List.append_assoc ..).symm, fun t ht => ?_, fun {vs} hvs => ?_⟩
        · rcases List.mem_append.1 ht with ht | ht
          · rw [Option.mem_toList.1 ht] at hmade
            exact LexRule.token?_kind (LexRule.mem_of_first? hfirst) hmade
          · exact hus t ht
        · have hfirst' := LexRule.first?_seam hfirst (Bool.eq_false_iff.2 hblank) ds
          rw [List.cons_append] at hfirst' ⊢
          rw [scan_cons hfirst', ← List.cons_append, List.take_append_of_le_length hle,
            List.drop_append_of_le_length hle, hmade]
          show (scan _ _ _ >>= _) = _
          rw [hmore hvs, List.append_assoc]
          rfl

/-! ### Places -/

theorem Span.ofBytes_shift {file : String} {n length k : Nat} (h : n + length + k < Position.limit) :
    ofBytes file (n + k) length = (ofBytes file n length).relabel (.shiftPlaces k) := by
  have hplace {m : Nat} (hm : m + k < Position.limit) : Position.ofBytes file (m + k) =
      ⟨(Position.ofBytes file m).offset + k, file⟩ := by
    rw [Position.ofBytes, Position.ofBytes, Nat.mod_eq_of_lt hm, Nat.mod_eq_of_lt (by omega)]
  rw [ofBytes, Nat.add_right_comm n k length, hplace (by omega), hplace h]
  rfl

theorem LexRule.token?_shift {rule : LexRule} {file : String} {offset k : Nat} {taken : List Char}
    {made : Option Token} (hlimit : offset + byteLength taken + k < Position.limit)
    (h : rule.token? file offset taken = .ok made) :
    rule.token? file (offset + k) taken = .ok (made.map (Token.relabel (.shiftPlaces k))) := by
  have hspan : Span.ofBytes file (offset + k) (byteLength taken) = _ := Span.ofBytes_shift hlimit
  unfold LexRule.token? at h ⊢
  rw [hspan]
  cases rule with
  | word | number | mark =>
    cases h
    rfl
  | blank | comment =>
    cases h
    rfl
  | quoted quote =>
    dsimp only at h ⊢
    split at h
    · cases h
      rfl
    · cases h

/-- A text that starts later has the same tokens at later places. -/
theorem scan_shift (file : String) (k : Nat) : ∀ (cs : List Char) (offset : Nat) {ts : List Token},
    offset + byteLength cs + k < Position.limit → scan file offset cs = .ok ts →
    scan file (offset + k) cs = .ok (ts.map (Token.relabel (.shiftPlaces k)))
  | [], offset, ts, hlimit, h => by
    rw [scan] at h ⊢
    cases h
    have hspan : Span.ofBytes file (offset + k) 0 = _ := Span.ofBytes_shift hlimit
    rw [hspan]
    rfl
  | c :: rest, offset, ts, hlimit, h => by
    obtain ⟨rule, n, token?, us, hfirst, htoken, hscan, rfl⟩ := scan_ok h
    have hpos := LexRule.first?_pos hfirst
    have hbytes := byteLength_take_add_drop offset (c :: rest) n
    rw [scan_cons hfirst, LexRule.token?_shift (by omega) htoken]
    show (scan _ _ _ >>= _) = _
    rw [Nat.add_right_comm, scan_shift file k _ _ (by rw [hbytes]; exact hlimit) hscan,
      List.map_append]
    cases token? <;> rfl
termination_by cs => cs.length
decreasing_by
  simp only [List.length_drop, List.length_cons]
  omega

/-- The tokens of a source are closed by the one that marks the end. -/
theorem tokenize_closed {source : String} {ts : List Token} (h : tokenize source file = .ok ts) :
    ∃ us last, ts = us ++ [last] ∧ last.kind = .eof ∧ ∀ t ∈ us, t.kind ≠ .eof := by
  obtain ⟨us, hts, hus, -⟩ := scan_seam h []
  exact ⟨us, _, hts, rfl, hus⟩

/-- The tokens of two sources with a newline between them: those of the second stand in place of the
end of the first, and are written behind it. -/
theorem tokenize_seam {a b : String}
    (hlimit : byteLength a.toList + 1 + byteLength b.toList < Position.limit) {ts us : List Token}
    {last : Token} (ha : tokenize a file = .ok (ts ++ [last])) (hb : tokenize b file = .ok us) :
    tokenize (a ++ "\n" ++ b) file =
      .ok (ts ++ us.map (Token.relabel (.shiftPlaces (byteLength a.toList + 1)))) := by
  obtain ⟨vs, hts, -, hmore⟩ := scan_seam ha b.toList
  obtain ⟨rfl, -⟩ := List.append_inj' hts rfl
  have hshift := scan_shift file (byteLength a.toList + 1) b.toList 0 (by omega) hb
  have htext : (a ++ "\n" ++ b).toList = a.toList ++ '\n' :: b.toList := by
    rw [String.toList_append, String.toList_append, List.append_assoc]
    rfl
  rw [tokenize, htext]
  refine hmore ?_
  rw [Nat.zero_add]
  rwa [Nat.zero_add] at hshift

end ScriptCheck
