import ScriptCheck.Proofs.Lexing.Faithful
import ScriptCheck.Proofs.Lexing.Spelling

/-!
The first rule that matches is the one that takes most. A rule is tried before every rule that it
outruns: where both match, it takes more. For rules that are spelled out it is enough that no rule opens
a later mark; words, numbers and blanks start at characters at which no other rule starts.
-/

namespace ScriptCheck

namespace LexRule

/-- Wherever both rules match, the first takes more. -/
def Outruns (r r' : LexRule) : Prop :=
  ∀ ⦃cs : List Char⦄ ⦃n n' : Nat⦄, r.length? cs = some n → r'.length? cs = some n' → n' < n

/-! ### Rules that are spelled out -/

/-- The characters with which everything starts that a rule matches. Words, numbers and blanks have none
in common. -/
def opening : LexRule → List Char
  | .word | .number | .blank => []
  | .quoted quote => [quote]
  | .comment => ['/', '/']
  | .mark _ spelling => spelling.toList

/-- What a rule takes starts with its opening. -/
theorem opening_of_length? {r : LexRule} {cs : List Char} {n : Nat} (h : r.length? cs = some n) :
    r.opening <+: cs ∧ r.opening.length ≤ n := by
  cases r with
  | word | number | blank => exact ⟨List.nil_prefix, Nat.zero_le n⟩
  | quoted quote =>
    cases cs with
    | nil => cases h
    | cons c rest =>
      simp only [length?] at h
      split at h
      · rename_i hc
        obtain ⟨m, -, rfl⟩ := Option.map_eq_some_iff.1 h
        exact ⟨⟨rest, by rw [hc]; rfl⟩, Nat.le_add_left 1 m⟩
      · cases h
  | comment =>
    simp only [length?] at h
    split at h
    · rename_i rest
      cases h
      exact ⟨⟨rest, rfl⟩, Nat.le_add_right 2 _⟩
    · cases h
  | mark kind spelling =>
    simp only [length?] at h
    split at h
    · rename_i hprefix
      cases h
      exact ⟨List.isPrefixOf_iff_prefix.1 hprefix, Nat.le_refl _⟩
    · cases h

theorem outruns_mark {r : LexRule} {kind : TokenKind} {spelling : String}
    (h : ¬ r.opening <+: spelling.toList) : Outruns r (.mark kind spelling) := by
  intro cs n n' hn hn'
  obtain ⟨hopening, hle⟩ := opening_of_length? hn
  obtain ⟨hspelling, -⟩ := opening_of_length? hn'
  have hn'_eq : spelling.toList.length = n' := by
    simp only [length?] at hn'
    split at hn'
    · exact Option.some.inj hn'
    · cases hn'
  -- One of the two openings starts the other, and it is not that of the first rule.
  have hstarts : spelling.toList <+: r.opening :=
    (List.prefix_or_prefix_of_prefix hopening hspelling).resolve_left h
  have hshorter : spelling.toList.length < r.opening.length := by
    refine Nat.lt_of_not_le fun hlong => h ⟨[], ?_⟩
    rw [List.append_nil, hstarts.eq_of_length_le hlong]
  omega

/-! ### Rules that never meet -/

theorem outruns_of_apart {r r' : LexRule} (hr : r ∈ all) (hr' : r' ∈ all)
    (h : ∀ c, r.startsAt c = true → r'.startsAt c = false) : Outruns r r' := by
  intro cs n n' hn hn'
  cases cs with
  | nil =>
    have hpos := length?_pos (ne_empty_of_mem hr) hn
    have hle := length?_le hn
    simp only [List.length_nil] at hle
    omega
  | cons c rest =>
    have hnot := h c (startsAt_of_length? (ne_empty_of_mem hr) hn)
    rw [startsAt_of_length? (ne_empty_of_mem hr') hn'] at hnot
    cases hnot

/-- A rule that is spelled out starts at its first character only. -/
theorem head?_opening_of_startsAt {r : LexRule} {c : Char} (hr : r ∈ all.drop 3)
    (h : r.startsAt c = true) : r.opening.head? = some c := by
  cases r with
  | word | number | blank => exact absurd hr (by decide)
  | quoted quote | comment =>
    rw [beq_iff_eq.1 h]
    rfl
  | mark kind spelling => exact beq_iff_eq.1 h

/-- What is asked of a rule and a later one, of rules that are spelled out: the later one is a mark that
does not start with the opening of the first, or it starts at another character. -/
def clears (r r' : LexRule) : Bool :=
  match r' with
  | .mark _ spelling => !r.opening.isPrefixOf spelling.toList
  | _ => r.opening.head? != r'.opening.head?

theorem outruns_of_clears {r r' : LexRule} (hr : r ∈ all.drop 3) (hr' : r' ∈ all.drop 3)
    (h : r.clears r' = true) : Outruns r r' := by
  have hapart (hheads : (r.opening.head? != r'.opening.head?) = true) : Outruns r r' := by
    refine outruns_of_apart (List.mem_of_mem_drop hr) (List.mem_of_mem_drop hr') fun c hc => ?_
    rw [head?_opening_of_startsAt hr hc] at hheads
    cases hc' : r'.startsAt c with
    | false => rfl
    | true =>
      rw [head?_opening_of_startsAt hr' hc'] at hheads
      simp at hheads
  cases r' with
  | mark kind spelling =>
    refine outruns_mark fun hprefix => ?_
    rw [clears, List.isPrefixOf_iff_prefix.2 hprefix] at h
    cases h
  | _ => exact hapart h

/-! ### The table -/

theorem spelled_clears : (all.drop 3).Pairwise fun r r' => r.clears r' = true := by decide

theorem spelled_apart : ∀ r ∈ all.take 3, ∀ r' ∈ all.drop 3,
    r'.opening.head?.all (!r.startsAt ·) = true := by decide

/-- Every rule of the table outruns the rules behind it. -/
theorem all_pairwise_outruns : all.Pairwise Outruns := by
  have hspelled : (all.drop 3).Pairwise Outruns :=
    spelled_clears.imp_of_mem fun hr hr' => outruns_of_clears hr hr'
  have hbefore {r r' : LexRule} (hr : r ∈ all.take 3) (hr' : r' ∈ all.drop 3) : Outruns r r' := by
    refine outruns_of_apart (List.mem_of_mem_take hr) (List.mem_of_mem_drop hr') fun c hc => ?_
    cases hc' : r'.startsAt c with
    | false => rfl
    | true =>
      have happart := spelled_apart r hr r' hr'
      rw [head?_opening_of_startsAt hr' hc', Option.all_some, hc] at happart
      cases happart
  have hclasses : (all.take 3).Pairwise Outruns := by
    have hnumber : Outruns .word .number := by
      refine outruns_of_apart (by decide) (by decide) fun c hc => Bool.eq_false_iff.2 fun hdigit => ?_
      rw [startsAt, not_wordStart_of_digit hdigit] at hc
      cases hc
    have hword : Outruns .word .blank := by
      refine outruns_of_apart (by decide) (by decide) fun c hc => Bool.eq_false_iff.2 fun hblank => ?_
      rw [startsAt, not_wordStart_of_blank hblank] at hc
      cases hc
    have hdigit : Outruns .number .blank := by
      refine outruns_of_apart (by decide) (by decide) fun c hc => Bool.eq_false_iff.2 fun hblank => ?_
      rw [startsAt, not_digit_of_blank hblank] at hc
      cases hc
    simp [all, hnumber, hword, hdigit]
  rw [← List.take_append_drop 3 all]
  exact List.pairwise_append.2 ⟨hclasses, hspelled, fun r hr r' hr' => hbefore hr hr'⟩

/-- In a table whose rules outrun those behind them, the first rule that matches takes more than every
other. -/
theorem longest_of_pairwise {rules : List LexRule} (hrules : rules.Pairwise Outruns)
    {cs : List Char} {rule : LexRule} {n : Nat}
    (h : rules.findSome? (fun r => (r.length? cs).map (r, ·)) = some (rule, n)) :
    ∀ other ∈ rules.erase rule, ∀ m, other.length? cs = some m → m < n := by
  induction rules with
  | nil => cases h
  | cons r rules ih =>
    obtain ⟨hr, hrules⟩ := List.pairwise_cons.1 hrules
    intro other hother m hm
    cases hlength : r.length? cs with
    | some k =>
      rw [List.findSome?_cons, hlength] at h
      cases h
      rw [List.erase_cons_head] at hother
      exact hr other hother hlength hm
    | none =>
      rw [List.findSome?_cons, hlength] at h
      have hne : r ≠ rule := by
        rintro rfl
        obtain ⟨r', -, hr'⟩ := List.exists_of_findSome?_eq_some h
        obtain ⟨k, hk, heq⟩ := Option.map_eq_some_iff.1 hr'
        cases heq
        rw [hlength] at hk
        cases hk
      rw [List.erase_cons_tail (by simpa using hne), List.mem_cons] at hother
      rcases hother with rfl | hother
      · rw [hlength] at hm
        cases hm
      · exact ih hrules h other hother m hm

end LexRule

/-- Fewer characters of a text are fewer bytes. -/
theorem byteLength_take_lt {cs : List Char} {m n : Nat} (hmn : m < n) (hn : n ≤ cs.length) :
    byteLength (cs.take m) < byteLength (cs.take n) := by
  have hmore : (cs.take n).drop m ≠ [] := by
    rw [← List.length_pos_iff, List.length_drop, List.length_take]
    omega
  have hsplit : cs.take n = cs.take m ++ (cs.take n).drop m := by
    have htake : (cs.take n).take m = cs.take m := by
      rw [List.take_take, Nat.min_eq_left (Nat.le_of_lt hmn)]
    rw [← htake, List.take_append_drop]
  have hpos := byteLength_pos hmore
  rw [hsplit, byteLength_append]
  omega

/-- First match is longest match. Wherever a scan stands in a text, it takes what the first matching rule
of the table matches and goes on behind it; and that is more than any other rule of the table matches
there. -/
theorem scan_takes_longest (file : String) (offset : Nat) {rest : List Char} {rule : LexRule} {n : Nat}
    (h : LexRule.first? rest = some (rule, n)) :
    scan file offset rest = (do
      let made ← rule.token? file offset (rest.take n)
      let later ← scan file (offset + byteLength (rest.take n)) (rest.drop n)
      return made.toList ++ later) ∧
    ∀ other ∈ LexRule.all.erase rule, ∀ m, other.length? rest = some m →
      byteLength (rest.take m) < byteLength (rest.take n) := by
  have hpos := LexRule.first?_pos h
  have hle := LexRule.first?_le h
  refine ⟨?_, fun other hother m hm => ?_⟩
  · cases rest with
    | nil =>
      simp only [List.length_nil] at hle
      omega
    | cons c rest => exact scan_cons h
  · exact byteLength_take_lt
      (LexRule.longest_of_pairwise LexRule.all_pairwise_outruns h other hother m hm) hle

/-- A comment that starts like a mark with an equals sign behind it, and what the mark alone takes. -/
theorem scan_takes_longest_comment :
    LexRule.first? "//= é\n/".toList = some (.comment, 5) ∧
    (LexRule.mark .slash "/").length? "//= é\n/".toList = some 1 ∧
    byteLength ("//= é\n/".toList.take 1) < byteLength ("//= é\n/".toList.take 5) := by
  have hfirst : LexRule.first? "//= é\n/".toList = some (.comment, 5) := by decide +kernel
  have hslash : (LexRule.mark .slash "/").length? "//= é\n/".toList = some 1 := by decide
  exact ⟨hfirst, hslash, (scan_takes_longest "a.ts" 0 hfirst).2 _ (by decide) 1 hslash⟩

end ScriptCheck
