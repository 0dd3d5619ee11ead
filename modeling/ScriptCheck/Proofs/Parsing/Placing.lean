import ScriptCheck.Proofs.Parsing.Steps
import ScriptCheck.Proofs.Pieces

/-!
Where reading puts its results. A stream over the tokens of a text stands between two offsets, the end of
the token read last and the start of the current one. A step lays its result out if it goes on from there
and says of the result how it lies before the end of the token that is then the last one read. Steps
that follow each other lay their results out one behind the other.
-/

namespace ScriptCheck

open Parse

/-! ### Numbers -/

/-- A number starts with a digit. -/
def Token.IsNumeral (t : Token) : Prop :=
  t.kind = .number → ∃ c ∈ t.value.toList.head?, isDigit c = true

theorem LexRule.token?_isNumeral {rule : LexRule} (hrule : rule ∈ all) {file : String} {offset n : Nat}
    {c : Char} {rest : List Char} {t : Token} (hlength : rule.length? (c :: rest) = some n)
    (h : rule.token? file offset ((c :: rest).take n) = .ok (some t)) : t.IsNumeral := by
  intro hkind
  cases rule with
  | number =>
    cases h
    have hpos := length?_pos (r := .number) nofun hlength
    obtain ⟨m, rfl⟩ := Nat.exists_eq_add_one.2 hpos
    refine ⟨c, ?_, startsAt_of_length? (r := .number) nofun hlength⟩
    rw [String.toList_ofList, List.take_succ_cons]
    rfl
  | word =>
    cases h
    cases hword : TokenKind.ofWord? (String.ofList ((c :: rest).take n)) with
    | none => simp [hword] at hkind
    | some kind =>
      simp only [hword, Option.getD_some] at hkind
      exact absurd (hword.trans (congrArg some hkind)) (TokenKind.ofWord?_ne (by decide) _)
  | blank | comment => cases h
  | quoted quote =>
    simp only [token?] at h
    split at h
    · cases h
      cases hkind
    · cases h
  | mark kind spelling =>
    cases h
    have hmarks : ∀ r ∈ all, ∀ kind spelling, r = .mark kind spelling → kind ≠ .number := by
      simp [all]
    exact absurd hkind (hmarks _ hrule kind spelling rfl)

theorem scan_numerals {file : String} {cs : List Char} {offset : Nat} {ts : List Token}
    (h : scan file offset cs = .ok ts) : ∀ t ∈ ts, t.IsNumeral := by
  induction hlength : cs.length using Nat.strongRecOn generalizing offset cs ts with
  | ind length ih =>
    subst hlength
    cases cs with
    | nil =>
      rw [scan] at h
      cases h
      refine List.forall_mem_singleton.2 ?_
      intro hkind
      cases hkind
    | cons c rest =>
      obtain ⟨rule, n, made, us, hfirst, hmade, hscan, rfl⟩ := scan_ok h
      have hpos := LexRule.first?_pos hfirst
      have hshorter : ((c :: rest).drop n).length < (c :: rest).length := by
        simp only [List.length_drop, List.length_cons]
        omega
      refine List.forall_mem_append.2 ⟨fun t ht => ?_, ih _ hshorter hscan rfl⟩
      rw [Option.mem_toList.1 ht] at hmade
      exact LexRule.token?_isNumeral (LexRule.mem_of_first? hfirst) (LexRule.length?_of_first? hfirst)
        hmade

/-- An integer that starts with a digit is written in digits only. -/
theorem integer?_of_digit {text : String} {c : Char} {value : Int} (hhead : text.toList.head? = some c)
    (hc : isDigit c = true) (h : integer? text = some value) :
    text.toList ≠ [] ∧ (∀ d ∈ text.toList, isDigit d = true) ∧ value = ofDigits text.toList := by
  obtain ⟨cs, htext⟩ := List.head?_eq_some_iff.1 hhead
  have hminus : c ≠ '-' := by
    rintro rfl
    cases hc
  have hplus : c ≠ '+' := by
    rintro rfl
    cases hc
  simp only [integer?, htext, readSign, if_neg hminus, if_neg hplus] at h
  rw [htext]
  split at h
  · cases h
  · rename_i hdigits
    simp only [List.isEmpty_cons, Bool.false_or, Bool.not_eq_true', Bool.not_eq_false, List.all_eq_true]
      at hdigits
    simp only [Bool.false_eq_true, if_false] at h
    split at h
    · cases h
      exact ⟨List.cons_ne_nil _ _, hdigits, rfl⟩
    · cases h

/-! ### Streams -/

/-- A stream over tokens of a text, which follow each other up to the end of the text. The token read last
ends at the first offset and the current one starts at the second. -/
structure TokenStream.IsAt (source : List Char) (file : String) (e p : Nat) (s : TokenStream) :
    Prop where
  previousEnd : s.previousEnd = ⟨e, file⟩
  position : s.position = ⟨p, file⟩
  le : e ≤ p
  closed : ∃ us last, s.tokens = us ++ [last] ∧ last.kind = .eof ∧
    last.span.start = ⟨byteLength source, file⟩ ∧ ∀ t ∈ us, t.IsRead source file ∧ t.IsNumeral
  ordered : s.tokens.Pairwise fun t u => t.span.stop.offset ≤ u.span.start.offset

namespace TokenStream.IsAt

variable {source : List Char} {file : String} {e p : Nat} {s : TokenStream}

/-- Only the tokens that are left and the end of the last one matter. -/
theorem of_tokens {s' : TokenStream} (h : s.IsAt source file e p) (htokens : s'.tokens = s.tokens)
    (hend : s'.previousEnd = s.previousEnd) : s'.IsAt source file e p := by
  have hcurrent : s'.current = s.current := (List.cons.inj htokens).1
  refine ⟨hend.trans h.previousEnd, ?_, h.le, htokens ▸ h.closed, htokens ▸ h.ordered⟩
  rw [TokenStream.position, hcurrent]
  exact h.position

theorem start_le (h : s.IsAt source file e p) : p ≤ byteLength source := by
  obtain ⟨us, last, htokens, -, hlast, hread⟩ := h.closed
  have hposition := h.position
  rw [TokenStream.position] at hposition
  cases us with
  | nil =>
    rw [current_of_tokens htokens, hlast] at hposition
    exact Nat.le_of_eq (congrArg Position.offset hposition).symm
  | cons t us =>
    have ht := (hread t List.mem_cons_self).1
    rw [current_of_tokens htokens] at hposition
    have := ht.nonempty
    have := ht.inside
    have := congrArg Position.offset hposition
    simp only at this
    omega

/-- Behind a token that is not the last one the stream stands between it and the next. -/
theorem next (h : s.IsAt source file e p) (hkind : s.kind ≠ .eof) :
    s.current.IsRead source file ∧ s.current.IsNumeral ∧ s.current.span.start.offset = p ∧
      ∃ p', s.next.IsAt source file s.current.span.stop.offset p' ∧ p ≤ p' := by
  obtain ⟨us, last, htokens, heof, hlast, hread⟩ := h.closed
  cases us with
  | nil => exact absurd (kind_of_tokens htokens ▸ heof) hkind
  | cons t us =>
    have hcurrent := current_of_tokens htokens
    obtain ⟨ht, hnumeral⟩ := hread t List.mem_cons_self
    have hne : us ++ [last] ≠ [] := by simp
    have hnext := tokens_next htokens hne
    have hstart : t.span.start.offset = p := by
      have := congrArg Position.offset h.position
      rwa [TokenStream.position, hcurrent] at this
    have hordered := htokens ▸ h.ordered
    obtain ⟨hbefore, hordered⟩ := List.pairwise_cons.1 hordered
    -- the next token is one of the text or marks its end
    obtain ⟨u, us', hcons⟩ := List.exists_cons_of_ne_nil hne
    have hu : s.next.current = u := current_of_tokens (hnext.trans hcons)
    have hmem : u ∈ us ++ [last] := by
      rw [hcons]
      exact List.mem_cons_self
    have hfile : u.span.start.file = file := by
      rcases List.mem_append.1 hmem with hu | hu
      · exact (hread u (List.mem_cons_of_mem _ hu)).1.startFile
      · rw [List.mem_singleton.1 hu, hlast]
    have hafter := hbefore u hmem
    have hspan := ht.nonempty
    rw [hcurrent]
    refine ⟨ht, hnumeral, hstart, u.span.start.offset, ⟨?_, ?_, hafter, ?_, ?_⟩, by omega⟩
    · have hupcoming : s.upcoming = u :: us' := (List.cons.inj htokens).2.trans hcons
      rw [TokenStream.next, hupcoming, hcurrent]
      exact Position.mk.injEq _ _ _ _ ▸ ⟨rfl, ht.stopFile⟩
    · rw [TokenStream.position, hu, ← hfile]
    · exact ⟨us, last, hnext, heof, hlast, fun v hv => hread v (List.mem_cons_of_mem _ hv)⟩
    · rw [hnext]
      exact hordered

end TokenStream.IsAt

/-! ### Steps -/

/-- From a stream that stands between two offsets, at a token with the given property, a step that
succeeds goes on, to a result that has a property relative to the end of the token read last. -/
def Lays {α : Type} (source : List Char) (file : String) (e p : Nat) (K : Token → Prop) (m : Parse α)
    (Q : Nat → α → Prop) : Prop :=
  ∀ ⦃s t : TokenStream⦄ ⦃a : α⦄, s.IsAt source file e p → K s.current → m s = .ok a t →
    ∃ e' p', t.IsAt source file e' p' ∧ e ≤ e' ∧ p ≤ p' ∧ Q e' a

/-- Any token. -/
abbrev Anywhere : Token → Prop := fun _ => True

/-- A step lays the pieces of its result out between where it starts and where it ends. -/
abbrev Places {α : Type} (source : List Char) (file : String) (e p : Nat) (K : Token → Prop)
    (pieces : α → List Piece) (m : Parse α) : Prop :=
  Lays source file e p K m fun e' a => Row source file p e' (pieces a)

namespace Lays

variable {source : List Char} {file : String} {e p : Nat} {K : Token → Prop} {α β : Type} {m : Parse α}
  {k : α → Parse β} {Q : Nat → α → Prop} {R : Nat → β → Prop}

theorem pure {a : α} (h : Q e a) : Lays source file e p K (Pure.pure a) Q := by
  intro s t b hs _ hrun
  cases hrun
  exact ⟨e, p, hs, Nat.le_refl _, Nat.le_refl _, h⟩

theorem fails {failure : TokenStream → Failure} (h : ∀ s, m s = .error (failure s) s) :
    Lays source file e p K m Q := by
  intro s t a _ _ hrun
  rw [h] at hrun
  cases hrun

/-- The current token starts behind the one read last. -/
theorem standing (h : e ≤ p → Lays source file e p K m Q) : Lays source file e p K m Q :=
  fun _ _ _ hs => h hs.le hs

/-- The second step starts behind the first. -/
theorem bind (hm : Lays source file e p K m Q)
    (hk : ∀ a e' p', e ≤ e' ∧ p ≤ p' ∧ e' ≤ p' → Q e' a → Lays source file e' p' Anywhere (k a) R) :
    Lays source file e p K (m >>= k) R := by
  intro s t b hs hK hrun
  obtain ⟨a, u, hm', hk'⟩ := ok_of_bind hrun
  obtain ⟨e', p', hu, he, hp, ha⟩ := hm hs hK hm'
  obtain ⟨e'', p'', ht, he', hp', hb⟩ := hk a e' p' ⟨he, hp, hu.le⟩ ha hu trivial hk'
  exact ⟨e'', p'', ht, Nat.le_trans he he', Nat.le_trans hp hp', hb⟩

theorem discarded (hm : Lays source file e p K m Q) :
    Lays source file e p K (discard m) fun e' _ => ∃ a, Q e' a := by
  intro s t u hs hK hrun
  cases hms : m s with
  | error failure t =>
    rw [discard_of_error hms] at hrun
    cases hrun
  | ok a t =>
    rw [discard_of_ok hms] at hrun
    cases hrun
    obtain ⟨e', p', ht, he, hp, ha⟩ := hm hs hK hms
    exact ⟨e', p', ht, he, hp, a, ha⟩

theorem mono {K' : Token → Prop} {Q' : Nat → α → Prop} (hm : Lays source file e p K m Q)
    (hK : ∀ t, K' t → K t) (hQ : ∀ e' a, e ≤ e' → Q e' a → Q' e' a) :
    Lays source file e p K' m Q' := by
  intro s t a hs hkind hrun
  obtain ⟨e', p', ht, he, hp, ha⟩ := hm hs (hK _ hkind) hrun
  exact ⟨e', p', ht, he, hp, hQ e' a he ha⟩

theorem ite {c : Prop} [Decidable c] {x y : Parse α} (hx : c → Lays source file e p K x Q)
    (hy : ¬c → Lays source file e p K y Q) : Lays source file e p K (if c then x else y) Q := by
  by_cases hc : c
  · rw [if_pos hc]
    exact hx hc
  · rw [if_neg hc]
    exact hy hc

/-! ### Looking at the stream -/

theorem afterKind {k : TokenKind → Parse β}
    (hk : ∀ x, Lays source file e p (fun t => K t ∧ t.kind = x) (k x) R) :
    Lays source file e p K (kind >>= k) R := fun s _ _ hs hK hrun =>
  hk s.kind hs ⟨hK, rfl⟩ hrun

theorem afterCurrent {k : Token → Parse β}
    (hk : ∀ t, K t → Lays source file e p (fun u => u = t) (k t) R) :
    Lays source file e p K (current >>= k) R := fun s _ _ hs hK hrun =>
  hk s.current hK hs rfl hrun

theorem afterPosition {k : Position → Parse β} (hk : Lays source file e p K (k ⟨p, file⟩) R) :
    Lays source file e p K (position >>= k) R := by
  intro s t b hs hK hrun
  have hk' : k s.position s = .ok b t := hrun
  rw [hs.position] at hk'
  exact hk hs hK hk'

theorem afterSpanFrom {start : Position} {k : Span → Parse β}
    (hk : Lays source file e p K (k ⟨start, ⟨e, file⟩⟩) R) :
    Lays source file e p K (spanFrom start >>= k) R := by
  intro s t b hs hK hrun
  have hk' : k ⟨start, s.previousEnd⟩ s = .ok b t := hrun
  rw [hs.previousEnd] at hk'
  exact hk hs hK hk'

theorem afterFreshId {k : Nat → Parse β} (hk : ∀ i, Lays source file e p K (k i) R) :
    Lays source file e p K (freshId >>= k) R := fun s _ _ hs hK hrun =>
  hk s.nextId (s := { s with nextId := s.nextId + 1 }) (hs.of_tokens rfl rfl) hK hrun

theorem afterRemaining {k : Nat → Parse β} (hk : ∀ i, Lays source file e p K (k i) R) :
    Lays source file e p K (remaining >>= k) R := fun s _ _ hs hK hrun => hk s.remaining hs hK hrun

theorem afterLookahead {n : Nat} {k : TokenKind → Parse β} (hk : ∀ x, Lays source file e p K (k x) R) :
    Lays source file e p K (lookahead n >>= k) R := fun s _ _ hs hK hrun => hk (s.peek n).kind hs hK hrun

theorem afterRegister {name : String} {k : Unit → Parse β}
    (hk : Lays source file e p Anywhere (k ()) R) :
    Lays source file e p K (register name >>= k) R := by
  intro s t b hs _ hrun
  refine hk (hs.of_tokens (s.tokens_register name) ?_) trivial hrun
  unfold TokenStream.register
  split <;> rfl

/-! ### Tokens -/

/-- What is known of a token that was read. -/
structure Taken (source : List Char) (file : String) (lo hi : Nat) (t : Token) : Prop where
  between : t.span.Between file lo hi
  read : t.IsRead source file
  numeral : t.IsNumeral

/-- A token that is not the last one is read. -/
theorem taken (hK : ∀ t, K t → t.kind ≠ .eof) :
    Lays source file e p K advance fun e' t => K t ∧ Taken source file p e' t := by
  intro s t a hs hkind hrun
  cases hrun
  obtain ⟨hread, hnumeral, hstart, p', hnext, hp⟩ := hs.next (hK _ hkind)
  have hspan := hread.nonempty
  have hle := hs.le
  refine ⟨_, p', hnext, by omega, hp, hkind, ⟨?_, hread, hnumeral⟩⟩
  exact ⟨hread.startFile, hread.stopFile, Nat.le_of_eq hstart.symm, Nat.le_of_lt hspan, Nat.le_refl _⟩

/-- At the end of the stream reading stays there. -/
theorem advance : Lays source file e p K advance fun _ _ => True := by
  intro s t a hs hkind hrun
  by_cases heof : s.kind = .eof
  · cases hrun
    obtain ⟨us, last, htokens, -, -, hread⟩ := hs.closed
    have hstays : s.next = s := by
      cases us with
      | nil => rw [TokenStream.next, (List.cons.inj htokens).2]
      | cons u us =>
        have hu := (hread u List.mem_cons_self).1.kind
        exact absurd (TokenStream.kind_of_tokens htokens ▸ heof) hu
    exact ⟨e, p, hstays.symm ▸ hs, Nat.le_refl _, Nat.le_refl _, trivial⟩
  · obtain ⟨e', p', ht, he, hp, -⟩ :=
      taken (K := fun t => t.kind ≠ .eof) (fun _ h => h) hs heof hrun
    exact ⟨e', p', ht, he, hp, trivial⟩

theorem expected {wanted : TokenKind} (h : wanted ≠ .eof) :
    Lays source file e p K (expect wanted) fun e' t => t.kind = wanted ∧ Taken source file p e' t := by
  refine afterKind fun x => ite (fun hx => ?_) fun _ => fails fun _ => rfl
  refine (taken (K := fun t => t.kind = wanted) fun t ht => ht ▸ h).mono ?_ fun _ _ _ h => h
  exact fun t ht => ht.2.trans hx

theorem expectedOr {wanted : TokenKind} (h : wanted ≠ .eof) (message : String) :
    Lays source file e p K (expectOr wanted message) fun e' t =>
      t.kind = wanted ∧ Taken source file p e' t := by
  refine afterKind fun x => ite (fun hx => ?_) fun _ => fails fun _ => rfl
  refine (taken (K := fun t => t.kind = wanted) fun t ht => ht ▸ h).mono ?_ fun _ _ _ h => h
  exact fun t ht => ht.2.trans hx

/-- A token that was looked at is read. -/
theorem passed {t : Token} (ht : t.kind ≠ .eof) :
    Lays source file e p (fun u => u = t) (discard Parse.advance) fun e' _ =>
      Taken source file p e' t := by
  refine (taken (by rintro _ rfl; exact ht)).discarded.mono (fun _ h => h) ?_
  rintro e' _ _ ⟨_, rfl, hread⟩
  exact hread

/-- The number at a token. -/
theorem number {t : Token} (ht : t.kind ≠ .eof) :
    Lays source file e p (fun u => u = t) number fun e' value =>
      Literal.ofNumber? t.value = some value ∧ Taken source file p e' t := by
  refine afterCurrent fun u hu => ?_
  subst hu
  cases hvalue : Literal.ofNumber? u.value with
  | none => exact fails fun _ => rfl
  | some value => exact bind (passed ht) fun _ e' p' _ hread => pure ⟨rfl, hread⟩

/-! ### Lists -/

variable {pieces : α → List Piece} {close : TokenKind} {item : Nat → Parse α}

/-- Items are laid out one behind the other. -/
theorem itemsUntil
    (hitem : ∀ e p index, Places source file e p Anywhere pieces (item index)) (fuel : Nat) :
    ∀ e p index, Places source file e p Anywhere (List.flatMap pieces)
      (itemsUntil close item fuel index) := by
  induction fuel with
  | zero => exact fun _ _ _ => fails fun _ => rfl
  | succ fuel ih =>
    intro e p index
    refine afterKind fun x => ite (fun _ => pure .nil) fun _ => ?_
    refine bind ((hitem e p index).mono (fun _ _ => trivial) fun _ _ _ h => h) fun a e₁ p₁ _ ha => ?_
    refine bind (ih e₁ p₁ (index + 1)) fun rest e₂ p₂ _ hrest => pure ?_
    exact ha.append hrest (by omega) (by omega) (by omega)

theorem manyUntil (hitem : ∀ e p index, Places source file e p Anywhere pieces (item index)) :
    Places source file e p K (List.flatMap pieces) (manyUntil close item) :=
  afterRemaining fun _ =>
    (itemsUntil hitem _ e p 0).mono (fun _ _ => trivial) fun _ _ _ h => h

theorem comma (close : TokenKind) : Lays source file e p K (comma close) fun _ _ => True := by
  refine afterKind fun x => ite (fun _ => pure trivial) fun _ => ?_
  exact (expected (by decide)).discarded.mono (fun _ h => h) fun _ _ _ _ => trivial

theorem commaUntil (hitem : ∀ e p index, Places source file e p Anywhere pieces (item index)) :
    Places source file e p K (List.flatMap pieces) (commaUntil close item) := by
  refine manyUntil fun e p index => bind (hitem e p index) fun a e₁ p₁ _ ha => ?_
  refine bind (comma close) fun _ e₂ p₂ _ _ => pure ?_
  exact ha.mono (Nat.le_refl _) (by omega)

end Lays

end ScriptCheck
