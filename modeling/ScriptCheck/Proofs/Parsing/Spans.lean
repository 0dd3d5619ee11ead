import ScriptCheck.Proofs.Parsing.Placing

/-!
Spans are faithful. Every reading step lays the pieces of its result out between the token it starts at and
the token it read last: a span goes from a token or from a piece that was read before to the end of the
last token, or from one piece to another, and holds what was read between. One lemma for each step says so,
from the same of the step that reads what is nested inside.
-/

namespace ScriptCheck

open Parse Lays

variable {source : List Char} {file : String} {e p lo mid hi lo' hi' : Nat} {K : Token → Prop}

/-! ### Tokens -/

namespace Lays.Taken

variable {t : Token} {x : Piece}

/-- A piece of one token. -/
theorem atom (ht : Taken source file lo hi t) (hspan : x.span = t.span) (hchildren : x.children = [])
    (hspelled : x.Spelled source) : Row source file lo hi [x] := by
  refine .enclosed (hspan ▸ ht.between) (hchildren ▸ Row.nil) (Nat.le_refl _) (Nat.le_refl _) hspelled

/-- A piece that starts with a token. -/
theorem opens (ht : Taken source file lo mid t) (hspan : x.span = ⟨t.span.start, ⟨hi, file⟩⟩)
    (h : Row source file lo' hi' x.children) (hlo : mid ≤ lo') (hhi : hi' ≤ hi) (hmid : mid ≤ hi)
    (hspelled : x.Spelled source) : Row source file lo hi [x] := by
  have := ht.between.ordered
  have := ht.between.before
  exact .spanned hspan ht.between.startFile ht.between.after (by omega) h (by omega) hhi hspelled

/-- A piece from a token to the end of the piece behind it. -/
theorem joins {r : Piece} (ht : Taken source file lo mid t) (hr : Row source file lo' hi [r])
    (hmid : mid ≤ lo') (hspan : x.span = t.span.join r.span) (hchildren : x.children = [r])
    (hspelled : x.Spelled source) : Row source file lo hi [x] := by
  have hrx := hr.between r List.mem_cons_self
  have := ht.between.ordered
  have := ht.between.before
  have := hrx.after
  have := hrx.ordered
  refine .enclosed ?_ (hchildren ▸ hr.self) ?_ ?_ hspelled
  · rw [hspan]
    exact ⟨ht.between.startFile, hrx.stopFile, ht.between.after, (by simp only [Span.join]; omega),
      hrx.before⟩
  · rw [hspan]
    show t.span.start.offset ≤ r.span.start.offset
    omega
  · rw [hspan]
    exact Nat.le_refl _

/-- The text of a token other than a quoted one is its value. -/
theorem holds (ht : Taken source file lo hi t) (hkind : t.kind ≠ .text) :
    Piece.Holds source t.span t.value.toList := by
  obtain ⟨text, rest, hslice, hwrites⟩ := ht.read.slice
  rw [Token.Writes, if_neg hkind] at hwrites
  rw [hwrites, String.toList_ofList]
  exact ⟨rest, hslice⟩

/-- A whole number is written in digits. -/
theorem holdsDigits (ht : Taken source file lo hi t) (hkind : t.kind = .number) {value : Int}
    (hvalue : Literal.ofNumber? t.value = some (.int value)) :
    Piece.HoldsDigits source t.span value := by
  obtain ⟨c, hhead, hc⟩ := ht.numeral hkind
  have hinteger : integer? t.value = some value := by
    unfold Literal.ofNumber? at hvalue
    split at hvalue
    · obtain ⟨_, -, heq⟩ := Option.map_eq_some_iff.1 hvalue
      cases heq
    · obtain ⟨_, hsome, heq⟩ := Option.map_eq_some_iff.1 hvalue
      cases heq
      exact hsome
  exact ⟨_, ht.holds (by rw [hkind]; decide), integer?_of_digit hhead hc hinteger⟩

end Lays.Taken

/-! ### Type references -/

namespace TypeRef

variable {self : Power → Parse TypeRef} {left right : TypeRef}

/-- A step that reads a reference lays it out. -/
abbrev Placing (source : List Char) (file : String) (e p : Nat) (K : Token → Prop)
    (m : Parse TypeRef) : Prop := Places source file e p K (fun r => [.type r]) m

theorem parseLiteral_places (hK : ∀ t, K t → t.kind ≠ .eof) :
    Placing source file e p K parseLiteral := by
  refine .afterCurrent fun t ht => ?_
  have heof := hK t ht
  split
  · rename_i hkind
    refine .bind (.number heof) fun value e₁ p₁ _ hvalue => .pure ?_
    refine hvalue.2.atom rfl rfl ?_
    cases value with
    | int v => exact hvalue.2.holdsDigits hkind hvalue.1
    | _ => trivial
  all_goals exact .bind (.passed heof) fun _ e₁ p₁ _ hread => .pure (hread.atom rfl rfl trivial)

theorem parseConst_lays : Lays source file e p K parseConst fun _ _ => True := by
  refine .afterKind fun x => .ite (fun _ => ?_) fun _ => .pure trivial
  exact .bind Lays.advance.discarded fun _ _ _ _ _ => .pure trivial

theorem skipSeparator_lays : Lays source file e p K skipSeparator fun _ _ => True := by
  refine .afterKind fun x => .ite (fun _ => ?_) fun _ => .pure trivial
  exact Lays.advance.discarded.mono (fun _ h => h) fun _ _ _ _ => trivial

theorem Compound.row_members (c : Compound) {r : TypeRef} (h : Row source file lo hi [.type r]) :
    Row source file r.span.start.offset r.span.stop.offset ((c.members r).map .type) := by
  unfold members
  split
  · exact h.children
  · exact h.children
  · exact h.self

theorem Compound.row_join (c : Compound) (hleft : Row source file lo mid [.type left])
    (hright : Row source file lo' hi [.type right]) (hmid : mid ≤ lo') :
    Row source file lo hi [.type (c.join left right)] := by
  have hmembers := c.row_members hleft
  cases c <;> exact hleft.joined hright hmid hmembers rfl (List.map_append ..) trivial

section

variable (hself : ∀ e p q, Placing source file e p Anywhere (self q))
include hself

theorem parseArgs_places : Places source file e p K (List.map .type) (parseArgs self) := by
  refine .afterKind fun x => .ite (fun hx => ?_) fun _ => .pure .nil
  refine .bind Lays.advance.discarded fun _ e₁ p₁ _ _ => ?_
  refine .bind (.commaUntil fun e p _ => hself e p .lowest) fun args e₂ p₂ _ hargs => ?_
  refine .bind (.discarded (.expected (by decide))) fun _ e₃ p₃ _ _ => .pure ?_
  rw [List.map_eq_flatMap]
  exact hargs.mono (by omega) (by omega)

theorem parseNamed_places (hK : ∀ t, K t → t.kind ≠ .eof) :
    Placing source file e p K (parseNamed self) := by
  refine .bind (.taken hK) fun t e₁ p₁ _ ht => ?_
  refine .bind (parseArgs_places hself) fun args e₂ p₂ _ hargs => .afterSpanFrom (.pure ?_)
  exact ht.2.opens rfl hargs (by omega) (Nat.le_refl _) (by omega) trivial

theorem parseIndex_places : Places source file e p K (fun i => [.type i.type]) (parseIndex self) := by
  refine .bind Lays.advance.discarded fun _ e₁ p₁ _ _ => .bind .advance fun key e₂ p₂ _ _ => ?_
  refine .bind (.discarded (.expected (by decide))) fun _ e₃ p₃ _ _ => ?_
  refine .bind (.discarded (.expected (by decide))) fun _ e₄ p₄ _ _ => ?_
  refine .bind (hself e₄ p₄ .lowest) fun type e₅ p₅ _ htype => .pure ?_
  exact htype.mono (by omega) (Nat.le_refl _)

theorem parseProperty_places :
    Places source file e p K (fun q => [.type q.type]) (parseProperty self) := by
  refine .bind parseConst_lays fun isConst e₁ p₁ _ _ => ?_
  refine .bind (.expectedOr (by decide) _) fun name e₂ p₂ _ _ => ?_
  refine .bind (.discarded (.expected (by decide))) fun _ e₃ p₃ _ _ => ?_
  refine .bind (hself e₃ p₃ .lowest) fun type e₄ p₄ _ htype => .pure ?_
  exact htype.mono (by omega) (Nat.le_refl _)

theorem parseEntry_places :
    Places source file e p K (fun entry => [entry.elim (.type ·.type) (.type ·.type)])
      (parseEntry self) := by
  refine .afterKind fun x => .ite (fun _ => ?_) fun _ => ?_
  · refine .bind (parseIndex_places hself) fun index e₁ p₁ _ hindex => ?_
    refine .bind skipSeparator_lays fun _ e₂ p₂ _ _ => .pure ?_
    exact hindex.mono (Nat.le_refl _) (by omega)
  · refine .bind (parseProperty_places hself) fun property e₁ p₁ _ hproperty => ?_
    refine .bind skipSeparator_lays fun _ e₂ p₂ _ _ => .pure ?_
    exact hproperty.mono (Nat.le_refl _) (by omega)

theorem parseInterface_places : Placing source file e p K (parseInterface self) := by
  refine .bind (.expected (by decide)) fun first e₁ p₁ _ hfirst => ?_
  refine .bind (.manyUntil fun e p _ => parseEntry_places hself) fun entries e₂ p₂ _ hentries => ?_
  refine .bind (.discarded (.expected (by decide))) fun _ e₃ p₃ _ _ => .afterSpanFrom (.pure ?_)
  rw [← List.map_eq_flatMap] at hentries
  have hperm := filterMap_sum_perm (fun q : PropertyRef TypeRef => Piece.type q.type)
    (fun i : IndexRef TypeRef => Piece.type i.type) entries
  exact hfirst.2.opens rfl (hentries.perm hperm.symm) (by omega) (by omega) (by omega) trivial

theorem parseFunction_places : Placing source file e p K (parseFunction self) := by
  have hparam : ∀ e p index, Places source file e p Anywhere (fun q => [.type q.type])
      (parseParam self index) := by
    intro e p index
    refine .bind (hself e p .lowest) fun type e₁ p₁ _ htype => .afterKind fun x => .ite ?_ ?_
    · intro _
      refine .bind .advance fun name e₂ p₂ _ _ => .pure ?_
      exact htype.mono (Nat.le_refl _) (by omega)
    · exact fun _ => .pure htype
  refine .bind (.expected (by decide)) fun first e₁ p₁ _ hfirst => ?_
  refine .bind (.commaUntil hparam) fun params e₂ p₂ _ hparams => ?_
  refine .bind (.discarded (.expected (by decide))) fun _ e₃ p₃ _ _ => ?_
  refine .bind (.discarded (.expectedOr (by decide) _)) fun _ e₄ p₄ _ _ => ?_
  refine .bind (hself e₄ p₄ .lowest) fun result e₅ p₅ _ hresult => .afterSpanFrom (.pure ?_)
  rw [← List.map_eq_flatMap] at hparams
  have hrow := hparams.append hresult (by omega) (by omega) (by omega)
  exact hfirst.2.opens rfl hrow (by omega) (Nat.le_refl _) (by omega) trivial

theorem parsePrimary_places : Placing source file e p K (parsePrimary self) := by
  refine .afterKind fun x => ?_
  cases x
  case identifier | kwNull | kwUndefined =>
    exact parseNamed_places hself fun t ht => by rw [ht.2]; decide
  case openCurly => exact parseInterface_places hself
  case openParen => exact parseFunction_places hself
  case number | text | kwTrue | kwFalse =>
    exact parseLiteral_places fun t ht => by rw [ht.2]; decide
  all_goals exact .fails (unexpected_run _)

/-- An operator takes the type before it into a type that starts there. -/
theorem parseOperator_lays (hleft : Row source file lo e [.type left]) (q : Power) :
    Lays source file e p K (parseOperator self left q) fun e' r => Row source file lo e' [.type r] := by
  refine .afterKind fun x => ?_
  split
  · refine .bind Lays.advance.discarded fun _ e₁ p₁ _ _ => ?_
    refine .bind (hself e₁ p₁ q) fun right e₂ p₂ _ hright => .pure ?_
    exact Compound.row_join _ hleft hright (by omega)
  · refine .bind Lays.advance.discarded fun _ e₁ p₁ _ _ => ?_
    refine .bind (hself e₁ p₁ q) fun right e₂ p₂ _ hright => .pure ?_
    exact Compound.row_join _ hleft hright (by omega)
  · refine .bind (.discarded (.expected (by decide))) fun _ e₁ p₁ _ _ => ?_
    refine .bind (.discarded (.expected (by decide))) fun _ e₂ p₂ _ _ => .afterSpanFrom (.pure ?_)
    have hnothing : Row source file e e [] := .nil
    exact hleft.extended hnothing (Nat.le_refl e) (by omega) (by omega) rfl rfl trivial

end

theorem parseOperators_lays (hself : ∀ e p q, Placing source file e p Anywhere (self q)) {q : Power} :
    ∀ (fuel : Nat) {e p : Nat} {left : TypeRef}, Row source file lo e [.type left] →
      Lays source file e p Anywhere (parseOperators self q fuel left) fun e' r =>
        Row source file lo e' [.type r]
  | 0, _, _, _, _ => .fails fun _ => rfl
  | fuel + 1, e, p, left, hleft => by
    have hmore : ∀ {K : Token → Prop} r, Lays source file e p K (do
        let joined ← parseOperator self left r
        parseOperators self q fuel joined) fun e' r => Row source file lo e' [.type r] := fun r =>
      Lays.bind (parseOperator_lays hself hleft r) fun joined e₁ p₁ _ hjoined =>
        parseOperators_lays hself fuel hjoined
    refine .afterKind fun x => ?_
    split
    · exact .pure hleft
    · refine .ite (fun _ => .pure hleft) fun _ => ?_
      by_cases hbracket : x = .openBracket
      · simp only [hbracket, decide_true, Bool.true_and]
        exact .afterLookahead fun k' => .ite (fun _ => .pure hleft) fun _ => hmore _
      · simp only [hbracket, decide_false, Bool.false_and]
        exact hmore _

theorem parseWithin_places : ∀ (fuel e p : Nat) (q : Power),
    Placing source file e p Anywhere (parseWithin fuel q)
  | 0, _, _, _ => .fails fun _ => rfl
  | fuel + 1, e, p, q => by
    have hself := parseWithin_places fuel
    refine .bind (parsePrimary_places hself) fun left e₁ p₁ _ hleft => ?_
    exact .afterRemaining fun _ => parseOperators_lays hself _ hleft

/-- A type reference that is read is laid out where it is read. -/
theorem parse_places (q : Power) : Placing source file e p K (parse q) :=
  .afterRemaining fun _ => (parseWithin_places _ e p q).mono (fun _ _ => trivial) fun _ _ _ h => h

end TypeRef

/-! ### Expressions -/

namespace Expr

variable {self : Power → Parse Expr} {left : Expr}

/-- A step that reads an expression lays it out. -/
abbrev Placing (source : List Char) (file : String) (e p : Nat) (K : Token → Prop)
    (m : Parse Expr) : Prop := Places source file e p K (fun x => [.expr x]) m

theorem parseAtom_places (hK : ∀ t, K t → t.kind ≠ .eof) : Placing source file e p K parseAtom := by
  refine .afterFreshId fun id => .afterCurrent fun t ht => ?_
  have heof := hK t ht
  dsimp only
  split
  · rename_i hkind
    refine .bind (.number heof) fun value e₁ p₁ _ hvalue => .pure ?_
    refine hvalue.2.atom rfl rfl ?_
    cases value with
    | int v => exact hvalue.2.holdsDigits hkind hvalue.1
    | _ => trivial
  case h_7 hkind | h_8 hkind =>
    refine .bind (.passed heof) fun _ e₁ p₁ _ hread => .pure ?_
    exact hread.atom rfl rfl (hread.holds (by rw [hkind]; decide))
  case h_9 => exact .fails fun _ => rfl
  all_goals exact .bind (.passed heof) fun _ e₁ p₁ _ hread => .pure (hread.atom rfl rfl trivial)

theorem parseMember_lays (hleft : Row source file lo e [.expr left]) :
    Lays source file e p K (parseMember left) fun e' x => Row source file lo e' [.expr x] := by
  refine .bind Lays.advance.discarded fun _ e₁ p₁ _ _ => ?_
  refine .bind (.expectedOr (by decide) _) fun name e₂ p₂ _ _ => ?_
  refine .afterSpanFrom (.afterFreshId fun id => .pure ?_)
  have hnothing : Row source file e e [] := .nil
  exact hleft.extended hnothing (Nat.le_refl e) (by omega) (by omega) rfl rfl trivial

section

variable (hself : ∀ e p q, Placing source file e p Anywhere (self q))
include hself

theorem parseUnary_places (hK : ∀ t, K t → t.kind ≠ .eof) :
    Placing source file e p K (parseUnary self) := by
  refine .bind (.taken hK) fun operator e₁ p₁ _ hoperator => ?_
  refine .bind (hself e₁ p₁ .unary) fun operand e₂ p₂ _ hoperand => .afterFreshId fun id => .pure ?_
  exact hoperator.2.joins hoperand (by omega) rfl rfl trivial

/-- Parentheses leave no trace, but the expression between them lies there. -/
theorem parseGroup_places : Placing source file e p K (parseGroup self) := by
  refine .bind Lays.advance.discarded fun _ e₁ p₁ _ _ => ?_
  refine .bind (hself e₁ p₁ .lowest) fun x e₂ p₂ _ hx => ?_
  refine .bind (.discarded (.expected (by decide))) fun _ e₃ p₃ _ _ => .pure ?_
  exact hx.mono (by omega) (by omega)

theorem parseArgs_places : Places source file e p K (List.map .expr) (parseArgs self) := by
  refine .bind (.discarded (.expected (by decide))) fun _ e₁ p₁ _ _ => ?_
  refine .bind (.commaUntil fun e p _ => hself e p .comma) fun args e₂ p₂ _ hargs => ?_
  refine .bind (.discarded (.expected (by decide))) fun _ e₃ p₃ _ _ => .pure ?_
  rw [List.map_eq_flatMap]
  exact hargs.mono (by omega) (by omega)

theorem parseArray_places (hK : ∀ t, K t → t.kind ≠ .eof) :
    Placing source file e p K (parseArray self) := by
  refine .bind (.taken hK) fun first e₁ p₁ _ hfirst => ?_
  refine .bind (.commaUntil fun e p _ => hself e p .comma) fun elements e₂ p₂ _ helements => ?_
  refine .bind (.discarded (.expected (by decide))) fun _ e₃ p₃ _ _ => ?_
  refine .afterSpanFrom (.afterFreshId fun id => .pure ?_)
  rw [← List.map_eq_flatMap] at helements
  exact hfirst.2.opens rfl helements (by omega) (by omega) (by omega) trivial

theorem parseKey_places : Places source file e p K Key.pieces (parseKey self) := by
  refine .afterKind fun x => ?_
  split
  · exact .bind .advance fun t e₁ p₁ _ _ => .pure .nil
  · exact .bind .advance fun t e₁ p₁ _ _ => .pure .nil
  · refine .bind Lays.advance.discarded fun _ e₁ p₁ _ _ => ?_
    refine .bind (hself e₁ p₁ .lowest) fun key e₂ p₂ _ hkey => ?_
    refine .bind (.discarded (.expected (by decide))) fun _ e₃ p₃ _ _ => .pure ?_
    exact hkey.mono (by omega) (by omega)
  · exact .fails (unexpected_run _)

theorem parseEntry_places : Places source file e p K Entry.pieces (parseEntry self) := by
  refine .bind (parseKey_places hself) fun key e₁ p₁ _ hkey => ?_
  refine .bind (.discarded (.expected (by decide))) fun _ e₂ p₂ _ _ => ?_
  refine .bind (hself e₂ p₂ .comma) fun value e₃ p₃ _ hvalue => .pure ?_
  exact hkey.append hvalue (by omega) (by omega) (by omega)

theorem parseObject_places (hK : ∀ t, K t → t.kind ≠ .eof) :
    Placing source file e p K (parseObject self) := by
  refine .bind (.taken hK) fun first e₁ p₁ _ hfirst => ?_
  refine .bind (.commaUntil fun e p _ => parseEntry_places hself) fun entries e₂ p₂ _ hentries => ?_
  refine .bind (.discarded (.expected (by decide))) fun _ e₃ p₃ _ _ => ?_
  refine .afterSpanFrom (.afterFreshId fun id => .pure ?_)
  exact hfirst.2.opens rfl hentries (by omega) (by omega) (by omega) trivial

theorem parseConstruct_places (hK : ∀ t, K t → t.kind ≠ .eof) :
    Placing source file e p K (parseConstruct self) := by
  refine .bind (.taken hK) fun first e₁ p₁ _ hfirst => ?_
  refine .bind (.expectedOr (by decide) _) fun name e₂ p₂ _ hname => .afterFreshId fun classId => ?_
  refine .bind (parseArgs_places hself) fun args e₃ p₃ _ hargs => ?_
  refine .afterSpanFrom (.afterFreshId fun id => .pure ?_)
  have hclass : Row source file p₁ e₂ [.expr (.symbol ⟨classId, name.span⟩ name.value)] :=
    hname.2.atom rfl rfl (hname.2.holds (by rw [hname.1]; decide))
  have hrow := hclass.append hargs (by omega) (by omega) (by omega)
  exact hfirst.2.opens rfl hrow (by omega) (Nat.le_refl _) (by omega) trivial

theorem parsePrimary_places : Placing source file e p K (parsePrimary self) := by
  refine .afterKind fun x => ?_
  cases x
  case number | identifier | text | kwTrue | kwFalse | kwNull | kwUndefined | kwThis =>
    exact parseAtom_places fun t ht => by rw [ht.2]; decide
  case dash | bang | plusPlus | minusMinus =>
    exact parseUnary_places hself fun t ht => by rw [ht.2]; decide
  case openParen => exact parseGroup_places hself
  case openBracket => exact parseArray_places hself fun t ht => by rw [ht.2]; decide
  case openCurly => exact parseObject_places hself fun t ht => by rw [ht.2]; decide
  case kwNew => exact parseConstruct_places hself fun t ht => by rw [ht.2]; decide
  all_goals exact .fails fun _ => rfl

variable (hleft : Row source file lo e [.expr left])
include hleft

theorem parseBinary_lays (q : Power) :
    Lays source file e p K (parseBinary self left q) fun e' x => Row source file lo e' [.expr x] := by
  refine .bind .advance fun operator e₁ p₁ _ _ => ?_
  refine .bind (hself e₁ p₁ q) fun right e₂ p₂ _ hright => .afterFreshId fun id => .pure ?_
  exact hleft.joined hright (by omega) hleft.self rfl rfl trivial

theorem parseAssign_lays :
    Lays source file e p K (parseAssign self left) fun e' x => Row source file lo e' [.expr x] := by
  refine .bind .advance fun operator e₁ p₁ _ _ => ?_
  refine .bind (hself e₁ p₁ .comma) fun value e₂ p₂ _ hvalue => .afterFreshId fun id => .pure ?_
  exact hleft.joined hvalue (by omega) hleft.self rfl rfl trivial

theorem parseCall_lays :
    Lays source file e p K (parseCall self left) fun e' x => Row source file lo e' [.expr x] := by
  refine .standing fun hle => .bind (parseArgs_places hself) fun args e₁ p₁ _ hargs => ?_
  refine .afterSpanFrom (.afterFreshId fun id => .pure ?_)
  exact hleft.extended hargs hle (Nat.le_refl _) (by omega) rfl rfl trivial

theorem parseIndex_lays :
    Lays source file e p K (parseIndex self left) fun e' x => Row source file lo e' [.expr x] := by
  refine .bind Lays.advance.discarded fun _ e₁ p₁ _ _ => ?_
  refine .bind (hself e₁ p₁ .lowest) fun key e₂ p₂ _ hkey => ?_
  refine .bind (.discarded (.expected (by decide))) fun _ e₃ p₃ _ _ => ?_
  refine .afterSpanFrom (.afterFreshId fun id => .pure ?_)
  exact hleft.extended hkey (by omega) (by omega) (by omega) rfl rfl trivial

/-- An operator takes the expression before it into an expression that starts there. -/
theorem parseOperator_lays (q : Power) :
    Lays source file e p K (parseOperator self left q) fun e' x => Row source file lo e' [.expr x] := by
  unfold parseOperator
  split
  · exact parseAssign_lays hself hleft
  · exact parseCall_lays hself hleft
  · exact .afterKind fun x => .ite (fun _ => parseMember_lays hleft) fun _ => parseIndex_lays hself hleft
  · exact parseBinary_lays hself hleft q

end

theorem parseOperators_lays (hself : ∀ e p q, Placing source file e p Anywhere (self q)) {q : Power} :
    ∀ (fuel : Nat) {e p : Nat} {left : Expr}, Row source file lo e [.expr left] →
      Lays source file e p Anywhere (parseOperators self q fuel left) fun e' x =>
        Row source file lo e' [.expr x]
  | 0, _, _, _, _ => .fails fun _ => rfl
  | fuel + 1, e, p, left, hleft => by
    refine .afterKind fun x => ?_
    split
    · exact .pure hleft
    · refine .ite (fun _ => .pure hleft) fun _ => ?_
      refine .bind (parseOperator_lays hself hleft _) fun joined e₁ p₁ _ hjoined => ?_
      exact parseOperators_lays hself fuel hjoined

theorem parseWithin_places : ∀ (fuel e p : Nat) (q : Power),
    Placing source file e p Anywhere (parseWithin fuel q)
  | 0, _, _, _ => .fails fun _ => rfl
  | fuel + 1, e, p, q => by
    have hself := parseWithin_places fuel
    refine .bind (parsePrimary_places hself) fun left e₁ p₁ _ hleft => ?_
    exact .afterRemaining fun _ => parseOperators_lays hself _ hleft

/-- An expression that is read is laid out where it is read. -/
theorem parse_places (q : Power) : Placing source file e p K (parse q) :=
  .afterRemaining fun _ => (parseWithin_places _ e p q).mono (fun _ _ => trivial) fun _ _ _ h => h

end Expr

/-! ### Statements -/

namespace Stmt

variable {self : Parse Stmt}

/-- A step that reads a statement lays it out. -/
abbrev Placing (source : List Char) (file : String) (e p : Nat) (K : Token → Prop)
    (m : Parse Stmt) : Prop := Places source file e p K (fun s => [.stmt s]) m

theorem parseInitializer_places :
    Places source file e p K (fun value => value.toList.map .expr) parseInitializer := by
  refine .afterKind fun x => .ite (fun _ => ?_) fun _ => .pure .nil
  refine .bind Lays.advance.discarded fun _ e₁ p₁ _ _ => ?_
  refine .bind (Expr.parse_places .lowest) fun value e₂ p₂ _ hvalue => .pure ?_
  exact hvalue.mono (by omega) (Nat.le_refl _)

theorem requireValue_lays (isConst : Bool) (type : Option TypeRef) (value : Option Expr) :
    Lays source file e p K (requireValue isConst type value) fun _ _ => True := by
  refine .ite (fun _ => .fails (unexpected_run _)) fun _ => ?_
  exact .ite (fun _ => .fails (unexpected_run _)) fun _ => .pure trivial

/-- A variable starts at its type, or before it. -/
theorem parseVariable_lays {start : Position} (hfile : start.file = file) (hlo : lo ≤ start.offset)
    (hle : start.offset ≤ e) (isConst : Bool) {type : Option TypeRef}
    (htype : Row source file start.offset e (type.toList.map .type)) :
    Lays source file e p K (parseVariable start isConst type) fun e' s =>
      Row source file lo e' [.stmt s] := by
  refine .bind (.expectedOr (by decide) _) fun name e₁ p₁ _ _ => ?_
  refine .bind parseInitializer_places fun value e₂ p₂ _ hvalue => ?_
  refine .bind (requireValue_lays isConst type value) fun _ e₃ p₃ _ _ => ?_
  refine .bind (.discarded (.expected (by decide))) fun _ e₄ p₄ _ _ => .afterSpanFrom (.pure ?_)
  have hrow := htype.append hvalue (by omega) (by omega) (by omega)
  exact .spanned rfl hfile hlo (by omega) hrow (Nat.le_refl _) (by omega) trivial

theorem parseVarDecl_places (hK : ∀ t, K t → t.kind ≠ .eof) :
    Placing source file e p K parseVarDecl := by
  refine .bind (.taken hK) fun first e₁ p₁ _ hfirst => ?_
  have hspan := hfirst.2.between
  have := hspan.ordered
  have := hspan.before
  refine .afterKind fun k => .afterLookahead fun k' => .ite (fun _ => ?_) fun _ => ?_
  · exact parseVariable_lays hspan.startFile hspan.after (by omega) _ .nil
  · refine .bind (TypeRef.parse_places .lowest) fun type e₂ p₂ _ htype => ?_
    exact parseVariable_lays hspan.startFile hspan.after (by omega) _
      (htype.mono (by omega) (Nat.le_refl _))

theorem parseParam_places : Places source file e p K (fun q => [.param q]) parseParam := by
  refine .afterPosition (.bind (TypeRef.parse_places .lowest) fun type e₁ p₁ _ htype => ?_)
  refine .bind (.expectedOr (by decide) _) fun name e₂ p₂ _ _ => .afterSpanFrom (.pure ?_)
  have hle := htype.le
  exact .spanned rfl rfl (Nat.le_refl p) (by simp only; omega) htype (Nat.le_refl _) (by omega) trivial

theorem parseResult_places :
    Places source file e p K (fun result => result.toList.map .type) parseResult := by
  refine .afterKind fun x => .ite (fun _ => ?_) fun _ => .pure .nil
  refine .bind Lays.advance.discarded fun _ e₁ p₁ _ _ => ?_
  refine .bind (TypeRef.parse_places .lowest) fun result e₂ p₂ _ hresult => .pure ?_
  exact hresult.mono (by omega) (Nat.le_refl _)

theorem parseReturn_places (hK : ∀ t, K t → t.kind ≠ .eof) :
    Placing source file e p K parseReturn := by
  refine .bind (.taken hK) fun first e₁ p₁ _ hfirst => .afterKind fun x => .ite (fun _ => ?_) fun _ => ?_
  · refine .bind (.discarded (.expected (by decide))) fun _ e₂ p₂ _ _ => .afterSpanFrom (.pure ?_)
    have hnothing : Row source file e₁ e₁ [] := .nil
    exact hfirst.2.opens rfl hnothing (Nat.le_refl _) (by omega) (by omega) trivial
  · refine .bind (Expr.parse_places .lowest) fun value e₂ p₂ _ hvalue => ?_
    refine .bind (.discarded (.expected (by decide))) fun _ e₃ p₃ _ _ => .afterSpanFrom (.pure ?_)
    exact hfirst.2.opens rfl hvalue (by omega) (by omega) (by omega) trivial

theorem parseJump_places (hK : ∀ t, K t → t.kind ≠ .eof) : Placing source file e p K parseJump := by
  refine .bind (.taken hK) fun first e₁ p₁ _ hfirst => ?_
  refine .bind (.discarded (.expected (by decide))) fun _ e₂ p₂ _ _ => .afterSpanFrom (.pure ?_)
  have hnothing : Row source file e₁ e₁ [] := .nil
  exact hfirst.2.opens rfl hnothing (Nat.le_refl _) (by omega) (by omega) trivial

theorem parseBlockOf_places (hself : ∀ e p, Placing source file e p Anywhere self) :
    Places source file e p K (fun block => [block.piece]) (parseBlockOf self) := by
  refine .bind (.expected (by decide)) fun first e₁ p₁ _ hfirst => ?_
  refine .bind (.manyUntil fun e p _ => hself e p) fun body e₂ p₂ _ hbody => ?_
  refine .bind (.discarded (.expected (by decide))) fun _ e₃ p₃ _ _ => .afterSpanFrom (.pure ?_)
  rw [← List.map_eq_flatMap] at hbody
  exact hfirst.2.opens rfl hbody (by omega) (by omega) (by omega) trivial

section

variable (hself : ∀ e p, Placing source file e p Anywhere self)
include hself

theorem parseIf_places (hK : ∀ t, K t → t.kind ≠ .eof) : Placing source file e p K (parseIf self) := by
  refine .bind (.taken hK) fun first e₁ p₁ _ hfirst => ?_
  refine .bind (Expr.parse_places .lowest) fun condition e₂ p₂ _ hcondition => ?_
  refine .bind (hself e₂ p₂) fun onTrue e₃ p₃ _ htrue => .afterKind fun x => ?_
  have hrow := hcondition.append htrue (by omega) (by omega) (by omega)
  refine .ite (fun _ => ?_) fun _ => .afterSpanFrom (.pure ?_)
  · refine .bind Lays.advance.discarded fun _ e₄ p₄ _ _ => ?_
    refine .bind (hself e₄ p₄) fun onFalse e₅ p₅ _ hfalse => .afterSpanFrom (.pure ?_)
    have hwhole := hrow.append hfalse (by omega) (by omega) (by omega)
    exact hfirst.2.opens rfl hwhole (by omega) (Nat.le_refl _) (by omega) trivial
  · exact hfirst.2.opens rfl hrow (by omega) (Nat.le_refl _) (by omega) trivial

theorem parseWhile_places (hK : ∀ t, K t → t.kind ≠ .eof) :
    Placing source file e p K (parseWhile self) := by
  refine .bind (.taken hK) fun first e₁ p₁ _ hfirst => ?_
  refine .bind (Expr.parse_places .lowest) fun condition e₂ p₂ _ hcondition => ?_
  refine .bind (hself e₂ p₂) fun body e₃ p₃ _ hbody => .afterSpanFrom (.pure ?_)
  have hrow := hcondition.append hbody (by omega) (by omega) (by omega)
  exact hfirst.2.opens rfl hrow (by omega) (Nat.le_refl _) (by omega) trivial

theorem parseFor_places (hK : ∀ t, K t → t.kind ≠ .eof) :
    Placing source file e p K (parseFor self) := by
  refine .bind (.taken hK) fun first e₁ p₁ _ hfirst => ?_
  refine .bind (.expectedOr (by decide) _) fun name e₂ p₂ _ _ => ?_
  refine .bind (.discarded (.expected (by decide))) fun _ e₃ p₃ _ _ => ?_
  refine .bind (Expr.parse_places .lowest) fun iterable e₄ p₄ _ hiterable => ?_
  refine .bind (parseBlockOf_places hself) fun body e₅ p₅ _ hbody => .afterSpanFrom (.pure ?_)
  have hrow := hiterable.append hbody (by omega) (by omega) (by omega)
  exact hfirst.2.opens rfl hrow (by omega) (Nat.le_refl _) (by omega) trivial

theorem parseFn_places :
    Places source file e p K (fun f => [.stmt (.fnDecl f)]) (parseFn self) := by
  refine .bind (.expected (by decide)) fun first e₁ p₁ _ hfirst => ?_
  refine .bind (.expectedOr (by decide) _) fun name e₂ p₂ _ _ => ?_
  refine .bind (.discarded (.expected (by decide))) fun _ e₃ p₃ _ _ => ?_
  refine .bind (.commaUntil fun e p _ => parseParam_places) fun params e₄ p₄ _ hparams => ?_
  refine .bind (.discarded (.expected (by decide))) fun _ e₅ p₅ _ _ => ?_
  refine .bind parseResult_places fun result e₆ p₆ _ hresult => ?_
  refine .bind (parseBlockOf_places hself) fun body e₇ p₇ _ hbody => .afterSpanFrom (.pure ?_)
  rw [← List.map_eq_flatMap] at hparams
  have hrest := hresult.append hbody (by omega) (by omega) (by omega)
  have hrow := hparams.append hrest (by omega) (by omega) (by omega)
  exact hfirst.2.opens rfl hrow (by omega) (Nat.le_refl _) (by omega) trivial

end

theorem parseNames_lays : ∀ (fuel : Nat) {e p : Nat} {K : Token → Prop},
    Lays source file e p K (parseNames fuel) fun _ _ => True
  | 0, _, _, _ => .fails fun _ => rfl
  | fuel + 1, e, p, K => by
    refine .bind (.expected (by decide)) fun t e₁ p₁ _ _ => .afterKind fun x => .ite ?_ ?_
    · intro _
      refine .bind Lays.advance.discarded fun _ e₂ p₂ _ _ => ?_
      exact .bind (parseNames_lays fuel) fun rest e₃ p₃ _ _ => .pure trivial
    · exact fun _ => .pure trivial

theorem parseSuperclass_lays : Lays source file e p K parseSuperclass fun _ _ => True := by
  refine .afterKind fun x => .ite (fun _ => ?_) fun _ => .pure trivial
  refine .bind Lays.advance.discarded fun _ e₁ p₁ _ _ => ?_
  exact .bind (.expected (by decide)) fun t e₂ p₂ _ _ => .pure trivial

theorem parseMixins_lays : Lays source file e p K parseMixins fun _ _ => True := by
  refine .afterKind fun x => .ite (fun _ => ?_) fun _ => .pure trivial
  refine .bind Lays.advance.discarded fun _ e₁ p₁ _ _ => ?_
  exact .afterRemaining fun _ => parseNames_lays _

theorem parseModifiers_lays : ∀ (fuel : Nat) (m : Modifiers) {e p : Nat} {K : Token → Prop},
    Lays source file e p K (parseModifiers fuel m) fun _ _ => True
  | 0, _, _, _, _ => .fails fun _ => rfl
  | fuel + 1, m, e, p, K => by
    refine .afterKind fun x => ?_
    split
    · exact .bind Lays.advance.discarded fun _ e₁ p₁ _ _ => parseModifiers_lays fuel _
    · exact .pure trivial

/-- The piece of a member of a class. -/
def memberPiece : FieldDecl ⊕ MethodDecl Stmt → Piece :=
  Sum.elim .field (.stmt <| .fnDecl ·.function)

theorem parseMember_places (hself : ∀ e p, Placing source file e p Anywhere self) :
    Places source file e p K (fun m => [memberPiece m]) (parseMember self) := by
  refine .afterPosition (.afterRemaining fun _ => ?_)
  refine .bind (parseModifiers_lays _ _) fun modifiers e₁ p₁ _ _ => .afterKind fun x => .ite ?_ ?_
  · intro _
    refine .bind (parseFn_places hself) fun function e₂ p₂ _ hfunction => .pure ?_
    exact hfunction.mono (by omega) (Nat.le_refl _)
  · intro _
    refine .bind (TypeRef.parse_places .lowest) fun type e₂ p₂ _ htype => ?_
    refine .bind (.expectedOr (by decide) _) fun name e₃ p₃ _ _ => ?_
    refine .bind parseInitializer_places fun value e₄ p₄ _ hvalue => ?_
    refine .bind (.discarded (.expected (by decide))) fun _ e₅ p₅ _ _ => .afterSpanFrom (.pure ?_)
    have hle := htype.le
    have hrow := htype.append hvalue (by omega) (by omega) (by omega)
    exact .spanned rfl rfl (Nat.le_refl p) (by simp only; omega) hrow (by simp only; omega) (by omega)
      trivial

theorem parseClass_places (hself : ∀ e p, Placing source file e p Anywhere self)
    (hK : ∀ t, K t → t.kind ≠ .eof) : Placing source file e p K (parseClass self) := by
  refine .bind (.taken hK) fun first e₁ p₁ _ hfirst => ?_
  refine .bind (.expectedOr (by decide) _) fun name e₂ p₂ _ _ => .afterRegister ?_
  refine .bind parseSuperclass_lays fun superclass e₃ p₃ _ _ => ?_
  refine .bind parseMixins_lays fun mixins e₄ p₄ _ _ => ?_
  refine .bind (.discarded (.expected (by decide))) fun _ e₅ p₅ _ _ => ?_
  refine .bind (.manyUntil fun e p _ => parseMember_places hself) fun members e₆ p₆ _ hmembers => ?_
  refine .bind (.discarded (.expected (by decide))) fun _ e₇ p₇ _ _ => .afterSpanFrom (.pure ?_)
  rw [← List.map_eq_flatMap] at hmembers
  have hperm := filterMap_sum_perm Piece.field
    (fun m : MethodDecl Stmt => Piece.stmt (.fnDecl m.function)) members
  exact hfirst.2.opens rfl (hmembers.perm hperm.symm) (by omega) (by omega) (by omega) trivial

theorem parseInterface_places (hK : ∀ t, K t → t.kind ≠ .eof) :
    Placing source file e p K parseInterface := by
  refine .bind (.taken hK) fun first e₁ p₁ _ hfirst => ?_
  refine .bind (.expectedOr (by decide) _) fun name e₂ p₂ _ _ => .afterRegister ?_
  refine .bind (TypeRef.parseInterface_places fun e p q => TypeRef.parse_places q)
    fun type e₃ p₃ _ htype => .afterSpanFrom (.pure ?_)
  exact hfirst.2.opens rfl htype (by omega) (Nat.le_refl _) (by omega) trivial

theorem parseTypeDecl_places (hK : ∀ t, K t → t.kind ≠ .eof) :
    Placing source file e p K parseTypeDecl := by
  refine .bind (.taken hK) fun first e₁ p₁ _ hfirst => ?_
  refine .bind (.expectedOr (by decide) _) fun name e₂ p₂ _ _ => .afterRegister ?_
  refine .bind (.discarded (.expected (by decide))) fun _ e₃ p₃ _ _ => ?_
  refine .bind (TypeRef.parse_places .lowest) fun type e₄ p₄ _ htype => ?_
  refine .bind (.discarded (.expected (by decide))) fun _ e₅ p₅ _ _ => .afterSpanFrom (.pure ?_)
  exact hfirst.2.opens rfl htype (by omega) (by omega) (by omega) trivial

theorem parseTyped_places : Placing source file e p K parseTyped := by
  refine .afterPosition (.bind (TypeRef.parse_places .lowest) fun type e₁ p₁ _ htype => ?_)
  refine parseVariable_lays ?_ ?_ ?_ _ ?_
  · rfl
  · exact Nat.le_refl p
  · exact htype.le
  · exact htype

theorem parseExpr_places : Placing source file e p K parseExpr := by
  refine .bind (Expr.parse_places .lowest) fun x e₁ p₁ _ hx => ?_
  refine .bind (.discarded (.expected (by decide))) fun _ e₂ p₂ _ _ => .afterSpanFrom (.pure ?_)
  have hnothing : Row source file e₁ e₁ [] := .nil
  exact hx.extended hnothing (Nat.le_refl _) (by omega) (by omega) rfl rfl trivial

theorem parsePlain_places : Placing source file e p K parsePlain := by
  intro s t a hs hK hrun
  rw [parsePlain_run] at hrun
  split at hrun
  · exact parseTyped_places hs hK hrun
  · exact parseExpr_places hs hK hrun

theorem parseStep_places (hself : ∀ e p, Placing source file e p Anywhere self) :
    Placing source file e p K (parseStep self) := by
  refine .afterKind fun x => ?_
  cases x
  case kwConst | kwLet => exact parseVarDecl_places fun t ht => by rw [ht.2]; decide
  case kwIf => exact parseIf_places hself fun t ht => by rw [ht.2]; decide
  case kwWhile => exact parseWhile_places hself fun t ht => by rw [ht.2]; decide
  case kwFor => exact parseFor_places hself fun t ht => by rw [ht.2]; decide
  case openCurly =>
    exact .bind (parseBlockOf_places hself) fun block e₁ p₁ _ hblock => .pure hblock
  case kwFn => exact .bind (parseFn_places hself) fun function e₁ p₁ _ hfunction => .pure hfunction
  case kwReturn => exact parseReturn_places fun t ht => by rw [ht.2]; decide
  case kwBreak | kwContinue => exact parseJump_places fun t ht => by rw [ht.2]; decide
  case kwClass => exact parseClass_places hself fun t ht => by rw [ht.2]; decide
  case kwInterface => exact parseInterface_places fun t ht => by rw [ht.2]; decide
  case kwType => exact parseTypeDecl_places fun t ht => by rw [ht.2]; decide
  all_goals exact parsePlain_places

theorem parseWithin_places : ∀ fuel e p, Placing source file e p Anywhere (parseWithin fuel)
  | 0, _, _ => .fails fun _ => rfl
  | fuel + 1, _, _ => parseStep_places (parseWithin_places fuel)

/-- A statement that is read is laid out where it is read. -/
theorem parse_places : Placing source file e p Anywhere parse :=
  .afterRemaining fun _ => parseWithin_places _ e p

end Stmt

/-- A program that is read from its start is laid out up to the end of its last token. -/
theorem Block.parseFrom_places :
    Lays source file e p K (parseFrom ⟨0, file⟩) fun e' block => Row source file 0 e' [block.piece] := by
  refine .bind (.manyUntil fun e p _ => Stmt.parse_places) fun body e₁ p₁ _ hbody => ?_
  refine .afterSpanFrom (.pure ?_)
  rw [← List.map_eq_flatMap] at hbody
  exact .spanned rfl rfl (Nat.le_refl 0) (Nat.zero_le _) hbody (Nat.zero_le _) (Nat.le_refl _) trivial

end ScriptCheck
