import ScriptCheck.Proofs.Parsing.Progress

/-!
What is read is anchored in tokens: every type, expression and statement that is read takes at least
one token, and all of its parts start at tokens. One lemma for each reading step says so, from the
same of the step that reads what is nested inside.
-/

namespace ScriptCheck

open Parse

/-! ### Type references -/

namespace TypeRef

variable {P : Position → Prop} {K : TokenKind → Prop} {n : Nat} {self : Power → Parse TypeRef}

theorem parseArgs_getsOn (hself : ∀ p, Reads P (fun _ => True) n 1 (Anchored P) (self p)) :
    Reads P K n 0 (fun ts => ∀ t ∈ ts, Anchored P t) (parseArgs self) := by
  refine .afterKind fun x _ => .ite (fun _ => ?_) fun _ => .pure nofun
  refine Reads.advance.discarded.andThen fun _ _ => ?_
  refine (Reads.commaUntil fun _ => hself .lowest).andThen fun args hargs => ?_
  exact (Reads.expected (by decide)).discarded.andThen fun _ _ => .pure hargs

theorem parseNamed_opens (hself : ∀ p, Reads P (fun _ => True) n 1 (Anchored P) (self p)) :
    Opens P K n (Anchored P) (parseNamed self) := by
  refine Opens.advance.andThen fun t ht => ?_
  refine (parseArgs_getsOn hself).andThen fun args hargs => ?_
  refine (Reads.spanFrom _).andThen fun span hspan => .pure ⟨?_, allAnchored_iff.2 hargs⟩
  rw [hspan]
  exact ht

theorem parseLiteral_opens : Opens P K n (Anchored P) parseLiteral := by
  refine .afterCurrent fun t hstart => ?_
  split
  · exact Opens.number.andThen fun _ _ => .pure hstart
  · exact Opens.advance.discarded.andThen fun _ _ => .pure hstart
  · exact Opens.advance.discarded.andThen fun _ _ => .pure hstart
  · exact Opens.advance.discarded.andThen fun _ _ => .pure hstart

theorem parseIndex_opens (hself : ∀ p, Reads P (fun _ => True) n 1 (Anchored P) (self p)) :
    Opens P K n (fun i => P i.keySpan.start ∧ i.type.Anchored P) (parseIndex self) := by
  refine Opens.advance.discarded.andThen fun _ _ => ?_
  refine Reads.advance.andThen fun key hkey => ?_
  refine (Reads.expected (by decide)).discarded.andThen fun _ _ => ?_
  refine (Reads.expected (by decide)).discarded.andThen fun _ _ => ?_
  exact (hself .lowest).andThen fun type htype => .pure ⟨hkey, htype⟩

theorem parseConst_getsOn : Reads P K n 0 (fun _ => True) parseConst :=
  .afterKind fun _ _ => .ite (fun _ => Reads.advance.discarded.andThen fun _ _ => .pure trivial) fun _ =>
    .pure trivial

theorem parseProperty_getsOn (hself : ∀ p, Reads P (fun _ => True) n 1 (Anchored P) (self p)) :
    Reads P K (n + 1) 1 (fun p => p.type.Anchored P) (parseProperty self) := by
  refine parseConst_getsOn.andThen fun isConst _ => ?_
  refine (Reads.expectedOr (by decide) _).past fun name _ => ?_
  refine (Reads.expected (by decide)).discarded.andThen fun _ _ => ?_
  exact (hself .lowest).andThen fun type htype => .pure htype

theorem skipSeparator_getsOn : Reads P K n 0 (fun _ => True) skipSeparator :=
  .afterKind fun _ _ => .ite (fun _ => Reads.advance.discarded) fun _ => .pure trivial

/-- What an entry of an interface has to keep. -/
def EntryAnchored (P : Position → Prop) : PropertyRef TypeRef ⊕ IndexRef TypeRef → Prop
  | .inl p => p.type.Anchored P
  | .inr i => P i.keySpan.start ∧ i.type.Anchored P

theorem parseEntry_getsOn (hself : ∀ p, Reads P (fun _ => True) n 1 (Anchored P) (self p)) :
    Reads P K (n + 1) 1 (EntryAnchored P) (parseEntry self) := by
  refine .afterKind fun x _ => .ite (fun hx => ?_) fun _ => ?_
  · have hindex := (parseIndex_opens (K := (· = x)) hself).taken (by rintro _ rfl; rw [hx]; decide)
    exact hindex.past fun index hindex => skipSeparator_getsOn.andThen fun _ _ => .pure hindex
  · exact (parseProperty_getsOn hself).past fun property hproperty =>
      skipSeparator_getsOn.andThen fun _ _ => .pure hproperty

theorem parseInterface_getsOn (hself : ∀ p, Reads P (fun _ => True) n 1 (Anchored P) (self p)) :
    Reads P K (n + 1) 1 (Anchored P) (parseInterface self) := by
  refine (Reads.expected (by decide)).past fun t ht => ?_
  refine (Reads.manyUntil fun _ => (parseEntry_getsOn hself).le (Nat.le_succ n) (Nat.le_refl 1)).andThen
    fun entries hentries => ?_
  refine (Reads.expected (by decide)).discarded.andThen fun _ _ => ?_
  refine (Reads.spanFrom _).andThen fun span hspan => .pure ⟨?_, ?_, ?_⟩
  · rw [hspan]
    exact ht
  · refine propsAnchored_iff.2 fun p hp => ?_
    obtain ⟨entry, hentry, hleft⟩ := List.mem_filterMap.1 hp
    cases entry with
    | inl _ => cases hleft; exact hentries _ hentry
    | inr _ => cases hleft
  · refine indexAnchored_iff.2 fun i hi => ?_
    obtain ⟨entry, hentry, hright⟩ := List.mem_filterMap.1 hi
    cases entry with
    | inl _ => cases hright
    | inr _ => cases hright; exact hentries _ hentry

theorem parseParam_getsOn (hself : ∀ p, Reads P (fun _ => True) n 1 (Anchored P) (self p))
    (index : Nat) : Reads P K n 1 (fun p => p.type.Anchored P) (parseParam self index) := by
  refine ((hself .lowest).le (Nat.le_refl n) (Nat.le_refl 1)).past fun type htype => ?_
  refine .afterKind fun _ _ => .ite (fun _ => ?_) fun _ => .pure htype
  exact Reads.advance.andThen fun _ _ => .pure htype

theorem parseFunction_getsOn (hself : ∀ p, Reads P (fun _ => True) n 1 (Anchored P) (self p)) :
    Reads P K (n + 1) 1 (Anchored P) (parseFunction self) := by
  refine (Reads.expected (by decide)).past fun t ht => ?_
  refine (Reads.commaUntil fun index => parseParam_getsOn hself index).andThen fun params hparams => ?_
  refine (Reads.expected (by decide)).discarded.andThen fun _ _ => ?_
  refine (Reads.expectedOr (by decide) _).discarded.andThen fun _ _ => ?_
  refine (hself .lowest).andThen fun result hresult => ?_
  refine (Reads.spanFrom _).andThen fun span hspan => .pure ⟨?_, paramsAnchored_iff.2 hparams, hresult⟩
  rw [hspan]
  exact ht

theorem parsePrimary_getsOn (hself : ∀ p, Reads P (fun _ => True) n 1 (Anchored P) (self p)) :
    Reads P K (n + 1) 1 (Anchored P) (parsePrimary self) := by
  refine .afterKind fun x _ => ?_
  split
  · exact (parseNamed_opens hself).taken (by rintro _ rfl; decide)
  · exact (parseNamed_opens hself).taken (by rintro _ rfl; decide)
  · exact (parseNamed_opens hself).taken (by rintro _ rfl; decide)
  · exact parseInterface_getsOn hself
  · exact parseFunction_getsOn hself
  · exact parseLiteral_opens.taken (by rintro _ rfl; decide)
  · exact parseLiteral_opens.taken (by rintro _ rfl; decide)
  · exact parseLiteral_opens.taken (by rintro _ rfl; decide)
  · exact parseLiteral_opens.taken (by rintro _ rfl; decide)
  · exact .unexpected _

theorem Compound.anchored_members (c : Compound) {r : TypeRef} (h : r.Anchored P) :
    ∀ t ∈ c.members r, t.Anchored P := by
  unfold members
  split
  · exact allAnchored_iff.1 h.2
  · exact allAnchored_iff.1 h.2
  · exact List.forall_mem_singleton.2 h

theorem Compound.anchored_join (c : Compound) {left right : TypeRef} (hleft : left.Anchored P)
    (hright : right.Anchored P) : (c.join left right).Anchored P := by
  have hall := List.forall_mem_append.2 ⟨c.anchored_members hleft, List.forall_mem_singleton.2 hright⟩
  cases c <;> exact ⟨hleft.start, allAnchored_iff.2 hall⟩

theorem parseOperator_getsOn (hself : ∀ p, Reads P (fun _ => True) n 1 (Anchored P) (self p))
    {left : TypeRef} (hleft : left.Anchored P) (power : Power) :
    Reads P K n 1 (Anchored P) (parseOperator self left power) := by
  have hright := (hself power).le (K := fun _ => True) (Nat.sub_le n 1) (Nat.zero_le 1)
  refine .afterKind fun x _ => ?_
  split
  · exact (Reads.taken (by rintro _ rfl; decide)).discarded.past fun _ _ =>
      hright.andThen fun right hright => .pure (Compound.anchored_join _ hleft hright)
  · exact (Reads.taken (by rintro _ rfl; decide)).discarded.past fun _ _ =>
      hright.andThen fun right hright => .pure (Compound.anchored_join _ hleft hright)
  · refine (Reads.expected (by decide)).discarded.past fun _ _ => ?_
    refine (Reads.expected (by decide)).discarded.andThen fun _ _ => ?_
    refine (Reads.spanFrom _).andThen fun span hspan => .pure ⟨?_, hleft⟩
    rw [hspan]
    exact hleft.start

/-- Every operator takes a token, so that there is fuel for all of them. -/
theorem parseOperators_getsOn (hself : ∀ p, Reads P (fun _ => True) n 1 (Anchored P) (self p))
    (power : Power) : ∀ fuel n' (left : TypeRef), n' ≤ fuel → n' ≤ n → left.Anchored P →
      Reads P (fun _ => True) n' 0 (Anchored P) (parseOperators self power fuel left)
  | 0, n', _, hfuel, _, _ => fun _ _ _ hlt => by omega
  | fuel + 1, n', left, hfuel, hle, hleft => by
    refine .afterKind fun x _ => ?_
    cases power? x with
    | none => exact .pure hleft
    | some p =>
      have hfirst := (parseOperator_getsOn (K := fun _ => True) hself hleft p).le (K := (· = x)) hle
        (Nat.le_refl 1)
      refine .ite (fun _ => .pure hleft) fun _ => .afterLookahead fun y => ?_
      refine .ite (fun _ => .pure hleft) fun _ => .weaken (hfirst.past fun joined hjoined => ?_)
      exact parseOperators_getsOn hself power fuel (n' - 1) joined (by omega) (by omega) hjoined

theorem parseWithin_getsOn : ∀ fuel (power : Power),
    Reads P (fun _ => True) fuel 1 (Anchored P) (parseWithin fuel power)
  | 0, _ => fun _ _ _ hlt => by omega
  | fuel + 1, power => by
    have hself := parseWithin_getsOn fuel
    refine (parsePrimary_getsOn hself).past fun left hleft => .afterRemaining fun r hr => ?_
    exact parseOperators_getsOn hself power (r + 1) (r + 1) left (Nat.le_refl _) hr hleft

/-- A type takes a token, and everything in it starts at one. -/
theorem parse_getsOn (power : Power) : Reads P K n 1 (Anchored P) (parse power) :=
  .afterRemaining fun r _ => (parseWithin_getsOn (r + 1) power).le (Nat.le_refl _) (Nat.le_refl 1)

end TypeRef

/-! ### Expressions -/

namespace Expr

variable {P : Position → Prop} {K : TokenKind → Prop} {n : Nat} {self : Power → Parse Expr}

theorem parseAtom_opens : Opens P K n (Anchored P) parseAtom := by
  refine .afterFreshId fun id => .afterCurrent fun t hstart => ?_
  dsimp only
  split
  · exact Opens.number.andThen fun _ _ => .pure hstart
  · exact Opens.advance.discarded.andThen fun _ _ => .pure hstart
  · exact Opens.advance.discarded.andThen fun _ _ => .pure hstart
  · exact Opens.advance.discarded.andThen fun _ _ => .pure hstart
  · exact Opens.advance.discarded.andThen fun _ _ => .pure hstart
  · exact Opens.advance.discarded.andThen fun _ _ => .pure hstart
  · exact Opens.advance.discarded.andThen fun _ _ => .pure hstart
  · exact Opens.advance.discarded.andThen fun _ _ => .pure hstart
  · exact .of_reads .unexpectedToken

theorem parseUnary_opens (hself : ∀ p, Reads P (fun _ => True) n 1 (Anchored P) (self p)) :
    Opens P K n (Anchored P) (parseUnary self) := by
  refine Opens.advance.andThen fun operator hoperator => ?_
  refine (hself .unary).andThen fun operand hoperand => .afterFreshId fun id => ?_
  exact .pure ⟨hoperator, hoperator, hoperand⟩

theorem parseGroup_opens (hself : ∀ p, Reads P (fun _ => True) n 1 (Anchored P) (self p)) :
    Opens P K n (Anchored P) (parseGroup self) := by
  refine Opens.advance.discarded.andThen fun _ _ => ?_
  refine (hself .lowest).andThen fun e he => ?_
  exact (Reads.expected (by decide)).discarded.andThen fun _ _ => .pure he

theorem parseArgs_getsOn (hself : ∀ p, Reads P (fun _ => True) n 1 (Anchored P) (self p)) :
    Reads P K (n + 1) 1 (fun es => ∀ e ∈ es, e.Anchored P) (parseArgs self) := by
  refine (Reads.expected (by decide)).discarded.past fun _ _ => ?_
  refine (Reads.commaUntil fun _ => hself .comma).andThen fun args hargs => ?_
  exact (Reads.expected (by decide)).discarded.andThen fun _ _ => .pure hargs

theorem parseArray_opens (hself : ∀ p, Reads P (fun _ => True) n 1 (Anchored P) (self p)) :
    Opens P K n (Anchored P) (parseArray self) := by
  refine Opens.advance.andThen fun t ht => ?_
  refine (Reads.commaUntil fun _ => hself .comma).andThen fun elements helements => ?_
  refine (Reads.expected (by decide)).discarded.andThen fun _ _ => ?_
  refine (Reads.spanFrom _).andThen fun span hspan => .afterFreshId fun id => ?_
  exact .pure ⟨hspan ▸ ht, allAnchored_iff.2 helements⟩

theorem parseKey_getsOn (hself : ∀ p, Reads P (fun _ => True) n 1 (Anchored P) (self p)) :
    Reads P K (n + 1) 1 (KeyAnchored P) (parseKey self) := by
  refine .afterKind fun x _ => ?_
  split
  · exact (Reads.taken (by rintro _ rfl; decide)).past fun _ _ => .pure trivial
  · exact (Reads.taken (by rintro _ rfl; decide)).past fun _ _ => .pure trivial
  · refine (Reads.taken (by rintro _ rfl; decide)).discarded.past fun _ _ => ?_
    refine (hself .lowest).andThen fun key hkey => ?_
    exact (Reads.expected (by decide)).discarded.andThen fun _ _ => .pure hkey
  · exact .unexpected _

theorem parseEntry_getsOn (hself : ∀ p, Reads P (fun _ => True) n 1 (Anchored P) (self p)) :
    Reads P K (n + 1) 1 (fun e => KeyAnchored P e.key ∧ e.value.Anchored P) (parseEntry self) := by
  refine (parseKey_getsOn hself).past fun key hkey => ?_
  refine (Reads.expected (by decide)).discarded.andThen fun _ _ => ?_
  exact (hself .comma).andThen fun value hvalue => .pure ⟨hkey, hvalue⟩

theorem parseObject_opens (hself : ∀ p, Reads P (fun _ => True) n 1 (Anchored P) (self p)) :
    Opens P K n (Anchored P) (parseObject self) := by
  refine Opens.advance.andThen fun t ht => ?_
  refine (Reads.commaUntil fun _ => (parseEntry_getsOn hself).le (Nat.le_succ n)
    (Nat.le_refl 1)).andThen fun entries hentries => ?_
  refine (Reads.expected (by decide)).discarded.andThen fun _ _ => ?_
  refine (Reads.spanFrom _).andThen fun span hspan => .afterFreshId fun id => ?_
  exact .pure ⟨hspan ▸ ht, entriesAnchored_iff.2 hentries⟩

theorem parseConstruct_opens (hself : ∀ p, Reads P (fun _ => True) n 1 (Anchored P) (self p)) :
    Opens P K n (Anchored P) (parseConstruct self) := by
  refine Opens.advance.andThen fun t ht => ?_
  refine (Reads.expectedOr (by decide) _).andThen fun name hname => .afterFreshId fun classId => ?_
  refine ((parseArgs_getsOn hself).le (Nat.le_succ n) (Nat.zero_le 1)).andThen fun args hargs => ?_
  refine (Reads.spanFrom _).andThen fun span hspan => .afterFreshId fun id => ?_
  exact .pure ⟨hspan ▸ ht, hname, allAnchored_iff.2 hargs⟩

theorem parsePrimary_getsOn (hself : ∀ p, Reads P (fun _ => True) n 1 (Anchored P) (self p)) :
    Reads P K (n + 1) 1 (Anchored P) (parsePrimary self) := by
  refine .afterKind fun x _ => ?_
  split
  all_goals first
    | exact parseAtom_opens.taken (by rintro _ rfl; decide)
    | exact (parseUnary_opens hself).taken (by rintro _ rfl; decide)
    | exact (parseGroup_opens hself).taken (by rintro _ rfl; decide)
    | exact (parseArray_opens hself).taken (by rintro _ rfl; decide)
    | exact (parseObject_opens hself).taken (by rintro _ rfl; decide)
    | exact (parseConstruct_opens hself).taken (by rintro _ rfl; decide)
    | exact .unexpectedToken

theorem parseBinary_opens (hself : ∀ p, Reads P (fun _ => True) n 1 (Anchored P) (self p))
    {left : Expr} (hleft : left.Anchored P) (power : Power) :
    Opens P K n (Anchored P) (parseBinary self left power) := by
  refine Opens.advance.andThen fun operator hoperator => ?_
  refine (hself power).weaken.andThen fun right hright => .afterFreshId fun id => ?_
  exact .pure ⟨hleft.start, hoperator, hleft, hright⟩

theorem parseAssign_opens (hself : ∀ p, Reads P (fun _ => True) n 1 (Anchored P) (self p))
    {target : Expr} (htarget : target.Anchored P) :
    Opens P K n (Anchored P) (parseAssign self target) := by
  refine Opens.advance.andThen fun operator hoperator => ?_
  refine (hself .comma).weaken.andThen fun value hvalue => .afterFreshId fun id => ?_
  exact .pure ⟨htarget.start, hoperator, htarget, hvalue⟩

theorem parseCall_getsOn (hself : ∀ p, Reads P (fun _ => True) n 1 (Anchored P) (self p))
    {callee : Expr} (hcallee : callee.Anchored P) :
    Reads P K (n + 1) 1 (Anchored P) (parseCall self callee) := by
  refine (parseArgs_getsOn hself).past fun args hargs => ?_
  refine (Reads.spanFrom _).andThen fun span hspan => .afterFreshId fun id => ?_
  exact .pure ⟨hspan ▸ hcallee.start, hcallee, allAnchored_iff.2 hargs⟩

theorem parseMember_opens {object : Expr} (hobject : object.Anchored P) :
    Opens P K n (Anchored P) (parseMember object) := by
  refine Opens.advance.discarded.andThen fun _ _ => ?_
  refine (Reads.expectedOr (by decide) _).weaken.andThen fun name _ => ?_
  refine (Reads.spanFrom _).andThen fun span hspan => .afterFreshId fun id => ?_
  exact .pure ⟨hspan ▸ hobject.start, hobject, trivial⟩

theorem parseIndex_opens (hself : ∀ p, Reads P (fun _ => True) n 1 (Anchored P) (self p))
    {object : Expr} (hobject : object.Anchored P) :
    Opens P K n (Anchored P) (parseIndex self object) := by
  refine Opens.advance.discarded.andThen fun _ _ => ?_
  refine (hself .lowest).weaken.andThen fun key hkey => ?_
  refine (Reads.expected (by decide)).discarded.andThen fun _ _ => ?_
  refine (Reads.spanFrom _).andThen fun span hspan => .afterFreshId fun id => ?_
  exact .pure ⟨hspan ▸ hobject.start, hobject, hkey⟩

theorem parseOperator_opens (hself : ∀ p, Reads P (fun _ => True) n 1 (Anchored P) (self p))
    {left : Expr} (hleft : left.Anchored P) (power : Power) :
    Opens P K n (Anchored P) (parseOperator self left power) := by
  unfold parseOperator
  split
  · exact parseAssign_opens hself hleft
  · exact .of_reads (parseCall_getsOn hself hleft)
  · refine .afterKind fun x => ?_
    split
    · exact parseMember_opens hleft
    · exact parseIndex_opens hself hleft
  · exact parseBinary_opens hself hleft power

/-- Every operator takes a token, so that there is fuel for all of them. -/
theorem parseOperators_getsOn (hself : ∀ p, Reads P (fun _ => True) n 1 (Anchored P) (self p))
    (power : Power) : ∀ fuel n' (left : Expr), n' ≤ fuel → n' ≤ n → left.Anchored P →
      Reads P (fun _ => True) n' 0 (Anchored P) (parseOperators self power fuel left)
  | 0, n', _, hfuel, _, _ => fun _ _ _ hlt => by omega
  | fuel + 1, n', left, hfuel, hle, hleft => by
    refine .afterKind fun x _ => ?_
    cases hpower : power? x with
    | none => exact .pure hleft
    | some p =>
      have hx : x ≠ .eof := by
        rintro rfl
        cases hpower
      have hfirst := (parseOperator_opens (K := (· = x)) hself hleft p).taken (by rintro _ rfl; exact hx)
      have hfirst := hfirst.mono (fun _ h => h) (Nat.le_succ_of_le hle) (Nat.le_refl 1) fun _ h => h
      refine .ite (fun _ => .pure hleft) fun _ => .weaken (hfirst.past fun joined hjoined => ?_)
      exact parseOperators_getsOn hself power fuel (n' - 1) joined (by omega) (by omega) hjoined

theorem parseWithin_getsOn : ∀ fuel (power : Power),
    Reads P (fun _ => True) fuel 1 (Anchored P) (parseWithin fuel power)
  | 0, _ => fun _ _ _ hlt => by omega
  | fuel + 1, power => by
    have hself := parseWithin_getsOn fuel
    refine (parsePrimary_getsOn hself).past fun left hleft => .afterRemaining fun r hr => ?_
    exact parseOperators_getsOn hself power (r + 1) (r + 1) left (Nat.le_refl _) hr hleft

/-- An expression takes a token, and everything in it starts at one. -/
theorem parse_getsOn (power : Power) : Reads P K n 1 (Anchored P) (parse power) :=
  .afterRemaining fun r _ => (parseWithin_getsOn (r + 1) power).le (Nat.le_refl _) (Nat.le_refl 1)

end Expr

/-! ### Statements -/

namespace Stmt

variable {P : Position → Prop} {K : TokenKind → Prop} {n : Nat} {self : Parse Stmt}

theorem parseInitializer_getsOn : Reads P K n 0 (fun v => ∀ e ∈ v, e.Anchored P) parseInitializer := by
  refine .afterKind fun x _ => .ite (fun _ => ?_) fun _ => .pure nofun
  refine Reads.advance.discarded.andThen fun _ _ => ?_
  refine (Expr.parse_getsOn .lowest).weaken.andThen fun e he => .pure ?_
  rintro _ ⟨⟩
  exact he

theorem requireValue_getsOn (isConst : Bool) (type : Option TypeRef) (value : Option Expr) :
    Reads P K n 0 (fun _ => True) (requireValue isConst type value) :=
  .ite (fun _ => .unexpected _) fun _ => .ite (fun _ => .unexpected _) fun _ => .pure trivial

theorem parseVariable_getsOn {start : Position} (hstart : P start) (isConst : Bool)
    {type : Option TypeRef} (htype : ∀ t ∈ type, t.Anchored P) :
    Reads P K n 1 (Anchored P) (parseVariable start isConst type) := by
  refine (Reads.expectedOr (by decide) _).past fun name _ => ?_
  refine parseInitializer_getsOn.andThen fun value hvalue => ?_
  refine (requireValue_getsOn isConst type value).andThen fun _ _ => ?_
  refine (Reads.expected (by decide)).discarded.andThen fun _ _ => ?_
  exact (Reads.spanFrom _).andThen fun span hspan => .pure ⟨hspan ▸ hstart, htype, hvalue⟩

theorem parseVarDecl_opens : Opens P K n (Anchored P) parseVarDecl := by
  refine Opens.advance.andThen fun first hfirst => ?_
  refine .afterKind fun k _ => .afterLookahead fun k' => .ite (fun _ => ?_) fun _ => ?_
  · have hnone : ∀ t ∈ (none : Option TypeRef), t.Anchored P := nofun
    exact (parseVariable_getsOn hfirst _ hnone).weaken
  · refine (TypeRef.parse_getsOn .lowest).weaken.andThen fun type htype => ?_
    refine (parseVariable_getsOn hfirst _ ?_).weaken
    rintro _ ⟨⟩
    exact htype

theorem parseBlockOf_getsOn (hself : Reads P (fun _ => True) n 1 (Anchored P) self) :
    Reads P K (n + 1) 1 (fun b => P b.span.start ∧ ∀ s ∈ b.body, s.Anchored P)
      (parseBlockOf self) := by
  refine (Reads.expected (by decide)).past fun t ht => ?_
  refine (Reads.manyUntil fun _ => hself).andThen fun body hbody => ?_
  refine (Reads.expected (by decide)).discarded.andThen fun _ _ => ?_
  exact (Reads.spanFrom _).andThen fun span hspan => .pure ⟨hspan ▸ ht, hbody⟩

theorem parseIf_opens (hself : Reads P (fun _ => True) n 1 (Anchored P) self) :
    Opens P K n (Anchored P) (parseIf self) := by
  refine Opens.advance.andThen fun t ht => ?_
  refine (Expr.parse_getsOn .lowest).andThen fun condition hcondition => ?_
  refine hself.andThen fun onTrue honTrue => ?_
  refine .afterKind fun x _ => .ite (fun _ => ?_) fun _ => ?_
  · refine Reads.advance.discarded.andThen fun _ _ => hself.andThen fun onFalse honFalse => ?_
    exact (Reads.spanFrom _).andThen fun span hspan =>
      .pure ⟨hspan ▸ ht, hcondition, honTrue, honFalse⟩
  · exact (Reads.spanFrom _).andThen fun span hspan =>
      .pure ⟨hspan ▸ ht, hcondition, honTrue, trivial⟩

theorem parseWhile_opens (hself : Reads P (fun _ => True) n 1 (Anchored P) self) :
    Opens P K n (Anchored P) (parseWhile self) := by
  refine Opens.advance.andThen fun t ht => ?_
  refine (Expr.parse_getsOn .lowest).andThen fun condition hcondition => ?_
  refine hself.andThen fun body hbody => ?_
  exact (Reads.spanFrom _).andThen fun span hspan => .pure ⟨hspan ▸ ht, hcondition, hbody⟩

theorem parseFor_opens (hself : Reads P (fun _ => True) n 1 (Anchored P) self) :
    Opens P K n (Anchored P) (parseFor self) := by
  refine Opens.advance.andThen fun t ht => ?_
  refine (Reads.expectedOr (by decide) _).andThen fun name _ => ?_
  refine (Reads.expected (by decide)).discarded.andThen fun _ _ => ?_
  refine (Expr.parse_getsOn .lowest).andThen fun iterable hiterable => ?_
  refine ((parseBlockOf_getsOn hself).le (Nat.le_succ n) (Nat.zero_le 1)).andThen fun body hbody => ?_
  exact (Reads.spanFrom _).andThen fun span hspan =>
    .pure ⟨hspan ▸ ht, hiterable, allAnchored_iff.2 hbody.2⟩

theorem parseParam_getsOn : Reads P K n 1 (Param.Anchored P) parseParam := by
  refine .afterPosition fun start hstart => ?_
  refine (TypeRef.parse_getsOn .lowest).past fun type htype => ?_
  refine (Reads.expectedOr (by decide) _).andThen fun name _ => ?_
  exact (Reads.spanFrom _).andThen fun span hspan => .pure ⟨hspan ▸ hstart, htype⟩

theorem parseResult_getsOn : Reads P K n 0 (fun r => ∀ t ∈ r, t.Anchored P) parseResult := by
  refine .afterKind fun x _ => .ite (fun _ => ?_) fun _ => .pure nofun
  refine Reads.advance.discarded.andThen fun _ _ => ?_
  refine (TypeRef.parse_getsOn .lowest).weaken.andThen fun t ht => .pure ?_
  rintro _ ⟨⟩
  exact ht

theorem parseFn_getsOn (hself : Reads P (fun _ => True) n 1 (Anchored P) self) :
    Reads P K (n + 1) 1 (FnAnchored P) (parseFn self) := by
  refine (Reads.expected (by decide)).past fun t ht => ?_
  refine (Reads.expectedOr (by decide) _).andThen fun name _ => ?_
  refine (Reads.expected (by decide)).discarded.andThen fun _ _ => ?_
  refine (Reads.commaUntil fun _ => parseParam_getsOn).andThen fun params hparams => ?_
  refine (Reads.expected (by decide)).discarded.andThen fun _ _ => ?_
  refine parseResult_getsOn.andThen fun result hresult => ?_
  refine ((parseBlockOf_getsOn hself).le (Nat.le_succ n) (Nat.zero_le 1)).andThen fun body hbody => ?_
  exact (Reads.spanFrom _).andThen fun span hspan =>
    .pure ⟨hspan ▸ ht, hparams, hresult, allAnchored_iff.2 hbody.2⟩

theorem parseReturn_opens : Opens P K n (Anchored P) parseReturn := by
  refine Opens.advance.andThen fun t ht => .afterKind fun x _ => .ite (fun _ => ?_) fun _ => ?_
  · refine (Reads.expected (by decide)).discarded.andThen fun _ _ => ?_
    exact (Reads.spanFrom _).andThen fun span hspan => .pure ⟨hspan ▸ ht, nofun⟩
  · refine (Expr.parse_getsOn .lowest).weaken.andThen fun value hvalue => ?_
    refine (Reads.expected (by decide)).discarded.andThen fun _ _ => ?_
    refine (Reads.spanFrom _).andThen fun span hspan => .pure ⟨hspan ▸ ht, ?_⟩
    rintro _ ⟨⟩
    exact hvalue

theorem parseJump_opens : Opens P K n (Anchored P) parseJump := by
  refine Opens.advance.andThen fun t ht => ?_
  refine (Reads.expected (by decide)).discarded.andThen fun _ _ => ?_
  refine (Reads.spanFrom _).andThen fun span hspan => .pure ?_
  show P span.start
  exact hspan ▸ ht

/-- Every name takes a token, so that there is fuel for all of them. -/
theorem parseNames_getsOn : ∀ fuel n, n ≤ fuel →
    Reads P (fun _ => True) n 0 (fun ns => ∀ m ∈ ns, P m.span.start) (parseNames fuel)
  | 0, n, hfuel => fun _ _ _ hlt => by omega
  | fuel + 1, n, hfuel => by
    refine .weaken ((Reads.expected (by decide)).past fun t ht => ?_)
    refine .afterKind fun x _ => .ite (fun _ => ?_) fun _ => .pure (List.forall_mem_singleton.2 ht)
    refine Reads.advance.discarded.andThen fun _ _ => ?_
    refine (parseNames_getsOn fuel (n - 1) (by omega)).andThen fun rest hrest => ?_
    exact .pure (List.forall_mem_cons.2 ⟨ht, hrest⟩)

theorem parseSuperclass_getsOn :
    Reads P K n 0 (fun c => ∀ m ∈ c, P m.span.start) parseSuperclass := by
  refine .afterKind fun x _ => .ite (fun _ => ?_) fun _ => .pure nofun
  refine Reads.advance.discarded.andThen fun _ _ => ?_
  refine (Reads.expected (by decide)).weaken.andThen fun t ht => .pure ?_
  rintro _ ⟨⟩
  exact ht

theorem parseMixins_getsOn : Reads P K n 0 (fun ns => ∀ m ∈ ns, P m.span.start) parseMixins := by
  refine .afterKind fun x _ => .ite (fun _ => ?_) fun _ => .pure nofun
  refine Reads.advance.discarded.andThen fun _ _ => .afterRemaining fun r _ => ?_
  exact parseNames_getsOn (r + 1) (r + 1) (Nat.le_refl _)

/-- Every modifier takes a token, so that there is fuel for all of them. -/
theorem parseModifiers_getsOn : ∀ fuel n (m : Modifiers), n ≤ fuel →
    Reads P (fun _ => True) n 0 (fun _ => True) (parseModifiers fuel m)
  | 0, n, _, hfuel => fun _ _ _ hlt => by omega
  | fuel + 1, n, m, hfuel => by
    refine .afterKind fun x _ => ?_
    cases hmodifier : addModifier? m x with
    | none => exact .pure trivial
    | some m' =>
      have hx : x ≠ .eof := by
        rintro rfl
        cases hmodifier
      have htaken := (Reads.taken (P := P) (K := (· = x)) (n := n) (by rintro _ rfl; exact hx)).discarded
      exact .weaken (htaken.past fun _ _ => parseModifiers_getsOn fuel (n - 1) m' (by omega))

/-- What a member of a class has to keep. -/
def MemberAnchored (P : Position → Prop) : FieldDecl ⊕ MethodDecl Stmt → Prop
  | .inl f => f.Anchored P
  | .inr m => FnAnchored P m.function

theorem parseMember_getsOn (hself : Reads P (fun _ => True) n 1 (Anchored P) self) :
    Reads P K (n + 1) 1 (MemberAnchored P) (parseMember self) := by
  refine .afterPosition fun start hstart => .afterRemaining fun r hr => ?_
  refine ((parseModifiers_getsOn (r + 1) (r + 1) .none (Nat.le_refl _)).le (Nat.le_refl _)
    (Nat.le_refl _)).andThen fun modifiers _ => ?_
  refine .afterKind fun x _ => .ite (fun _ => ?_) fun _ => ?_
  · refine ((parseFn_getsOn hself).le hr (Nat.le_refl 1)).past fun function hfunction => ?_
    exact .pure hfunction
  · refine (TypeRef.parse_getsOn .lowest).past fun type htype => ?_
    refine (Reads.expectedOr (by decide) _).andThen fun name _ => ?_
    refine parseInitializer_getsOn.andThen fun value hvalue => ?_
    refine (Reads.expected (by decide)).discarded.andThen fun _ _ => ?_
    exact (Reads.spanFrom _).andThen fun span _ => .pure ⟨htype, hvalue⟩

theorem parseClass_opens (hself : Reads P (fun _ => True) n 1 (Anchored P) self) :
    Opens P K n (Anchored P) (parseClass self) := by
  refine Opens.advance.andThen fun t ht => ?_
  refine (Reads.expectedOr (by decide) _).andThen fun name _ => ?_
  refine (Reads.register _).andThen fun _ _ => ?_
  refine parseSuperclass_getsOn.andThen fun superclass hsuperclass => ?_
  refine parseMixins_getsOn.andThen fun mixins hmixins => ?_
  refine (Reads.expected (by decide)).discarded.andThen fun _ _ => ?_
  refine (Reads.manyUntil fun _ => (parseMember_getsOn hself).le (Nat.le_succ n)
    (Nat.le_refl 1)).andThen fun members hmembers => ?_
  refine (Reads.expected (by decide)).discarded.andThen fun _ _ => ?_
  refine (Reads.spanFrom _).andThen fun span hspan =>
    .pure ⟨hspan ▸ ht, hsuperclass, hmixins, fun f hf => ?_, methodsAnchored_iff.2 fun m hm => ?_⟩
  · obtain ⟨member, hmember, hleft⟩ := List.mem_filterMap.1 hf
    cases member with
    | inl _ => cases hleft; exact hmembers _ hmember
    | inr _ => cases hleft
  · obtain ⟨member, hmember, hright⟩ := List.mem_filterMap.1 hm
    cases member with
    | inl _ => cases hright
    | inr _ => cases hright; exact hmembers _ hmember

theorem parseInterface_opens : Opens P K n (Anchored P) parseInterface := by
  refine Opens.advance.andThen fun t ht => ?_
  refine (Reads.expectedOr (by decide) _).andThen fun name _ => ?_
  refine (Reads.register _).andThen fun _ _ => ?_
  have htype : Reads P (fun _ => True) (n + 1) 1 _ (TypeRef.parseInterface TypeRef.parse) :=
    TypeRef.parseInterface_getsOn fun p => TypeRef.parse_getsOn p
  refine (htype.le (Nat.le_succ _) (Nat.zero_le 1)).andThen fun type htype => ?_
  exact (Reads.spanFrom _).andThen fun span hspan => .pure ⟨hspan ▸ ht, htype⟩

theorem parseTypeDecl_opens : Opens P K n (Anchored P) parseTypeDecl := by
  refine Opens.advance.andThen fun t ht => ?_
  refine (Reads.expectedOr (by decide) _).andThen fun name _ => ?_
  refine (Reads.register _).andThen fun _ _ => ?_
  refine (Reads.expected (by decide)).discarded.andThen fun _ _ => ?_
  refine (TypeRef.parse_getsOn .lowest).andThen fun type htype => ?_
  refine (Reads.expected (by decide)).discarded.andThen fun _ _ => ?_
  exact (Reads.spanFrom _).andThen fun span hspan => .pure ⟨hspan ▸ ht, htype⟩

theorem parseTyped_getsOn : Reads P K n 1 (Anchored P) parseTyped := by
  refine .afterPosition fun start hstart => ?_
  refine (TypeRef.parse_getsOn .lowest).past fun type htype => ?_
  refine (parseVariable_getsOn hstart false ?_).weaken
  rintro _ ⟨⟩
  exact htype

theorem parseExpr_getsOn : Reads P K n 1 (Anchored P) parseExpr := by
  refine (Expr.parse_getsOn .lowest).past fun e he => ?_
  refine (Reads.expected (by decide)).discarded.andThen fun _ _ => ?_
  exact (Reads.spanFrom _).andThen fun span hspan => .pure ⟨hspan ▸ he.start, he⟩

theorem parsePlain_getsOn : Reads P K n 1 (Anchored P) parsePlain := by
  intro s hs hkind hlt
  rw [parsePlain_run]
  split
  · exact parseTyped_getsOn hs hkind hlt
  · exact parseExpr_getsOn hs hkind hlt

theorem parseBlockStmt_getsOn (hself : Reads P (fun _ => True) n 1 (Anchored P) self) :
    Reads P K (n + 1) 1 (Anchored P) (parseBlockStmt self) :=
  (parseBlockOf_getsOn hself).past fun _ hblock => .pure ⟨hblock.1, allAnchored_iff.2 hblock.2⟩

theorem parseStep_getsOn (hself : Reads P (fun _ => True) n 1 (Anchored P) self) :
    Reads P K (n + 1) 1 (Anchored P) (parseStep self) := by
  refine .afterKind fun x _ => ?_
  split
  · exact parseVarDecl_opens.taken (by rintro _ rfl; decide)
  · exact parseVarDecl_opens.taken (by rintro _ rfl; decide)
  · exact (parseIf_opens hself).taken (by rintro _ rfl; decide)
  · exact (parseWhile_opens hself).taken (by rintro _ rfl; decide)
  · exact (parseFor_opens hself).taken (by rintro _ rfl; decide)
  · exact parseBlockStmt_getsOn hself
  · exact (parseFn_getsOn hself).past fun f hf => .pure hf
  · exact parseReturn_opens.taken (by rintro _ rfl; decide)
  · exact parseJump_opens.taken (by rintro _ rfl; decide)
  · exact parseJump_opens.taken (by rintro _ rfl; decide)
  · exact (parseClass_opens hself).taken (by rintro _ rfl; decide)
  · exact parseInterface_opens.taken (by rintro _ rfl; decide)
  · exact parseTypeDecl_opens.taken (by rintro _ rfl; decide)
  · exact parsePlain_getsOn

theorem parseWithin_getsOn : ∀ fuel, Reads P (fun _ => True) fuel 1 (Anchored P) (parseWithin fuel)
  | 0 => fun _ _ _ hlt => by omega
  | fuel + 1 => parseStep_getsOn (parseWithin_getsOn fuel)

/-- A statement takes a token, and everything in it starts at one. -/
theorem parse_getsOn : Reads P K n 1 (Anchored P) parse :=
  .afterRemaining fun r _ => (parseWithin_getsOn (r + 1)).le (Nat.le_refl _) (Nat.le_refl 1)

end Stmt

/-- A program is never stuck, and everything in it starts at tokens. -/
theorem Block.parse_getsOn {P : Position → Prop} {K : TokenKind → Prop} {n : Nat} :
    Reads P K n 0 (fun b => Stmt.AllAnchored P b.body) Block.parse := by
  have hfrom (start : Position) : Reads P K n 0 (fun b => Stmt.AllAnchored P b.body)
      (parseFrom start) := by
    refine (Reads.manyUntil fun _ => Stmt.parse_getsOn).andThen fun body hbody => ?_
    exact (Reads.spanFrom _).andThen fun span _ => .pure (Stmt.allAnchored_iff.2 hbody)
  exact fun s hs hkind hlt => hfrom ⟨0, s.file⟩ hs hkind hlt

end ScriptCheck
