import ScriptCheck.Proofs.Parsing.Lockstep

/-!
Every step that reads types, expressions or statements goes in lockstep with itself. The lemmas follow
the definitions: a step goes in lockstep if the steps do by which it reads what stands inside.
-/

namespace ScriptCheck

open Parse

variable {c : Terms}

theorem filterMap_getLeft?_map {α β α' β' : Type} (g : α → α') (h : β → β') (l : List (α ⊕ β)) :
    (l.map (Sum.map g h)).filterMap Sum.getLeft? = (l.filterMap Sum.getLeft?).map g := by
  rw [List.filterMap_map, List.map_filterMap]
  congr 1
  funext x
  cases x <;> rfl

theorem filterMap_getRight?_map {α β α' β' : Type} (g : α → α') (h : β → β') (l : List (α ⊕ β)) :
    (l.map (Sum.map g h)).filterMap Sum.getRight? = (l.filterMap Sum.getRight?).map h := by
  rw [List.filterMap_map, List.map_filterMap]
  congr 1
  funext x
  cases x <;> rfl

/-! ### Types -/

namespace TypeRef

variable {self self' : Power → Parse TypeRef} {p : Power} {left : TypeRef}

theorem parseArgs_lockstep (hself : ∀ p, Lockstep c .part (relabel c.labels) (self p) (self' p)) :
    Lockstep c .part (List.map (relabel c.labels)) (parseArgs self) (parseArgs self') := by
  refine .andPart .kind fun _ => .ite ?_ (.part (.pure []))
  refine .andPart (.discarded .advance) fun _ => ?_
  refine .andPart (.commaUntil fun _ => hself .lowest) fun args => ?_
  exact .andPart (.discarded (.expected .greater)) fun _ => .part (.pure args)

theorem parseNamed_lockstep (hself : ∀ p, Lockstep c .part (relabel c.labels) (self p) (self' p)) :
    Lockstep c .part (relabel c.labels) (parseNamed self) (parseNamed self') := by
  refine .andPart .advance fun t => ?_
  refine .andPart (parseArgs_lockstep hself) fun args => ?_
  refine .andPart (.spanFrom t.span.start) fun span => ?_
  exact .part (.result (by rw [relabel, relabelAll_eq_map]; rfl))

theorem parseLiteral_lockstep :
    Lockstep c .part (relabel c.labels) parseLiteral parseLiteral := by
  refine .andPart .current fun t => ?_
  rw [Token.relabel_kind]
  split
  · exact .andPart .number fun literal => .part (.pure (TypeRef.literal literal t.span))
  all_goals exact .andPart (.discarded .advance) fun _ => .part (.pure (TypeRef.literal _ t.span))

theorem parseIndex_lockstep (hself : ∀ p, Lockstep c .part (relabel c.labels) (self p) (self' p)) :
    Lockstep c .part (relabelIndexRef c.labels) (parseIndex self) (parseIndex self') := by
  refine .andPart (.discarded .advance) fun _ => ?_
  refine .andPart .advance fun key => ?_
  refine .andPart (.discarded (.expected .closeBracket)) fun _ => ?_
  refine .andPart (.discarded (.expected .colon)) fun _ => ?_
  exact .andPart (hself .lowest) fun _ => .part (.result rfl)

theorem parseConst_lockstep :
    Lockstep c .part (fun b => b) parseConst parseConst :=
  .andPart .kind fun _ =>
    .ite (.andPart (.discarded .advance) fun _ => .part (.pure true)) (.part (.pure false))

theorem parseProperty_lockstep
    (hself : ∀ p, Lockstep c .part (relabel c.labels) (self p) (self' p)) :
    Lockstep c .part (relabelProp c.labels) (parseProperty self) (parseProperty self') := by
  refine .andPart parseConst_lockstep fun isConst => ?_
  refine .andPart (.expectedOr .identifier _) fun name => ?_
  refine .andPart (.discarded (.expected .colon)) fun _ => ?_
  exact .andPart (hself .lowest) fun _ => .part (.result rfl)

theorem skipSeparator_lockstep :
    Lockstep c .part (fun u => u) skipSeparator skipSeparator :=
  .andPart .kind fun _ => .ite (.discarded .advance) (.part (.pure ()))

theorem parseEntry_lockstep (hself : ∀ p, Lockstep c .part (relabel c.labels) (self p) (self' p)) :
    Lockstep c .part (Sum.map (relabelProp c.labels) (relabelIndexRef c.labels)) (parseEntry self)
      (parseEntry self') := by
  refine .andPart .kind fun _ => .ite ?_ ?_
  · refine .andPart (parseIndex_lockstep hself) fun _ => ?_
    exact .andPart skipSeparator_lockstep fun _ => .part (.result rfl)
  · refine .andPart (parseProperty_lockstep hself) fun _ => ?_
    exact .andPart skipSeparator_lockstep fun _ => .part (.result rfl)

theorem parseInterface_lockstep
    (hself : ∀ p, Lockstep c .part (relabel c.labels) (self p) (self' p)) :
    Lockstep c .whole (relabel c.labels) (parseInterface self) (parseInterface self') := by
  refine .andWhole (.expected .openCurly) fun first => ?_
  refine .andWhole (.manyUntil fun _ => parseEntry_lockstep hself) fun entries => ?_
  refine .andStill (.discarded (.close (by decide))) fun _ => ?_
  refine .andStill (.spanFrom first.span.start) fun span => .result ?_
  rw [filterMap_getLeft?_map, filterMap_getRight?_map, relabel, relabelProps_eq_map,
    relabelIndex_eq_map]

theorem parseParam_lockstep (hself : ∀ p, Lockstep c .part (relabel c.labels) (self p) (self' p))
    (index : Nat) :
    Lockstep c .part (relabelParam c.labels) (parseParam self index) (parseParam self' index) := by
  refine .andPart (hself .lowest) fun type => ?_
  refine .andPart .kind fun _ => .ite ?_ (.part (.result rfl))
  exact .andPart .advance fun _ => .part (.result rfl)

theorem parseFunction_lockstep
    (hself : ∀ p, Lockstep c .part (relabel c.labels) (self p) (self' p)) :
    Lockstep c .part (relabel c.labels) (parseFunction self) (parseFunction self') := by
  refine .andPart (.expected .openParen) fun first => ?_
  refine .andPart (.commaUntil (parseParam_lockstep hself)) fun params => ?_
  refine .andPart (.discarded (.expected .closeParen)) fun _ => ?_
  refine .andPart (.discarded (.expectedOr .colonColon _)) fun _ => ?_
  refine .andPart (hself .lowest) fun result => ?_
  refine .andPart (.spanFrom first.span.start) fun span => .part (.result ?_)
  rw [relabel, relabelParams_eq_map]

theorem parsePrimary_lockstep (hself : ∀ p, Lockstep c .part (relabel c.labels) (self p) (self' p)) :
    Lockstep c .part (relabel c.labels) (parsePrimary self) (parsePrimary self') := by
  refine .andPart .kind fun k => ?_
  have hnamed := parseNamed_lockstep hself
  have hinterface := parseInterface_lockstep hself
  have hfunction := parseFunction_lockstep hself
  cases k
  case identifier | kwNull | kwUndefined => exact hnamed
  case openCurly => exact hinterface.part
  case openParen => exact hfunction
  case number | text | kwTrue | kwFalse => exact parseLiteral_lockstep
  all_goals exact .unexpected _

theorem Compound.relabel_join (k : Compound) (left right : TypeRef) :
    (k.join left right).relabel c.labels = k.join (left.relabel c.labels) (right.relabel c.labels) := by
  have hspan : (left.relabel c.labels).span.join (right.relabel c.labels).span =
      (left.span.join right.span).relabel c.labels := by simp
  unfold join
  rw [hspan]
  cases k <;> cases left <;> simp [make, members, relabel, relabelAll_eq_map]

theorem parseOperator_lockstep (hself : ∀ p, Lockstep c .part (relabel c.labels) (self p) (self' p)) :
    Lockstep c .part (relabel c.labels) (parseOperator self left p)
      (parseOperator self' (left.relabel c.labels) p) := by
  refine .andPart .kind fun k => ?_
  have hcompound (k : Compound) : Lockstep c .part (relabel c.labels)
      (do discard advance; return k.join left (← self p))
      (do discard advance; return k.join (left.relabel c.labels) (← self' p)) :=
    .andPart (.discarded .advance) fun _ =>
      .andPart (hself p) fun right => .part (.result (k.relabel_join left right).symm)
  have harray : Lockstep c .part (relabel c.labels)
      (do discard (expect .openBracket); discard (expect .closeBracket)
          return .array left (← spanFrom left.span.start))
      (do discard (expect .openBracket); discard (expect .closeBracket)
          return .array (left.relabel c.labels) (← spanFrom (left.relabel c.labels).span.start)) := by
    refine .andPart (.discarded (.expected .openBracket)) fun _ => ?_
    refine .andPart (.discarded (.expected .closeBracket)) fun _ => ?_
    rw [span_relabel]
    exact .andPart (.spanFrom left.span.start) fun _ => .part (.result rfl)
  cases k
  case pipe | ampersand => exact hcompound _
  all_goals exact harray

theorem parseOperators_lockstep
    (hself : ∀ p, Lockstep c .part (relabel c.labels) (self p) (self' p)) :
    ∀ (n n' : Nat) (left : TypeRef), n ≤ n' → (c.sameFuel → n = n') →
      Lockstep c .part (relabel c.labels) (parseOperators self p n left)
        (parseOperators self' p n' (left.relabel c.labels))
  | 0, 0, _, _, _ => .stuck
  | 0, _ + 1, _, _, heq => .outOfFuel fun he => by cases heq he
  | n + 1, n' + 1, left, hle, heq => by
    have hrest : ∀ q, Lockstep c .part (relabel c.labels)
        (parseOperator self left q >>= parseOperators self p n)
        (parseOperator self' (left.relabel c.labels) q >>= parseOperators self' p n') := fun q =>
      .andPart (parseOperator_lockstep hself) fun joined =>
        parseOperators_lockstep hself n n' joined (by omega) fun he => by cases heq he; rfl
    refine .andPart .kind fun k => ?_
    cases power? k with
    | none => exact .part (.pure left)
    | some q =>
      refine .ite (.part (.pure left)) ?_
      refine .lookahead (by decide) fun t t' hlike => ?_
      have hsame : decide (t ≠ .closeBracket) = decide (t' ≠ .closeBracket) :=
        decide_eq_decide.2 (not_congr hlike.closeBracket)
      rw [hsame]
      exact .ite (.part (.pure left)) (hrest q)

theorem parseWithin_lockstep :
    ∀ (n n' : Nat) (p : Power), n ≤ n' → (c.sameFuel → n = n') →
      Lockstep c .part (relabel c.labels) (parseWithin n p) (parseWithin n' p)
  | 0, 0, _, _, _ => .stuck
  | 0, _ + 1, _, _, heq => .outOfFuel fun he => by cases heq he
  | n + 1, n' + 1, p, hle, heq => by
    have hself := fun q => parseWithin_lockstep n n' q (by omega) fun he => by cases heq he; rfl
    refine .andPart (parsePrimary_lockstep hself) fun left => ?_
    exact .fuel fun i i' hi hieq => parseOperators_lockstep hself (i + 1) (i' + 1) left (by omega)
      fun he => by rw [hieq he]

/-- Reading a type goes in lockstep with itself. -/
theorem parse_lockstep (p : Power) : Lockstep c .part (relabel c.labels) (parse p) (parse p) :=
  .fuel fun n n' hle heq => parseWithin_lockstep (n + 1) (n' + 1) p (by omega) fun he => by
    rw [heq he]

end TypeRef

/-! ### Expressions -/

namespace Expr

variable {self self' : Power → Parse Expr} {p : Power} {left : Expr}

theorem parseAtom_lockstep (hc : c.drawing) :
    Lockstep c .part (relabel c.labels) parseAtom parseAtom := by
  refine .andPart (.freshId hc) fun id => ?_
  refine .andPart .current fun t => ?_
  dsimp only [Token.relabel_kind]
  cases t.kind
  case number => exact .andPart .number fun _ => .part (.result rfl)
  case text | kwTrue | kwFalse | kwNull | kwUndefined | identifier | kwThis =>
    exact .andPart (.discarded .advance) fun _ => .part (.result rfl)
  all_goals exact .unexpectedToken

theorem parseUnary_lockstep (hc : c.drawing)
    (hself : ∀ p, Lockstep c .part (relabel c.labels) (self p) (self' p)) :
    Lockstep c .part (relabel c.labels) (parseUnary self) (parseUnary self') := by
  refine .andPart .advance fun operator => ?_
  refine .andPart (hself .unary) fun operand => ?_
  refine .andPart (.freshId hc) fun id => .part (.result ?_)
  rw [span_relabel]; rfl

theorem parseGroup_lockstep (hself : ∀ p, Lockstep c .part (relabel c.labels) (self p) (self' p)) :
    Lockstep c .part (relabel c.labels) (parseGroup self) (parseGroup self') := by
  refine .andPart (.discarded .advance) fun _ => ?_
  refine .andPart (hself .lowest) fun e => ?_
  exact .andPart (.discarded (.expected .closeParen)) fun _ => .part (.pure e)

theorem parseArgs_lockstep (hself : ∀ p, Lockstep c .part (relabel c.labels) (self p) (self' p)) :
    Lockstep c .part (List.map (relabel c.labels)) (parseArgs self) (parseArgs self') := by
  refine .andPart (.discarded (.expected .openParen)) fun _ => ?_
  refine .andPart (.commaUntil fun _ => hself .comma) fun args => ?_
  exact .andPart (.discarded (.expected .closeParen)) fun _ => .part (.pure args)

theorem parseArray_lockstep (hc : c.drawing)
    (hself : ∀ p, Lockstep c .part (relabel c.labels) (self p) (self' p)) :
    Lockstep c .part (relabel c.labels) (parseArray self) (parseArray self') := by
  refine .andPart .advance fun first => ?_
  refine .andPart (.commaUntil fun _ => hself .comma) fun elements => ?_
  refine .andPart (.discarded (.expected .closeBracket)) fun _ => ?_
  refine .andPart (.spanFrom first.span.start) fun span => ?_
  refine .andPart (.freshId hc) fun id => .part (.result ?_)
  rw [relabel, relabelAll_eq_map]; rfl

theorem parseKey_lockstep (hself : ∀ p, Lockstep c .part (relabel c.labels) (self p) (self' p)) :
    Lockstep c .part (relabelKey c.labels) (parseKey self) (parseKey self') := by
  refine .andPart .kind fun k => ?_
  have hcomputed : Lockstep c .part (relabelKey c.labels)
      (do discard advance; let key ← self .lowest; discard (expect .closeBracket)
          return .computed key)
      (do discard advance; let key ← self' .lowest; discard (expect .closeBracket)
          return .computed key) := by
    refine .andPart (.discarded .advance) fun _ => ?_
    refine .andPart (hself .lowest) fun key => ?_
    exact .andPart (.discarded (.expected .closeBracket)) fun _ => .part (.result rfl)
  cases k
  case identifier | text => exact .andPart .advance fun _ => .part (.result rfl)
  case openBracket => exact hcomputed
  all_goals exact .unexpected _

theorem parseEntry_lockstep (hself : ∀ p, Lockstep c .part (relabel c.labels) (self p) (self' p)) :
    Lockstep c .part (relabelEntry c.labels) (parseEntry self) (parseEntry self') := by
  refine .andPart (parseKey_lockstep hself) fun key => ?_
  refine .andPart (.discarded (.expected .colon)) fun _ => ?_
  exact .andPart (hself .comma) fun _ => .part (.result rfl)

theorem parseObject_lockstep (hc : c.drawing)
    (hself : ∀ p, Lockstep c .part (relabel c.labels) (self p) (self' p)) :
    Lockstep c .part (relabel c.labels) (parseObject self) (parseObject self') := by
  refine .andPart .advance fun first => ?_
  refine .andPart (.commaUntil fun _ => parseEntry_lockstep hself) fun entries => ?_
  refine .andPart (.discarded (.expected .closeCurly)) fun _ => ?_
  refine .andPart (.spanFrom first.span.start) fun span => ?_
  refine .andPart (.freshId hc) fun id => .part (.result ?_)
  rw [relabel, relabelEntries_eq_map]; rfl

theorem parseConstruct_lockstep (hc : c.drawing)
    (hself : ∀ p, Lockstep c .part (relabel c.labels) (self p) (self' p)) :
    Lockstep c .part (relabel c.labels) (parseConstruct self) (parseConstruct self') := by
  refine .andPart .advance fun first => ?_
  refine .andPart (.expectedOr .identifier _) fun name => ?_
  refine .andPart (.freshId hc) fun classId => ?_
  refine .andPart (parseArgs_lockstep hself) fun args => ?_
  refine .andPart (.spanFrom first.span.start) fun span => ?_
  refine .andPart (.freshId hc) fun id => .part (.result ?_)
  rw [relabel, relabelAll_eq_map]; rfl

theorem parsePrimary_lockstep (hc : c.drawing)
    (hself : ∀ p, Lockstep c .part (relabel c.labels) (self p) (self' p)) :
    Lockstep c .part (relabel c.labels) (parsePrimary self) (parsePrimary self') := by
  refine .andPart .kind fun k => ?_
  have hunary := parseUnary_lockstep hc hself
  have hgroup := parseGroup_lockstep hself
  have harray := parseArray_lockstep hc hself
  have hobject := parseObject_lockstep hc hself
  have hconstruct := parseConstruct_lockstep hc hself
  cases k
  case number | identifier | text | kwTrue | kwFalse | kwNull | kwUndefined | kwThis =>
    exact parseAtom_lockstep hc
  case dash | bang | plusPlus | minusMinus => exact hunary
  case openParen => exact hgroup
  case openBracket => exact harray
  case openCurly => exact hobject
  case kwNew => exact hconstruct
  all_goals exact .unexpectedToken

theorem parseBinary_lockstep (hc : c.drawing)
    (hself : ∀ p, Lockstep c .part (relabel c.labels) (self p) (self' p)) :
    Lockstep c .part (relabel c.labels) (parseBinary self left p)
      (parseBinary self' (left.relabel c.labels) p) := by
  refine .andPart .advance fun operator => ?_
  refine .andPart (hself p) fun right => ?_
  refine .andPart (.freshId hc) fun id => .part (.result ?_)
  rw [span_relabel, span_relabel]; rfl

theorem parseAssign_lockstep (hc : c.drawing)
    (hself : ∀ p, Lockstep c .part (relabel c.labels) (self p) (self' p)) :
    Lockstep c .part (relabel c.labels) (parseAssign self left)
      (parseAssign self' (left.relabel c.labels)) := by
  refine .andPart .advance fun operator => ?_
  refine .andPart (hself .comma) fun value => ?_
  refine .andPart (.freshId hc) fun id => .part (.result ?_)
  rw [span_relabel, span_relabel]; rfl

theorem parseCall_lockstep (hc : c.drawing)
    (hself : ∀ p, Lockstep c .part (relabel c.labels) (self p) (self' p)) :
    Lockstep c .part (relabel c.labels) (parseCall self left)
      (parseCall self' (left.relabel c.labels)) := by
  refine .andPart (parseArgs_lockstep hself) fun args => ?_
  rw [span_relabel]
  refine .andPart (.spanFrom left.span.start) fun span => ?_
  refine .andPart (.freshId hc) fun id => .part (.result ?_)
  rw [relabel, relabelAll_eq_map]; rfl

theorem parseMember_lockstep (hc : c.drawing) :
    Lockstep c .part (relabel c.labels) (parseMember left) (parseMember (left.relabel c.labels)) := by
  refine .andPart (.discarded .advance) fun _ => ?_
  refine .andPart (.expectedOr .identifier _) fun name => ?_
  rw [span_relabel]
  refine .andPart (.spanFrom left.span.start) fun span => ?_
  exact .andPart (.freshId hc) fun id => .part (.result rfl)

theorem parseIndex_lockstep (hc : c.drawing)
    (hself : ∀ p, Lockstep c .part (relabel c.labels) (self p) (self' p)) :
    Lockstep c .part (relabel c.labels) (parseIndex self left)
      (parseIndex self' (left.relabel c.labels)) := by
  refine .andPart (.discarded .advance) fun _ => ?_
  refine .andPart (hself .lowest) fun key => ?_
  refine .andPart (.discarded (.expected .closeBracket)) fun _ => ?_
  rw [span_relabel]
  refine .andPart (.spanFrom left.span.start) fun span => ?_
  exact .andPart (.freshId hc) fun id => .part (.result rfl)

theorem parseOperator_lockstep (hc : c.drawing)
    (hself : ∀ p, Lockstep c .part (relabel c.labels) (self p) (self' p)) :
    Lockstep c .part (relabel c.labels) (parseOperator self left p)
      (parseOperator self' (left.relabel c.labels) p) := by
  cases p
  case assignment => exact parseAssign_lockstep hc hself
  case call => exact parseCall_lockstep hc hself
  case member =>
    exact .andPart .kind fun _ => .ite (parseMember_lockstep hc) (parseIndex_lockstep hc hself)
  all_goals exact parseBinary_lockstep hc hself

theorem parseOperators_lockstep (hc : c.drawing)
    (hself : ∀ p, Lockstep c .part (relabel c.labels) (self p) (self' p)) :
    ∀ (n n' : Nat) (left : Expr), n ≤ n' → (c.sameFuel → n = n') →
      Lockstep c .part (relabel c.labels) (parseOperators self p n left)
        (parseOperators self' p n' (left.relabel c.labels))
  | 0, 0, _, _, _ => .stuck
  | 0, _ + 1, _, _, heq => .outOfFuel fun he => by cases heq he
  | n + 1, n' + 1, left, hle, heq => by
    refine .andPart .kind fun k => ?_
    cases power? k with
    | none => exact .part (.pure left)
    | some q =>
      refine .ite (.part (.pure left)) ?_
      exact .andPart (parseOperator_lockstep hc hself) fun joined =>
        parseOperators_lockstep hc hself n n' joined (by omega) fun he => by cases heq he; rfl

theorem parseWithin_lockstep (hc : c.drawing) :
    ∀ (n n' : Nat) (p : Power), n ≤ n' → (c.sameFuel → n = n') →
      Lockstep c .part (relabel c.labels) (parseWithin n p) (parseWithin n' p)
  | 0, 0, _, _, _ => .stuck
  | 0, _ + 1, _, _, heq => .outOfFuel fun he => by cases heq he
  | n + 1, n' + 1, p, hle, heq => by
    have hself := fun q => parseWithin_lockstep hc n n' q (by omega) fun he => by cases heq he; rfl
    refine .andPart (parsePrimary_lockstep hc hself) fun left => ?_
    exact .fuel fun i i' hi hieq => parseOperators_lockstep hc hself (i + 1) (i' + 1) left (by omega)
      fun he => by rw [hieq he]

/-- Reading an expression goes in lockstep with itself. -/
theorem parse_lockstep (hc : c.drawing) (p : Power) :
    Lockstep c .part (relabel c.labels) (parse p) (parse p) :=
  .fuel fun n n' hle heq => parseWithin_lockstep hc (n + 1) (n' + 1) p (by omega) fun he => by
    rw [heq he]

end Expr

/-! ### Statements -/

namespace Stmt

variable {self self' : Parse Stmt}

theorem parseInitializer_lockstep (hc : c.drawing) :
    Lockstep c .part (Option.map (Expr.relabel c.labels)) parseInitializer parseInitializer := by
  refine .andPart .kind fun _ => .ite ?_ (.part (.pure none))
  refine .andPart (.discarded .advance) fun _ => ?_
  exact .andPart (Expr.parse_lockstep hc .lowest) fun e => .part (.result rfl)

theorem requireValue_lockstep (isConst : Bool) (type : Option TypeRef) (value : Option Expr) :
    Lockstep c .part (fun u => u) (requireValue isConst type value)
      (requireValue isConst (type.map (TypeRef.relabel c.labels))
        (value.map (Expr.relabel c.labels))) := by
  rw [requireValue, requireValue, Option.isNone_map, Option.isNone_map]
  exact .ite (.unexpected _) (.ite (.unexpected _) (.part (.pure ())))

theorem parseVariable_lockstep (hc : c.drawing) (start : Position) (isConst : Bool)
    (type : Option TypeRef) :
    Lockstep c .whole (relabel c.labels) (parseVariable start isConst type)
      (parseVariable (c.labels.place start) isConst (type.map (TypeRef.relabel c.labels))) := by
  refine .andWhole (.expectedOr .identifier _) fun name => ?_
  refine .andWhole (parseInitializer_lockstep hc) fun value => ?_
  refine .andWhole (requireValue_lockstep isConst type value) fun _ => ?_
  refine .andStill (.discarded (.close (by decide))) fun _ => ?_
  exact .andStill (.spanFrom start) fun span => .result rfl

theorem parseVarDecl_lockstep (hc : c.drawing) :
    Lockstep c .whole (relabel c.labels) parseVarDecl parseVarDecl := by
  refine .andWhole .advance fun first => ?_
  refine .andWhole .kind fun k => ?_
  refine .lookahead (by decide) fun t t' hlike => ?_
  rw [show decide (t = .assignment) = decide (t' = .assignment) from
    decide_eq_decide.2 hlike.assignment]
  refine .ite (parseVariable_lockstep hc _ _ none) ?_
  refine .andWhole (TypeRef.parse_lockstep .lowest) fun type => ?_
  exact parseVariable_lockstep hc _ _ (some type)

theorem parseBlockOf_lockstep (hself : Lockstep c .whole (relabel c.labels) self self') :
    Lockstep c .whole (Block.relabel c.labels) (parseBlockOf self) (parseBlockOf self') := by
  refine .andWhole (.expected .openCurly) fun first => ?_
  refine .andWhole (.manyUntil fun _ => hself.part) fun body => ?_
  refine .andStill (.discarded (.close (by decide))) fun _ => ?_
  exact .andStill (.spanFrom first.span.start) fun span => .result rfl

theorem parseIf_lockstep (hc : c.drawing) (hself : Lockstep c .whole (relabel c.labels) self self') :
    Lockstep c .whole (relabel c.labels) (parseIf self) (parseIf self') := by
  refine .andWhole .advance fun first => ?_
  refine .andWhole (Expr.parse_lockstep hc .lowest) fun condition => ?_
  refine .orElse hself (fun onTrue => ?_) (fun onTrue => ?_)
  · refine .andWhole (.discarded .advance) fun _ => ?_
    refine .andStill hself fun onFalse => ?_
    exact .andStill (.spanFrom first.span.start) fun span => .result rfl
  · exact .andStill (.spanFrom first.span.start) fun span => .result rfl

theorem parseWhile_lockstep (hc : c.drawing) (hself : Lockstep c .whole (relabel c.labels) self self') :
    Lockstep c .whole (relabel c.labels) (parseWhile self) (parseWhile self') := by
  refine .andWhole .advance fun first => ?_
  refine .andWhole (Expr.parse_lockstep hc .lowest) fun condition => ?_
  refine .andStill hself fun body => ?_
  exact .andStill (.spanFrom first.span.start) fun span => .result rfl

theorem parseFor_lockstep (hc : c.drawing) (hself : Lockstep c .whole (relabel c.labels) self self') :
    Lockstep c .whole (relabel c.labels) (parseFor self) (parseFor self') := by
  refine .andWhole .advance fun first => ?_
  refine .andWhole (.expectedOr .identifier _) fun name => ?_
  refine .andWhole (.discarded (.expected .kwIn)) fun _ => ?_
  refine .andWhole (Expr.parse_lockstep hc .lowest) fun iterable => ?_
  refine .andStill (parseBlockOf_lockstep hself) fun body => ?_
  refine .andStill (.spanFrom first.span.start) fun span => .result ?_
  rw [relabel, relabelAll_eq_map]; rfl

theorem parseParam_lockstep :
    Lockstep c .part (Param.relabel c.labels) parseParam parseParam := by
  refine .andPart .position fun start => ?_
  refine .andPart (TypeRef.parse_lockstep .lowest) fun type => ?_
  refine .andPart (.expectedOr .identifier _) fun name => ?_
  exact .andPart (.spanFrom start) fun span => .part (.result rfl)

theorem parseResult_lockstep :
    Lockstep c .part (Option.map (TypeRef.relabel c.labels)) parseResult parseResult := by
  refine .andPart .kind fun _ => .ite ?_ (.part (.pure none))
  refine .andPart (.discarded .advance) fun _ => ?_
  exact .andPart (TypeRef.parse_lockstep .lowest) fun type => .part (.result rfl)

theorem parseFn_lockstep (hself : Lockstep c .whole (relabel c.labels) self self') :
    Lockstep c .whole (relabelFn c.labels) (parseFn self) (parseFn self') := by
  refine .andWhole (.expected .kwFn) fun first => ?_
  refine .andWhole (.expectedOr .identifier _) fun name => ?_
  refine .andWhole (.discarded (.expected .openParen)) fun _ => ?_
  refine .andWhole (.commaUntil fun _ => parseParam_lockstep) fun params => ?_
  refine .andWhole (.discarded (.expected .closeParen)) fun _ => ?_
  refine .andWhole parseResult_lockstep fun result => ?_
  refine .andStill (parseBlockOf_lockstep hself) fun body => ?_
  refine .andStill (.spanFrom first.span.start) fun span => .result ?_
  rw [relabelFn, relabelAll_eq_map]; rfl

theorem parseReturn_lockstep (hc : c.drawing) :
    Lockstep c .whole (relabel c.labels) parseReturn parseReturn := by
  refine .andWhole .advance fun first => ?_
  refine .andWhole .kind fun _ => .ite ?_ ?_
  · refine .andStill (.discarded (.close (by decide))) fun _ => ?_
    exact .andStill (.spanFrom first.span.start) fun span => .result rfl
  · refine .andWhole (Expr.parse_lockstep hc .lowest) fun value => ?_
    refine .andStill (.discarded (.close (by decide))) fun _ => ?_
    exact .andStill (.spanFrom first.span.start) fun span => .result rfl

theorem parseJump_lockstep : Lockstep c .whole (relabel c.labels) parseJump parseJump := by
  refine .andWhole .advance fun t => ?_
  refine .andStill (.discarded (.close (by decide))) fun _ => ?_
  exact .andStill (.spanFrom t.span.start) fun span => .result rfl

theorem parseNames_lockstep :
    ∀ n n', n ≤ n' → (c.sameFuel → n = n') →
      Lockstep c .part (List.map (Name.relabel c.labels)) (parseNames n) (parseNames n')
  | 0, 0, _, _ => .stuck
  | 0, _ + 1, _, heq => .outOfFuel fun he => by cases heq he
  | n + 1, n' + 1, hle, heq => by
    refine .andPart (.expected .identifier) fun t => ?_
    refine .andPart .kind fun _ => .ite ?_ (.part (.result rfl))
    refine .andPart (.discarded .advance) fun _ => ?_
    refine .andPart (parseNames_lockstep n n' (by omega) fun he => by cases heq he; rfl)
      fun rest => ?_
    exact .part (.result rfl)

theorem parseSuperclass_lockstep :
    Lockstep c .part (Option.map (Name.relabel c.labels)) parseSuperclass parseSuperclass := by
  refine .andPart .kind fun _ => .ite ?_ (.part (.pure none))
  refine .andPart (.discarded .advance) fun _ => ?_
  exact .andPart (.expected .identifier) fun t => .part (.result rfl)

theorem parseMixins_lockstep :
    Lockstep c .part (List.map (Name.relabel c.labels)) parseMixins parseMixins := by
  refine .andPart .kind fun _ => .ite ?_ (.part (.pure []))
  refine .andPart (.discarded .advance) fun _ => ?_
  exact .fuel fun n n' hle heq => parseNames_lockstep (n + 1) (n' + 1) (by omega) fun he => by
    rw [heq he]

theorem parseModifiers_lockstep :
    ∀ n n' m, n ≤ n' → (c.sameFuel → n = n') →
      Lockstep c .part (fun m => m) (parseModifiers n m) (parseModifiers n' m)
  | 0, 0, _, _, _ => .stuck
  | 0, _ + 1, _, _, heq => .outOfFuel fun he => by cases heq he
  | n + 1, n' + 1, m, hle, heq => by
    refine .andPart .kind fun k => ?_
    cases addModifier? m k with
    | none => exact .part (.pure m)
    | some m' =>
      refine .andPart (.discarded .advance) fun _ => ?_
      exact parseModifiers_lockstep n n' m' (by omega) fun he => by cases heq he; rfl

theorem parseMember_lockstep (hc : c.drawing)
    (hself : Lockstep c .whole (relabel c.labels) self self') :
    Lockstep c .part (Sum.map (FieldDecl.relabel c.labels) (relabelMethod c.labels)) (parseMember self)
      (parseMember self') := by
  refine .andPart .position fun start => ?_
  refine .fuel fun n n' hle heq => ?_
  refine .andPart (parseModifiers_lockstep (n + 1) (n' + 1) .none (by omega) fun he => by
    rw [heq he]) fun modifiers => ?_
  refine .andPart .kind fun _ => .ite ?_ ?_
  · exact .andPart (parseFn_lockstep hself) fun function => .part (.result rfl)
  · refine .andPart (TypeRef.parse_lockstep .lowest) fun type => ?_
    refine .andPart (.expectedOr .identifier _) fun name => ?_
    refine .andPart (parseInitializer_lockstep hc) fun value => ?_
    refine .andPart (.discarded (.expected .semicolon)) fun _ => ?_
    exact .andPart (.spanFrom start) fun span => .part (.result rfl)

theorem parseClass_lockstep (hc : c.drawing) (hself : Lockstep c .whole (relabel c.labels) self self') :
    Lockstep c .whole (relabel c.labels) (parseClass self) (parseClass self') := by
  refine .andWhole .advance fun first => ?_
  refine .andWhole (.expectedOr .identifier _) fun name => ?_
  refine .andWhole (.register name.value) fun _ => ?_
  refine .andWhole parseSuperclass_lockstep fun superclass => ?_
  refine .andWhole parseMixins_lockstep fun mixins => ?_
  refine .andWhole (.discarded (.expected .openCurly)) fun _ => ?_
  refine .andWhole (.manyUntil fun _ => parseMember_lockstep hc hself) fun members => ?_
  refine .andStill (.discarded (.close (by decide))) fun _ => ?_
  refine .andStill (.spanFrom first.span.start) fun span => .result ?_
  rw [filterMap_getLeft?_map, filterMap_getRight?_map, relabel, relabelMethods_eq_map]; rfl

theorem parseInterface_lockstep :
    Lockstep c .whole (relabel c.labels) parseInterface parseInterface := by
  refine .andWhole .advance fun first => ?_
  refine .andWhole (.expectedOr .identifier _) fun name => ?_
  refine .andWhole (.register name.value) fun _ => ?_
  refine .andStill (TypeRef.parseInterface_lockstep TypeRef.parse_lockstep) fun type => ?_
  exact .andStill (.spanFrom first.span.start) fun span => .result rfl

theorem parseTypeDecl_lockstep :
    Lockstep c .whole (relabel c.labels) parseTypeDecl parseTypeDecl := by
  refine .andWhole .advance fun first => ?_
  refine .andWhole (.expectedOr .identifier _) fun name => ?_
  refine .andWhole (.register name.value) fun _ => ?_
  refine .andWhole (.discarded (.expected .assignment)) fun _ => ?_
  refine .andWhole (TypeRef.parse_lockstep .lowest) fun type => ?_
  refine .andStill (.discarded (.close (by decide))) fun _ => ?_
  exact .andStill (.spanFrom first.span.start) fun span => .result rfl

theorem parseTyped_lockstep (hc : c.drawing) :
    Lockstep c .whole (relabel c.labels) parseTyped parseTyped := by
  refine .andWhole .position fun start => ?_
  refine .andWhole (TypeRef.parse_lockstep .lowest) fun type => ?_
  exact parseVariable_lockstep hc start false (some type)

theorem parseExpr_lockstep (hc : c.drawing) :
    Lockstep c .whole (relabel c.labels) parseExpr parseExpr := by
  refine .andWhole (Expr.parse_lockstep hc .lowest) fun e => ?_
  refine .andStill (.discarded (.close (by decide))) fun _ => ?_
  rw [Expr.span_relabel]
  exact .andStill (.spanFrom e.span.start) fun span => .result rfl

theorem parseBlockStmt_lockstep (hself : Lockstep c .whole (relabel c.labels) self self') :
    Lockstep c .whole (relabel c.labels) (parseBlockStmt self) (parseBlockStmt self') := by
  refine .andStill (parseBlockOf_lockstep hself) fun block => .result ?_
  rw [relabel, relabelAll_eq_map]; rfl

theorem parseStep_lockstep (hc : c.drawing) (hself : Lockstep c .whole (relabel c.labels) self self') :
    Lockstep c .whole (relabel c.labels) (parseStep self) (parseStep self') := by
  refine .andWhole .kind fun k => ?_
  have hif := parseIf_lockstep hc hself
  have hwhile := parseWhile_lockstep hc hself
  have hfor := parseFor_lockstep hc hself
  have hblock := parseBlockStmt_lockstep hself
  have hfn : Lockstep c .whole (relabel c.labels) (do return .fnDecl (← parseFn self))
      (do return .fnDecl (← parseFn self')) :=
    .andStill (parseFn_lockstep hself) fun function => .result rfl
  have hclass := parseClass_lockstep hc hself
  have hplain : Lockstep c .whole (relabel c.labels) parsePlain parsePlain :=
    .plain (parseTyped_lockstep hc) (parseExpr_lockstep hc)
  cases k
  case kwConst | kwLet => exact parseVarDecl_lockstep hc
  case kwIf => exact hif
  case kwWhile => exact hwhile
  case kwFor => exact hfor
  case openCurly => exact hblock
  case kwFn => exact hfn
  case kwReturn => exact parseReturn_lockstep hc
  case kwBreak | kwContinue => exact parseJump_lockstep
  case kwClass => exact hclass
  case kwInterface => exact parseInterface_lockstep
  case kwType => exact parseTypeDecl_lockstep
  all_goals exact hplain

theorem parseWithin_lockstep (hc : c.drawing) :
    ∀ n n', n ≤ n' → (c.sameFuel → n = n') →
      Lockstep c .whole (relabel c.labels) (parseWithin n) (parseWithin n')
  | 0, 0, _, _ => .stuck
  | 0, _ + 1, _, heq => .outOfFuel fun he => by cases heq he
  | n + 1, n' + 1, hle, heq =>
    parseStep_lockstep hc (parseWithin_lockstep hc n n' (by omega) fun he => by cases heq he; rfl)

/-- Reading a statement goes in lockstep with itself. -/
theorem parse_lockstep (hc : c.drawing) : Lockstep c .whole (relabel c.labels) parse parse :=
  .fuel fun n n' hle heq => parseWithin_lockstep hc (n + 1) (n' + 1) (by omega) fun he => by
    rw [heq he]

end Stmt

/-- Reading a program goes in lockstep with itself. -/
theorem Block.parseFrom_lockstep {c : Terms} (hc : c.drawing) (start : Position) :
    Lockstep c .part (Block.relabel c.labels) (parseFrom start) (parseFrom (c.labels.place start)) := by
  refine .andPart (.manyUntil fun _ => (Stmt.parse_lockstep hc).part) fun body => ?_
  exact .andPart (.spanFrom start) fun span => .part (.result rfl)

/-- What reading a program keeps to. -/
theorem Block.parse_outcome (s : TokenStream) :
    OutcomeFrom ⟨.same, True, True⟩ s (Block.parse s) :=
  (Block.parseFrom_lockstep (c := ⟨.same, True, True⟩) trivial ⟨0, s.file⟩).outcome s

end ScriptCheck
