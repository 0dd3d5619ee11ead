import ScriptCheck.Contract

/-!
The contracts of a program, as a list of rules. Each part of a bound tree has its own rules and its
parts from left to right; the rules of a program are those of its parts, each part after the parts
it is made of. Main statement: a program is accepted if and only if every rule of every part that
occurs in it holds, and otherwise the first rule that fails is reported.
-/

namespace ScriptCheck

/-! ### Rules -/

/-- One thing that a part of a tree has to keep. -/
inductive Rule where
  /-- A received type goes into the expected one. -/
  | goesInto (received expected : Ty) (place : Position) (cause : String → String → Cause)
  /-- Two operands go into the operand types of their operator. -/
  | operands (use : BinaryOperator) (left right : BoundExpr)
  /-- An operand goes into the operand type of its operator. -/
  | operand (use : UnaryOperator) (e : BoundExpr) (place : Position)
  /-- Two operands can be equal. -/
  | comparable (left right : BoundExpr) (place : Position)
  /-- There are as many arguments as parameters. -/
  | arity (expected received : Nat) (place : Position)

namespace Rule

/-- What a rule demands. -/
def Holds : Rule → Prop
  | .goesInto received expected _ _ => received.isAssignableTo expected
  | .operands use left right =>
    left.type.isAssignableTo use.left ∧ right.type.isAssignableTo use.right
  | .operand use e _ => e.type.isAssignableTo use.operand
  | .comparable left right _ => left.type.isComparableWith right.type
  | .arity expected received _ => received = expected

instance : DecidablePred Holds
  | .goesInto received expected _ _ => inferInstanceAs (Decidable (received.isAssignableTo expected))
  | .operands use left right => inferInstanceAs
      (Decidable (left.type.isAssignableTo use.left ∧ right.type.isAssignableTo use.right))
  | .operand use e _ => inferInstanceAs (Decidable (e.type.isAssignableTo use.operand))
  | .comparable left right _ => inferInstanceAs (Decidable (left.type.isComparableWith right.type))
  | .arity expected received _ => inferInstanceAs (Decidable (received = expected))

/-- How a violation is reported: received types are widened, and operands are reported where the
left one starts. -/
def report : Rule → Diagnostic
  | .goesInto received expected place cause =>
    ⟨cause expected.display received.widened.display, place⟩
  | .operands use left right =>
    ⟨.operatorMismatch use.kind.symbol
      (left.type.widened.display ++ ", " ++ right.type.widened.display), left.span.start⟩
  | .operand use e place => ⟨.operatorMismatch use.kind.symbol e.type.widened.display, place⟩
  | .comparable left right place =>
    ⟨.incomparableOperands left.type.widened.display right.type.widened.display, place⟩
  | .arity expected received place =>
    if expected < received then ⟨.unexpectedArguments expected received, place⟩
    else ⟨.missingArguments expected received, place⟩

/-- Rejects a violation. -/
def check (r : Rule) : Check := if r.Holds then .ok () else .error r.report

theorem check_of_holds {r : Rule} (h : r.Holds) : r.check = .ok () := if_pos h

theorem check_of_violated {r : Rule} (h : ¬ r.Holds) : r.check = .error r.report := if_neg h

end Rule

/-- The rules of arguments: first their number, then each argument against its parameter. -/
def argumentRules (params : List (String × Ty)) (args : List BoundExpr) (place : Position) :
    List Rule :=
  .arity params.length args.length place ::
    params.zipWith (fun p a => .goesInto a.type p.2 a.span.start .argumentMismatch) args

/-! ### Parts -/

/-- A part of a tree that is checked; a statement comes with the result of the innermost function
around it. -/
inductive Part where
  | expr (e : BoundExpr)
  | field (f : BoundField)
  | stmt (expected : Option Ty) (s : BoundStmt)

/-- The expressions in a key. -/
def BoundKey.parts : BoundKey BoundExpr → List Part
  | .name _ => []
  | .computed e => [.expr e]

/-- The expressions in an entry. -/
def BoundEntry.parts (entry : BoundEntry BoundExpr) : List Part := entry.key.parts ++ [.expr entry.value]

/-- The statements of a function, which return its result. -/
def BoundFn.parts (f : BoundFn BoundStmt) : List Part := f.body.map (.stmt (some f.signature.result))

/-- What an expression is made of, from left to right. -/
def BoundExpr.parts : BoundExpr → List Part
  | .literal _ _ | .keyword _ _ | .symbol _ _ _ => []
  | .array _ elements => elements.map .expr
  | .object _ entries => entries.flatMap BoundEntry.parts
  | .binary _ _ left right => [.expr left, .expr right]
  | .unary _ _ operand => [.expr operand]
  | .assign _ _ target value => [.expr target, .expr value]
  | .access _ receiver key _ => .expr receiver :: key.parts
  | .call _ callee args => .expr callee :: args.map .expr
  | .construct _ _ args => args.map .expr

/-- What a statement is made of, from left to right. -/
def BoundStmt.parts (expected : Option Ty) : BoundStmt → List Part
  | .expr _ e => [.expr e]
  | .block _ body => body.map (.stmt expected)
  | .varDecl _ _ _ value _ => value.toList.map .expr
  | .ifElse _ condition onTrue onFalse =>
    .expr condition :: .stmt expected onTrue :: onFalse.toList.map (.stmt expected)
  | .whileLoop _ condition body => [.expr condition, .stmt expected body]
  | .forIn _ _ _ iterable body => .expr iterable :: body.map (.stmt expected)
  | .fnDecl _ f => f.parts
  | .ret _ value => value.toList.map .expr
  | .classDecl _ _ fields methods => fields.map .field ++ methods.flatMap BoundFn.parts
  | .jump _ _ | .typeDecl _ _ _ => []

/-- The rules of an expression itself. -/
def BoundExpr.rules : BoundExpr → List Rule
  | .binary node use left right =>
    .operands use left right ::
      if use.kind.comparesOperands then [.comparable left right node.span.start] else []
  | .unary node use operand => [.operand use operand node.span.start]
  | .assign _ none target value =>
    [.goesInto value.type target.type value.span.start .typeMismatch]
  | .assign node (some use) target value =>
    [.operands use target value,
     .goesInto use.result target.type node.span.start .typeMismatch]
  | .access _ receiver (.computed key) _ =>
    if receiver.type.widened.isArray || receiver.type.widened.isNamed "string" then
      [.goesInto key.type .int key.span.start .typeMismatch]
    else []
  | .call node callee args =>
    match callee.type with
    | .function f => argumentRules f.params args node.span.start
    | _ => []
  | .construct node c args =>
    match c.findMember? "constructor" with
    | some ⟨⟨_, .function f, _, _⟩, _⟩ => argumentRules f.params args node.span.start
    | _ => argumentRules [] args node.span.start
  | _ => []

/-- The rule of an initial value. -/
def initializerRules (type : Ty) (cause : String → String → Cause) (value : Option BoundExpr) :
    List Rule :=
  value.toList.map fun v => .goesInto v.type type v.span.start cause

/-- The rules of a statement itself. A bare return returns nothing at all. -/
def BoundStmt.rules (expected : Option Ty) : BoundStmt → List Rule
  | .varDecl _ _ type value _ => initializerRules type .typeMismatch value
  | .ret _ (some value) =>
    expected.toList.map fun t => .goesInto value.type t value.span.start .returnMismatch
  | .ret info none =>
    expected.toList.map fun t => .goesInto .void t info.span.start .returnMismatch
  | _ => []

namespace Part

/-- What a part is made of, from left to right. -/
def parts : Part → List Part
  | .expr e => e.parts
  | .field f => f.value.toList.map .expr
  | .stmt expected s => s.parts expected

/-- The rules of a part itself. -/
def rules : Part → List Rule
  | .expr e => e.rules
  | .field f => initializerRules f.type .fieldMismatch f.value
  | .stmt expected s => s.rules expected

/-- Checks a part with all it is made of. -/
def check : Part → Check
  | .expr e => e.check
  | .field f => checkInitializer f.type .fieldMismatch f.value
  | .stmt expected s => s.check expected

/-- The size of a part, whatever is expected of it. -/
noncomputable def weight : Part → Nat
  | .expr e => sizeOf e
  | .field f => sizeOf f
  | .stmt _ s => sizeOf s

end Part

/-! ### The order of the parts -/

section Weights

variable {p : Part}

theorem weight_lt_of_mem_exprs {es : List BoundExpr} (h : p ∈ es.map .expr) :
    p.weight < sizeOf es := by
  obtain ⟨e, he, rfl⟩ := List.mem_map.1 h
  exact List.sizeOf_lt_of_mem he

theorem weight_lt_of_mem_value {value : Option BoundExpr} (h : p ∈ value.toList.map .expr) :
    p.weight < sizeOf value := by
  obtain ⟨e, he, rfl⟩ := List.mem_map.1 h
  rw [Option.mem_toList.1 he, Option.some.sizeOf_spec]
  simp only [Part.weight]
  omega

theorem weight_lt_of_mem_stmts {expected : Option Ty} {ss : List BoundStmt}
    (h : p ∈ ss.map (.stmt expected)) : p.weight < sizeOf ss := by
  obtain ⟨s, hs, rfl⟩ := List.mem_map.1 h
  exact List.sizeOf_lt_of_mem hs

theorem BoundKey.weight_lt_of_mem_parts {k : BoundKey BoundExpr} (h : p ∈ k.parts) :
    p.weight < sizeOf k := by
  cases k with
  | name _ => simp [parts] at h
  | computed e =>
    obtain rfl : p = .expr e := by simpa [parts] using h
    simp [Part.weight]

theorem BoundEntry.weight_lt_of_mem_parts {entry : BoundEntry BoundExpr} (h : p ∈ entry.parts) :
    p.weight < sizeOf entry := by
  rcases entry with ⟨key, value⟩
  simp only [BoundEntry.mk.sizeOf_spec]
  rcases List.mem_append.1 h with h | h
  · have : p.weight < sizeOf key := BoundKey.weight_lt_of_mem_parts h
    omega
  · obtain rfl : p = .expr value := by simpa using h
    simp only [Part.weight]
    omega

theorem BoundFn.weight_lt_of_mem_parts {f : BoundFn BoundStmt} (h : p ∈ f.parts) :
    p.weight < sizeOf f := by
  rcases f with ⟨name, signature, body⟩
  have : p.weight < sizeOf body := weight_lt_of_mem_stmts h
  simp only [BoundFn.mk.sizeOf_spec]
  omega

theorem BoundField.weight_lt_of_mem_parts {f : BoundField} (h : p ∈ f.value.toList.map .expr) :
    p.weight < sizeOf f := by
  rcases f with ⟨name, type, value⟩
  have : p.weight < sizeOf value := weight_lt_of_mem_value h
  simp only [BoundField.mk.sizeOf_spec]
  omega

theorem BoundExpr.weight_lt_of_mem_parts {e : BoundExpr} (h : p ∈ e.parts) :
    p.weight < sizeOf e := by
  cases e with simp only [parts, List.mem_cons, List.not_mem_nil, or_false] at h
  | array _ elements | construct _ _ elements =>
    have := weight_lt_of_mem_exprs h
    simp only [array.sizeOf_spec, construct.sizeOf_spec]
    omega
  | object _ entries =>
    obtain ⟨entry, hentry, hp⟩ := List.mem_flatMap.1 h
    have := List.sizeOf_lt_of_mem hentry
    have := BoundEntry.weight_lt_of_mem_parts hp
    simp only [object.sizeOf_spec]
    omega
  | binary _ _ left right | assign _ _ left right =>
    rcases h with rfl | rfl <;>
      simp only [Part.weight, binary.sizeOf_spec, assign.sizeOf_spec] <;> omega
  | unary _ _ operand =>
    rw [h, unary.sizeOf_spec, Part.weight]
    omega
  | access _ receiver key _ =>
    rw [access.sizeOf_spec]
    rcases h with rfl | h
    · rw [Part.weight]
      omega
    · have := BoundKey.weight_lt_of_mem_parts h
      omega
  | call _ callee args =>
    rw [call.sizeOf_spec]
    rcases h with rfl | h
    · rw [Part.weight]
      omega
    · have := weight_lt_of_mem_exprs h
      omega

theorem BoundStmt.weight_lt_of_mem_parts {expected : Option Ty} {s : BoundStmt}
    (h : p ∈ s.parts expected) : p.weight < sizeOf s := by
  cases s with simp only [parts, List.mem_cons, List.not_mem_nil, or_false] at h
  | expr _ e =>
    rw [h, expr.sizeOf_spec, Part.weight]
    omega
  | block _ body =>
    have := weight_lt_of_mem_stmts h
    rw [block.sizeOf_spec]
    omega
  | varDecl _ _ _ value _ | ret _ value =>
    have := weight_lt_of_mem_value h
    simp only [varDecl.sizeOf_spec, ret.sizeOf_spec]
    omega
  | ifElse _ condition onTrue onFalse =>
    rw [ifElse.sizeOf_spec]
    rcases h with rfl | rfl | h
    · rw [Part.weight]
      omega
    · rw [Part.weight]
      omega
    · obtain ⟨s, hs, rfl⟩ := List.mem_map.1 h
      rw [Option.mem_toList.1 hs, Option.some.sizeOf_spec, Part.weight]
      omega
  | whileLoop _ condition body =>
    rcases h with rfl | rfl <;> rw [Part.weight, whileLoop.sizeOf_spec] <;> omega
  | forIn _ _ _ iterable body =>
    rw [forIn.sizeOf_spec]
    rcases h with rfl | h
    · rw [Part.weight]
      omega
    · have := weight_lt_of_mem_stmts h
      omega
  | fnDecl _ f =>
    have := BoundFn.weight_lt_of_mem_parts h
    rw [fnDecl.sizeOf_spec]
    omega
  | classDecl _ c fields methods =>
    rw [classDecl.sizeOf_spec]
    rcases List.mem_append.1 h with h | h
    · obtain ⟨f, hf, rfl⟩ := List.mem_map.1 h
      have := List.sizeOf_lt_of_mem hf
      rw [Part.weight]
      omega
    · obtain ⟨f, hf, hp⟩ := List.mem_flatMap.1 h
      have := List.sizeOf_lt_of_mem hf
      have := BoundFn.weight_lt_of_mem_parts hp
      omega

end Weights

namespace Part

theorem weight_lt_of_mem_parts {p q : Part} (h : q ∈ p.parts) : q.weight < p.weight := by
  cases p with
  | expr e => exact BoundExpr.weight_lt_of_mem_parts h
  | field f => exact BoundField.weight_lt_of_mem_parts h
  | stmt expected s => exact BoundStmt.weight_lt_of_mem_parts h

/-- All parts in a part, each after the parts it is made of and those from left to right. -/
def postorder (p : Part) : List Part := p.parts.attach.flatMap (fun q => postorder q.1) ++ [p]
termination_by p.weight
decreasing_by exact weight_lt_of_mem_parts q.2

theorem postorder_eq (p : Part) : p.postorder = p.parts.flatMap postorder ++ [p] := by
  rw [postorder, List.flatMap_subtype fun _ _ => rfl, List.unattach_attach]

end Part

/-- A part occurs among others if it is one of them or stands anywhere inside of one. -/
inductive Occurs (among : List Part) : Part → Prop
  | top {p : Part} (h : p ∈ among) : Occurs among p
  | inside {p q : Part} (hp : Occurs among p) (hq : q ∈ p.parts) : Occurs among q

namespace Part

theorem occurs_of_mem_postorder {among : List Part} (p : Part) (hp : Occurs among p) :
    ∀ q ∈ p.postorder, Occurs among q := by
  intro q hq
  rw [postorder_eq, List.mem_append, List.mem_singleton] at hq
  rcases hq with hq | rfl
  · obtain ⟨c, hc, hq⟩ := List.mem_flatMap.1 hq
    exact occurs_of_mem_postorder c (hp.inside hc) q hq
  · exact hp
termination_by p.weight
decreasing_by exact weight_lt_of_mem_parts hc

theorem self_mem_postorder (p : Part) : p ∈ p.postorder := by simp [postorder_eq p]

/-- What a part in the order is made of is in the order too. -/
theorem parts_subset_postorder (p : Part) :
    ∀ q ∈ p.postorder, ∀ c ∈ q.parts, c ∈ p.postorder := by
  intro q hq c hc
  rw [postorder_eq, List.mem_append, List.mem_singleton] at hq
  rw [postorder_eq]
  refine List.mem_append_left _ (List.mem_flatMap.2 ?_)
  rcases hq with hq | rfl
  · obtain ⟨x, hx, hq⟩ := List.mem_flatMap.1 hq
    exact ⟨x, hx, parts_subset_postorder x q hq c hc⟩
  · exact ⟨c, hc, self_mem_postorder c⟩
termination_by p.weight
decreasing_by exact weight_lt_of_mem_parts hx

theorem mem_postorder_iff {among : List Part} {p : Part} :
    p ∈ among.flatMap postorder ↔ Occurs among p := by
  constructor
  · intro h
    obtain ⟨q, hq, hp⟩ := List.mem_flatMap.1 h
    exact occurs_of_mem_postorder q (.top hq) p hp
  · intro h
    induction h with
    | top h => exact List.mem_flatMap.2 ⟨_, h, self_mem_postorder _⟩
    | inside _ hq ih =>
      obtain ⟨x, hx, hp⟩ := List.mem_flatMap.1 ih
      exact List.mem_flatMap.2 ⟨x, hx, parts_subset_postorder x _ hp _ hq⟩

end Part

/-! ### Checks in a row -/

theorem forM_check_eq_ok : ∀ {rs : List Rule}, forM rs Rule.check = .ok () ↔ ∀ r ∈ rs, r.Holds
  | [] => by simp [pure, Except.pure]
  | r :: rs => by
    rw [List.forM_cons, List.forall_mem_cons]
    by_cases h : r.Holds
    · rw [Rule.check_of_holds h]
      exact forM_check_eq_ok.trans (and_iff_right h).symm
    · rw [Rule.check_of_violated h]
      exact iff_of_false nofun fun h' => h h'.1

theorem forM_check_eq_error {d : Diagnostic} : ∀ {rs : List Rule},
    forM rs Rule.check = .error d ↔
      ∃ before r after, rs = before ++ r :: after ∧ (∀ q ∈ before, q.Holds) ∧ ¬ r.Holds ∧
        d = r.report
  | [] => by simp [pure, Except.pure]
  | r :: rs => by
    rw [List.forM_cons]
    by_cases h : r.Holds
    · rw [Rule.check_of_holds h]
      refine forM_check_eq_error.trans ⟨?_, ?_⟩
      · rintro ⟨before, q, after, rfl, hbefore, hq, hd⟩
        exact ⟨r :: before, q, after, rfl, List.forall_mem_cons.2 ⟨h, hbefore⟩, hq, hd⟩
      · rintro ⟨_ | ⟨r', before⟩, q, after, heq, hbefore, hq, hd⟩
        · obtain ⟨rfl, -⟩ := List.cons.inj heq
          exact absurd h hq
        · obtain ⟨rfl, rfl⟩ := List.cons.inj heq
          exact ⟨before, q, after, rfl, (List.forall_mem_cons.1 hbefore).2, hq, hd⟩
    · rw [Rule.check_of_violated h]
      constructor
      · rintro ⟨⟩
        exact ⟨[], r, rs, rfl, nofun, h, rfl⟩
      · rintro ⟨_ | ⟨r', before⟩, q, after, heq, hbefore, hq, rfl⟩
        · obtain ⟨rfl, -⟩ := List.cons.inj heq
          rfl
        · obtain ⟨rfl, -⟩ := List.cons.inj heq
          exact absurd (List.forall_mem_cons.1 hbefore).1 h

/-! ### One part -/

theorem ok_eq_pure : (.ok () : Check) = pure () := rfl

theorem expectInto_eq (received expected : Ty) (place : Position)
    (cause : String → String → Cause) :
    expectInto received expected place cause = (Rule.goesInto received expected place cause).check :=
  rfl

theorem checkOperands_eq (use : BinaryOperator) (left right : BoundExpr) :
    checkOperands use left right = (Rule.operands use left right).check := by
  by_cases h : (Rule.operands use left right).Holds
  · rw [Rule.check_of_holds h, checkOperands, if_pos (by rw [h.1, h.2]; rfl)]
  · rw [Rule.check_of_violated h, checkOperands, if_neg fun h' => h (Bool.and_eq_true_iff.1 h')]
    rfl

theorem checkComparable_eq (use : BinaryOperator) (left right : BoundExpr) (place : Position) :
    checkComparable use left right place =
      forM (if use.kind.comparesOperands then [Rule.comparable left right place] else [])
        Rule.check := by
  cases hc : use.kind.comparesOperands with
  | false => simp [checkComparable, hc, ok_eq_pure]
  | true =>
    by_cases h : (Rule.comparable left right place).Holds
    · have h' : left.type.isComparableWith right.type = true := h
      simp [checkComparable, hc, h', Rule.check_of_holds h, ok_eq_pure]
    · have h' : ¬ left.type.isComparableWith right.type = true := h
      simp [checkComparable, hc, h', Rule.check_of_violated h, Rule.report, bind, Except.bind]

theorem checkOperand_eq (use : UnaryOperator) (e : BoundExpr) (place : Position) :
    checkOperand use e place = (Rule.operand use e place).check := rfl

theorem checkEach_eq : ∀ (params : List (String × Ty)) (args : List BoundExpr),
    checkEach params args =
      forM (params.zipWith (fun p a => .goesInto a.type p.2 a.span.start .argumentMismatch) args)
        Rule.check
  | [], _ => rfl
  | _ :: _, [] => rfl
  | p :: ps, a :: as => by
    rw [checkEach, checkEach_eq ps as, List.zipWith_cons_cons, List.forM_cons, expectInto_eq]

theorem checkArguments_eq (f : Signature Ty) (args : List BoundExpr) (place : Position) :
    checkArguments f args place = forM (argumentRules f.params args place) Rule.check := by
  rw [argumentRules, List.forM_cons, ← checkEach_eq, checkArguments]
  by_cases h : (Rule.arity f.params.length args.length place).Holds
  · have h' : args.length = f.params.length := h
    rw [Rule.check_of_holds h]
    simp [h', ok_eq_pure]
  · have h' : ¬ args.length = f.params.length := h
    rw [Rule.check_of_violated h, Rule.report]
    by_cases hlt : f.params.length < args.length
    · simp [hlt, throw, throwThe, MonadExceptOf.throw, bind, Except.bind]
    · have hgt : args.length < f.params.length := by omega
      simp [hlt, hgt, throw, throwThe, MonadExceptOf.throw, bind, Except.bind]

theorem checkCall_eq (node : BoundNode) (callee : BoundExpr) (args : List BoundExpr) :
    checkCall callee args node.span.start =
      forM (BoundExpr.call node callee args).rules Rule.check := by
  simp only [checkCall, BoundExpr.rules]
  cases callee.type with
  | function f => exact checkArguments_eq f args node.span.start
  | _ => rfl

theorem checkConstruct_eq (node : BoundNode) (c : ClassDef Ty) (args : List BoundExpr) :
    checkConstruct c args node.span.start =
      forM (BoundExpr.construct node c args).rules Rule.check := by
  -- without a constructor the arguments are those of an empty list of parameters
  have hnone : (if args.isEmpty then .ok ()
      else .error ⟨.unexpectedArguments 0 args.length, node.span.start⟩ : Check) =
      forM (argumentRules [] args node.span.start) Rule.check := by
    cases args <;> rfl
  simp only [checkConstruct, BoundExpr.rules]
  rcases c.findMember? "constructor" with _ | ⟨⟨_, type, _, _⟩, _⟩
  · exact hnone
  · cases type with
    | function f => exact checkArguments_eq f args node.span.start
    | _ => exact hnone

theorem checkAll_eq (es : List BoundExpr) :
    BoundExpr.checkAll es = forM (es.map .expr) Part.check := by
  induction es with
  | nil => rfl
  | cons e es ih => rw [BoundExpr.checkAll, ih, List.map_cons, List.forM_cons, Part.check]

theorem checkEntryKey_eq (key : BoundKey BoundExpr) :
    BoundExpr.checkEntryKey key = forM key.parts Part.check := by
  cases key with
  | name _ => rfl
  | computed e => simp [BoundExpr.checkEntryKey, BoundKey.parts, Part.check]

theorem checkEntries_eq (entries : List (BoundEntry BoundExpr)) :
    BoundExpr.checkEntries entries = forM (entries.flatMap BoundEntry.parts) Part.check := by
  induction entries with
  | nil => rfl
  | cons entry entries ih =>
    simp [BoundExpr.checkEntries, BoundEntry.parts, checkEntryKey_eq, ih, Part.check]

theorem checkKey_eq (node : BoundNode) (receiver : BoundExpr) (key : BoundKey BoundExpr)
    (isExtension : Bool) :
    BoundExpr.checkKey receiver key =
      forM key.parts Part.check >>= fun _ =>
        forM (BoundExpr.access node receiver key isExtension).rules Rule.check := by
  cases key with
  | name _ => rfl
  | computed e =>
    simp only [BoundExpr.checkKey, BoundKey.parts, BoundExpr.rules, checkIndex, expectInto_eq]
    split <;> simp [Part.check, ok_eq_pure]

theorem checkInitializer_eq (type : Ty) (cause : String → String → Cause)
    (value : Option BoundExpr) :
    checkInitializer type cause value =
      forM (value.toList.map .expr) Part.check >>= fun _ =>
        forM (initializerRules type cause value) Rule.check := by
  cases value with
  | none => rfl
  | some v => simp [checkInitializer, initializerRules, Part.check, expectInto_eq]

theorem checkReturn_eq (expected : Option Ty) (info : BoundInfo) (value : Option BoundExpr) :
    checkReturn expected info.span.start value =
      forM (value.toList.map .expr) Part.check >>= fun _ =>
        forM ((BoundStmt.ret info value).rules expected) Rule.check := by
  cases value <;> cases expected <;>
    simp [checkReturn, BoundStmt.rules, Part.check, expectInto_eq, ok_eq_pure]

theorem checkStmts_eq (expected : Option Ty) (ss : List BoundStmt) :
    BoundStmt.checkAll expected ss = forM (ss.map (.stmt expected)) Part.check := by
  induction ss with
  | nil => rfl
  | cons s ss ih => rw [BoundStmt.checkAll, ih, List.map_cons, List.forM_cons, Part.check]

theorem checkFn_eq (f : BoundFn BoundStmt) : BoundStmt.checkFn f = forM f.parts Part.check := by
  cases f
  rw [BoundStmt.checkFn, checkStmts_eq, BoundFn.parts]

theorem checkFns_eq (fs : List (BoundFn BoundStmt)) :
    BoundStmt.checkFns fs = forM (fs.flatMap BoundFn.parts) Part.check := by
  induction fs with
  | nil => rfl
  | cons f fs ih => rw [BoundStmt.checkFns, checkFn_eq, ih, List.flatMap_cons, List.forM_append]

theorem checkFields_eq (fs : List BoundField) :
    checkFields fs = forM (fs.map .field) Part.check := by
  induction fs with
  | nil => rfl
  | cons f fs ih => rw [checkFields, ih, List.map_cons, List.forM_cons, Part.check]

namespace Part

theorem check_expr (e : BoundExpr) : e.check =
    forM e.parts check >>= fun _ =>
      forM e.rules Rule.check := by
  cases e with
  | literal _ _ | keyword _ _ | symbol _ _ _ => rfl
  | array node elements =>
    simp [BoundExpr.check, BoundExpr.parts, BoundExpr.rules, checkAll_eq]
  | object node entries =>
    simp [BoundExpr.check, BoundExpr.parts, BoundExpr.rules, checkEntries_eq]
  | binary node use left right =>
    simp [BoundExpr.check, BoundExpr.parts, BoundExpr.rules, check, checkOperands_eq,
      checkComparable_eq]
  | unary node use operand =>
    simp [BoundExpr.check, BoundExpr.parts, BoundExpr.rules, check, checkOperand_eq]
  | assign node operator target value =>
    cases operator <;>
      simp [BoundExpr.check, BoundExpr.parts, BoundExpr.rules, check, checkAssignment,
        checkOperands_eq, expectInto_eq]
  | access node receiver key isExtension =>
    simp [BoundExpr.check, BoundExpr.parts, check, checkKey_eq node _ _ isExtension]
  | call node callee args =>
    simp [BoundExpr.check, BoundExpr.parts, check, checkAll_eq, checkCall_eq]
  | construct node c args =>
    simp [BoundExpr.check, BoundExpr.parts, checkAll_eq, checkConstruct_eq]

theorem check_stmt (expected : Option Ty) (s : BoundStmt) : s.check expected =
    forM (s.parts expected) check >>= fun _ =>
      forM (s.rules expected) Rule.check := by
  cases s with
  | jump _ _ | typeDecl _ _ _ => rfl
  | varDecl _ _ type value _ =>
    rw [BoundStmt.check, checkInitializer_eq]
    rfl
  | ret info value =>
    rw [BoundStmt.check, checkReturn_eq]
    rfl
  | expr _ e => simp [BoundStmt.check, BoundStmt.parts, BoundStmt.rules, check]
  | block _ body => simp [BoundStmt.check, BoundStmt.parts, BoundStmt.rules, checkStmts_eq]
  | ifElse _ condition onTrue onFalse =>
    cases onFalse <;>
      simp [BoundStmt.check, BoundStmt.checkOption, BoundStmt.parts, BoundStmt.rules, check,
        ok_eq_pure]
  | whileLoop _ condition body =>
    simp [BoundStmt.check, BoundStmt.parts, BoundStmt.rules, check]
  | forIn _ _ _ iterable body =>
    simp [BoundStmt.check, BoundStmt.parts, BoundStmt.rules, check, checkStmts_eq]
  | fnDecl _ f => simp [BoundStmt.check, BoundStmt.parts, BoundStmt.rules, checkFn_eq]
  | classDecl _ c fields methods =>
    simp [BoundStmt.check, BoundStmt.parts, BoundStmt.rules, checkFields_eq, checkFns_eq]

/-- A part is checked by checking what it is made of and then its own rules. -/
theorem check_step (p : Part) : p.check =
    forM p.parts check >>= fun _ =>
      forM p.rules Rule.check := by
  cases p with
  | expr e => exact check_expr e
  | field f => exact checkInitializer_eq f.type .fieldMismatch f.value
  | stmt expected s => exact check_stmt expected s

/-- The rules in a part, in the order in which they are checked. -/
def contracts (p : Part) : List Rule := p.postorder.flatMap rules

theorem contracts_eq (p : Part) : p.contracts = p.parts.flatMap contracts ++ p.rules := by
  rw [contracts, postorder_eq, List.flatMap_append, List.flatMap_assoc, List.flatMap_singleton]
  rfl

theorem forM_contracts {ps : List Part} (h : ∀ p ∈ ps, p.check = forM p.contracts Rule.check) :
    forM ps check = forM (ps.flatMap contracts) Rule.check := by
  induction ps with
  | nil => rfl
  | cons p ps ih =>
    rw [List.forall_mem_cons] at h
    rw [List.forM_cons, h.1, ih h.2, List.flatMap_cons, List.forM_append]

/-- Checking a part is checking all rules in it, in order. -/
theorem check_eq (p : Part) : p.check = forM p.contracts Rule.check := by
  rw [check_step, contracts_eq, List.forM_append, forM_contracts fun q hq => check_eq q]
termination_by p.weight
decreasing_by exact weight_lt_of_mem_parts hq

end Part

/-! ### A program -/

/-- The parts that a program is made of. Outside of functions nothing is expected of a return. -/
def programParts (statements : List BoundStmt) : List Part := statements.map (.stmt none)

/-- The rules of a program, in the order in which they are checked. -/
def programRules (statements : List BoundStmt) : List Rule :=
  ((programParts statements).flatMap Part.postorder).flatMap Part.rules

theorem checkContracts_eq (statements : List BoundStmt) :
    checkContracts statements = forM (programRules statements) Rule.check := by
  rw [checkContracts, checkStmts_eq, Part.forM_contracts fun p _ => p.check_eq, programRules,
    List.flatMap_assoc]
  rfl

/-- A program is accepted if and only if each part that occurs in it, at any depth, keeps its rules.
Otherwise the report is that of the first rule that fails, each part coming after the parts that it
is made of and those from left to right. -/
theorem checkContracts_first_violation (statements : List BoundStmt) :
    (checkContracts statements = .ok () ↔
      ∀ p, Occurs (programParts statements) p → ∀ r ∈ p.rules, r.Holds) ∧
    ∀ d, checkContracts statements = .error d ↔
      ∃ before r after, programRules statements = before ++ r :: after ∧
        (∀ q ∈ before, q.Holds) ∧ ¬ r.Holds ∧ d = r.report := by
  rw [checkContracts_eq]
  refine ⟨?_, fun d => forM_check_eq_error⟩
  rw [forM_check_eq_ok]
  simp only [programRules, List.mem_flatMap (f := Part.rules), Part.mem_postorder_iff]
  constructor
  · intro h p hp r hr
    exact h r ⟨p, hp, hr⟩
  · rintro h r ⟨p, hp, hr⟩
    exact h p hp r hr

end ScriptCheck
