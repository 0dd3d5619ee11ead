import ScriptCheck.Proofs.Binding.Places
import ScriptCheck.Proofs.Contract.FirstViolation

/-!
What checking demands of the statements of a program, each demand at its place: that an initial value goes
into the type of its variable, and that what a function returns goes into its result. These are all the
rules of statements, in the order in which they are checked.
-/

namespace ScriptCheck

/-- A rule at a place. -/
structure Demand where
  place : Place
  rule : Rule

namespace BoundStmt

/-- The rules of a statement itself, at its place. -/
def ownDemands (s : BoundStmt) (expected : Option Ty) (p : Place) : List Demand :=
  (s.rules expected).map (⟨p, ·⟩)

mutual

/-- What is demanded of a statement and of the statements in it, where the given result is expected. -/
def demands : BoundStmt → Option Ty → Place → List Demand
  | .block _ body, expected, p => demandsAll body expected p.push
  | .varDecl i name type value isConst, expected, p =>
    ownDemands (.varDecl i name type value isConst) expected p
  | .ifElse _ _ onTrue onFalse, expected, p =>
    demands onTrue expected p ++ demandsOption onFalse expected (onTrue.after p)
  | .whileLoop _ _ body, expected, p => demands body expected p
  | .forIn _ name _ _ body, expected, p =>
    demandsAll body expected (p.push.declare name .loopVariable)
  | .fnDecl _ f, _, p => demandsFn f (p.declare f.name .function)
  | .ret i value, expected, p => ownDemands (.ret i value) expected p
  | .classDecl _ c fields methods, _, p =>
    demandsFns methods ((p.declareClass c).enterClass ⟨c, fields.length⟩)
  | .expr _ _, _, _ | .jump _ _, _, _ | .typeDecl _ _ _, _, _ => []
termination_by structural s => s

/-- What is demanded of statements. -/
def demandsAll : List BoundStmt → Option Ty → Place → List Demand
  | [], _, _ => []
  | s :: ss, expected, p => demands s expected p ++ demandsAll ss expected (s.after p)
termination_by structural ss => ss

/-- What is demanded of an optional statement. -/
def demandsOption : Option BoundStmt → Option Ty → Place → List Demand
  | none, _, _ => []
  | some s, expected, p => demands s expected p
termination_by structural s => s

/-- What is demanded of the body of a function, which returns its result. -/
def demandsFn : BoundFn BoundStmt → Place → List Demand
  | ⟨_, signature, body⟩, p =>
    demandsAll body (some signature.result) (p.enterFunction signature.params)
termination_by structural f => f

/-- What is demanded of the methods of a class. -/
def demandsFns : List (BoundFn BoundStmt) → Place → List Demand
  | [], _ => []
  | f :: fs, p => demandsFn f p ++ demandsFns fs p
termination_by structural fs => fs

end

end BoundStmt

/-! ### The rules of statements -/

namespace Part

/-- The rules of a part itself, if it is a statement. -/
def statementRules : Part → List Rule
  | .stmt expected s => s.rules expected
  | .expr _ | .field _ => []

/-- The rules of the statements in a part, in the order in which they are checked. -/
def statementContracts (p : Part) : List Rule := p.postorder.flatMap statementRules

theorem statementContracts_eq (p : Part) :
    p.statementContracts = p.parts.flatMap statementContracts ++ p.statementRules := by
  rw [statementContracts, postorder_eq, List.flatMap_append, List.flatMap_assoc,
    List.flatMap_singleton]
  rfl

/-- The parts of a key are expressions. -/
theorem exists_expr_of_mem_key {key : BoundKey BoundExpr} {p : Part} (h : p ∈ key.parts) :
    ∃ e, p = .expr e := by
  cases key with
  | name _ => cases h
  | computed e => exact ⟨e, List.mem_singleton.1 h⟩

/-- There is nothing but expressions in an expression. -/
theorem exists_expr_of_mem_parts {e : BoundExpr} {p : Part} (h : p ∈ e.parts) : ∃ e', p = .expr e' := by
  have hmap : ∀ es : List BoundExpr, p ∈ es.map Part.expr → ∃ e', p = .expr e' := by
    intro es h
    obtain ⟨e', -, rfl⟩ := List.mem_map.1 h
    exact ⟨e', rfl⟩
  cases e with
  | literal | keyword | symbol => cases h
  | array _ elements => exact hmap elements h
  | object _ entries =>
    obtain ⟨entry, -, h⟩ := List.mem_flatMap.1 h
    rcases List.mem_append.1 h with h | h
    · exact exists_expr_of_mem_key h
    · exact ⟨_, List.mem_singleton.1 h⟩
  | binary _ _ left right => exact hmap [left, right] h
  | unary _ _ operand => exact ⟨_, List.mem_singleton.1 h⟩
  | assign _ _ target value => exact hmap [target, value] h
  | access _ receiver key _ =>
    rcases List.mem_cons.1 h with rfl | h
    · exact ⟨_, rfl⟩
    · exact exists_expr_of_mem_key h
  | call _ callee args => exact hmap (callee :: args) h
  | construct _ _ args => exact hmap args h

theorem statementContracts_expr (e : BoundExpr) : (Part.expr e).statementContracts = [] := by
  rw [statementContracts_eq, List.append_eq_nil_iff]
  refine ⟨List.flatMap_eq_nil_iff.2 fun p hp => ?_, rfl⟩
  obtain ⟨e', rfl⟩ := exists_expr_of_mem_parts hp
  exact statementContracts_expr e'
termination_by sizeOf e
decreasing_by exact BoundExpr.weight_lt_of_mem_parts hp

theorem statementContracts_exprs (es : List BoundExpr) :
    (es.map .expr).flatMap statementContracts = [] := by
  rw [List.flatMap_map, List.flatMap_eq_nil_iff]
  exact fun e _ => statementContracts_expr e

theorem statementContracts_fields (fs : List BoundField) :
    (fs.map .field).flatMap statementContracts = [] := by
  rw [List.flatMap_map, List.flatMap_eq_nil_iff]
  intro f _
  rw [statementContracts_eq]
  exact List.append_eq_nil_iff.2 ⟨statementContracts_exprs _, rfl⟩

end Part

namespace BoundStmt

theorem rules_ownDemands (s : BoundStmt) (expected : Option Ty) (p : Place) :
    (ownDemands s expected p).map Demand.rule = s.rules expected := by
  rw [ownDemands, List.map_map]
  exact List.map_id _

mutual

/-- What is demanded of a statement are the rules of the statements in it. -/
theorem rules_demands : ∀ (s : BoundStmt) (expected : Option Ty) (p : Place),
    (s.demands expected p).map Demand.rule = (Part.stmt expected s).statementContracts
  | .expr _ e, _, _ => by
    rw [Part.statementContracts_eq]
    exact (List.append_eq_nil_iff.2 ⟨Part.statementContracts_exprs [e], rfl⟩).symm
  | .block _ body, expected, p => by
    rw [Part.statementContracts_eq, demands, rules_demandsAll body]
    exact (List.append_nil _).symm
  | .varDecl _ _ _ value _, expected, p => by
    rw [Part.statementContracts_eq, demands, rules_ownDemands]
    exact (congrArg (· ++ _) (Part.statementContracts_exprs value.toList)).symm
  | .ifElse _ condition onTrue onFalse, expected, p => by
    rw [Part.statementContracts_eq, demands, List.map_append, rules_demands onTrue,
      rules_demandsOption onFalse]
    simp [Part.parts, BoundStmt.parts, Part.statementRules, BoundStmt.rules,
      Part.statementContracts_expr]
  | .whileLoop _ condition body, expected, p => by
    rw [Part.statementContracts_eq, demands, rules_demands body]
    simp [Part.parts, BoundStmt.parts, Part.statementRules, BoundStmt.rules,
      Part.statementContracts_expr]
  | .forIn _ _ _ iterable body, expected, p => by
    rw [Part.statementContracts_eq, demands, rules_demandsAll body]
    simp [Part.parts, BoundStmt.parts, Part.statementRules, BoundStmt.rules,
      Part.statementContracts_expr]
  | .fnDecl _ f, _, p => by
    rw [Part.statementContracts_eq, demands, rules_demandsFn f]
    exact (List.append_nil _).symm
  | .ret _ value, expected, p => by
    rw [Part.statementContracts_eq, demands, rules_ownDemands]
    exact (congrArg (· ++ _) (Part.statementContracts_exprs value.toList)).symm
  | .jump _ _, _, _ => by
    rw [Part.statementContracts_eq]
    rfl
  | .classDecl _ _ fields methods, _, p => by
    rw [Part.statementContracts_eq, demands, rules_demandsFns methods]
    simp [Part.parts, BoundStmt.parts, Part.statementRules, BoundStmt.rules,
      Part.statementContracts_fields]
  | .typeDecl _ _ _, _, _ => by
    rw [Part.statementContracts_eq]
    rfl
termination_by structural s => s

theorem rules_demandsAll : ∀ (ss : List BoundStmt) (expected : Option Ty) (p : Place),
    (demandsAll ss expected p).map Demand.rule =
      (ss.map (.stmt expected)).flatMap Part.statementContracts
  | [], _, _ => rfl
  | s :: ss, expected, p => by
    rw [demandsAll, List.map_append, rules_demands s, rules_demandsAll ss, List.map_cons,
      List.flatMap_cons]
termination_by structural ss => ss

theorem rules_demandsOption : ∀ (s : Option BoundStmt) (expected : Option Ty) (p : Place),
    (demandsOption s expected p).map Demand.rule =
      (s.toList.map (.stmt expected)).flatMap Part.statementContracts
  | none, _, _ => rfl
  | some s, expected, p => by
    rw [demandsOption, rules_demands s]
    exact (List.append_nil _).symm
termination_by structural s => s

theorem rules_demandsFn : ∀ (f : BoundFn BoundStmt) (p : Place),
    (demandsFn f p).map Demand.rule = f.parts.flatMap Part.statementContracts
  | ⟨_, _, body⟩, _ => rules_demandsAll body _ _
termination_by structural f => f

theorem rules_demandsFns : ∀ (fs : List (BoundFn BoundStmt)) (p : Place),
    (demandsFns fs p).map Demand.rule = (fs.flatMap BoundFn.parts).flatMap Part.statementContracts
  | [], _ => rfl
  | f :: fs, p => by
    rw [demandsFns, List.map_append, rules_demandsFn f, rules_demandsFns fs, List.flatMap_cons,
      List.flatMap_append]
termination_by structural fs => fs

end

end BoundStmt

end ScriptCheck
