import ScriptCheck.Bound.Tree
import ScriptCheck.Proofs.Relabel.Syntax

/-!
Relabelings of bound trees. Labels are the ids and places of expressions and the places of statements;
types, names and distances are none. Beside them stands what it means that every name in a bound tree
has a distance that belongs to its id.
-/

namespace ScriptCheck

variable (f : Relabeling)

/-- The new id and span of a bound expression. -/
def BoundNode.relabel (n : BoundNode) : BoundNode := ⟨f.id n.id, n.span.relabel f, n.type⟩

/-- The new span of a bound statement. -/
def BoundInfo.relabel (i : BoundInfo) : BoundInfo := { i with span := i.span.relabel f }

/-! ### Expressions -/

namespace BoundExpr

mutual

/-- A bound expression with new labels. -/
def relabel : BoundExpr → BoundExpr
  | .literal node value => .literal (node.relabel f) value
  | .keyword node word => .keyword (node.relabel f) word
  | .symbol node name distance => .symbol (node.relabel f) name distance
  | .array node elements => .array (node.relabel f) (relabelAll elements)
  | .object node entries => .object (node.relabel f) (relabelEntries entries)
  | .binary node use left right => .binary (node.relabel f) use (relabel left) (relabel right)
  | .unary node use operand => .unary (node.relabel f) use (relabel operand)
  | .assign node use target value => .assign (node.relabel f) use (relabel target) (relabel value)
  | .access node receiver key isExtension =>
    .access (node.relabel f) (relabel receiver) (relabelKey key) isExtension
  | .call node callee args => .call (node.relabel f) (relabel callee) (relabelAll args)
  | .construct node definition args => .construct (node.relabel f) definition (relabelAll args)
termination_by structural e => e

/-- Bound expressions with new labels. -/
def relabelAll : List BoundExpr → List BoundExpr
  | [] => []
  | e :: es => relabel e :: relabelAll es
termination_by structural es => es

/-- A bound key with new labels. -/
def relabelKey : BoundKey BoundExpr → BoundKey BoundExpr
  | .name text => .name text
  | .computed e => .computed (relabel e)
termination_by structural k => k

/-- Bound entries with new labels. -/
def relabelEntries : List (BoundEntry BoundExpr) → List (BoundEntry BoundExpr)
  | [] => []
  | ⟨key, value⟩ :: es => ⟨relabelKey key, relabel value⟩ :: relabelEntries es
termination_by structural es => es

end

mutual

/-- The id and the distance of every name in the expression belong together. -/
def Carries (P : Nat → Nat → Prop) : BoundExpr → Prop
  | .literal _ _ => True
  | .keyword _ _ => True
  | .symbol node _ distance => P node.id distance
  | .array _ elements => AllCarry P elements
  | .object _ entries => EntriesCarry P entries
  | .binary _ _ left right => Carries P left ∧ Carries P right
  | .unary _ _ operand => Carries P operand
  | .assign _ _ target value => Carries P target ∧ Carries P value
  | .access _ receiver key _ => Carries P receiver ∧ KeyCarries P key
  | .call _ callee args => Carries P callee ∧ AllCarry P args
  | .construct _ _ args => AllCarry P args
termination_by structural e => e

/-- The same for expressions. -/
def AllCarry (P : Nat → Nat → Prop) : List BoundExpr → Prop
  | [] => True
  | e :: es => Carries P e ∧ AllCarry P es
termination_by structural es => es

/-- The same for a key. -/
def KeyCarries (P : Nat → Nat → Prop) : BoundKey BoundExpr → Prop
  | .name _ => True
  | .computed e => Carries P e
termination_by structural k => k

/-- The same for entries. -/
def EntriesCarry (P : Nat → Nat → Prop) : List (BoundEntry BoundExpr) → Prop
  | [] => True
  | ⟨key, value⟩ :: es => KeyCarries P key ∧ Carries P value ∧
      EntriesCarry P es
termination_by structural es => es

end

/-- A bound entry with new labels. -/
def relabelEntry (e : BoundEntry BoundExpr) : BoundEntry BoundExpr :=
  ⟨relabelKey f e.key, e.value.relabel f⟩

theorem relabelAll_eq_map (es : List BoundExpr) : relabelAll f es = es.map (relabel f) := by
  induction es with
  | nil => rfl
  | cons e es ih => rw [relabelAll, ih, List.map_cons]

theorem relabelEntries_eq_map (es : List (BoundEntry BoundExpr)) :
    relabelEntries f es = es.map (relabelEntry f) := by
  induction es with
  | nil => rfl
  | cons e es ih =>
    obtain ⟨key, value⟩ := e
    rw [relabelEntries, ih]
    rfl

@[simp] theorem node_relabel (e : BoundExpr) : (e.relabel f).node = e.node.relabel f := by
  cases e <;> rfl

@[simp] theorem type_relabel (e : BoundExpr) : (e.relabel f).type = e.type := by
  rw [type, node_relabel]; rfl

@[simp] theorem span_relabel (e : BoundExpr) : (e.relabel f).span = e.span.relabel f := by
  rw [span, node_relabel]; rfl

@[simp] theorem length_relabelAll (es : List BoundExpr) :
    (relabelAll f es).length = es.length := by
  rw [relabelAll_eq_map, List.length_map]

end BoundExpr

/-! ### Statements -/

/-- A bound field with new labels. -/
def BoundField.relabel (d : BoundField) : BoundField :=
  { d with value := d.value.map (BoundExpr.relabel f) }

/-- The same for the initial value of a field. -/
def BoundField.Carries (P : Nat → Nat → Prop) (d : BoundField) : Prop :=
  ∀ e ∈ d.value, e.Carries P

namespace BoundStmt

mutual

/-- A bound statement with new labels. -/
def relabel : BoundStmt → BoundStmt
  | .expr info e => .expr (info.relabel f) (e.relabel f)
  | .block info body => .block (info.relabel f) (relabelAll body)
  | .varDecl info name type value isConst =>
    .varDecl (info.relabel f) name type (value.map (BoundExpr.relabel f)) isConst
  | .ifElse info condition onTrue onFalse =>
    .ifElse (info.relabel f) (condition.relabel f) (relabel onTrue) (relabelOption onFalse)
  | .whileLoop info condition body =>
    .whileLoop (info.relabel f) (condition.relabel f) (relabel body)
  | .forIn info name element iterable body =>
    .forIn (info.relabel f) name element (iterable.relabel f) (relabelAll body)
  | .fnDecl info function => .fnDecl (info.relabel f) (relabelFn function)
  | .ret info value => .ret (info.relabel f) (value.map (BoundExpr.relabel f))
  | .jump info isContinue => .jump (info.relabel f) isContinue
  | .classDecl info definition fields methods =>
    .classDecl (info.relabel f) definition (fields.map (BoundField.relabel f)) (relabelFns methods)
  | .typeDecl info name type => .typeDecl (info.relabel f) name type
termination_by structural s => s

/-- Bound statements with new labels. -/
def relabelAll : List BoundStmt → List BoundStmt
  | [] => []
  | s :: ss => relabel s :: relabelAll ss
termination_by structural ss => ss

/-- An optional bound statement with new labels. -/
def relabelOption : Option BoundStmt → Option BoundStmt
  | some s => some (relabel s)
  | none => none
termination_by structural s => s

/-- A bound function with new labels. -/
def relabelFn : BoundFn BoundStmt → BoundFn BoundStmt
  | ⟨name, signature, body⟩ => ⟨name, signature, relabelAll body⟩
termination_by structural d => d

/-- Bound functions with new labels. -/
def relabelFns : List (BoundFn BoundStmt) → List (BoundFn BoundStmt)
  | [] => []
  | d :: ds => relabelFn d :: relabelFns ds
termination_by structural ds => ds

end

mutual

/-- The id and the distance of every name in the statement belong together. -/
def Carries (P : Nat → Nat → Prop) : BoundStmt → Prop
  | .expr _ e => e.Carries P
  | .block _ body => AllCarry P body
  | .varDecl _ _ _ value _ => ∀ e ∈ value, e.Carries P
  | .ifElse _ condition onTrue onFalse =>
    condition.Carries P ∧ Carries P onTrue ∧ OptionCarries P onFalse
  | .whileLoop _ condition body => condition.Carries P ∧ Carries P body
  | .forIn _ _ _ iterable body => iterable.Carries P ∧ AllCarry P body
  | .fnDecl _ function => FnCarries P function
  | .ret _ value => ∀ e ∈ value, e.Carries P
  | .jump _ _ => True
  | .classDecl _ _ fields methods =>
    (∀ d ∈ fields, d.Carries P) ∧ FnsCarry P methods
  | .typeDecl _ _ _ => True
termination_by structural s => s

/-- The same for statements. -/
def AllCarry (P : Nat → Nat → Prop) : List BoundStmt → Prop
  | [] => True
  | s :: ss => Carries P s ∧ AllCarry P ss
termination_by structural ss => ss

/-- The same for an optional statement. -/
def OptionCarries (P : Nat → Nat → Prop) : Option BoundStmt → Prop
  | some s => Carries P s
  | none => True
termination_by structural s => s

/-- The same for a function. -/
def FnCarries (P : Nat → Nat → Prop) : BoundFn BoundStmt → Prop
  | ⟨_, _, body⟩ => AllCarry P body
termination_by structural d => d

/-- The same for functions. -/
def FnsCarry (P : Nat → Nat → Prop) : List (BoundFn BoundStmt) → Prop
  | [] => True
  | d :: ds => FnCarries P d ∧ FnsCarry P ds
termination_by structural ds => ds

end

theorem relabelAll_eq_map (ss : List BoundStmt) : relabelAll f ss = ss.map (relabel f) := by
  induction ss with
  | nil => rfl
  | cons s ss ih => rw [relabelAll, ih, List.map_cons]

theorem relabelFns_eq_map (ds : List (BoundFn BoundStmt)) :
    relabelFns f ds = ds.map (relabelFn f) := by
  induction ds with
  | nil => rfl
  | cons d ds ih => rw [relabelFns, ih, List.map_cons]

@[simp] theorem info_relabel (s : BoundStmt) : (s.relabel f).info = s.info.relabel f := by
  cases s <;> rfl

@[simp] theorem returns_relabel (s : BoundStmt) : (s.relabel f).returns = s.returns := by
  rw [returns, info_relabel]; rfl

@[simp] theorem relabelFn_name (d : BoundFn BoundStmt) : (relabelFn f d).name = d.name := by
  cases d; rfl

@[simp] theorem relabelFn_signature (d : BoundFn BoundStmt) :
    (relabelFn f d).signature = d.signature := by
  cases d; rfl

/-- New labels do not change what is returned. -/
@[simp] theorem map_returns_relabelAll (ss : List BoundStmt) :
    (relabelAll f ss).map (·.returns) = ss.map (·.returns) := by
  rw [relabelAll_eq_map, List.map_map]
  exact List.map_congr_left fun s _ => returns_relabel f s

end BoundStmt

end ScriptCheck
