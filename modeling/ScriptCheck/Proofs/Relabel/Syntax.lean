import ScriptCheck.Stmt.Parser

/-!
Relabelings of syntax. What a program means depends neither on where its parts are written nor on
which ids its expressions have drawn; a relabeling changes both, throughout a tree, and leaves the
rest as it is. Two trees are equal up to labels if they are equal after all labels are erased.
-/

namespace ScriptCheck

/-- A change of labels: of the places where things are written and of the ids of expressions. -/
structure Relabeling where
  place : Position → Position
  id : Nat → Nat

namespace Relabeling

/-- The relabeling that changes nothing. -/
def same : Relabeling := ⟨fun p => p, fun i => i⟩

/-- Every label becomes the same one. -/
def erasing : Relabeling := ⟨fun _ => .nowhere, fun _ => 0⟩

/-- Ids grow by `k`. -/
def shiftIds (k : Nat) : Relabeling := ⟨fun p => p, fun i => i + k⟩

/-- Everything is written `n` bytes later. -/
def shiftPlaces (n : Nat) : Relabeling := ⟨fun p => ⟨p.offset + n, p.file⟩, fun i => i⟩

end Relabeling

variable (f : Relabeling)

/-- Both ends of a span in their new places. -/
def Span.relabel (s : Span) : Span := ⟨f.place s.start, f.place s.stop⟩

/-- A token in its new place. -/
def Token.relabel (t : Token) : Token := { t with span := t.span.relabel f }

/-- The new id and span of an expression. -/
def Node.relabel (n : Node) : Node := ⟨f.id n.id, n.span.relabel f⟩

/-- A name in its new place. -/
def Name.relabel (n : Name) : Name := { n with span := n.span.relabel f }

/-- A diagnostic at its new place. -/
def Diagnostic.relabel (d : Diagnostic) : Diagnostic := { d with position := f.place d.position }

/-- A failure at its new place. -/
def Failure.relabel : Failure → Failure
  | .rejected d => .rejected (d.relabel f)
  | .stuck => .stuck

@[simp] theorem Span.relabel_join (a b : Span) :
    (a.join b).relabel f = (a.relabel f).join (b.relabel f) := rfl

@[simp] theorem Token.relabel_kind (t : Token) : (t.relabel f).kind = t.kind := rfl

@[simp] theorem Token.relabel_value (t : Token) : (t.relabel f).value = t.value := rfl

theorem Token.kind_eq_of_erased {t u : Token} (h : t.relabel .erasing = u.relabel .erasing) :
    t.kind = u.kind := by
  have hkind := congrArg Token.kind h
  exact hkind

/-! ### Type references -/

namespace TypeRef

mutual

/-- A type reference with new labels. -/
def relabel : TypeRef → TypeRef
  | .named name args span => .named name (relabelAll args) (span.relabel f)
  | .array element span => .array (relabel element) (span.relabel f)
  | .union members span => .union (relabelAll members) (span.relabel f)
  | .intersection members span => .intersection (relabelAll members) (span.relabel f)
  | .interface props index span =>
    .interface (relabelProps props) (relabelIndex index) (span.relabel f)
  | .function params result span =>
    .function (relabelParams params) (relabel result) (span.relabel f)
  | .literal value span => .literal value (span.relabel f)
termination_by structural t => t

/-- Type references with new labels. -/
def relabelAll : List TypeRef → List TypeRef
  | [] => []
  | t :: ts => relabel t :: relabelAll ts
termination_by structural ts => ts

/-- Properties with new labels. -/
def relabelProps : List (PropertyRef TypeRef) → List (PropertyRef TypeRef)
  | [] => []
  | ⟨name, type, writable⟩ :: ps => ⟨name, relabel type, writable⟩ :: relabelProps ps
termination_by structural ps => ps

/-- Index signatures with new labels. -/
def relabelIndex : List (IndexRef TypeRef) → List (IndexRef TypeRef)
  | [] => []
  | ⟨key, span, type⟩ :: is => ⟨key, span.relabel f, relabel type⟩ :: relabelIndex is
termination_by structural is => is

/-- Parameters with new labels. -/
def relabelParams : List (ParamRef TypeRef) → List (ParamRef TypeRef)
  | [] => []
  | ⟨name, type⟩ :: ps => ⟨name, relabel type⟩ :: relabelParams ps
termination_by structural ps => ps

end

/-- A property with new labels. -/
def relabelProp (p : PropertyRef TypeRef) : PropertyRef TypeRef :=
  ⟨p.name, p.type.relabel f, p.writable⟩

/-- An index signature with new labels. -/
def relabelIndexRef (i : IndexRef TypeRef) : IndexRef TypeRef :=
  ⟨i.key, i.keySpan.relabel f, i.type.relabel f⟩

/-- A parameter with new labels. -/
def relabelParam (p : ParamRef TypeRef) : ParamRef TypeRef := ⟨p.name, p.type.relabel f⟩

theorem relabelAll_eq_map (ts : List TypeRef) : relabelAll f ts = ts.map (relabel f) := by
  induction ts with
  | nil => rfl
  | cons t ts ih => rw [relabelAll, ih, List.map_cons]

theorem relabelProps_eq_map (ps : List (PropertyRef TypeRef)) :
    relabelProps f ps = ps.map (relabelProp f) := by
  induction ps with
  | nil => rfl
  | cons p ps ih =>
    obtain ⟨name, type, writable⟩ := p
    rw [relabelProps, ih]
    rfl

theorem relabelIndex_eq_map (is : List (IndexRef TypeRef)) :
    relabelIndex f is = is.map (relabelIndexRef f) := by
  induction is with
  | nil => rfl
  | cons i is ih =>
    obtain ⟨key, span, type⟩ := i
    rw [relabelIndex, ih]
    rfl

theorem relabelParams_eq_map (ps : List (ParamRef TypeRef)) :
    relabelParams f ps = ps.map (relabelParam f) := by
  induction ps with
  | nil => rfl
  | cons p ps ih =>
    obtain ⟨name, type⟩ := p
    rw [relabelParams, ih]
    rfl

@[simp] theorem span_relabel (t : TypeRef) : (t.relabel f).span = t.span.relabel f := by
  cases t <;> rfl

end TypeRef

/-! ### Expressions -/

namespace Expr

mutual

/-- An expression with new labels. -/
def relabel : Expr → Expr
  | .literal node value => .literal (node.relabel f) value
  | .keyword node word => .keyword (node.relabel f) word
  | .symbol node name => .symbol (node.relabel f) name
  | .array node elements => .array (node.relabel f) (relabelAll elements)
  | .object node entries => .object (node.relabel f) (relabelEntries entries)
  | .binary node operator left right =>
    .binary (node.relabel f) (operator.relabel f) (relabel left) (relabel right)
  | .unary node operator operand =>
    .unary (node.relabel f) (operator.relabel f) (relabel operand)
  | .assign node operator target value =>
    .assign (node.relabel f) (operator.relabel f) (relabel target) (relabel value)
  | .access node receiver key => .access (node.relabel f) (relabel receiver) (relabelKey key)
  | .call node callee args => .call (node.relabel f) (relabel callee) (relabelAll args)
  | .construct node className classNode args =>
    .construct (node.relabel f) className (classNode.relabel f) (relabelAll args)
termination_by structural e => e

/-- Expressions with new labels. -/
def relabelAll : List Expr → List Expr
  | [] => []
  | e :: es => relabel e :: relabelAll es
termination_by structural es => es

/-- A key with new labels. -/
def relabelKey : Key Expr → Key Expr
  | .name text span => .name text (span.relabel f)
  | .computed e => .computed (relabel e)
termination_by structural k => k

/-- Entries with new labels. -/
def relabelEntries : List (Entry Expr) → List (Entry Expr)
  | [] => []
  | ⟨key, value⟩ :: rest => ⟨relabelKey key, relabel value⟩ :: relabelEntries rest
termination_by structural es => es

end

/-- An entry with new labels. -/
def relabelEntry (e : Entry Expr) : Entry Expr := ⟨relabelKey f e.key, e.value.relabel f⟩

theorem relabelAll_eq_map (es : List Expr) : relabelAll f es = es.map (relabel f) := by
  induction es with
  | nil => rfl
  | cons e es ih => rw [relabelAll, ih, List.map_cons]

theorem relabelEntries_eq_map (es : List (Entry Expr)) :
    relabelEntries f es = es.map (relabelEntry f) := by
  induction es with
  | nil => rfl
  | cons e es ih =>
    obtain ⟨key, value⟩ := e
    rw [relabelEntries, ih]
    rfl

@[simp] theorem node_relabel (e : Expr) : (e.relabel f).node = e.node.relabel f := by
  cases e <;> rfl

@[simp] theorem span_relabel (e : Expr) : (e.relabel f).span = e.span.relabel f := by
  rw [span, node_relabel]; rfl

end Expr

/-! ### Statements -/

/-- A parameter with new labels. -/
def Param.relabel (p : Param) : Param := ⟨p.name, p.type.relabel f, p.span.relabel f⟩

/-- A field with new labels. -/
def FieldDecl.relabel (d : FieldDecl) : FieldDecl :=
  ⟨d.name, d.modifiers, d.type.relabel f, d.value.map (Expr.relabel f), d.span.relabel f⟩

namespace Stmt

mutual

/-- A statement with new labels. -/
def relabel : Stmt → Stmt
  | .expr span e => .expr (span.relabel f) (e.relabel f)
  | .block span body => .block (span.relabel f) (relabelAll body)
  | .varDecl span name isConst type value =>
    .varDecl (span.relabel f) name isConst (type.map (TypeRef.relabel f))
      (value.map (Expr.relabel f))
  | .ifElse span condition onTrue onFalse =>
    .ifElse (span.relabel f) (condition.relabel f) (relabel onTrue) (relabelOption onFalse)
  | .whileLoop span condition body =>
    .whileLoop (span.relabel f) (condition.relabel f) (relabel body)
  | .forIn span name iterable bodySpan body =>
    .forIn (span.relabel f) name (iterable.relabel f) (bodySpan.relabel f) (relabelAll body)
  | .fnDecl function => .fnDecl (relabelFn function)
  | .ret span value => .ret (span.relabel f) (value.map (Expr.relabel f))
  | .jump span isContinue => .jump (span.relabel f) isContinue
  | .classDecl span name superclass mixins fields methods =>
    .classDecl (span.relabel f) name (superclass.map (Name.relabel f))
      (mixins.map (Name.relabel f)) (fields.map (FieldDecl.relabel f)) (relabelMethods methods)
  | .typeDecl span name type => .typeDecl (span.relabel f) name (type.relabel f)
termination_by structural s => s

/-- Statements with new labels. -/
def relabelAll : List Stmt → List Stmt
  | [] => []
  | s :: ss => relabel s :: relabelAll ss
termination_by structural ss => ss

/-- An optional statement with new labels. -/
def relabelOption : Option Stmt → Option Stmt
  | some s => some (relabel s)
  | none => none
termination_by structural s => s

/-- A function with new labels. -/
def relabelFn : FnDecl Stmt → FnDecl Stmt
  | ⟨name, params, result, body, bodySpan, span⟩ =>
    ⟨name, params.map (Param.relabel f), result.map (TypeRef.relabel f), relabelAll body,
      bodySpan.relabel f, span.relabel f⟩
termination_by structural d => d

/-- Methods with new labels. -/
def relabelMethods : List (MethodDecl Stmt) → List (MethodDecl Stmt)
  | [] => []
  | ⟨modifiers, function⟩ :: ms => ⟨modifiers, relabelFn function⟩ :: relabelMethods ms
termination_by structural ms => ms

end

/-- A method with new labels. -/
def relabelMethod (m : MethodDecl Stmt) : MethodDecl Stmt := ⟨m.modifiers, relabelFn f m.function⟩

theorem relabelAll_eq_map (ss : List Stmt) : relabelAll f ss = ss.map (relabel f) := by
  induction ss with
  | nil => rfl
  | cons s ss ih => rw [relabelAll, ih, List.map_cons]

theorem relabelMethods_eq_map (ms : List (MethodDecl Stmt)) :
    relabelMethods f ms = ms.map (relabelMethod f) := by
  induction ms with
  | nil => rfl
  | cons m ms ih =>
    obtain ⟨modifiers, function⟩ := m
    rw [relabelMethods, ih]
    rfl

@[simp] theorem relabelFn_name (d : FnDecl Stmt) : (relabelFn f d).name = d.name := by
  cases d; rfl

@[simp] theorem relabelFn_params (d : FnDecl Stmt) :
    (relabelFn f d).params = d.params.map (Param.relabel f) := by
  cases d; rfl

@[simp] theorem relabelFn_result (d : FnDecl Stmt) :
    (relabelFn f d).result = d.result.map (TypeRef.relabel f) := by
  cases d; rfl

@[simp] theorem relabelFn_span (d : FnDecl Stmt) :
    (relabelFn f d).span = d.span.relabel f := by
  cases d; rfl

end Stmt

/-- A program with new labels. -/
def Block.relabel (b : Block) : Block := ⟨b.body.map (Stmt.relabel f), b.span.relabel f⟩

end ScriptCheck
