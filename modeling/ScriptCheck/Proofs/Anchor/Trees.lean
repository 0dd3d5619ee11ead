import ScriptCheck.Bound.Tree
import ScriptCheck.Stmt

/-!
Anchored trees. A tree is anchored in a set of places if everything in it that a failure may point at
starts at one of them: type references and the keys of their signatures, expressions with their
operators and class names, statements, parameters and names.
-/

namespace ScriptCheck

variable (P : Position → Prop)

/-! ### Type references -/

namespace TypeRef

mutual

/-- Everything in a type reference starts at one of the places. -/
def Anchored : TypeRef → Prop
  | .named _ args span => P span.start ∧ AllAnchored args
  | .array element span => P span.start ∧ Anchored element
  | .union members span => P span.start ∧ AllAnchored members
  | .intersection members span => P span.start ∧ AllAnchored members
  | .interface props index span => P span.start ∧ PropsAnchored props ∧ IndexAnchored index
  | .function params result span => P span.start ∧ ParamsAnchored params ∧ Anchored result
  | .literal _ span => P span.start
termination_by structural t => t

/-- Everything in type references starts at one of the places. -/
def AllAnchored : List TypeRef → Prop
  | [] => True
  | t :: ts => Anchored t ∧ AllAnchored ts
termination_by structural ts => ts

/-- Everything in properties starts at one of the places. -/
def PropsAnchored : List (PropertyRef TypeRef) → Prop
  | [] => True
  | ⟨_, type, _⟩ :: ps => Anchored type ∧ PropsAnchored ps
termination_by structural ps => ps

/-- Everything in index signatures starts at one of the places, their keys too. -/
def IndexAnchored : List (IndexRef TypeRef) → Prop
  | [] => True
  | ⟨_, keySpan, type⟩ :: is => P keySpan.start ∧ Anchored type ∧ IndexAnchored is
termination_by structural is => is

/-- Everything in parameters starts at one of the places. -/
def ParamsAnchored : List (ParamRef TypeRef) → Prop
  | [] => True
  | ⟨_, type⟩ :: ps => Anchored type ∧ ParamsAnchored ps
termination_by structural ps => ps

end

variable {P}

theorem Anchored.start {t : TypeRef} (h : t.Anchored P) : P t.span.start := by
  cases t <;> first | exact h.1 | exact h

theorem allAnchored_iff {ts : List TypeRef} : AllAnchored P ts ↔ ∀ t ∈ ts, t.Anchored P := by
  induction ts with
  | nil => simp [AllAnchored]
  | cons t ts ih => simp [AllAnchored, ih]

theorem propsAnchored_iff {ps : List (PropertyRef TypeRef)} :
    PropsAnchored P ps ↔ ∀ p ∈ ps, p.type.Anchored P := by
  induction ps with
  | nil => simp [PropsAnchored]
  | cons p ps ih => simp [PropsAnchored, ih]

theorem indexAnchored_iff {is : List (IndexRef TypeRef)} :
    IndexAnchored P is ↔ ∀ i ∈ is, P i.keySpan.start ∧ i.type.Anchored P := by
  induction is with
  | nil => simp [IndexAnchored]
  | cons i is ih => simp [IndexAnchored, ih, and_assoc]

theorem paramsAnchored_iff {ps : List (ParamRef TypeRef)} :
    ParamsAnchored P ps ↔ ∀ p ∈ ps, p.type.Anchored P := by
  induction ps with
  | nil => simp [ParamsAnchored]
  | cons p ps ih => simp [ParamsAnchored, ih]

mutual

/-- Among all places every type reference is anchored. -/
theorem anchored_everywhere : ∀ t : TypeRef, t.Anchored fun _ => True
  | .named _ args _ => ⟨trivial, allAnchored_everywhere args⟩
  | .array element _ => ⟨trivial, anchored_everywhere element⟩
  | .union members _ => ⟨trivial, allAnchored_everywhere members⟩
  | .intersection members _ => ⟨trivial, allAnchored_everywhere members⟩
  | .interface props index _ =>
    ⟨trivial, propsAnchored_everywhere props, indexAnchored_everywhere index⟩
  | .function params result _ =>
    ⟨trivial, paramsAnchored_everywhere params, anchored_everywhere result⟩
  | .literal _ _ => trivial
termination_by structural t => t

theorem allAnchored_everywhere : ∀ ts : List TypeRef, AllAnchored (fun _ => True) ts
  | [] => trivial
  | t :: ts => ⟨anchored_everywhere t, allAnchored_everywhere ts⟩
termination_by structural ts => ts

theorem propsAnchored_everywhere :
    ∀ ps : List (PropertyRef TypeRef), PropsAnchored (fun _ => True) ps
  | [] => trivial
  | ⟨_, type, _⟩ :: ps => ⟨anchored_everywhere type, propsAnchored_everywhere ps⟩
termination_by structural ps => ps

theorem indexAnchored_everywhere : ∀ is : List (IndexRef TypeRef), IndexAnchored (fun _ => True) is
  | [] => trivial
  | ⟨_, _, type⟩ :: is => ⟨trivial, anchored_everywhere type, indexAnchored_everywhere is⟩
termination_by structural is => is

theorem paramsAnchored_everywhere :
    ∀ ps : List (ParamRef TypeRef), ParamsAnchored (fun _ => True) ps
  | [] => trivial
  | ⟨_, type⟩ :: ps => ⟨anchored_everywhere type, paramsAnchored_everywhere ps⟩
termination_by structural ps => ps

end

end TypeRef

/-! ### Expressions -/

namespace Expr

mutual

/-- Everything in an expression starts at one of the places. -/
def Anchored : Expr → Prop
  | .literal node _ => P node.span.start
  | .keyword node _ => P node.span.start
  | .symbol node _ => P node.span.start
  | .array node elements => P node.span.start ∧ AllAnchored elements
  | .object node entries => P node.span.start ∧ EntriesAnchored entries
  | .binary node operator left right =>
    P node.span.start ∧ P operator.span.start ∧ Anchored left ∧ Anchored right
  | .unary node operator operand => P node.span.start ∧ P operator.span.start ∧ Anchored operand
  | .assign node operator target value =>
    P node.span.start ∧ P operator.span.start ∧ Anchored target ∧ Anchored value
  | .access node receiver key => P node.span.start ∧ Anchored receiver ∧ KeyAnchored key
  | .call node callee args => P node.span.start ∧ Anchored callee ∧ AllAnchored args
  | .construct node _ classNode args =>
    P node.span.start ∧ P classNode.span.start ∧ AllAnchored args
termination_by structural e => e

/-- Everything in expressions starts at one of the places. -/
def AllAnchored : List Expr → Prop
  | [] => True
  | e :: es => Anchored e ∧ AllAnchored es
termination_by structural es => es

/-- Everything in a key starts at one of the places. -/
def KeyAnchored : Key Expr → Prop
  | .name _ _ => True
  | .computed e => Anchored e
termination_by structural k => k

/-- Everything in entries starts at one of the places. -/
def EntriesAnchored : List (Entry Expr) → Prop
  | [] => True
  | ⟨key, value⟩ :: es => KeyAnchored key ∧ Anchored value ∧ EntriesAnchored es
termination_by structural es => es

end

variable {P}

theorem Anchored.start {e : Expr} (h : e.Anchored P) : P e.span.start := by
  cases e <;> first | exact h.1 | exact h

theorem allAnchored_iff {es : List Expr} : AllAnchored P es ↔ ∀ e ∈ es, e.Anchored P := by
  induction es with
  | nil => simp [AllAnchored]
  | cons e es ih => simp [AllAnchored, ih]

theorem entriesAnchored_iff {es : List (Entry Expr)} :
    EntriesAnchored P es ↔ ∀ e ∈ es, KeyAnchored P e.key ∧ e.value.Anchored P := by
  induction es with
  | nil => simp [EntriesAnchored]
  | cons e es ih => simp [EntriesAnchored, ih, and_assoc]

mutual

/-- Among all places every expression is anchored. -/
theorem anchored_everywhere : ∀ e : Expr, e.Anchored fun _ => True
  | .literal _ _ => trivial
  | .keyword _ _ => trivial
  | .symbol _ _ => trivial
  | .array _ elements => ⟨trivial, allAnchored_everywhere elements⟩
  | .object _ entries => ⟨trivial, entriesAnchored_everywhere entries⟩
  | .binary _ _ left right =>
    ⟨trivial, trivial, anchored_everywhere left, anchored_everywhere right⟩
  | .unary _ _ operand => ⟨trivial, trivial, anchored_everywhere operand⟩
  | .assign _ _ target value =>
    ⟨trivial, trivial, anchored_everywhere target, anchored_everywhere value⟩
  | .access _ receiver key => ⟨trivial, anchored_everywhere receiver, keyAnchored_everywhere key⟩
  | .call _ callee args => ⟨trivial, anchored_everywhere callee, allAnchored_everywhere args⟩
  | .construct _ _ _ args => ⟨trivial, trivial, allAnchored_everywhere args⟩
termination_by structural e => e

theorem allAnchored_everywhere : ∀ es : List Expr, AllAnchored (fun _ => True) es
  | [] => trivial
  | e :: es => ⟨anchored_everywhere e, allAnchored_everywhere es⟩
termination_by structural es => es

theorem keyAnchored_everywhere : ∀ k : Key Expr, KeyAnchored (fun _ => True) k
  | .name _ _ => trivial
  | .computed e => anchored_everywhere e
termination_by structural k => k

theorem entriesAnchored_everywhere : ∀ es : List (Entry Expr), EntriesAnchored (fun _ => True) es
  | [] => trivial
  | ⟨key, value⟩ :: es =>
    ⟨keyAnchored_everywhere key, anchored_everywhere value, entriesAnchored_everywhere es⟩
termination_by structural es => es

end

end Expr

/-! ### Statements -/

/-- Everything in a parameter starts at one of the places. -/
def Param.Anchored (p : Param) : Prop := P p.span.start ∧ p.type.Anchored P

/-- Everything in a field starts at one of the places. -/
def FieldDecl.Anchored (f : FieldDecl) : Prop :=
  f.type.Anchored P ∧ ∀ e ∈ f.value, e.Anchored P

namespace Stmt

mutual

/-- Everything in a statement starts at one of the places. -/
def Anchored : Stmt → Prop
  | .expr span e => P span.start ∧ e.Anchored P
  | .block span body => P span.start ∧ AllAnchored body
  | .varDecl span _ _ type value =>
    P span.start ∧ (∀ t ∈ type, t.Anchored P) ∧ ∀ e ∈ value, e.Anchored P
  | .ifElse span condition onTrue onFalse =>
    P span.start ∧ condition.Anchored P ∧ Anchored onTrue ∧ OptionAnchored onFalse
  | .whileLoop span condition body => P span.start ∧ condition.Anchored P ∧ Anchored body
  | .forIn span _ iterable _ body => P span.start ∧ iterable.Anchored P ∧ AllAnchored body
  | .fnDecl f => FnAnchored f
  | .ret span value => P span.start ∧ ∀ e ∈ value, e.Anchored P
  | .jump span _ => P span.start
  | .classDecl span _ superclass mixins fields methods =>
    P span.start ∧ (∀ n ∈ superclass, P n.span.start) ∧ (∀ n ∈ mixins, P n.span.start) ∧
      (∀ f ∈ fields, f.Anchored P) ∧ MethodsAnchored methods
  | .typeDecl span _ type => P span.start ∧ type.Anchored P
termination_by structural s => s

/-- Everything in statements starts at one of the places. -/
def AllAnchored : List Stmt → Prop
  | [] => True
  | s :: ss => Anchored s ∧ AllAnchored ss
termination_by structural ss => ss

/-- Everything in an optional statement starts at one of the places. -/
def OptionAnchored : Option Stmt → Prop
  | none => True
  | some s => Anchored s
termination_by structural s => s

/-- Everything in a function starts at one of the places. -/
def FnAnchored : FnDecl Stmt → Prop
  | ⟨_, params, result, body, _, span⟩ =>
    P span.start ∧ (∀ p ∈ params, p.Anchored P) ∧ (∀ t ∈ result, t.Anchored P) ∧ AllAnchored body
termination_by structural f => f

/-- Everything in methods starts at one of the places. -/
def MethodsAnchored : List (MethodDecl Stmt) → Prop
  | [] => True
  | ⟨_, function⟩ :: ms => FnAnchored function ∧ MethodsAnchored ms
termination_by structural ms => ms

end

variable {P}

theorem allAnchored_iff {ss : List Stmt} : AllAnchored P ss ↔ ∀ s ∈ ss, s.Anchored P := by
  induction ss with
  | nil => simp [AllAnchored]
  | cons s ss ih => simp [AllAnchored, ih]

theorem methodsAnchored_iff {ms : List (MethodDecl Stmt)} :
    MethodsAnchored P ms ↔ ∀ m ∈ ms, FnAnchored P m.function := by
  induction ms with
  | nil => simp [MethodsAnchored]
  | cons m ms ih => simp [MethodsAnchored, ih]

end Stmt

/-! ### Bound trees -/

namespace BoundExpr

mutual

/-- Every expression in a bound one starts at one of the places. -/
def Anchored : BoundExpr → Prop
  | .literal node _ => P node.span.start
  | .keyword node _ => P node.span.start
  | .symbol node _ _ => P node.span.start
  | .array node elements => P node.span.start ∧ AllAnchored elements
  | .object node entries => P node.span.start ∧ EntriesAnchored entries
  | .binary node _ left right => P node.span.start ∧ Anchored left ∧ Anchored right
  | .unary node _ operand => P node.span.start ∧ Anchored operand
  | .assign node _ target value => P node.span.start ∧ Anchored target ∧ Anchored value
  | .access node receiver key _ => P node.span.start ∧ Anchored receiver ∧ KeyAnchored key
  | .call node callee args => P node.span.start ∧ Anchored callee ∧ AllAnchored args
  | .construct node _ args => P node.span.start ∧ AllAnchored args
termination_by structural e => e

/-- Every expression in bound ones starts at one of the places. -/
def AllAnchored : List BoundExpr → Prop
  | [] => True
  | e :: es => Anchored e ∧ AllAnchored es
termination_by structural es => es

/-- Every expression in a bound key starts at one of the places. -/
def KeyAnchored : BoundKey BoundExpr → Prop
  | .name _ => True
  | .computed e => Anchored e
termination_by structural k => k

/-- Every expression in bound entries starts at one of the places. -/
def EntriesAnchored : List (BoundEntry BoundExpr) → Prop
  | [] => True
  | ⟨key, value⟩ :: es => KeyAnchored key ∧ Anchored value ∧ EntriesAnchored es
termination_by structural es => es

end

variable {P}

theorem Anchored.start {e : BoundExpr} (h : e.Anchored P) : P e.span.start := by
  cases e <;> first | exact h.1 | exact h

theorem allAnchored_iff {es : List BoundExpr} : AllAnchored P es ↔ ∀ e ∈ es, e.Anchored P := by
  induction es with
  | nil => simp [AllAnchored]
  | cons e es ih => simp [AllAnchored, ih]

theorem entriesAnchored_iff {es : List (BoundEntry BoundExpr)} :
    EntriesAnchored P es ↔ ∀ e ∈ es, KeyAnchored P e.key ∧ e.value.Anchored P := by
  induction es with
  | nil => simp [EntriesAnchored]
  | cons e es ih => simp [EntriesAnchored, ih, and_assoc]

end BoundExpr

/-- Every expression in a bound field starts at one of the places. -/
def BoundField.Anchored (f : BoundField) : Prop := ∀ e ∈ f.value, e.Anchored P

namespace BoundStmt

mutual

/-- Every statement and expression in a bound statement starts at one of the places. -/
def Anchored : BoundStmt → Prop
  | .expr info e => P info.span.start ∧ e.Anchored P
  | .block info body => P info.span.start ∧ AllAnchored body
  | .varDecl info _ _ value _ => P info.span.start ∧ ∀ e ∈ value, e.Anchored P
  | .ifElse info condition onTrue onFalse =>
    P info.span.start ∧ condition.Anchored P ∧ Anchored onTrue ∧ OptionAnchored onFalse
  | .whileLoop info condition body => P info.span.start ∧ condition.Anchored P ∧ Anchored body
  | .forIn info _ _ iterable body => P info.span.start ∧ iterable.Anchored P ∧ AllAnchored body
  | .fnDecl info f => P info.span.start ∧ FnAnchored f
  | .ret info value => P info.span.start ∧ ∀ e ∈ value, e.Anchored P
  | .jump info _ => P info.span.start
  | .classDecl info _ fields methods =>
    P info.span.start ∧ (∀ f ∈ fields, f.Anchored P) ∧ FnsAnchored methods
  | .typeDecl info _ _ => P info.span.start
termination_by structural s => s

/-- Every statement and expression in bound statements starts at one of the places. -/
def AllAnchored : List BoundStmt → Prop
  | [] => True
  | s :: ss => Anchored s ∧ AllAnchored ss
termination_by structural ss => ss

/-- Every statement and expression in an optional one starts at one of the places. -/
def OptionAnchored : Option BoundStmt → Prop
  | none => True
  | some s => Anchored s
termination_by structural s => s

/-- Every statement and expression in a function starts at one of the places. -/
def FnAnchored : BoundFn BoundStmt → Prop
  | ⟨_, _, body⟩ => AllAnchored body
termination_by structural f => f

/-- Every statement and expression in functions starts at one of the places. -/
def FnsAnchored : List (BoundFn BoundStmt) → Prop
  | [] => True
  | f :: fs => FnAnchored f ∧ FnsAnchored fs
termination_by structural fs => fs

end

variable {P}

theorem allAnchored_iff {ss : List BoundStmt} : AllAnchored P ss ↔ ∀ s ∈ ss, s.Anchored P := by
  induction ss with
  | nil => simp [AllAnchored]
  | cons s ss ih => simp [AllAnchored, ih]

theorem fnsAnchored_iff {fs : List (BoundFn BoundStmt)} :
    FnsAnchored P fs ↔ ∀ f ∈ fs, FnAnchored P f := by
  induction fs with
  | nil => simp [FnsAnchored]
  | cons f fs ih => simp [FnsAnchored, ih]

end BoundStmt

end ScriptCheck
