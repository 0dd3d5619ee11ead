import ScriptCheck.Proofs.Relabel.Bound

/-!
Relabelings that change nothing. With the labels they have, syntax and bound trees stay as they are.
-/

namespace ScriptCheck

namespace TypeRef

mutual

theorem relabel_same : ∀ t : TypeRef, t.relabel .same = t
  | .named _ args _ => by rw [relabel, relabelAll_same args]; rfl
  | .array element _ => by rw [relabel, relabel_same element]; rfl
  | .union members _ => by rw [relabel, relabelAll_same members]; rfl
  | .intersection members _ => by rw [relabel, relabelAll_same members]; rfl
  | .interface props index _ => by
    rw [relabel, relabelProps_same props, relabelIndex_same index]; rfl
  | .function params result _ => by
    rw [relabel, relabelParams_same params, relabel_same result]; rfl
  | .literal _ _ => rfl
termination_by structural t => t

theorem relabelAll_same : ∀ ts : List TypeRef, relabelAll .same ts = ts
  | [] => rfl
  | t :: ts => by rw [relabelAll, relabel_same t, relabelAll_same ts]
termination_by structural ts => ts

theorem relabelProps_same : ∀ ps : List (PropertyRef TypeRef), relabelProps .same ps = ps
  | [] => rfl
  | ⟨_, type, _⟩ :: ps => by rw [relabelProps, relabel_same type, relabelProps_same ps]
termination_by structural ps => ps

theorem relabelIndex_same : ∀ is : List (IndexRef TypeRef), relabelIndex .same is = is
  | [] => rfl
  | ⟨_, _, type⟩ :: is => by rw [relabelIndex, relabel_same type, relabelIndex_same is]; rfl
termination_by structural is => is

theorem relabelParams_same : ∀ ps : List (ParamRef TypeRef), relabelParams .same ps = ps
  | [] => rfl
  | ⟨_, type⟩ :: ps => by rw [relabelParams, relabel_same type, relabelParams_same ps]
termination_by structural ps => ps

end

theorem map_relabel_same : ∀ t : Option TypeRef, t.map (relabel .same) = t
  | none => rfl
  | some t => congrArg some t.relabel_same

end TypeRef

namespace Expr

mutual

theorem relabel_same : ∀ e : Expr, e.relabel .same = e
  | .literal _ _ => rfl
  | .keyword _ _ => rfl
  | .symbol _ _ => rfl
  | .array _ elements => by rw [relabel, relabelAll_same elements]; rfl
  | .object _ entries => by rw [relabel, relabelEntries_same entries]; rfl
  | .binary _ _ left right => by rw [relabel, relabel_same left, relabel_same right]; rfl
  | .unary _ _ operand => by rw [relabel, relabel_same operand]; rfl
  | .assign _ _ target value => by rw [relabel, relabel_same target, relabel_same value]; rfl
  | .access _ receiver key => by rw [relabel, relabel_same receiver, relabelKey_same key]; rfl
  | .call _ callee args => by rw [relabel, relabel_same callee, relabelAll_same args]; rfl
  | .construct _ _ _ args => by rw [relabel, relabelAll_same args]; rfl
termination_by structural e => e

theorem relabelAll_same : ∀ es : List Expr, relabelAll .same es = es
  | [] => rfl
  | e :: es => by rw [relabelAll, relabel_same e, relabelAll_same es]
termination_by structural es => es

theorem relabelKey_same : ∀ k : Key Expr, relabelKey .same k = k
  | .name _ _ => rfl
  | .computed e => by rw [relabelKey, relabel_same e]
termination_by structural k => k

theorem relabelEntries_same : ∀ es : List (Entry Expr), relabelEntries .same es = es
  | [] => rfl
  | ⟨key, value⟩ :: es => by
    rw [relabelEntries, relabelKey_same key, relabel_same value, relabelEntries_same es]
termination_by structural es => es

end

theorem map_relabel_same : ∀ e : Option Expr, e.map (relabel .same) = e
  | none => rfl
  | some e => congrArg some e.relabel_same

end Expr

theorem Name.map_relabel_same : ∀ n : Option Name, n.map (relabel .same) = n
  | none => rfl
  | some _ => rfl

theorem Param.relabel_same (p : Param) : p.relabel .same = p := by
  rw [relabel, TypeRef.relabel_same]; rfl

theorem FieldDecl.relabel_same (d : FieldDecl) : d.relabel .same = d := by
  rw [relabel, TypeRef.relabel_same, Expr.map_relabel_same]; rfl

namespace Stmt

mutual

theorem relabel_same : ∀ s : Stmt, s.relabel .same = s
  | .expr _ e => by rw [relabel, e.relabel_same]; rfl
  | .block _ body => by rw [relabel, relabelAll_same body]; rfl
  | .varDecl _ _ _ type value => by
    rw [relabel, TypeRef.map_relabel_same, Expr.map_relabel_same]; rfl
  | .ifElse _ condition onTrue onFalse => by
    rw [relabel, condition.relabel_same, relabel_same onTrue, relabelOption_same onFalse]; rfl
  | .whileLoop _ condition body => by
    rw [relabel, condition.relabel_same, relabel_same body]; rfl
  | .forIn _ _ iterable _ body => by
    rw [relabel, iterable.relabel_same, relabelAll_same body]; rfl
  | .fnDecl f => by rw [relabel, relabelFn_same f]
  | .ret _ value => by rw [relabel, Expr.map_relabel_same]; rfl
  | .jump _ _ => rfl
  | .classDecl _ _ superclass mixins fields methods => by
    rw [relabel, relabelMethods_same methods, List.map_id'' FieldDecl.relabel_same,
      Name.map_relabel_same, List.map_id'' (f := Name.relabel .same) fun _ => rfl]
    rfl
  | .typeDecl _ _ type => by rw [relabel, type.relabel_same]; rfl
termination_by structural s => s

theorem relabelAll_same : ∀ ss : List Stmt, relabelAll .same ss = ss
  | [] => rfl
  | s :: ss => by rw [relabelAll, relabel_same s, relabelAll_same ss]
termination_by structural ss => ss

theorem relabelOption_same : ∀ s : Option Stmt, relabelOption .same s = s
  | none => rfl
  | some s => by rw [relabelOption, relabel_same s]
termination_by structural s => s

theorem relabelFn_same : ∀ f : FnDecl Stmt, relabelFn .same f = f
  | ⟨_, params, result, body, _, _⟩ => by
    rw [relabelFn, relabelAll_same body, List.map_id'' Param.relabel_same,
      TypeRef.map_relabel_same]
    rfl
termination_by structural f => f

theorem relabelMethods_same : ∀ ms : List (MethodDecl Stmt), relabelMethods .same ms = ms
  | [] => rfl
  | ⟨_, function⟩ :: ms => by
    rw [relabelMethods, relabelFn_same function, relabelMethods_same ms]
termination_by structural ms => ms

end

end Stmt

namespace BoundExpr

mutual

theorem relabel_same : ∀ e : BoundExpr, e.relabel .same = e
  | .literal _ _ => rfl
  | .keyword _ _ => rfl
  | .symbol _ _ _ => rfl
  | .array _ elements => by rw [relabel, relabelAll_same elements]; rfl
  | .object _ entries => by rw [relabel, relabelEntries_same entries]; rfl
  | .binary _ _ left right => by rw [relabel, relabel_same left, relabel_same right]; rfl
  | .unary _ _ operand => by rw [relabel, relabel_same operand]; rfl
  | .assign _ _ target value => by rw [relabel, relabel_same target, relabel_same value]; rfl
  | .access _ receiver key _ => by rw [relabel, relabel_same receiver, relabelKey_same key]; rfl
  | .call _ callee args => by rw [relabel, relabel_same callee, relabelAll_same args]; rfl
  | .construct _ _ args => by rw [relabel, relabelAll_same args]; rfl
termination_by structural e => e

theorem relabelAll_same : ∀ es : List BoundExpr, relabelAll .same es = es
  | [] => rfl
  | e :: es => by rw [relabelAll, relabel_same e, relabelAll_same es]
termination_by structural es => es

theorem relabelKey_same : ∀ k : BoundKey BoundExpr, relabelKey .same k = k
  | .name _ => rfl
  | .computed e => by rw [relabelKey, relabel_same e]
termination_by structural k => k

theorem relabelEntries_same : ∀ es : List (BoundEntry BoundExpr), relabelEntries .same es = es
  | [] => rfl
  | ⟨key, value⟩ :: es => by
    rw [relabelEntries, relabelKey_same key, relabel_same value, relabelEntries_same es]
termination_by structural es => es

end

theorem map_relabel_same : ∀ e : Option BoundExpr, e.map (relabel .same) = e
  | none => rfl
  | some e => congrArg some e.relabel_same

end BoundExpr

theorem BoundField.relabel_same (d : BoundField) : d.relabel .same = d := by
  rw [relabel, BoundExpr.map_relabel_same]

namespace BoundStmt

mutual

theorem relabel_same : ∀ s : BoundStmt, s.relabel .same = s
  | .expr _ e => by rw [relabel, e.relabel_same]; rfl
  | .block _ body => by rw [relabel, relabelAll_same body]; rfl
  | .varDecl _ _ _ value _ => by rw [relabel, BoundExpr.map_relabel_same]; rfl
  | .ifElse _ condition onTrue onFalse => by
    rw [relabel, condition.relabel_same, relabel_same onTrue, relabelOption_same onFalse]; rfl
  | .whileLoop _ condition body => by
    rw [relabel, condition.relabel_same, relabel_same body]; rfl
  | .forIn _ _ _ iterable body => by
    rw [relabel, iterable.relabel_same, relabelAll_same body]; rfl
  | .fnDecl _ f => by rw [relabel, relabelFn_same f]; rfl
  | .ret _ value => by rw [relabel, BoundExpr.map_relabel_same]; rfl
  | .jump _ _ => rfl
  | .classDecl _ _ fields methods => by
    rw [relabel, relabelFns_same methods, List.map_id'' BoundField.relabel_same]; rfl
  | .typeDecl _ _ _ => rfl
termination_by structural s => s

theorem relabelAll_same : ∀ ss : List BoundStmt, relabelAll .same ss = ss
  | [] => rfl
  | s :: ss => by rw [relabelAll, relabel_same s, relabelAll_same ss]
termination_by structural ss => ss

theorem relabelOption_same : ∀ s : Option BoundStmt, relabelOption .same s = s
  | none => rfl
  | some s => by rw [relabelOption, relabel_same s]
termination_by structural s => s

theorem relabelFn_same : ∀ f : BoundFn BoundStmt, relabelFn .same f = f
  | ⟨_, _, body⟩ => by rw [relabelFn, relabelAll_same body]
termination_by structural f => f

theorem relabelFns_same : ∀ fs : List (BoundFn BoundStmt), relabelFns .same fs = fs
  | [] => rfl
  | f :: fs => by rw [relabelFns, relabelFn_same f, relabelFns_same fs]
termination_by structural fs => fs

end

end BoundStmt

end ScriptCheck
