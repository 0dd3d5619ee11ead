import ScriptCheck.Proofs.Binding.Typing

/-!
What binding a statement can do, said once. A statement that is bound leaves a derivation of one step:
the runs of its parts from binder to binder, the types that its references stand for, and the statement
and the binder that come out.
-/

namespace ScriptCheck

open Binding

/-! ### Fields -/

theorem fieldMembers_length : ∀ (fs : List FieldDecl) {b b' : Binder} {ms : List (Member Ty)},
    fieldMembers fs b = .ok ms b' → ms.length = fs.length
  | [], _, _, _, h => by cases h; rfl
  | f :: fs, _, _, _, h => by
    obtain ⟨_, _, _, h₁⟩ := ok_of_bind h
    obtain ⟨_, _, hrest, h₂⟩ := ok_of_bind h₁
    cases h₂
    exact congrArg (· + 1) (fieldMembers_length fs hrest)

theorem bindFields_length : ∀ (fs : List FieldDecl) (ms : List (Member Ty)) {b b' : Binder}
    {ds : List BoundField}, bindFields fs ms b = .ok ds b' → fs.length ≤ ms.length →
    ds.length = fs.length
  | [], _, _, _, _, h, _ => by cases h; rfl
  | _ :: _, [], _, _, _, _, hle => absurd hle (Nat.not_succ_le_zero _)
  | f :: fs, m :: ms, _, _, _, h, hle => by
    obtain ⟨_, _, _, h₁⟩ := ok_of_bind h
    obtain ⟨_, _, hrest, h₂⟩ := ok_of_bind h₁
    cases h₂
    exact congrArg (· + 1) (bindFields_length fs ms hrest (Nat.le_of_succ_le_succ hle))

/-- Every field has a member that gives its type. -/
theorem fields_le_members {fields : List FieldDecl} {b b' : Binder} {own : List (Member Ty)}
    (h : fieldMembers fields b = .ok own b') (signatures : List (Member Ty)) :
    fields.length ≤ (own ++ signatures).length := by
  rw [List.length_append, fieldMembers_length fields h]
  exact Nat.le_add_right ..

/-! ### Statements -/

/-- The type that a return contributes: that of its value without literals, or `void`. -/
def returnType : Option BoundExpr → Ty
  | some e => e.type.widened
  | none => .void

/-- The binder in the body of a class, and the class as it is first declared. -/
def Binder.inClass (b : Binder) (c : ClassDef Ty) : Binder :=
  ((b.declareClass c).enterClass c.name).defineConst "this" (.classType c)

/-- The class with the types that its methods have in the end. -/
def ClassDef.retype (c : ClassDef Ty) (fieldCount : Nat) (fs : List (BoundFn BoundStmt)) :
    ClassDef Ty :=
  { c with members := retypeMethods fieldCount fs c.members }

/-- One step of binding a statement. -/
inductive Stmt.Binds : Stmt → Binder → BoundStmt → Binder → Prop
  | expr {span : Span} {e : Expr} {b b' : Binder} {t : BoundExpr} (value : e.bind b = .ok t b') :
      Binds (.expr span e) b (.expr ⟨span, none⟩ t) b'
  | block {span : Span} {body : List Stmt} {b b' : Binder} {ts : List BoundStmt}
      (inside : bindAll body b.push = .ok ts b') :
      Binds (.block span body) b (.block ⟨span, joinReturns (ts.map (·.returns))⟩ ts) b'.pop
  | varDecl {span : Span} {name : String} {isConst : Bool} {type : Option TypeRef}
      {value : Option Expr} {b b' : Binder} {declared : Ty} {bound : Option BoundExpr}
      (declares : typeOrAny type b = .ok declared b)
      (initial : Expr.bindOption value b = .ok bound b') :
      Binds (.varDecl span name isConst type value) b
        (.varDecl ⟨span, none⟩ name (variableType declared bound) bound isConst)
        (b'.define name (variableType declared bound) !isConst)
  | ifElse {span : Span} {condition : Expr} {onTrue : Stmt} {onFalse : Option Stmt}
      {b b₁ b₂ b₃ : Binder} {e : BoundExpr} {t : BoundStmt} {o : Option BoundStmt}
      (test : condition.bind b = .ok e b₁) (first : bind onTrue b₁ = .ok t b₂)
      (second : bindOption onFalse b₂ = .ok o b₃) :
      Binds (.ifElse span condition onTrue onFalse) b
        (.ifElse ⟨span, joinReturns (t.returns :: o.toList.map (·.returns))⟩ e t o) b₃
  | whileLoop {span : Span} {condition : Expr} {body : Stmt} {b b₁ b₂ : Binder} {e : BoundExpr}
      {t : BoundStmt} (test : condition.bind b = .ok e b₁) (inside : bind body b₁ = .ok t b₂) :
      Binds (.whileLoop span condition body) b (.whileLoop ⟨span, t.returns⟩ e t) b₂
  | forIn {span bodySpan : Span} {name : String} {iterable : Expr} {body : List Stmt}
      {b b₁ b₂ : Binder} {e : BoundExpr} {ts : List BoundStmt} (iterated : iterable.bind b = .ok e b₁)
      (inside : bindAll body (b₁.push.define name (iterationType e.type) true) = .ok ts b₂) :
      Binds (.forIn span name iterable bodySpan body) b
        (.forIn ⟨span, joinReturns (ts.map (·.returns))⟩ name (iterationType e.type) e ts) b₂.pop
  | fnDecl {f : FnDecl Stmt} {b b' : Binder} {signature : Signature Ty} {g : BoundFn BoundStmt}
      (signs : bindSignature f.params f.result b = .ok signature b)
      (inside : bindFn signature f (b.defineConst f.name (.function signature)) = .ok g b') :
      Binds (.fnDecl f) b (.fnDecl ⟨f.span, none⟩ g)
        (if f.result.isNone then b'.defineConst f.name (.function g.signature) else b')
  | ret {span : Span} {value : Option Expr} {b b' : Binder} {bound : Option BoundExpr}
      (result : Expr.bindOption value b = .ok bound b') :
      Binds (.ret span value) b (.ret ⟨span, some (returnType bound)⟩ bound) b'
  | jump {span : Span} {isContinue : Bool} {b : Binder} :
      Binds (.jump span isContinue) b (.jump ⟨span, none⟩ isContinue) b
  | classDecl {span : Span} {name : String} {superclass : Option Name} {mixins : List Name}
      {fields : List FieldDecl} {methods : List (MethodDecl Stmt)} {b b₀ b₁ b₂ : Binder}
      {super : Option Ty} {mixed : List Ty} {own signatures : List (Member Ty)}
      {boundFields : List BoundField} {boundMethods : List (BoundFn BoundStmt)}
      (starts : b₀ = b.declareType name (.singular name))
      (extended : bindSuperclass superclass b₀ = .ok super b₀)
      (mixes : bindMixins mixins b₀ = .ok mixed b₀)
      (fieldTypes : fieldMembers fields b₀ = .ok own b₀)
      (methodTypes : methodMembers methods b₀ = .ok signatures b₀)
      (initial : bindFields fields (own ++ signatures)
        (b₀.inClass ⟨name, own ++ signatures, mixed, super⟩) = .ok boundFields b₁)
      (inside : bindMethods methods b₁ = .ok boundMethods b₂) :
      Binds (.classDecl span name superclass mixins fields methods) b
        (.classDecl ⟨span, none⟩
          (ClassDef.retype ⟨name, own ++ signatures, mixed, super⟩ boundFields.length boundMethods)
          boundFields boundMethods)
        (b₂.leaveClass.declareClass
          (ClassDef.retype ⟨name, own ++ signatures, mixed, super⟩ boundFields.length boundMethods))
  | typeDecl {span : Span} {name : String} {ref : TypeRef} {b b₀ : Binder} {t : Ty}
      (starts : b₀ = b.declareType name (.singular name)) (type : typeOf ref b₀ = .ok t b₀) :
      Binds (.typeDecl span name ref) b (.typeDecl ⟨span, none⟩ name (nameInterface name t))
        (b₀.declareType name (nameInterface name t))

namespace Stmt

/-- A statement that is bound is bound in one of these ways. -/
theorem binds_of_ok {s : Stmt} {b b' : Binder} {t : BoundStmt} (h : s.bind b = .ok t b') :
    s.Binds b t b' := by
  cases s with
  | expr span e =>
    rw [bind] at h
    obtain ⟨_, _, he, h⟩ := ok_of_bind h
    cases h
    exact .expr he
  | block span body =>
    rw [bind] at h
    obtain ⟨_, _, hbody, h⟩ := ok_of_bind h
    cases h
    obtain ⟨_, hrun, rfl⟩ := between_ok hbody
    exact .block hrun
  | varDecl span name isConst type value =>
    rw [bind] at h
    obtain ⟨_, _, htype, h₁⟩ := ok_of_bind h
    obtain rfl := (typeOrAny_looks type).ok htype
    obtain ⟨_, _, hvalue, h₂⟩ := ok_of_bind h₁
    obtain ⟨_, _, hdefine, h₃⟩ := ok_of_bind h₂
    cases hdefine
    cases h₃
    exact .varDecl htype hvalue
  | ifElse span condition onTrue onFalse =>
    rw [bind] at h
    obtain ⟨_, _, hcondition, h⟩ := ok_of_bind h
    obtain ⟨_, _, htrue, h⟩ := ok_of_bind h
    obtain ⟨_, _, hfalse, h⟩ := ok_of_bind h
    cases h
    exact .ifElse hcondition htrue hfalse
  | whileLoop span condition body =>
    rw [bind] at h
    obtain ⟨_, _, hcondition, h⟩ := ok_of_bind h
    obtain ⟨_, _, hbody, h⟩ := ok_of_bind h
    cases h
    exact .whileLoop hcondition hbody
  | forIn span name iterable bodySpan body =>
    rw [bind] at h
    obtain ⟨_, _, hiterable, h⟩ := ok_of_bind h
    obtain ⟨_, _, hbody, h⟩ := ok_of_bind h
    cases h
    obtain ⟨_, hrun, rfl⟩ := between_ok hbody
    exact .forIn hiterable hrun
  | fnDecl f =>
    rw [bind] at h
    obtain ⟨_, _, hsignature, h₁⟩ := ok_of_bind h
    obtain rfl := (bindSignature_looks f.params f.result).ok hsignature
    obtain ⟨_, _, hdefine, h₂⟩ := ok_of_bind h₁
    cases hdefine
    obtain ⟨_, _, hfn, h₃⟩ := ok_of_bind h₂
    have hstep := Binds.fnDecl hsignature hfn
    split at h₃
    · rename_i hnone
      obtain ⟨_, _, hredefine, h₄⟩ := ok_of_bind h₃
      cases hredefine
      cases h₄
      rwa [if_pos hnone] at hstep
    · rename_i hsome
      cases h₃
      rwa [if_neg hsome] at hstep
  | ret span value =>
    rw [bind] at h
    obtain ⟨bound, _, hvalue, h⟩ := ok_of_bind h
    cases h
    cases bound with
    | none => exact .ret hvalue
    | some e => exact .ret hvalue
  | jump span isContinue =>
    cases h
    exact .jump
  | classDecl span name superclass mixins fields methods =>
    rw [bind] at h
    obtain ⟨_, _, hfirst, h₁⟩ := ok_of_bind h
    cases hfirst
    obtain ⟨_, _, hsuper, h₂⟩ := ok_of_bind h₁
    obtain rfl := (bindSuperclass_looks superclass).ok hsuper
    obtain ⟨_, _, hmixed, h₃⟩ := ok_of_bind h₂
    obtain rfl := (bindMixins_looks mixins).ok hmixed
    obtain ⟨_, _, hown, h₄⟩ := ok_of_bind h₃
    obtain rfl := (fieldMembers_looks fields).ok hown
    obtain ⟨_, _, hsignatures, h₅⟩ := ok_of_bind h₄
    obtain rfl := (methodMembers_looks methods).ok hsignatures
    obtain ⟨_, _, hdeclare, h₆⟩ := ok_of_bind h₅
    cases hdeclare
    obtain ⟨_, _, hbody, h₇⟩ := ok_of_bind h₆
    obtain ⟨_, _, hfinal, h₈⟩ := ok_of_bind h₇
    cases hfinal
    cases h₈
    obtain ⟨_, hrun, rfl⟩ := between_ok hbody
    obtain ⟨_, _, hfields, hrun₁⟩ := ok_of_bind hrun
    obtain ⟨_, _, hmethods, hrun₂⟩ := ok_of_bind hrun₁
    cases hrun₂
    exact .classDecl rfl hsuper hmixed hown hsignatures hfields hmethods
  | typeDecl span name ref =>
    rw [bind] at h
    obtain ⟨_, _, hfirst, h₁⟩ := ok_of_bind h
    cases hfirst
    obtain ⟨_, _, ht, h₂⟩ := ok_of_bind h₁
    obtain rfl := (typeOf_looks ref).ok ht
    obtain ⟨_, _, hfinal, h₃⟩ := ok_of_bind h₂
    cases hfinal
    cases h₃
    exact .typeDecl rfl ht

theorem bindAll_cons {s : Stmt} {ss : List Stmt} {b b' : Binder} {us : List BoundStmt}
    (h : bindAll (s :: ss) b = .ok us b') :
    ∃ t ts b₁, us = t :: ts ∧ s.bind b = .ok t b₁ ∧ bindAll ss b₁ = .ok ts b' := by
  rw [bindAll] at h
  obtain ⟨t, b₁, ht, h⟩ := ok_of_bind h
  obtain ⟨ts, _, hts, h⟩ := ok_of_bind h
  cases h
  exact ⟨t, ts, b₁, rfl, ht, hts⟩

theorem bindOption_some {s : Stmt} {b b' : Binder} {o : Option BoundStmt}
    (h : bindOption (some s) b = .ok o b') : ∃ t, o = some t ∧ s.bind b = .ok t b' := by
  rw [bindOption] at h
  obtain ⟨t, _, ht, h⟩ := ok_of_bind h
  cases h
  exact ⟨t, rfl, ht⟩

/-- The body of a function is bound in a scope with its parameters. -/
theorem bindFn_ok {f : FnDecl Stmt} {signature : Signature Ty} {b b' : Binder}
    {g : BoundFn BoundStmt} (h : bindFn signature f b = .ok g b') :
    ∃ ts b₁, bindAll f.body (defineParams signature.params b.push) = .ok ts b₁ ∧ b' = b₁.pop ∧
      g = ⟨f.name, { signature with result := resultType f.result signature ts }, ts⟩ := by
  obtain ⟨name, params, result, body, bodySpan, span⟩ := f
  rw [bindFn] at h
  obtain ⟨ts, _, hbody, h⟩ := ok_of_bind h
  cases h
  obtain ⟨b₁, hrun, rfl⟩ := between_ok hbody
  exact ⟨ts, b₁, hrun, rfl, rfl⟩

theorem bindMethods_cons {m : MethodDecl Stmt} {ms : List (MethodDecl Stmt)} {b b' : Binder}
    {fs : List (BoundFn BoundStmt)} (h : bindMethods (m :: ms) b = .ok fs b') :
    ∃ signature g gs b₁, fs = g :: gs ∧
      bindSignature m.function.params m.function.result b = .ok signature b ∧
      bindFn signature m.function b = .ok g b₁ ∧ bindMethods ms b₁ = .ok gs b' := by
  obtain ⟨modifiers, function⟩ := m
  rw [bindMethods] at h
  obtain ⟨signature, _, hsignature, h₁⟩ := ok_of_bind h
  obtain rfl := (bindSignature_looks _ _).ok hsignature
  obtain ⟨g, b₁, hg, h₂⟩ := ok_of_bind h₁
  obtain ⟨gs, _, hgs, h₃⟩ := ok_of_bind h₂
  cases h₃
  exact ⟨signature, g, gs, b₁, rfl, hsignature, hg, hgs⟩

end Stmt

end ScriptCheck
