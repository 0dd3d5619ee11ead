import ScriptCheck.Expr
import ScriptCheck.Modifiers
import ScriptCheck.TypeRef

/-!
Statements. Functions, methods and classes are statements too; a class holds its fields before its
methods, whatever order they were written in.
-/

namespace ScriptCheck

/-- A name and where it is written. -/
structure Name where
  text : String
  span : Span

/-- A parameter of a function, `T name`. -/
structure Param where
  name : String
  type : TypeRef
  span : Span

/-- A field of a class, `T name = value;`. -/
structure FieldDecl where
  name : String
  modifiers : Modifiers
  type : TypeRef
  value : Option Expr
  span : Span

/-- A function, `fn name(params) :: result { body }`. -/
structure FnDecl (σ : Type) where
  name : String
  params : List Param
  result : Option TypeRef
  body : List σ
  bodySpan : Span
  span : Span

/-- A method of a class. -/
structure MethodDecl (σ : Type) where
  modifiers : Modifiers
  function : FnDecl σ

/-- A statement. -/
inductive Stmt where
  | expr (span : Span) (expr : Expr)
  | block (span : Span) (body : List Stmt)
  | varDecl (span : Span) (name : String) (isConst : Bool) (type : Option TypeRef)
      (value : Option Expr)
  | ifElse (span : Span) (condition : Expr) (onTrue : Stmt) (onFalse : Option Stmt)
  | whileLoop (span : Span) (condition : Expr) (body : Stmt)
  | forIn (span : Span) (name : String) (iterable : Expr) (bodySpan : Span) (body : List Stmt)
  | fnDecl (function : FnDecl Stmt)
  | ret (span : Span) (value : Option Expr)
  | jump (span : Span) (isContinue : Bool)
  | classDecl (span : Span) (name : String) (superclass : Option Name) (mixins : List Name)
      (fields : List FieldDecl) (methods : List (MethodDecl Stmt))
  | typeDecl (span : Span) (name : String) (type : TypeRef)

/-- Where a statement is written. -/
def Stmt.span : Stmt → Span
  | .expr s _ | .block s _ | .varDecl s _ _ _ _ | .ifElse s _ _ _ | .whileLoop s _ _
  | .forIn s _ _ _ _ | .ret s _ | .jump s _ | .classDecl s _ _ _ _ _ | .typeDecl s _ _ => s
  | .fnDecl f => f.span

/-- A program: its statements and where they are written. -/
structure Block where
  body : List Stmt
  span : Span

end ScriptCheck
