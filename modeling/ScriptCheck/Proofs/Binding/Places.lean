import ScriptCheck.Intrinsic
import ScriptCheck.Proofs.Binding.Types

/-!
Places in a program. From the declarations of a bound program one can tell, for every expression in it,
what each name in scope was declared as, what the type names in scope stand for, and which class
declarations the expression stands in. A binder fits a place if it knows as much: a name can be written
to if what it was declared as can, and a type name stands for the type it was declared as. While the
methods of a class are bound their types may still differ from the final ones.
-/

namespace ScriptCheck

/-! ### Places -/

/-- What a name was declared as. -/
inductive Kind where
  | variable | constant | parameter | loopVariable | function | classDecl | this | intrinsic
deriving DecidableEq

/-- Variables, parameters and the variables of loops can be written to, and nothing else. -/
def Kind.isWritable : Kind → Bool
  | .variable | .parameter | .loopVariable => true
  | .constant | .function | .classDecl | .this | .intrinsic => false

/-- A class declaration: the class it declares, of whose members the first ones are the fields and the
others the methods. -/
structure DeclaredClass where
  definition : ClassDef Ty
  fieldCount : Nat

namespace DeclaredClass

/-- The name of a declared class. -/
def name (d : DeclaredClass) : String := d.definition.name

/-- The members that are fields. -/
def fields (d : DeclaredClass) : List (Member Ty) := d.definition.members.take d.fieldCount

/-- The members that are methods. -/
def methods (d : DeclaredClass) : List (Member Ty) := d.definition.members.drop d.fieldCount

end DeclaredClass

/-- What is in scope at a place, and the class declarations around it, innermost first. -/
structure Place where
  names : ScopeStack Kind
  types : Registry
  classes : List DeclaredClass

namespace Place

/-- Declares a name. -/
def declare (p : Place) (name : String) (kind : Kind) : Place :=
  { p with names := p.names.insert name kind }

/-- Declares a type name. -/
def declareType (p : Place) (name : String) (t : Ty) : Place :=
  { p with types := p.types.declare name t }

/-- Goes into a scope. -/
def push (p : Place) : Place := { p with names := p.names.push, types := p.types.push }

/-- Declares a class, as a name and as a type name. -/
def declareClass (p : Place) (c : ClassDef Ty) : Place :=
  (p.declareType c.name (.classType c)).declare c.name .classDecl

/-- Goes into the body of a class. -/
def enterClass (p : Place) (d : DeclaredClass) : Place :=
  { p with classes := d :: p.classes }.push.declare "this" .this

/-- Goes into the body of a function. -/
def enterFunction (p : Place) (params : List (String × Ty)) : Place :=
  params.foldl (fun p param => p.declare param.1 .parameter) p.push

/-- The place where only the intrinsic names are known. -/
def intrinsic : Place :=
  Intrinsic.all.foldl (fun p i => p.declare i.1 .intrinsic) ⟨.empty, .intrinsic, []⟩

end Place

/-- An expression at a place. -/
structure Occurrence where
  place : Place
  expr : BoundExpr

namespace BoundStmt

mutual

/-- The place behind a statement. -/
def after : BoundStmt → Place → Place
  | .varDecl _ name _ _ isConst, p => p.declare name (if isConst then .constant else .variable)
  | .ifElse _ _ onTrue onFalse, p => afterOption onFalse (after onTrue p)
  | .whileLoop _ _ body, p => after body p
  | .fnDecl _ f, p => p.declare f.name .function
  | .classDecl _ c _ _, p => p.declareClass c
  | .typeDecl _ name t, p => p.declareType name t
  | .expr _ _, p | .block _ _, p | .forIn _ _ _ _ _, p | .ret _ _, p | .jump _ _, p => p
termination_by structural s => s

/-- The place behind an optional statement. -/
def afterOption : Option BoundStmt → Place → Place
  | none, p => p
  | some s, p => after s p
termination_by structural s => s

end

/-- The place behind statements. -/
def afterAll (ss : List BoundStmt) (p : Place) : Place := ss.foldl (fun p s => s.after p) p

/-- An optional expression at a place. -/
def optional (e : Option BoundExpr) (p : Place) : List Occurrence := e.toList.map (⟨p, ·⟩)

mutual

/-- The outermost expressions of a statement, each at its place. -/
def roots : BoundStmt → Place → List Occurrence
  | .expr _ e, p => [⟨p, e⟩]
  | .block _ body, p => rootsAll body p.push
  | .varDecl _ _ _ value _, p => optional value p
  | .ifElse _ condition onTrue onFalse, p =>
    ⟨p, condition⟩ :: (roots onTrue p ++ rootsOption onFalse (onTrue.after p))
  | .whileLoop _ condition body, p => ⟨p, condition⟩ :: roots body p
  | .forIn _ name _ iterable body, p =>
    ⟨p, iterable⟩ :: rootsAll body (p.push.declare name .loopVariable)
  | .fnDecl _ f, p => rootsFn f (p.declare f.name .function)
  | .ret _ value, p => optional value p
  | .jump _ _, _ => []
  | .classDecl _ c fields methods, p =>
    let inside := (p.declareClass c).enterClass ⟨c, fields.length⟩
    fields.flatMap (fun f => optional f.value inside) ++ rootsFns methods inside
  | .typeDecl _ _ _, _ => []
termination_by structural s => s

/-- The outermost expressions of statements. -/
def rootsAll : List BoundStmt → Place → List Occurrence
  | [], _ => []
  | s :: ss, p => roots s p ++ rootsAll ss (s.after p)
termination_by structural ss => ss

/-- The outermost expressions of an optional statement. -/
def rootsOption : Option BoundStmt → Place → List Occurrence
  | none, _ => []
  | some s, p => roots s p
termination_by structural s => s

/-- The outermost expressions of a function. -/
def rootsFn : BoundFn BoundStmt → Place → List Occurrence
  | ⟨_, signature, body⟩, p => rootsAll body (p.enterFunction signature.params)
termination_by structural f => f

/-- The outermost expressions of the methods of a class. -/
def rootsFns : List (BoundFn BoundStmt) → Place → List Occurrence
  | [], _ => []
  | f :: fs, p => rootsFn f p ++ rootsFns fs p
termination_by structural fs => fs

end

/-- All expressions of statements, each at its place. -/
def occurrences (ss : List BoundStmt) (p : Place) : List Occurrence :=
  (rootsAll ss p).flatMap fun x => x.expr.subterms.map (⟨x.place, ·⟩)

mutual

/-- The class declarations in a statement, at any depth. -/
def classes : BoundStmt → List DeclaredClass
  | .block _ body => classesAll body
  | .ifElse _ _ onTrue onFalse => classes onTrue ++ classesOption onFalse
  | .whileLoop _ _ body => classes body
  | .forIn _ _ _ _ body => classesAll body
  | .fnDecl _ f => classesFn f
  | .classDecl _ c fields methods => ⟨c, fields.length⟩ :: classesFns methods
  | .expr _ _ | .varDecl _ _ _ _ _ | .ret _ _ | .jump _ _ | .typeDecl _ _ _ => []
termination_by structural s => s

/-- The class declarations in statements. -/
def classesAll : List BoundStmt → List DeclaredClass
  | [] => []
  | s :: ss => classes s ++ classesAll ss
termination_by structural ss => ss

/-- The class declarations in an optional statement. -/
def classesOption : Option BoundStmt → List DeclaredClass
  | none => []
  | some s => classes s
termination_by structural s => s

/-- The class declarations in a function. -/
def classesFn : BoundFn BoundStmt → List DeclaredClass
  | ⟨_, _, body⟩ => classesAll body
termination_by structural f => f

/-- The class declarations in the methods of a class. -/
def classesFns : List (BoundFn BoundStmt) → List DeclaredClass
  | [] => []
  | f :: fs => classesFn f ++ classesFns fs
termination_by structural fs => fs

end

theorem classesAll_append (ss ts : List BoundStmt) :
    classesAll (ss ++ ts) = classesAll ss ++ classesAll ts := by
  induction ss with
  | nil => rfl
  | cons s ss ih => rw [List.cons_append, classesAll, classesAll, ih, List.append_assoc]

end BoundStmt

/-! ### Classes whose methods are being bound -/

/-- Two members that differ at most in the type of a method. -/
structure Member.Alike (m n : Member Ty) : Prop where
  name : m.name = n.name
  modifiers : m.modifiers = n.modifiers
  writable : m.writable = n.writable
  type : m.type = n.type ∨ (m.type.isFunction = true ∧ n.type.isFunction = true)

/-- Two classes that differ at most in the types of their methods. -/
structure ClassDef.Alike (c d : ClassDef Ty) : Prop where
  name : c.name = d.name
  members : List.Forall₂ Member.Alike c.members d.members
  mixins : c.mixins = d.mixins
  superclass : c.superclass = d.superclass

/-- Two types that are equal, or classes that differ at most in the types of their methods. -/
inductive Ty.Alike : Ty → Ty → Prop
  | refl (t : Ty) : Alike t t
  | classes {c d : ClassDef Ty} (h : c.Alike d) : Alike (.classType c) (.classType d)

theorem Member.Alike.refl (m : Member Ty) : m.Alike m := ⟨rfl, rfl, rfl, .inl rfl⟩

instance : Std.Refl Member.Alike := ⟨Member.Alike.refl⟩

theorem Member.Alike.symm {m n : Member Ty} (h : m.Alike n) : n.Alike m :=
  ⟨h.name.symm, h.modifiers.symm, h.writable.symm, h.type.imp Eq.symm And.symm⟩

theorem Member.Alike.trans {l m n : Member Ty} (h : l.Alike m) (h' : m.Alike n) : l.Alike n := by
  refine ⟨h.name.trans h'.name, h.modifiers.trans h'.modifiers, h.writable.trans h'.writable, ?_⟩
  rcases h.type with heq | hboth
  · exact heq ▸ h'.type
  · rcases h'.type with heq' | hboth'
    · exact .inr (heq' ▸ hboth)
    · exact .inr ⟨hboth.1, hboth'.2⟩

theorem ClassDef.Alike.refl (c : ClassDef Ty) : c.Alike c :=
  ⟨rfl, List.forall₂_refl _, rfl, rfl⟩

theorem Ty.Alike.of_class {t : Ty} {d : ClassDef Ty} (h : t.Alike (.classType d)) :
    ∃ c, t = .classType c ∧ c.Alike d := by
  cases h with
  | refl => exact ⟨d, rfl, .refl d⟩
  | classes h => exact ⟨_, rfl, h⟩

/-- A method may get another function type. -/
theorem retypeFirst_alike {ms ns : List (Member Ty)} (h : List.Forall₂ Member.Alike ms ns)
    (hms : ∀ m ∈ ms, m.type.isFunction = true) (name : String) (f : Signature Ty) :
    List.Forall₂ Member.Alike ms (retypeFirst name (.function f) ns) := by
  induction h with
  | nil => exact .nil
  | cons hmn hrest ih =>
    rw [List.forall_mem_cons] at hms
    unfold retypeFirst
    split
    · exact .cons ⟨hmn.name, hmn.modifiers, hmn.writable, .inr ⟨hms.1, rfl⟩⟩ hrest
    · exact .cons hmn (ih hms.2)

theorem retypeAll_alike {ms ns : List (Member Ty)} (h : List.Forall₂ Member.Alike ms ns)
    (hms : ∀ m ∈ ms, m.type.isFunction = true) (fs : List (BoundFn BoundStmt)) :
    List.Forall₂ Member.Alike ms
      (fs.foldl (fun ms f => retypeFirst f.name (.function f.signature) ms) ns) := by
  induction fs generalizing ns with
  | nil => exact h
  | cons f fs ih => exact ih (retypeFirst_alike h hms f.name f.signature)

/-- The final class differs from the first one in the types of methods at most. -/
theorem retypeMethods_alike (count : Nat) (fs : List (BoundFn BoundStmt)) {ms : List (Member Ty)}
    (h : ∀ m ∈ ms.drop count, m.type.isFunction = true) :
    List.Forall₂ Member.Alike ms (retypeMethods count fs ms) := by
  have hsplit : List.Forall₂ Member.Alike (ms.take count ++ ms.drop count)
      (retypeMethods count fs ms) :=
    List.rel_append (List.forall₂_refl _) (retypeAll_alike (List.forall₂_refl _) h fs)
  rwa [List.take_append_drop] at hsplit

/-! ### Binders at a place -/

open Ty (Closed)

variable {P : Ty → Prop}

/-- A binder knows what is in scope at a place, and the types it knows satisfy a condition. -/
structure Place.Fits (P : Ty → Prop) (p : Place) (b : Binder) : Prop where
  names : p.names.Pointwise (fun k v => k.map Kind.isWritable = v.map Variable.writable) b.scopes
  types : p.types.scopes.Pointwise (Option.Rel fun t u => u.Alike t) b.types.scopes
  classes : b.classes = p.classes.map DeclaredClass.name
  around : ∀ d ∈ p.classes, P (.classType d.definition)
  every : b.Every P

namespace Place.Fits

variable {p : Place} {b b' : Binder} (h : p.Fits P b)
include h

/-- Only the scopes and the classes around count. -/
theorem congr (hscopes : b'.scopes = b.scopes) (htypes : b'.types = b.types)
    (hclasses : b'.classes = b.classes) : p.Fits P b' :=
  { names := hscopes ▸ h.names
    types := htypes ▸ h.types
    classes := hclasses ▸ h.classes
    around := h.around
    every := ⟨hscopes ▸ h.every.values, htypes ▸ h.every.types⟩ }

theorem noted (hb : b.Noted b') : p.Fits P b' := by
  obtain ⟨ts, rfl⟩ := hb
  exact h.congr rfl rfl rfl

theorem push : p.push.Fits P b.push :=
  { h with names := h.names.push rfl, types := h.types.push .none, every := h.every.push }

theorem define (kind : Kind) {writable : Bool} (hkind : kind.isWritable = writable) {type : Ty}
    (htype : type.Every P) (name : String) :
    (p.declare name kind).Fits P (b.define name type writable) :=
  { h with
    names := h.names.insert (congrArg some hkind) name
    every := h.every.define htype name writable }

theorem declareType {t u : Ty} (halike : u.Alike t) (hu : u.Every P) (name : String) :
    (p.declareType name t).Fits P (b.declareType name u) :=
  { h with types := h.types.insert (.some halike) name, every := h.every.declareType hu name }

theorem declareClass {c d : ClassDef Ty} (halike : c.Alike d) (hc : (Ty.classType c).Every P) :
    (p.declareClass d).Fits P (b.declareClass c) := by
  unfold Place.declareClass Binder.declareClass
  rw [halike.name]
  exact (h.declareType (.classes halike) hc d.name).define .classDecl rfl hc d.name

theorem enterClass {d : DeclaredClass} (hd : P (.classType d.definition)) {c : ClassDef Ty}
    (hname : c.name = d.name) (hc : (Ty.classType c).Every P) :
    (p.enterClass d).Fits P ((b.enterClass c.name).defineConst "this" (.classType c)) := by
  have hinside : Place.Fits P { p with classes := d :: p.classes }
      { b with classes := c.name :: b.classes } :=
    { names := h.names
      types := h.types
      classes := by rw [List.map_cons, hname, h.classes]
      around := List.forall_mem_cons.2 ⟨hd, h.around⟩
      every := ⟨h.every.values, h.every.types⟩ }
  exact hinside.push.define .this rfl hc "this"

theorem enterFunction {params : List (String × Ty)} (hparams : ∀ q ∈ params, q.2.Every P) :
    (p.enterFunction params).Fits P (defineParams params b.push) := by
  unfold Place.enterFunction defineParams
  suffices hfold : ∀ {p : Place} {b : Binder}, p.Fits P b →
      (params.foldl (fun p q => p.declare q.1 .parameter) p).Fits P
        (params.foldl (fun b q => b.define q.1 q.2 true) b) from hfold h.push
  induction params with
  | nil => exact fun hp => hp
  | cons q qs ih =>
    rw [List.forall_mem_cons] at hparams
    exact fun hp => ih hparams.2 (hp.define .parameter rfl hparams.1 q.1)

end Place.Fits

/-! ### Lookups in classes that are alike -/

theorem find?_alike {ms ns : List (Member Ty)} (h : List.Forall₂ Member.Alike ms ns)
    (name : String) :
    Option.Rel Member.Alike (ms.find? (·.name == name)) (ns.find? (·.name == name)) := by
  induction h with
  | nil => exact .none
  | @cons m n _ _ hmn _ ih =>
    rw [List.find?_cons, List.find?_cons, ← hmn.name]
    cases m.name == name with
    | true => exact .some hmn
    | false => exact ih

/-- Classes that are alike have the same members of the same owners, up to the types of methods. -/
theorem ClassDef.Alike.findMember? {c d : ClassDef Ty} (h : c.Alike d) (name : String) :
    Option.Rel (fun x y : FoundMember => x.member.Alike y.member ∧ x.owner = y.owner)
      (c.findMember? name) (d.findMember? name) := by
  obtain ⟨owner, ms, mixins, superclass⟩ := c
  obtain ⟨_, ns, _, _⟩ := d
  obtain ⟨rfl, hmembers, rfl, rfl⟩ := h
  have hfound := find?_alike hmembers name
  unfold ClassDef.findMember?
  rw [Ty.classMember?, Ty.classMember?]
  generalize ms.find? (·.name == name) = x, ns.find? (·.name == name) = y at hfound
  cases hfound with
  | some halike => exact .some ⟨halike, rfl⟩
  | none =>
    dsimp only
    cases Ty.inheritedMember? name superclass with
    | some found => exact .some ⟨.refl _, rfl⟩
    | none =>
      dsimp only
      cases Ty.mixedMember? name mixins with
      | some found => exact .some ⟨.refl _, rfl⟩
      | none => exact .none

namespace Place.Fits

variable {p : Place} {b : Binder} (h : p.Fits P b)
include h

/-- A type name stands for types that are alike. -/
theorem get? (name : String) :
    Option.Rel (fun t u => u.Alike t) (p.types.get? name) (b.types.get? name) :=
  h.types.lookup .none (fun _ _ hrel => by cases hrel <;> rfl) name

theorem expansion? (t : Ty) :
    Option.Rel (fun t u => u.Alike t) (p.types.expansion? t) (b.types.expansion? t) := by
  unfold Registry.expansion?
  split
  · rename_i name
    have hget := h.get? name
    generalize p.types.get? name = x, b.types.get? name = y at hget
    cases hget with
    | none => exact .none
    | @some t u halike =>
      cases halike with
      | classes hclass => exact .some (.classes hclass)
      | refl =>
        cases t with
        | classType c => exact .some (.refl _)
        | interface i => exact .some (.refl _)
        | intersection ms => exact .some (.refl _)
        | _ => exact .none
  · exact .none

theorem expand (t : Ty) : (b.types.expand t).Alike (p.types.expand t) := by
  have hexpansion := h.expansion? t
  unfold Registry.expand
  generalize p.types.expansion? t = x, b.types.expansion? t = y at hexpansion
  cases hexpansion with
  | none => exact .refl t
  | some halike => exact halike

end Place.Fits

end ScriptCheck
