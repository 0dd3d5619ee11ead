import ScriptCheck.Proofs.Ty.Meet

/-!
Classes as targets. What goes into a class comes from it by name: it is a class of that name, or one that
extends or mixes in what comes from it, or the name itself, or a union or an intersection of such types. The
shape of a type does not matter, except for an intersection, which also goes into a class if it shows all
that the class shows.
-/

namespace ScriptCheck

namespace Ty

variable {c : ClassDef Ty} {s : Ty} {apart : List Ty → Prop}

/-- A type comes from a class by name, at which an intersection of `apart` comes from it as it is. -/
inductive ComesFrom (c : ClassDef Ty) (apart : List Ty → Prop) : Ty → Prop
  | namesake {d : ClassDef Ty} (h : d.name = c.name) : ComesFrom c apart (.classType d)
  | extending {d : ClassDef Ty} {s : Ty} (hs : s ∈ d.superclass) (h : ComesFrom c apart s) :
      ComesFrom c apart (.classType d)
  | mixing {d : ClassDef Ty} {s : Ty} (hs : s ∈ d.mixins) (h : ComesFrom c apart s) :
      ComesFrom c apart (.classType d)
  | named {name : String} {args : List Ty} (h : name = c.name) : ComesFrom c apart (.named name args)
  | union {ms : List Ty} (h : ∀ m ∈ ms, ComesFrom c apart m) : ComesFrom c apart (.union ms)
  | intersection {ms : List Ty} {m : Ty} (hm : m ∈ ms) (h : ComesFrom c apart m) :
      ComesFrom c apart (.intersection ms)
  | apart {ms : List Ty} (h : apart ms) : ComesFrom c apart (.intersection ms)

/-- A type comes from a class by nothing but its name. -/
def ComesByName (c : ClassDef Ty) : Ty → Prop := ComesFrom c fun _ => False

/-- An intersection shows all that a class shows. -/
def ShapedLike (c : ClassDef Ty) (ms : List Ty) : Prop :=
  shapesSatisfy isAssignableTo (.intersection ms) (.classType c) = true

theorem ComesFrom.mono {others : List Ty → Prop} (h : ComesFrom c apart s)
    (himp : ∀ ms, apart ms → others ms) : ComesFrom c others s := by
  induction h with
  | namesake h => exact .namesake h
  | extending hs _ ih => exact .extending hs ih
  | mixing hs _ ih => exact .mixing hs ih
  | named h => exact .named h
  | union _ ih => exact .union ih
  | intersection hm _ ih => exact .intersection hm ih
  | apart h => exact .apart (himp _ h)

/-! ### From the name to assignability -/

/-- A class is no array, so that what is neither an intersection nor a literal is compared with it by
kind. -/
theorem elementInto_eq_plainInto (hi : s.isIntersection = false) (hl : s.isLiteral = false) :
    elementInto isAssignableTo s (.classType c) = plainInto isAssignableTo s (.classType c) := by
  have htarget : (classType c).arrayElement? = none := rfl
  rw [elementInto_eq_arraysInto hi hl, arraysInto, htarget]
  split <;> simp_all only [reduceCtorEq]

theorem elementInto_class {d : ClassDef Ty} :
    elementInto isAssignableTo (.classType d) (.classType c) = true ↔
      d.name = c.name ∨ (∃ s ∈ d.superclass, s.isAssignableTo (.classType c) = true) ∨
        ∃ s ∈ d.mixins, s.isAssignableTo (.classType c) = true := by
  rw [elementInto_eq_plainInto rfl rfl]
  simp only [plainInto, Bool.or_eq_true, beq_iff_eq, Option.any_eq_true, List.any_eq_true, or_assoc,
    Option.mem_def]

theorem elementInto_named {name : String} {args : List Ty} :
    elementInto isAssignableTo (.named name args) (.classType c) = true ↔ name = c.name := by
  rw [elementInto_eq_plainInto rfl rfl]
  simp only [plainInto, nominalName?, beq_iff_eq, Option.some.injEq]
  exact eq_comm

theorem ComesFrom.assignable (h : ComesFrom c (ShapedLike c) s) : s.isAssignableTo (.classType c) = true := by
  induction h with
  | namesake h => exact assignable_of_element rfl rfl rfl (elementInto_class.2 (.inl h))
  | extending hs _ ih =>
    exact assignable_of_element rfl rfl rfl (elementInto_class.2 (.inr (.inl ⟨_, hs, ih⟩)))
  | mixing hs _ ih =>
    exact assignable_of_element rfl rfl rfl (elementInto_class.2 (.inr (.inr ⟨_, hs, ih⟩)))
  | named h => exact assignable_of_element rfl rfl rfl (elementInto_named.2 h)
  | union _ ih => exact union_assignable ih
  | intersection hm _ ih => exact (intersection_assignable_iff rfl rfl).2 (.inr (.inl ⟨_, hm, ih⟩))
  | apart h => exact (intersection_assignable_iff rfl rfl).2 (.inr (.inr h))

/-! ### From assignability to the name -/

/-- Unless `any` is in it, a type that goes into a class comes from it by name or by the shape of an
intersection. -/
theorem comesFrom_of_assignable (hany : s.Every (·.isAny = false))
    (h : s.isAssignableTo (.classType c) = true) : ComesFrom c (ShapedLike c) s := by
  induction hany with
  | named here _ _ =>
    rcases same_or_element_of_assignable rfl rfl rfl here rfl h with hsame | helement
    · simp only [same, reduceCtorEq] at hsame
    · exact .named (elementInto_named.1 helement)
  | union _ _ ih => exact .union fun m hm => ih m hm (union_assignable_iff.1 h m hm)
  | @classType d here _ _ _ _ ihmixins ihsuper =>
    rcases same_or_element_of_assignable rfl rfl rfl here rfl h with hsame | helement
    · simp only [same, Bool.and_eq_true, beq_iff_eq] at hsame
      exact .namesake hsame.1.1.1
    · rcases elementInto_class.1 helement with hname | ⟨s, hs, hinto⟩ | ⟨s, hs, hinto⟩
      · exact .namesake hname
      · exact .extending hs (ihsuper s hs hinto)
      · exact .mixing hs (ihmixins s hs hinto)
  | intersection _ _ ih =>
    rcases (intersection_assignable_iff rfl rfl).1 h with htarget | ⟨m, hm, hinto⟩ | hshape
    · cases htarget
    · exact .intersection hm (ih m hm hinto)
    · exact .apart hshape
  | array here _ _ | interface here _ _ _ _ | function here _ _ _ _ | literal here =>
    -- no rule leads from these kinds into a class
    rcases same_or_element_of_assignable rfl rfl rfl here rfl h with hsame | helement
    · simp only [same, reduceCtorEq] at hsame
    · simp [elementInto, plainInto, arrayElement?, isNamed] at helement

/-- If no intersection is apart, only the names are left. -/
theorem ComesFrom.byName (h : ComesFrom c apart s)
    (hs : s.Every fun t => ∀ ms, t = .intersection ms → ¬apart ms) : ComesByName c s := by
  induction h with
  | namesake h => exact .namesake h
  | extending hs' _ ih =>
    cases hs with
    | classType _ _ _ superclass => exact .extending hs' (ih (superclass _ hs'))
  | mixing hs' _ ih =>
    cases hs with
    | classType _ _ mixins _ => exact .mixing hs' (ih (mixins _ hs'))
  | named h => exact .named h
  | union _ ih =>
    cases hs with
    | union _ parts => exact .union fun m hm => ih m hm (parts m hm)
  | intersection hm _ ih =>
    cases hs with
    | intersection _ parts => exact .intersection hm (ih (parts _ hm))
  | apart h => exact absurd h (hs.here _ rfl)

/-- A type is no class, and not the given name, and not a union of nothing. -/
def IsStructural (name : String) : Ty → Prop
  | .classType _ => False
  | .named own _ => own ≠ name
  | .union ms => ms ≠ []
  | _ => True

/-- Nothing comes from a class that is made of structural types. -/
theorem ComesByName.not_structural (h : ComesByName c s) : ¬s.Every (IsStructural c.name) := by
  intro hs
  induction h with
  | namesake _ | extending _ _ _ | mixing _ _ _ => exact hs.here
  | named h => exact hs.here h
  | @union ms _ ih =>
    cases hs with
    | union here parts =>
      obtain ⟨m, hm⟩ := List.exists_mem_of_ne_nil ms here
      exact ih m hm (parts m hm)
  | intersection hm _ ih =>
    cases hs with
    | intersection _ parts => exact ih (parts _ hm)
  | apart h => exact h

/-- A type without `any` goes into a class exactly if it comes from it by name or by the shape of an
intersection. If no intersection in it has the shape of the class, it comes from the class by name, and so
it is not made of structural types alone. -/
theorem assignable_class_nominal (c : ClassDef Ty) (s : Ty) (hany : s.Every (·.isAny = false)) :
    (s.isAssignableTo (.classType c) = true ↔ ComesFrom c (ShapedLike c) s) ∧
    ((s.Every fun t => ∀ ms, t = .intersection ms → ¬ShapedLike c ms) →
      (s.isAssignableTo (.classType c) = true ↔ ComesByName c s) ∧
      (s.Every (IsStructural c.name) → s.isAssignableTo (.classType c) = false)) := by
  refine ⟨⟨comesFrom_of_assignable hany, ComesFrom.assignable⟩, ?_⟩
  intro hshape
  have hname : s.isAssignableTo (.classType c) = true ↔ ComesByName c s := by
    constructor
    · intro h
      exact (comesFrom_of_assignable hany h).byName hshape
    · intro h
      exact (h.mono nofun).assignable
  refine ⟨hname, ?_⟩
  intro hs
  rw [← Bool.not_eq_true, hname]
  intro h
  exact h.not_structural hs

/-- A class with two numbers in it. -/
def pointClass : ClassDef Ty := ⟨"Point", [⟨"x", int, .public, true⟩, ⟨"y", int, .public, true⟩], [], none⟩

/-- A point, with or without a mark on it. -/
def markedPoint : Ty := .union [singular "Point", .intersection [singular "Point", object [("mark", int)]]]

theorem every_markedPoint {P : Ty → Prop} (hunion : P markedPoint) (hpoint : P (singular "Point"))
    (hmarked : P (.intersection [singular "Point", object [("mark", int)]]))
    (hmark : P (object [("mark", int)])) (hint : P int) : markedPoint.Every P := by
  have hclass := every_singular hpoint
  have hobject := every_object hmark (List.forall_mem_singleton.2 (every_singular hint))
  refine .union hunion (List.forall_mem_cons.2 ⟨hclass, List.forall_mem_singleton.2 ?_⟩)
  exact .intersection hmarked (List.forall_mem_cons.2 ⟨hclass, List.forall_mem_singleton.2 hobject⟩)

/-- A point with a mark on it is a point by its name. -/
theorem assignable_class_nominal_point : ComesByName pointClass markedPoint := by
  have hany : markedPoint.Every (·.isAny = false) := every_markedPoint rfl rfl rfl rfl rfl
  obtain ⟨-, hnames⟩ := assignable_class_nominal pointClass markedPoint hany
  have hshapes : markedPoint.Every fun t => ∀ ms, t = .intersection ms → ¬ShapedLike pointClass ms := by
    refine every_markedPoint nofun nofun (fun ms heq => ?_) nofun nofun
    cases heq
    simp [ShapedLike, shapesSatisfy, shape?, allShapes?, singular]
  exact (hnames hshapes).1.1 (by decide +kernel)

/-- Two objects with the members of a point between them. -/
def pointObjects : Ty := .intersection [object [("x", int)], object [("y", int)]]

theorem every_pointObjects {P : Ty → Prop} (hboth : P pointObjects) (hx : P (object [("x", int)]))
    (hy : P (object [("y", int)])) (hint : P int) : pointObjects.Every P := by
  have hint' : ∀ name : String, ∀ p ∈ [(name, int)], p.2.Every P := fun _ =>
    List.forall_mem_singleton.2 (every_singular hint)
  refine .intersection hboth (List.forall_mem_cons.2 ⟨every_object hx (hint' _), ?_⟩)
  exact List.forall_mem_singleton.2 (every_object hy (hint' _))

/-- The two objects go into the class and do not come from it, while one object with both members does not
go. -/
theorem assignable_class_objects :
    pointObjects.Every (·.isAny = false) ∧ pointObjects.isAssignableTo (.classType pointClass) = true ∧
      ¬ComesByName pointClass pointObjects ∧
      (object [("x", int), ("y", int)]).isAssignableTo (.classType pointClass) = false := by
  refine ⟨every_pointObjects rfl rfl rfl rfl, by decide +kernel, fun h => ?_, by decide +kernel⟩
  exact h.not_structural (every_pointObjects trivial trivial trivial (show "int" ≠ "Point" by decide))

end Ty

end ScriptCheck
