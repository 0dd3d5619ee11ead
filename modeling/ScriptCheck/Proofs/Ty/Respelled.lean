import ScriptCheck.Ty.Assignable

/-!
The two spellings of arrays. An array type is written with brackets, or as the name `Array` with one
argument; to respell a type is to write every array in it with brackets. A respelled type is of the same
kind, except that a name may become an array; it is an array if the type was one, with its element
respelled, and so is what can be seen of it from outside.
-/

namespace ScriptCheck

namespace Ty

mutual

/-- The type with the name `Array` and one argument replaced by the array of that argument, at every
depth. -/
def respelled : Ty → Ty
  | .named name args => generic name (respelledAll args)
  | .union members => .union (respelledAll members)
  | .array element => .array (respelledOption element)
  | .interface ⟨name, props, index⟩ => .interface ⟨name, respelledProps props, respelledIndex index⟩
  | .function ⟨params, result⟩ => .function ⟨respelledParams params, respelled result⟩
  | .classType ⟨name, members, mixins, superclass⟩ =>
    .classType ⟨name, respelledMembers members, respelledAll mixins, respelledOption superclass⟩
  | .literal value => .literal value
  | .intersection members => .intersection (respelledAll members)
termination_by structural t => t

/-- The types, each of them respelled. -/
def respelledAll : List Ty → List Ty
  | [] => []
  | t :: ts => respelled t :: respelledAll ts
termination_by structural ts => ts

/-- The type, if there is one, respelled. -/
def respelledOption : Option Ty → Option Ty
  | none => none
  | some t => some (respelled t)
termination_by structural t => t

/-- The properties with their types respelled. -/
def respelledProps : List (Property Ty) → List (Property Ty)
  | [] => []
  | ⟨name, t, writable⟩ :: ps => ⟨name, respelled t, writable⟩ :: respelledProps ps
termination_by structural ps => ps

/-- The index signatures with their types respelled. -/
def respelledIndex : List (IndexKey × Ty) → List (IndexKey × Ty)
  | [] => []
  | (key, t) :: is => (key, respelled t) :: respelledIndex is
termination_by structural is => is

/-- The parameters with their types respelled. -/
def respelledParams : List (String × Ty) → List (String × Ty)
  | [] => []
  | (name, t) :: ps => (name, respelled t) :: respelledParams ps
termination_by structural ps => ps

/-- The class members with their types respelled. -/
def respelledMembers : List (Member Ty) → List (Member Ty)
  | [] => []
  | ⟨name, t, modifiers, writable⟩ :: ms =>
    ⟨name, respelled t, modifiers, writable⟩ :: respelledMembers ms
termination_by structural ms => ms

end

variable {ts : List Ty} {name : String}

/-! ### Parts -/

@[simp]
theorem respelledAll_eq (ts : List Ty) : respelledAll ts = ts.map respelled := by
  induction ts with
  | nil => rfl
  | cons t ts ih => rw [respelledAll, ih, List.map_cons]

@[simp]
theorem respelledOption_eq (t : Option Ty) : respelledOption t = t.map respelled := by
  cases t <;> rfl

@[simp]
theorem respelledProps_eq (ps : List (Property Ty)) :
    respelledProps ps = ps.map fun p => { p with type := p.type.respelled } := by
  induction ps with
  | nil => rfl
  | cons p ps ih => rw [respelledProps, ih, List.map_cons]

@[simp]
theorem respelledIndex_eq (is : List (IndexKey × Ty)) :
    respelledIndex is = is.map (Prod.map id respelled) := by
  induction is with
  | nil => rfl
  | cons i is ih => rw [respelledIndex, ih, List.map_cons, Prod.map, id]

@[simp]
theorem respelledParams_eq (ps : List (String × Ty)) :
    respelledParams ps = ps.map (Prod.map id respelled) := by
  induction ps with
  | nil => rfl
  | cons p ps ih => rw [respelledParams, ih, List.map_cons, Prod.map, id]

@[simp]
theorem respelledMembers_eq (ms : List (Member Ty)) :
    respelledMembers ms = ms.map fun m => { m with type := m.type.respelled } := by
  induction ms with
  | nil => rfl
  | cons m ms ih => rw [respelledMembers, ih, List.map_cons]

/-- A name other than `Array` is written in one way only. -/
theorem generic_of_ne (h : name ≠ "Array") : generic name ts = .named name ts := by
  unfold generic
  split
  · exact if_neg h
  · rfl

/-- A name stays as it is, or becomes an array. -/
theorem respelled_named (name : String) (args : List Ty) :
    (named name args).respelled = .named name (args.map respelled) ∨
      name = "Array" ∧ ∃ e, (named name args).respelled = .array e := by
  rw [respelled, respelledAll_eq]
  by_cases hname : name = "Array"
  · match args.map respelled with
    | [] => exact .inl rfl
    | [_] => exact .inr ⟨hname, _, if_pos hname⟩
    | _ :: _ :: _ => exact .inl rfl
  · exact .inl (generic_of_ne hname)

/-! ### Kinds -/

theorem isUnion_respelled (t : Ty) : t.respelled.isUnion = t.isUnion := by
  cases t with
  | named name args => rcases respelled_named name args with h | ⟨-, e, h⟩ <;> rw [h] <;> rfl
  | _ => rfl

theorem isLiteral_respelled (t : Ty) : t.respelled.isLiteral = t.isLiteral := by
  cases t with
  | named name args => rcases respelled_named name args with h | ⟨-, e, h⟩ <;> rw [h] <;> rfl
  | _ => rfl

theorem isIntersection_respelled (t : Ty) : t.respelled.isIntersection = t.isIntersection := by
  cases t with
  | named name args => rcases respelled_named name args with h | ⟨-, e, h⟩ <;> rw [h] <;> rfl
  | _ => rfl

theorem isNamed_respelled (t : Ty) (h : name ≠ "Array") :
    t.respelled.isNamed name = t.isNamed name := by
  cases t with
  | named own args =>
    rcases respelled_named own args with heq | ⟨rfl, e, heq⟩
    · rw [heq]
      rfl
    · simp [heq, isNamed, Ne.symm h]
  | _ => rfl

theorem isAny_respelled (t : Ty) : t.respelled.isAny = t.isAny := isNamed_respelled t (by decide)

/-- An array stays one, and its element is respelled. -/
theorem arrayElement?_respelled (t : Ty) :
    t.respelled.arrayElement? = t.arrayElement?.map (Option.map respelled) := by
  cases t with
  | array element => simp [respelled, arrayElement?]
  | named name args =>
    by_cases h : name = "Array"
    · subst h
      match args with
      | [] => rfl
      | [_] => rfl
      | _ :: _ :: _ => rfl
    · simp [respelled, generic_of_ne h, arrayElement?, h]
  | _ => rfl

end Ty

/-! ### Shapes -/

namespace Shape

/-- The shape with its types respelled. -/
def respelled (s : Shape) : Shape :=
  ⟨s.props.map (Prod.map id Ty.respelled), s.index.map (Prod.map id Ty.respelled)⟩

theorem addNew_respelled {κ : Type} [DecidableEq κ] (entries : List (κ × Ty)) (e : κ × Ty) :
    addNew (entries.map (Prod.map id Ty.respelled)) (e.map id Ty.respelled) =
      (addNew entries e).map (Prod.map id Ty.respelled) := by
  unfold addNew
  rw [List.any_map, apply_ite (List.map _), List.map_append]
  rfl

theorem foldl_addNew_respelled {κ : Type} [DecidableEq κ] (entries more : List (κ × Ty)) :
    (more.map (Prod.map id Ty.respelled)).foldl addNew (entries.map (Prod.map id Ty.respelled)) =
      (more.foldl addNew entries).map (Prod.map id Ty.respelled) := by
  induction more generalizing entries with
  | nil => rfl
  | cons e more ih => rw [List.map_cons, List.foldl_cons, addNew_respelled, ih, List.foldl_cons]

theorem merge_respelled (s t : Shape) : s.respelled.merge t.respelled = (s.merge t).respelled := by
  simp only [merge, respelled, foldl_addNew_respelled]

theorem foldl_merge_respelled (s : Shape) (ts : List Shape) :
    (ts.map respelled).foldl merge s.respelled = (ts.foldl merge s).respelled := by
  induction ts generalizing s with
  | nil => rfl
  | cons t ts ih => rw [List.map_cons, List.foldl_cons, merge_respelled, ih, List.foldl_cons]

end Shape

namespace Ty

mutual

/-- What is seen of a type is respelled with it. -/
theorem shape?_respelled : ∀ t : Ty, t.respelled.shape? = t.shape?.map Shape.respelled
  | .interface ⟨_, props, index⟩ => by
    simp only [respelled, shape?, respelledProps_eq, respelledIndex_eq, Option.map_some,
      Shape.respelled, List.map_map]
    rfl
  | .classType ⟨_, members, mixins, superclass⟩ => by
    have hsuper := optionShape?_respelled superclass
    have hmixins := shapes_respelled mixins
    have hown : (((respelledMembers members).filter (!·.isPrivate)).map fun m => (m.name, m.type)) =
        ((members.filter (!·.isPrivate)).map fun m => (m.name, m.type)).map
          (Prod.map id respelled) := by
      rw [respelledMembers_eq, List.filter_map, List.map_map, List.map_map]
      rfl
    simp only [respelled, shape?, Option.map_some, hsuper, hmixins, hown]
    rw [← Shape.foldl_merge_respelled, List.map_append, Option.toList_map]
    rfl
  | .intersection members => by
    have hmembers := allShapes?_respelled members
    simp only [respelled, shape?, hmembers, Option.map_map, Function.comp_def]
    simp only [← Shape.foldl_merge_respelled]
    rfl
  | .named name args => by rcases respelled_named name args with h | ⟨-, e, h⟩ <;> rw [h] <;> rfl
  | .union _ | .array _ | .function _ | .literal _ => rfl
termination_by structural t => t

theorem optionShape?_respelled : ∀ t : Option Ty,
    optionShape? (respelledOption t) = (optionShape? t).map Shape.respelled
  | some t => shape?_respelled t
  | none => rfl
termination_by structural t => t

theorem shapes_respelled : ∀ ts : List Ty, shapes (respelledAll ts) = (shapes ts).map Shape.respelled
  | [] => rfl
  | t :: ts => by
    rw [respelledAll, shapes, shapes, shape?_respelled t, shapes_respelled ts, List.map_append,
      Option.toList_map]
termination_by structural ts => ts

theorem allShapes?_respelled : ∀ ts : List Ty,
    allShapes? (respelledAll ts) = (allShapes? ts).map (List.map Shape.respelled)
  | [] => rfl
  | t :: ts => by
    rw [respelledAll, allShapes?, allShapes?, shape?_respelled t, allShapes?_respelled ts]
    cases t.shape? <;> cases allShapes? ts <;> rfl
termination_by structural ts => ts

end

end Ty

end ScriptCheck
