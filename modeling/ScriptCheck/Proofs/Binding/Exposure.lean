import ScriptCheck.Proofs.Binding.Occurrences
import ScriptCheck.Proofs.Ty.Merging

/-!
What a type shows and what is found in it. The shape of a class, by which it goes into an interface, has the
first declaration of a name that is not private; a search for the name finds the first one, private or not.
The two differ where a private member stands in front of a public one of its name. The shape of an
intersection of interfaces has the first property of a name; reading it gives the first type other than
`undefined`. The two differ where a type for all names stands in front of the property, or where the property
itself has the type `undefined`.
-/

namespace ScriptCheck

/-! ### Declarations of a name -/

namespace Ty

mutual

/-- The declarations of a name in a class or an interface, with their owners, in the order of the search: its
own, then those of the class that it extends, then those of what it mixes in. -/
def declarations (name : String) : Ty → List FoundMember
  | .classType ⟨owner, members, mixins, superclass⟩ =>
    (members.filter (·.name == name)).map (⟨·, owner⟩) ++
      (declarationsOption name superclass ++ declarationsAll name mixins)
  | .interface ⟨owner, props, _⟩ =>
    (props.filter (·.name == name)).map fun p => ⟨⟨p.name, p.type, .public, p.writable⟩, owner.getD ""⟩
  | _ => []
termination_by structural t => t

/-- The same for an optional type. -/
def declarationsOption (name : String) : Option Ty → List FoundMember
  | none => []
  | some t => declarations name t
termination_by structural t => t

/-- The same for types, one after the other. -/
def declarationsAll (name : String) : List Ty → List FoundMember
  | [] => []
  | t :: ts => declarations name t ++ declarationsAll name ts
termination_by structural ts => ts

end

/-- A class extends a class, if anything, and mixes in classes and interfaces, and so do these. -/
inductive ProperClass : Ty → Prop
  | intro {c : ClassDef Ty} (superclass : ∀ t ∈ c.superclass, ProperClass t)
      (mixins : ∀ t ∈ c.mixins, t.isInterface = false → ProperClass t) : ProperClass (.classType c)

variable {name : String} {t : Ty} {ts : List Ty}

/-! ### The search -/

theorem mixedMember?_eq_head? (h : ∀ t ∈ ts,
      (classMember? name t).or (interfaceMember? name t) = (declarations name t).head?) :
    mixedMember? name ts = (declarationsAll name ts).head? := by
  induction ts with
  | nil => rfl
  | cons t ts ih =>
    obtain ⟨ht, hts⟩ := List.forall_mem_cons.1 h
    rw [mixedMember?, declarationsAll, List.head?_append, ht, ih hts]
    cases (declarations name t).head? <;> rfl

/-- A property of an interface is its first declaration. -/
theorem interfaceMember?_eq_head? (i : Interface Ty) :
    interfaceMember? name (.interface i) = (declarations name (.interface i)).head? := by
  simp only [interfaceMember?, declarations, Interface.property?, List.head?_map, List.head?_filter]

/-- The search finds the first declaration. -/
theorem ProperClass.classMember?_eq_head? (h : t.ProperClass) :
    classMember? name t = (declarations name t).head? := by
  induction h with
  | @intro c _ _ ihsuper ihmixins =>
    obtain ⟨owner, members, mixins, superclass⟩ := c
    have hsuper : inheritedMember? name superclass = (declarationsOption name superclass).head? := by
      cases superclass with
      | none => rfl
      | some t => exact ihsuper t rfl
    have hmixins : mixedMember? name mixins = (declarationsAll name mixins).head? := by
      refine mixedMember?_eq_head? fun t ht => ?_
      cases t with
      | interface i => exact interfaceMember?_eq_head? i
      | _ =>
        rw [ihmixins _ ht rfl]
        exact Option.or_none
    rw [classMember?, declarations, List.head?_append, List.head?_append, List.head?_map, List.head?_filter,
      hsuper, hmixins]
    cases members.find? (·.name == name) with
    | some m => rfl
    | none => cases (declarationsOption name superclass).head? <;> rfl

/-! ### The shape -/

/-- The type of the first declaration that is not private. -/
def publicType? (ds : List FoundMember) : Option Ty :=
  (ds.find? fun d => !d.member.isPrivate).map (·.member.type)

theorem publicType?_append (ds es : List FoundMember) :
    publicType? (ds ++ es) = (publicType? ds).or (publicType? es) := by
  rw [publicType?, List.find?_append, Option.map_or]
  rfl

/-- What a class shows of its own members. -/
theorem publicType?_members (members : List (Member Ty)) (owner name : String) :
    publicType? ((members.filter (·.name == name)).map (⟨·, owner⟩)) =
      (⟨(members.filter (!·.isPrivate)).map fun m => (m.name, m.type), []⟩ : Shape).property? name := by
  simp only [publicType?, Shape.property?, List.find?_map, List.find?_filter, Option.map_map,
    Function.comp_def, and_comm]

/-- The type has the shape, and this shows the first public declaration of every name. -/
def ShowsPublic (t : Ty) (s : Shape) : Prop :=
  t.shape? = some s ∧ ∀ name, s.property? name = publicType? (declarations name t)

theorem exists_shape_interface (i : Interface Ty) : ∃ s, ShowsPublic (.interface i) s := by
  refine ⟨⟨i.props.map fun p => (p.name, p.type), i.index⟩, rfl, fun name => ?_⟩
  -- nothing of an interface is private
  have hpublic : ∀ p : Property Ty, (Member.mk p.name p.type .public p.writable).isPrivate = false :=
    fun _ => rfl
  simp only [Shape.property?_of_props, publicType?, declarations, List.find?_map, List.find?_filter,
    Option.map_map, Function.comp_def, hpublic, Bool.not_false, and_true, Bool.decide_eq_true]

theorem findSome?_optionShape? {o : Option Ty} (h : ∀ t ∈ o, ∃ s, t.ShowsPublic s) (name : String) :
    (optionShape? o).toList.findSome? (·.property? name) = publicType? (declarationsOption name o) := by
  cases o with
  | none => rfl
  | some t =>
    obtain ⟨s, hshape, hshown⟩ := h t rfl
    simp [optionShape?, declarationsOption, hshape, hshown]

theorem findSome?_shapes (h : ∀ t ∈ ts, ∃ s, t.ShowsPublic s) (name : String) :
    (shapes ts).findSome? (·.property? name) = publicType? (declarationsAll name ts) := by
  induction ts with
  | nil => rfl
  | cons t ts ih =>
    obtain ⟨ht, hts⟩ := List.forall_mem_cons.1 h
    obtain ⟨s, hshape, hshown⟩ := ht
    rw [shapes, declarationsAll, publicType?_append, ← ih hts, ← hshown, hshape, Option.toList_some,
      List.singleton_append, List.findSome?_cons]
    cases s.property? name <;> rfl

/-- The shape of a class shows the first public declaration of every name. -/
theorem ProperClass.exists_shape (h : t.ProperClass) : ∃ s, t.ShowsPublic s := by
  induction h with
  | @intro c _ _ ihsuper ihmixins =>
    obtain ⟨owner, members, mixins, superclass⟩ := c
    have hmixins : ∀ t ∈ mixins, ∃ s, t.ShowsPublic s := by
      intro t ht
      cases t with
      | interface i => exact exists_shape_interface i
      | _ => exact ihmixins _ ht rfl
    refine ⟨_, rfl, fun name => ?_⟩
    rw [(Shape.isLookup_property name).foldl_merge, List.findSome?_append, findSome?_optionShape? ihsuper,
      findSome?_shapes hmixins, declarations, publicType?_append, publicType?_append, publicType?_members]

/-- A class that goes into an interface shows all that the interface asks for. -/
theorem exists_property_of_assignable {c : ClassDef Ty} {i : Interface Ty} {s : Shape}
    (h : (classType c).isAssignableTo (.interface i) = true) (hshape : (classType c).shape? = some s)
    {p : Property Ty} (hp : p ∈ i.props) :
    ∃ u, s.property? p.name = some u ∧ u.isAssignableTo p.type = true := by
  rcases same_or_element_of_assignable rfl rfl rfl rfl rfl h with hsame | helement
  · simp only [same, reduceCtorEq] at hsame
  · have hsatisfies : shapesSatisfy isAssignableTo (classType c) (.interface i) = true := helement
    rw [shapesSatisfy, hshape] at hsatisfies
    exact Shape.property?_of_satisfies hsatisfies (List.mem_map_of_mem hp)

end Ty

/-! ### Classes -/

namespace ClassDef

/-- A search for the name finds a member of the type that is not private. -/
def FindsPublic (c : ClassDef Ty) (name : String) (t : Ty) : Prop :=
  ∃ found ∈ c.findMember? name, found.member.isPrivate = false ∧ found.member.type = t

/-- A private member of the name stands in front of one that is not private. -/
def Hides (c : ClassDef Ty) (name : String) : Prop :=
  ∃ found ∈ c.findMember? name, found.member.isPrivate = true ∧
    ∃ d ∈ Ty.declarations name (.classType c), d.member.isPrivate = false

variable {c : ClassDef Ty} {name : String}

theorem slot_of_public {found : FoundMember} (h : c.findMember? name = some found)
    (hpublic : found.member.isPrivate = false) (classes : List String) (position : Position) :
    c.slot classes position (.name name) = .ok ⟨found.member.type, found.member.writable⟩ := by
  simp [slot, h, hpublic]

end ClassDef

namespace Ty

/-- What is declared first is shown if it is not private. -/
theorem publicType?_of_head? {ds : List FoundMember} {d : FoundMember} (h : d ∈ ds.head?)
    (hpublic : d.member.isPrivate = false) : publicType? ds = some d.member.type := by
  obtain ⟨rest, rfl⟩ := List.head?_eq_some_iff.1 h
  simp [publicType?, hpublic]

/-- What is declared first is what is shown, unless it is private and something public follows. -/
theorem publicType?_iff_head? (ds : List FoundMember) :
    (∀ t, publicType? ds = some t ↔ ∃ d ∈ ds.head?, d.member.isPrivate = false ∧ d.member.type = t) ↔
      ¬∃ d ∈ ds.head?, d.member.isPrivate = true ∧ ∃ e ∈ ds, e.member.isPrivate = false := by
  constructor
  · rintro h ⟨d, hd, hprivate, e, he, hpublic⟩
    -- the public declaration is shown, and the private one is found
    have hshown : ((ds.find? fun d => !d.member.isPrivate).map (·.member.type)).isSome = true := by
      rw [Option.isSome_map, List.find?_isSome]
      exact ⟨e, he, by simp [hpublic]⟩
    obtain ⟨t, ht⟩ := Option.isSome_iff_exists.1 hshown
    obtain ⟨d', hd', hpublic', -⟩ := (h t).1 ht
    obtain rfl := Option.mem_unique hd hd'
    exact Bool.false_ne_true (hpublic'.symm.trans hprivate)
  · intro h t
    constructor
    · intro ht
      obtain ⟨e, he, rfl⟩ := Option.map_eq_some_iff.1 ht
      have hpublic : e.member.isPrivate = false := by simpa using List.find?_some he
      cases ds with
      | nil => cases he
      | cons d ds =>
        have hfirst : d.member.isPrivate = false := by
          by_contra hprivate
          exact h ⟨d, rfl, by simpa using hprivate, e, List.mem_of_find?_eq_some he, hpublic⟩
        rw [List.find?_cons_of_pos (by simp [hfirst])] at he
        obtain rfl := Option.some.inj he
        exact ⟨_, rfl, hfirst, rfl⟩
    · rintro ⟨d, hd, hpublic, rfl⟩
      exact publicType?_of_head? hd hpublic

end Ty

namespace ClassDef

/-- A class shows the public members that are found in it. It shows nothing else of a name exactly if no
private member of the name stands in front of a public one; then it goes into an interface that asks for the
name only if a public member is found, which can be read from everywhere and has a type that goes into the
one that is asked for. -/
theorem shown_iff_found (c : ClassDef Ty) (hc : (Ty.classType c).ProperClass) :
    ∃ s, (Ty.classType c).shape? = some s ∧ ∀ name,
      (∀ t, c.FindsPublic name t → s.property? name = some t) ∧
      ((∀ t, s.property? name = some t ↔ c.FindsPublic name t) ↔ ¬c.Hides name) ∧
      (¬c.Hides name → ∀ i : Interface Ty, (Ty.classType c).isAssignableTo (.interface i) = true →
        ∀ p ∈ i.props, p.name = name → ∃ found ∈ c.findMember? name,
          found.member.isPrivate = false ∧ found.member.type.isAssignableTo p.type = true ∧
          ∀ r classes position, memberOf r classes position (.name name) (.classType c) =
            .ok ⟨found.member.type, found.member.writable⟩) := by
  obtain ⟨s, hshape, hshown⟩ := hc.exists_shape
  refine ⟨s, hshape, fun name => ?_⟩
  have hfound : c.findMember? name = (Ty.declarations name (.classType c)).head? :=
    hc.classMember?_eq_head?
  have hiff : (∀ t, s.property? name = some t ↔ c.FindsPublic name t) ↔ ¬c.Hides name := by
    simp only [FindsPublic, Hides, hfound, hshown]
    exact Ty.publicType?_iff_head? _
  refine ⟨?_, hiff, ?_⟩
  · rintro t ⟨found, hmem, hpublic, rfl⟩
    rw [hshown]
    exact Ty.publicType?_of_head? (hfound ▸ hmem) hpublic
  · rintro hhides i hinto p hp rfl
    obtain ⟨u, hu, hassignable⟩ := Ty.exists_property_of_assignable hinto hshape hp
    obtain ⟨found, hmem, hpublic, rfl⟩ := (hiff.2 hhides u).1 hu
    refine ⟨found, hmem, hpublic, hassignable, fun r classes position => ?_⟩
    exact slot_of_public hmem hpublic classes position

/-- A class with a number in it. -/
def baseClass : ClassDef Ty := ⟨"Base", [⟨"x", .int, .none, true⟩], [], none⟩

/-- A class that extends it and has a private text, and mixes in a name. -/
def derivedClass : ClassDef Ty :=
  ⟨"Derived", [⟨"y", .string, ⟨false, true, false, false⟩, true⟩],
    [.interface ⟨some "Named", [⟨"name", .string, true⟩], []⟩], some (.classType baseClass)⟩

/-- A class that extends it and has a private text of the same name. -/
def hidingClass : ClassDef Ty :=
  ⟨"Hiding", [⟨"x", .string, ⟨false, true, false, false⟩, true⟩], [], some (.classType baseClass)⟩

theorem properClass_baseClass : (Ty.classType baseClass).ProperClass := .intro nofun nofun

/-- The number is inherited: it is shown, and can be read as a number. -/
theorem shown_iff_found_derived : ∃ found ∈ derivedClass.findMember? "x",
    found.member.isPrivate = false ∧ found.member.type.isAssignableTo .number = true ∧
    memberOf .intrinsic [] ⟨0, "main"⟩ (.name "x") (.classType derivedClass) =
      .ok ⟨found.member.type, found.member.writable⟩ := by
  have hproper : (Ty.classType derivedClass).ProperClass := by
    refine .intro (fun t ht => ?_) fun t ht hinterface => ?_
    · cases ht
      exact properClass_baseClass
    · obtain rfl := List.mem_singleton.1 ht
      cases hinterface
  have hhides : ¬derivedClass.Hides "x" := by
    rintro ⟨found, hfound, hprivate, -⟩
    cases hfound
    cases hprivate
  obtain ⟨s, -, hname⟩ := shown_iff_found derivedClass hproper
  obtain ⟨found, hfound, hpublic, hinto, hread⟩ :=
    (hname "x").2.2 hhides ⟨none, [⟨"x", .number, true⟩], []⟩ (by decide +kernel) _ List.mem_cons_self rfl
  exact ⟨found, hfound, hpublic, hinto, hread _ _ _⟩

/-- A private text in front of the inherited number: the number is shown, so that the class goes into an
interface with it, but only the text is found, and it cannot be read from outside. -/
theorem shown_not_found :
    (Ty.classType hidingClass).ProperClass ∧
    (Ty.classType hidingClass).shape? = some ⟨[("x", .int)], []⟩ ∧ ¬hidingClass.FindsPublic "x" .int ∧
    (Ty.classType hidingClass).isAssignableTo (.interface ⟨none, [⟨"x", .int, true⟩], []⟩) = true ∧
    memberOf .intrinsic [] ⟨0, "main"⟩ (.name "x") (.classType hidingClass) =
      .error (.of (.privateMemberAccess "x" "Hiding") ⟨0, "main"⟩) := by
  refine ⟨.intro (fun t ht => ?_) nofun, rfl, ?_, by decide +kernel, rfl⟩
  · cases ht
    exact properClass_baseClass
  · rintro ⟨found, hfound, hpublic, -⟩
    cases hfound
    cases hpublic

end ClassDef

/-! ### Intersections of interfaces -/

namespace Interface

/-- The intersection of interfaces. -/
def together (is : List (Interface Ty)) : Ty := .intersection (is.map .interface)

/-- The type that an interface gives to a name, by a property or for all names, unless it is `undefined`. -/
def toldType? (name : String) (i : Interface Ty) : Option Ty :=
  let t := (i.slot (.name name)).type
  if t.isNamed "undefined" then none else some t

variable {name : String} {is : List (Interface Ty)}

theorem toldType?_of_property {i : Interface Ty} {p : Property Ty} (h : i.property? name = some p)
    (hdefined : p.type.isNamed "undefined" = false) : i.toldType? name = some p.type := by
  simp [toldType?, slot, h, hdefined]

theorem firstSlot_interfaces (r : Registry) (classes : List String) (position : Position) (name : String)
    (expanded : Ty → Except Failure Slot) (is : List (Interface Ty)) :
    ∃ w, firstSlot r classes position (.name name) expanded (is.map .interface) =
      .ok ⟨(is.findSome? (·.toldType? name)).getD .undefined, w⟩ := by
  induction is with
  | nil => exact ⟨true, rfl⟩
  | cons i is ih =>
    have hstep : firstSlot r classes position (.name name) expanded ((i :: is).map .interface) =
        if (i.slot (.name name)).type.isNamed "undefined" then
          firstSlot r classes position (.name name) expanded (is.map .interface)
        else .ok (i.slot (.name name)) := rfl
    rw [hstep, List.findSome?_cons, toldType?]
    cases (i.slot (.name name)).type.isNamed "undefined" with
    | true => exact ih
    | false => exact ⟨(i.slot (.name name)).writable, rfl⟩

/-- Reading a name gives the first type that a member tells. -/
theorem memberOf_together (r : Registry) (classes : List String) (position : Position) (name : String)
    (is : List (Interface Ty)) : ∃ w, memberOf r classes position (.name name) (together is) =
      .ok ⟨(is.findSome? (·.toldType? name)).getD .undefined, w⟩ :=
  firstSlot_interfaces r classes position name _ is

/-- The shape shows the first property of a name. -/
theorem exists_shape_together (is : List (Interface Ty)) : ∃ s, (together is).shape? = some s ∧
    ∀ name, s.property? name = is.findSome? fun i => (i.property? name).map (·.type) := by
  have hshapes : Ty.allShapes? (is.map .interface) =
      some (is.map fun i => ⟨i.props.map fun p => (p.name, p.type), i.index⟩) := by
    rw [Ty.allShapes?_eq_some_iff, List.map_map, List.map_map]
    rfl
  refine ⟨_, by rw [together, Ty.shape?, hshapes, Option.map_some], fun name => ?_⟩
  rw [(Shape.isLookup_property name).foldl_merge, List.findSome?_map]
  simp only [Function.comp_def, Shape.property?_of_props]
  rfl

/-- A declared type other than `undefined` is told first if nothing is told in front of it. -/
theorem findSome?_toldType? {t : Ty} (h : is.findSome? (fun i => (i.property? name).map (·.type)) = some t)
    (hdefined : t.isNamed "undefined" = false)
    (hbefore : ∀ i ∈ is.takeWhile fun i => (i.property? name).isNone, i.toldType? name = none) :
    is.findSome? (·.toldType? name) = some t := by
  induction is with
  | nil => cases h
  | cons i is ih =>
    rw [List.findSome?_cons] at h ⊢
    cases hproperty : i.property? name with
    | some p =>
      rw [hproperty] at h
      obtain rfl : p.type = t := Option.some.inj h
      rw [toldType?_of_property hproperty hdefined]
    | none =>
      rw [hproperty] at h
      rw [List.takeWhile_cons_of_pos (by rw [hproperty]; rfl), List.forall_mem_cons] at hbefore
      rw [hbefore.1]
      exact ih h hbefore.2

/-- An intersection of interfaces shows a type for a name. Reading the name gives that type exactly if it is
the first type other than `undefined` that a member tells for the name, or `undefined` where none tells any;
so it does if it is not `undefined` and no member in front of the first property of the name tells a type for
all names. Into whatever interface the intersection goes by its shape, that type goes into what is asked
for. -/
theorem read_iff_shown (is : List (Interface Ty)) (r : Registry) (classes : List String)
    (position : Position) (name : String) :
    ∃ s, (together is).shape? = some s ∧ ∀ t, s.property? name = some t →
      ((∃ w, memberOf r classes position (.name name) (together is) = .ok ⟨t, w⟩) ↔
        (is.findSome? (·.toldType? name)).getD .undefined = t) ∧
      (t.isNamed "undefined" = false →
        (∀ i ∈ is.takeWhile fun i => (i.property? name).isNone, i.toldType? name = none) →
        ∃ w, memberOf r classes position (.name name) (together is) = .ok ⟨t, w⟩) ∧
      ∀ g : Interface Ty, Ty.shapesSatisfy Ty.isAssignableTo (together is) (.interface g) = true →
        ∀ p ∈ g.props, p.name = name → t.isAssignableTo p.type = true := by
  obtain ⟨s, hshape, hshown⟩ := exists_shape_together is
  obtain ⟨w, hread⟩ := memberOf_together r classes position name is
  refine ⟨s, hshape, fun t ht => ?_⟩
  have hiff : (∃ w, memberOf r classes position (.name name) (together is) = .ok ⟨t, w⟩) ↔
      (is.findSome? (·.toldType? name)).getD .undefined = t := by
    rw [hread]
    constructor
    · rintro ⟨w', heq⟩
      cases heq
      rfl
    · rintro rfl
      exact ⟨w, rfl⟩
  refine ⟨hiff, fun hdefined hbefore => hiff.2 ?_, ?_⟩
  · rw [findSome?_toldType? ((hshown name).symm.trans ht) hdefined hbefore, Option.getD_some]
  · rintro g hsatisfies p hp rfl
    rw [Ty.shapesSatisfy, hshape] at hsatisfies
    obtain ⟨u, hu, hinto⟩ := Shape.property?_of_satisfies hsatisfies (List.mem_map_of_mem hp)
    obtain rfl := Option.some.inj (ht.symm.trans hu)
    exact hinto

/-- An object with one property. -/
def withX (t : Ty) : Interface Ty := ⟨none, [⟨"x", t, true⟩], []⟩

/-- An object with one type for all keys of a kind. -/
def withAll (key : IndexKey) (t : Ty) : Interface Ty := ⟨none, [], [(key, t)]⟩

/-- A property behind an object that has a type only for numbers is read with the type it is shown with. -/
theorem read_iff_shown_behind : ∃ w,
    memberOf .intrinsic [] ⟨0, "main"⟩ (.name "x") (together [withAll .int .string, withX .int]) =
      .ok ⟨.int, w⟩ := by
  obtain ⟨s, hshape, hread⟩ :=
    read_iff_shown [withAll .int .string, withX .int] .intrinsic [] ⟨0, "main"⟩ "x"
  cases hshape
  have hbefore : ∀ i ∈ [withAll .int .string], i.toldType? "x" = none := List.forall_mem_singleton.2 rfl
  exact (hread .int rfl).2.1 rfl hbefore

/-- A property is shown with one type and read with another: behind a type for all names, and if its own type
is `undefined`. -/
theorem read_not_shown :
    (together [withAll .string .int, withX .string]).shape? =
      some ⟨[("x", .string)], [(.string, .int)]⟩ ∧
    memberOf .intrinsic [] ⟨0, "main"⟩ (.name "x") (together [withAll .string .int, withX .string]) =
      .ok ⟨.int, true⟩ ∧
    (together [withX .undefined, withX .int]).shape? = some ⟨[("x", .undefined)], []⟩ ∧
    memberOf .intrinsic [] ⟨0, "main"⟩ (.name "x") (together [withX .undefined, withX .int]) =
      .ok ⟨.int, true⟩ :=
  ⟨rfl, rfl, rfl, rfl⟩

end Interface

end ScriptCheck
