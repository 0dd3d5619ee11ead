import ScriptCheck.Proofs.Session.Privacy

/-!
What is written to. The target of an assignment and the operand of `++` or `--` is a variable, a
parameter or the variable of a loop, or a member that is neither constant nor a method. The members of
an intersection are searched from left to right for the first one that gives a type other than
`undefined`. So the first declaration of the name decides unless it has the type `undefined`, or stands
behind a member that gives a type to names which it does not declare.
-/

namespace ScriptCheck

open Ty (Closed OnClasses)

/-! ### Declarations of a property -/

/-- The declaration of a property in an interface, or of a member in a class. -/
inductive Declaration where
  | property (p : Property Ty)
  | member (found : FoundMember)

namespace Declaration

/-- The declared type. -/
def type : Declaration → Ty
  | .property p => p.type
  | .member found => found.member.type

/-- Whether the declaration allows writing. -/
def writable : Declaration → Bool
  | .property p => p.writable
  | .member found => found.member.writable

end Declaration

/-- The declaration of a name in an interface or a class. -/
def Ty.declaration? (name : String) : Ty → Option Declaration
  | .interface i => (i.property? name).map .property
  | .classType c => (c.findMember? name).map .member
  | _ => none

/-- No declaration of the name is in the type. The list has the types that were looked through. -/
inductive Lacks (r : Registry) (name : String) : Ty → List Ty → Prop
  | own {t : Ty} (single : t.isIntersection = false) (missing : t.declaration? name = none) :
      Lacks r name t [t]
  | none : Lacks r name (.intersection []) []
  | more {t : Ty} {ts passed rest : List Ty} (first : Lacks r name (r.expand t) passed)
      (others : Lacks r name (.intersection ts) rest) :
      Lacks r name (.intersection (t :: ts)) (passed ++ rest)

/-- The first declaration of a name: the one in an interface or a class, or the first one in the members
of an intersection, from left to right. The list has the types that were passed by. -/
inductive FirstDeclared (r : Registry) (name : String) : Ty → List Ty → Declaration → Prop
  | own {t : Ty} {d : Declaration} (found : t.declaration? name = some d) :
      FirstDeclared r name t [] d
  | here {t : Ty} {ts passed : List Ty} {d : Declaration}
      (first : FirstDeclared r name (r.expand t) passed d) :
      FirstDeclared r name (.intersection (t :: ts)) passed d
  | later {t : Ty} {ts passed rest : List Ty} {d : Declaration}
      (missing : Lacks r name (r.expand t) passed)
      (first : FirstDeclared r name (.intersection ts) rest d) :
      FirstDeclared r name (.intersection (t :: ts)) (passed ++ rest) d

/-- The type gives a type to names that it does not declare: by a `string` signature, or because it may
be `any`. -/
def Ty.answersAll : Ty → Bool
  | .interface i => (i.indexType? .string).any fun t => !t.isNamed "undefined"
  | .classType _ => false
  | t => t.containsAny

/-- The first declaration decides about a member: the type is no intersection, or the declared type is
not `undefined` and no type that was passed by gives a type to all names. -/
def Declaration.Decides (t : Ty) (passed : List Ty) (d : Declaration) : Prop :=
  t.isIntersection = true →
    d.type.isNamed "undefined" = false ∧ ∀ u ∈ passed, u.answersAll = false

/-! ### The search for a slot -/

section

variable {r : Registry} {classes : List String} {position : Position} {key : MemberKey}

/-- A search that ends expands fewer nested names than the fuel. -/
theorem exists_succ_of_memberWithin {fuel : Nat} {t : Ty} {slot : Slot}
    (h : memberWithin r classes position key fuel t = .ok slot) : ∃ n, fuel = n + 1 := by
  cases fuel with
  | zero => cases h
  | succ n => exact ⟨n, rfl⟩

/-- In a type that declares no members every name is `any` or `undefined`. -/
theorem memberSlot_plain {expanded : Ty → Except Failure Slot} {t : Ty}
    (h : t.declaresMembers = false) : memberSlot r classes position key expanded t =
      if t.answersAll then .ok ⟨.any, true⟩ else .ok .undefined := by
  cases t with
  | interface | classType | intersection => cases h
  | _ => rfl

/-- The search goes through the first member of an intersection and, if it gives `undefined`, through
the others. -/
theorem memberWithin_cons {fuel : Nat} {t : Ty} {ts : List Ty} {slot : Slot}
    (h : memberWithin r classes position key (fuel + 1) (.intersection (t :: ts)) = .ok slot) :
    ∃ fuel' first, memberWithin r classes position key fuel' (r.expand t) = .ok first ∧
      (first.type.isNamed "undefined" = true →
        memberWithin r classes position key (fuel + 1) (.intersection ts) = .ok slot) ∧
      (first.type.isNamed "undefined" = false → slot = first) := by
  have hrest : ∀ x : Except Failure Slot,
      (x >>= fun first => if first.type.isNamed "undefined" then
        firstSlot r classes position key (memberWithin r classes position key fuel) ts
        else return first) = .ok slot →
      ∃ first, x = .ok first ∧
        (first.type.isNamed "undefined" = true →
          memberWithin r classes position key (fuel + 1) (.intersection ts) = .ok slot) ∧
        (first.type.isNamed "undefined" = false → slot = first) := by
    intro x hx
    cases x with
    | error e => cases hx
    | ok first =>
      refine ⟨first, rfl, fun hundefined => ?_, fun hdefined => ?_⟩
      · exact (if_pos hundefined).symm.trans hx
      · have hpure : (Except.ok first : Except Failure Slot) = .ok slot :=
          (if_neg (by rw [hdefined]; exact Bool.false_ne_true)).symm.trans hx
        cases hpure
        rfl
  change firstSlot r classes position key (memberWithin r classes position key fuel) (t :: ts) = _
    at h
  rw [firstSlot] at h
  unfold Registry.expand
  cases hexpansion : r.expansion? t with
  | some found =>
    rw [hexpansion] at h
    exact ⟨fuel, hrest _ h⟩
  | none =>
    rw [hexpansion] at h
    exact ⟨fuel + 1, hrest _ h⟩

end

theorem Ty.Alike.eq_of_not_class {t u : Ty} (h : u.Alike t) (ht : t.isClass = false) : u = t := by
  cases h with
  | refl => rfl
  | classes _ => cases ht

theorem Ty.isNamed_of_isFunction {t : Ty} (h : t.isFunction = true) (name : String) :
    t.isNamed name = false := by
  cases t with
  | function f => rfl
  | _ => cases h

section

variable {P : Ty → Prop} {p : Place} {b : Binder} {position : Position} {name : String}

/-- Where a type does not declare the name and does not answer all names, the search gives
`undefined`. -/
theorem slot_of_missing {t u : Ty} (hsingle : t.isIntersection = false)
    (hmissing : t.declaration? name = none) (hsilent : t.answersAll = false) (halike : u.Alike t)
    {fuel : Nat} {slot : Slot}
    (h : memberWithin b.types b.classes position (.name name) fuel u = .ok slot) :
    slot.type.isNamed "undefined" = true := by
  obtain ⟨fuel, rfl⟩ := exists_succ_of_memberWithin h
  cases t with
  | interface i =>
    obtain rfl := halike.eq_of_not_class rfl
    obtain rfl : i.slot (.name name) = slot := Except.ok.inj h
    unfold Interface.slot
    dsimp only
    rw [Option.map_eq_none_iff.1 hmissing]
    cases hindex : i.indexType? .string with
    | none => rfl
    | some t =>
      rw [Ty.answersAll, hindex] at hsilent
      simpa using hsilent
  | classType c =>
    obtain ⟨c', rfl, hclass⟩ := halike.of_class
    have hslot : c'.slot b.classes position (.name name) = .ok slot := h
    have hnone : c'.findMember? name = none := by
      have hrel := hclass.findMember? name
      rw [Option.map_eq_none_iff.1 hmissing] at hrel
      generalize c'.findMember? name = x at hrel
      cases hrel
      rfl
    unfold ClassDef.slot at hslot
    dsimp only at hslot
    rw [hnone] at hslot
    cases hslot
    rfl
  | intersection => cases hsingle
  | _ =>
    obtain rfl := halike.eq_of_not_class rfl
    rw [memberWithin, memberSlot_plain rfl, hsilent] at h
    cases h
    rfl

/-- Where a type declares the name, the search gives the slot of the declaration. -/
theorem slot_of_declaration {t u : Ty} {d : Declaration} (hfound : t.declaration? name = some d)
    (halike : u.Alike t) {fuel : Nat} {slot : Slot}
    (h : memberWithin b.types b.classes position (.name name) fuel u = .ok slot) :
    slot.writable = d.writable ∧
      (d.type.isNamed "undefined" = false → slot.type.isNamed "undefined" = false) := by
  obtain ⟨fuel, rfl⟩ := exists_succ_of_memberWithin h
  cases t with
  | interface i =>
    obtain ⟨p, hp, rfl⟩ := Option.map_eq_some_iff.1 hfound
    obtain rfl := halike.eq_of_not_class rfl
    obtain rfl : i.slot (.name name) = slot := Except.ok.inj h
    unfold Interface.slot
    dsimp only
    rw [hp]
    exact ⟨rfl, id⟩
  | classType c =>
    obtain ⟨m, hm, rfl⟩ := Option.map_eq_some_iff.1 hfound
    obtain ⟨c', rfl, hclass⟩ := halike.of_class
    obtain ⟨m', hm', hmember, -⟩ := hclass.exists_member hm
    obtain ⟨rfl, -⟩ := ClassDef.slot_of_ok h hm'
    refine ⟨hmember.writable, fun hdefined => ?_⟩
    rcases hmember.type with heq | ⟨hfunction, -⟩
    · exact (congrArg (Ty.isNamed · "undefined") heq).trans hdefined
    · exact Ty.isNamed_of_isFunction hfunction _
  | _ => cases hfound

variable (hp : p.Fits P b)
include hp

/-- Where no declaration is found and no type answers all names, the search gives `undefined`. -/
theorem slot_of_lacks {t : Ty} {passed : List Ty} (h : Lacks p.types name t passed)
    (hsilent : ∀ u ∈ passed, u.answersAll = false) {u : Ty} (halike : u.Alike t) {fuel : Nat}
    {slot : Slot} (hslot : memberWithin b.types b.classes position (.name name) fuel u = .ok slot) :
    slot.type.isNamed "undefined" = true := by
  induction h generalizing u fuel slot with
  | own single missing =>
    exact slot_of_missing single missing (hsilent _ (List.mem_singleton.2 rfl)) halike hslot
  | none =>
    obtain rfl := halike.eq_of_not_class rfl
    obtain ⟨fuel, rfl⟩ := exists_succ_of_memberWithin hslot
    obtain rfl := Except.ok.inj hslot
    rfl
  | more _ _ ihfirst ihothers =>
    rw [List.forall_mem_append] at hsilent
    obtain rfl := halike.eq_of_not_class rfl
    obtain ⟨fuel, rfl⟩ := exists_succ_of_memberWithin hslot
    obtain ⟨fuel', first, hfirst, hundefined, -⟩ := memberWithin_cons hslot
    have hnamed := ihfirst hsilent.1 (hp.expand _) hfirst
    exact ihothers hsilent.2 (.refl _) (hundefined hnamed)

/-- Where the first declaration decides, the search gives its slot. -/
theorem slot_of_firstDeclared {t : Ty} {passed : List Ty} {d : Declaration}
    (h : FirstDeclared p.types name t passed d) (hdecides : d.Decides t passed) {u : Ty}
    (halike : u.Alike t) {fuel : Nat} {slot : Slot}
    (hslot : memberWithin b.types b.classes position (.name name) fuel u = .ok slot) :
    slot.writable = d.writable ∧
      (d.type.isNamed "undefined" = false → slot.type.isNamed "undefined" = false) := by
  induction h generalizing u fuel slot with
  | own found => exact slot_of_declaration found halike hslot
  | here _ ih =>
    obtain rfl := halike.eq_of_not_class rfl
    obtain ⟨hdefined, hsilent⟩ := hdecides rfl
    obtain ⟨fuel, rfl⟩ := exists_succ_of_memberWithin hslot
    obtain ⟨fuel', first, hfirst, -, htaken⟩ := memberWithin_cons hslot
    have hsame := ih (fun _ => ⟨hdefined, hsilent⟩) (hp.expand _) hfirst
    obtain rfl := htaken (hsame.2 hdefined)
    exact hsame
  | later missing _ ih =>
    obtain rfl := halike.eq_of_not_class rfl
    obtain ⟨hdefined, hsilent⟩ := hdecides rfl
    rw [List.forall_mem_append] at hsilent
    obtain ⟨fuel, rfl⟩ := exists_succ_of_memberWithin hslot
    obtain ⟨fuel', first, hfirst, hundefined, -⟩ := memberWithin_cons hslot
    have hnamed := slot_of_lacks hp missing hsilent.1 (hp.expand _) hfirst
    exact ih (fun _ => ⟨hdefined, hsilent.2⟩) (.refl _) (hundefined hnamed)

end

/-! ### Declarations that can be written to -/

/-- The declaration is a property of an interface that is not constant, also if the interface is mixed
into a class, or a field of one of the classes that is not constant. -/
inductive Declaration.IsVariable (ds : List DeclaredClass) (name : String) : Declaration → Prop
  | property {p : Property Ty} (writable : p.writable = true) : IsVariable ds name (.property p)
  | mixed {i : Interface Ty} {p : Property Ty} {found : FoundMember}
      (first : i.property? name = some p) (writable : p.writable = true)
      (same : found.member.Alike ⟨p.name, p.type, .public, p.writable⟩) :
      IsVariable ds name (.member found)
  | field {d : DeclaredClass} {f : Member Ty} {found : FoundMember} (declared : d ∈ ds)
      (first : d.definition.members.find? (·.name == name) = some f) (isField : f ∈ d.fields)
      (notConst : f.modifiers.isConst = false) (same : found.member.Alike f)
      (owner : found.owner = d.name) : IsVariable ds name (.member found)

/-- A member of a declared class that can be written to is a field, and not a constant one. -/
theorem ClassDef.Known.isVariable {ds : List DeclaredClass} {c : ClassDef Ty} (hc : c.Known ds)
    {name : String} {m : Member Ty} (hfound : c.members.find? (·.name == name) = some m)
    {found : FoundMember} (halike : m.Alike found.member) (howner : c.name = found.owner)
    (hwritable : found.member.writable = true) :
    (Declaration.member found).IsVariable ds name := by
  obtain ⟨d, hd, hlawful, hclass⟩ := hc
  have hrel := find?_alike hclass.members name
  rw [hfound] at hrel
  generalize hfirst : d.definition.members.find? (·.name == name) = first at hrel
  cases hrel with
  | @some _ f hmf =>
    have hsame : found.member.Alike f := halike.symm.trans hmf
    have hwritten : f.writable = true := hsame.writable.symm.trans hwritable
    have hmem : f ∈ d.fields ++ d.methods :=
      (List.take_append_drop d.fieldCount d.definition.members).symm ▸
        List.mem_of_find?_eq_some hfirst
    -- No method can be written to.
    rcases List.mem_append.1 hmem with hfield | hmethod
    · have hconst := (hlawful.fields f hfield).symm.trans hwritten
      exact .field hd hfirst hfield (by simpa using hconst) hsame (howner.symm.trans hclass.name)
    · cases (hlawful.methods f hmethod).symm.trans hwritten

/-- If the first declaration can be written to, it is a variable of an interface or a declared class. -/
theorem FirstDeclared.isVariable {ds : List DeclaredClass} {p : Place} {b : Binder}
    (hp : p.Fits (OnClasses (ClassDef.Known ds)) b) {name : String} {t : Ty} {passed : List Ty}
    {d : Declaration} (h : FirstDeclared p.types name t passed d) (hwritable : d.writable = true)
    {u : Ty} (halike : u.Alike t) (hu : u.Every (OnClasses (ClassDef.Known ds))) :
    d.IsVariable ds name := by
  induction h generalizing u with
  | @own t d found =>
    cases t with
    | interface i =>
      obtain ⟨p, -, rfl⟩ := Option.map_eq_some_iff.1 found
      exact .property hwritable
    | classType c =>
      obtain ⟨m, hm, rfl⟩ := Option.map_eq_some_iff.1 found
      obtain ⟨c', rfl, hclass⟩ := halike.of_class
      obtain ⟨m', hfound, hmember, howner⟩ := hclass.exists_member hm
      cases (Ty.classMember?_good hu m' hfound).1 with
      | declared good first => exact good.isVariable first hmember howner hwritable
      | mixed first => exact .mixed first (hmember.writable.trans hwritable) hmember.symm
    | _ => cases found
  | @here t _ _ _ _ ih =>
    obtain rfl := halike.eq_of_not_class rfl
    cases hu with
    | intersection _ parts =>
      exact ih hwritable (hp.expand t)
        (Registry.expand_every hp.every.types (parts t List.mem_cons_self))
  | later _ _ ih =>
    obtain rfl := halike.eq_of_not_class rfl
    cases hu with
    | intersection _ parts =>
      exact ih hwritable (.refl _) (.intersection trivial (List.forall_mem_cons.1 parts).2)

/-! ### Targets -/

/-- What an expression writes to. -/
def Occurrence.target? (x : Occurrence) : Option BoundExpr :=
  match x.expr with
  | .assign _ _ target _ => some target
  | .unary _ use operand => if use.kind.writes then some operand else none
  | _ => none

/-- The members of the intersection whose property of the name is written to. -/
def Occurrence.writtenIn (x : Occurrence) (name : String) : List Ty :=
  match x.target? with
  | some (.access _ object key false) =>
    match x.place.types.expand object.type with
    | .intersection members => if key.text? = some name then members else []
    | _ => []
  | _ => []

theorem Occurrence.writtenIn_eq_cons {x : Occurrence} {name : String} {t : Ty} {ts : List Ty}
    (h : x.writtenIn name = t :: ts) : ∃ node object key,
      x.target? = some (.access node object key false) ∧ key.text? = some name ∧
        x.place.types.expand object.type = .intersection (t :: ts) := by
  unfold writtenIn at h
  split at h
  · rename_i node object key htarget
    split at h
    · rename_i members hexpand
      split at h
      · exact ⟨node, object, key, htarget, ‹_›, hexpand.trans (congrArg Ty.intersection h)⟩
      · cases h
    · cases h
  · cases h

/-- What a name was declared as in the scope at a distance. -/
def Place.declaredAs? (p : Place) (distance : Nat) (name : String) : Option Kind :=
  (p.names.scopes[distance]?).bind (·.get? name)

/-- What may be written to at a place: a name whose declaration, at the distance that resolution has
noted, is writable; or a member, but no built-in one and no character of a text, whose first declaration
is a variable if it decides. -/
inductive Place.Allows (p : Place) (ds : List DeclaredClass) (distances : Table Nat Nat) :
    BoundExpr → Prop
  | symbol {node : BoundNode} {name : String} {distance : Nat} {kind : Kind}
      (resolved : distances.get? node.id = some distance)
      (declared : p.declaredAs? distance name = some kind) (writable : kind.isWritable = true) :
      Allows p ds distances (.symbol node name distance)
  | access {node : BoundNode} {object : BoundExpr} {key : BoundKey BoundExpr}
      (noCharacter : ∀ e, key = .computed e →
        (p.types.expand object.type).widened.isNamed "string" = false)
      (member : ∀ name passed d, key.text? = some name →
        FirstDeclared p.types name (p.types.expand object.type) passed d →
        d.Decides (p.types.expand object.type) passed → d.IsVariable ds name) :
      Allows p ds distances (.access node object key false)

/-- The variable that is read is the one at its distance. -/
theorem Binder.get?_of_readVariable {b : Binder} {name : String} {id : Nat} {position : Position}
    {found : Variable} {distance : Nat}
    (h : b.readVariable name id position = .ok (found, distance)) :
    (b.scopes.scopes[distance]?).bind (·.get? name) = some found := by
  unfold readVariable at h
  dsimp only at h
  split at h
  · split at h
    · rename_i hlookup
      cases h
      unfold ScopeStack.lookupAt at hlookup
      split at hlookup
      · exact Except.ok.inj hlookup
      · cases hlookup
    · cases h
    · cases h
  · split at h
    · rename_i hlookup
      cases h
      exact (get?_of_search _ 0 hlookup).2
    · cases h

theorem Ty.Alike.widened_isNamed {t u : Ty} (h : u.Alike t) (name : String) :
    u.widened.isNamed name = t.widened.isNamed name := by
  cases h with
  | refl => rfl
  | classes _ => rfl

theorem FirstDeclared.declaresMembers {r : Registry} {name : String} {t : Ty} {passed : List Ty}
    {d : Declaration} (h : FirstDeclared r name t passed d) : t.declaresMembers = true := by
  cases h with
  | own found =>
    cases t with
    | interface | classType => rfl
    | _ => cases found
  | here _ => rfl
  | later _ _ => rfl

namespace Binder.Leads

variable {b : Binder} {t : Ty} {position : Position} {key : BoundKey BoundExpr} {slot : Slot}
  {isExtension : Bool}

/-- A slot that can be written to is not that of a built-in member. -/
theorem not_extension (h : b.Leads t position key slot isExtension) (hslot : slot.writable = true) :
    isExtension = false := by
  cases h with
  | extension _ => cases hslot
  | _ => rfl

/-- A slot that can be written to is not that of a character of a text. -/
theorem no_character {e : BoundExpr} (h : b.Leads t position (.computed e) slot isExtension)
    (hslot : slot.writable = true) : t.widened.isNamed "string" = false := by
  cases h with
  | character _ => cases hslot
  | computed _ noText _ => exact noText
  | element found =>
    generalize t.widened = u at found
    obtain ⟨element, helement, -⟩ := Option.map_eq_some_iff.1 found
    cases u with
    | named own args =>
      unfold Ty.arrayElement? at helement
      dsimp only at helement
      split at helement
      · rename_i harray
        subst harray
        rfl
      · cases helement
    | _ => rfl

end Binder.Leads

/-- What the binder writes to at a place is allowed there. -/
theorem Place.Fits.allows {ds : List DeclaredClass} {p : Place} {b : Binder}
    (hp : p.Fits (OnClasses (ClassDef.Known ds)) b) {target : BoundExpr} (htyped : target.Typed b)
    (hwrites : b.Writes target) {distances : Table Nat Nat}
    (hcarries : target.Carries fun id d => distances.get? id = some d) :
    p.Allows ds distances target := by
  cases hwrites with
  | @symbol node name distance found reads writable =>
    have hread : (b.scopes.scopes[distance]?).bind (·.get? name) = some found :=
      Binder.get?_of_readVariable reads
    have hkind : (p.declaredAs? distance name).map Kind.isWritable = some true := by
      have hrel := hp.names.at_distance rfl distance name
      rw [hread, Option.map_some, writable] at hrel
      exact hrel
    obtain ⟨kind, hdeclared, hwritable⟩ := Option.map_eq_some_iff.1 hkind
    exact .symbol hcarries hdeclared hwritable
  | @access node object key slot isExtension leads writable =>
    obtain rfl := leads.not_extension writable
    refine .access (fun e he => ?_) fun name passed d hkey hfirst hdecides => ?_
    · subst he
      rw [← (hp.expand object.type).widened_isNamed]
      exact leads.no_character writable
    · cases htyped with
      | access receiver _ _ _ =>
        have halike := hp.expand object.type
        have hdeclares : (b.types.expand object.type).declaresMembers = true := by
          rw [← hfirst.declaresMembers]
          generalize b.types.expand object.type = u, p.types.expand object.type = t at halike
          cases halike <;> rfl
        have hslot := leads.of_text hdeclares hkey
        have hsame := (slot_of_firstDeclared hp hfirst hdecides halike hslot).1
        exact hfirst.isVariable hp (hsame.symm.trans writable) halike
          (Registry.expand_every hp.every.types
            (receiver.every (Ty.closed_onClasses _) hp.every))

namespace Session

variable {s : Session} {source file : String} {past statements : List BoundStmt}
  {distances : Table Nat Nat}

/-- What an expression writes to may be written to at its place. -/
theorem written_allowed (hs : s.History past) (h : s.Accepts source file distances statements) :
    ∀ x ∈ BoundStmt.occurrences statements (BoundStmt.afterAll past .intrinsic),
      ∀ target, x.target? = some target →
        x.place.Allows (BoundStmt.classesAll (past ++ statements)) distances target := by
  intro x hx target htarget
  obtain ⟨b, hfits, htyped⟩ := h.sound hs (Ty.closed_onClasses _) admitted_known x hx
  have hcarries := h.carries hs.reachable _ x hx
  obtain ⟨place, expr⟩ := x
  cases htyped with
  | assign first written _ _ =>
    cases htarget
    exact hfits.allows first written hcarries.1
  | @unary _ use _ part written _ _ =>
    obtain ⟨hwrites, ⟨⟩⟩ := Option.ite_none_right_eq_some.1 htarget
    exact hfits.allows part (written hwrites) hcarries
  | _ => cases htarget

/-- The field of a class, behind an interface that does not declare the name. -/
theorem written_allowed_field : ∃ distances statements x node object key passed d,
    (new .record).Accepts
      "interface I \x7b y: int \x7d class A \x7b int x; \x7d fn f(I & A o) \x7b o.x = 1; \x7d" "main"
      distances statements ∧
    x ∈ BoundStmt.occurrences statements .intrinsic ∧
    x.target? = some (.access node object key false) ∧ key.text? = some "x" ∧
    FirstDeclared x.place.types "x" (x.place.types.expand object.type) passed d ∧
    d.Decides (x.place.types.expand object.type) passed ∧
    d.IsVariable (BoundStmt.classesAll statements) "x" := by
  let test : CheckedProgram → Bool := fun program =>
    (BoundStmt.occurrences program.statements .intrinsic).any fun x =>
      (x.writtenIn "x").head?.any (fun t => let t := x.place.types.expand t
        !t.isIntersection && (t.declaration? "x").isNone && !t.answersAll) &&
      (x.writtenIn "x").tail.head?.any fun t =>
        ((x.place.types.expand t).declaration? "x").any fun d => !d.type.isNamed "undefined"
  have htest : ((new .record).check
      "interface I \x7b y: int \x7d class A \x7b int x; \x7d fn f(I & A o) \x7b o.x = 1; \x7d"
      "main").1.toOption.any test = true := by decide +kernel
  obtain ⟨program, after, hcheck, hprogram⟩ := exists_program_where htest
  obtain ⟨x, hx, hmembers⟩ := List.any_eq_true.1 hprogram
  simp only [Bool.and_eq_true, Bool.not_eq_true', Option.isNone_iff_eq_none,
    Option.any_eq_true] at hmembers
  obtain ⟨⟨t, ht, ⟨hsingle, hmissing⟩, hsilent⟩, u, hu, d, hfound, hdefined⟩ := hmembers
  obtain ⟨ts, hwritten⟩ : ∃ ts, x.writtenIn "x" = t :: u :: ts := by
    obtain ⟨us, hus⟩ := List.head?_eq_some_iff.1 ht
    rw [hus] at hu
    obtain ⟨ts, hts⟩ := List.head?_eq_some_iff.1 hu
    exact ⟨ts, hus.trans (congrArg (t :: ·) hts)⟩
  obtain ⟨node, object, key, htarget, hkey, hexpand⟩ := Occurrence.writtenIn_eq_cons hwritten
  have haccepts := accepts_of_check hcheck
  have hfirst : FirstDeclared x.place.types "x" (x.place.types.expand object.type)
      ([x.place.types.expand t] ++ []) d :=
    hexpand ▸ .later (.own hsingle hmissing) (.here (.own hfound))
  have hdecides : d.Decides (x.place.types.expand object.type) [x.place.types.expand t] :=
    fun _ => ⟨hdefined, List.forall_mem_singleton.2 hsilent⟩
  cases written_allowed (.new .record) haccepts x hx _ htarget with
  | access _ member =>
    exact ⟨_, _, x, node, object, key, _, d, haccepts, hx, htarget, hkey, hfirst, hdecides,
      member _ _ _ hkey hfirst hdecides⟩

/-- A constant property of the type `undefined` is passed by in the search, and can be written to. -/
theorem written_constant : ∃ distances statements x node object key d,
    (new .record).Accepts
      "fn f(\x7b const x: undefined \x7d & \x7b y: int \x7d o) \x7b o.x = undefined; \x7d" "main"
      distances statements ∧
    x ∈ BoundStmt.occurrences statements .intrinsic ∧
    x.target? = some (.access node object key false) ∧ key.text? = some "x" ∧
    FirstDeclared x.place.types "x" (x.place.types.expand object.type) [] d ∧
    d.writable = false := by
  let test : CheckedProgram → Bool := fun program =>
    (BoundStmt.occurrences program.statements .intrinsic).any fun x =>
      (x.writtenIn "x").head?.any fun t =>
        ((x.place.types.expand t).declaration? "x").any fun d => !d.writable
  have htest : ((new .record).check
      "fn f(\x7b const x: undefined \x7d & \x7b y: int \x7d o) \x7b o.x = undefined; \x7d"
      "main").1.toOption.any test = true := by decide +kernel
  obtain ⟨program, after, hcheck, hprogram⟩ := exists_program_where htest
  obtain ⟨x, hx, hmembers⟩ := List.any_eq_true.1 hprogram
  simp only [Option.any_eq_true, Bool.not_eq_true'] at hmembers
  obtain ⟨t, ht, d, hfound, hconst⟩ := hmembers
  obtain ⟨ts, hwritten⟩ := List.head?_eq_some_iff.1 ht
  obtain ⟨node, object, key, htarget, hkey, hexpand⟩ := Occurrence.writtenIn_eq_cons hwritten
  have hfirst : FirstDeclared x.place.types "x" (x.place.types.expand object.type) [] d :=
    hexpand ▸ .here (.own hfound)
  exact ⟨_, _, x, node, object, key, d, accepts_of_check hcheck, hx, htarget, hkey, hfirst, hconst⟩

end Session

end ScriptCheck
