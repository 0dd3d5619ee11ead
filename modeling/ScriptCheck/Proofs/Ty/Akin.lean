import Mathlib.Data.List.Forall2
import ScriptCheck.Proofs.Ty.Rules

/-!
Types that cannot be told apart. Two types are akin if they are one and the same or equal as values, so
that a type with NaN in it, which differs from itself, is still akin to itself. Types that are akin have
parts that are akin, and shapes that are.
-/

namespace ScriptCheck

namespace Ty

/-- One type, or two that are equal as values. -/
def Akin (a b : Ty) : Prop := a = b ∨ a.same b = true

variable {a b c : Ty} {as bs : List Ty}

namespace Akin

theorem refl (a : Ty) : a.Akin a := .inl rfl

theorem symm (h : a.Akin b) : b.Akin a := h.imp Eq.symm same_symm

/-- What is akin to equal types is equal to them. -/
theorem same_left (h : a.Akin b) (hbc : b.same c = true) : a.same c = true := by
  rcases h with rfl | h
  · exact hbc
  · exact same_trans h hbc

theorem same_right (hab : a.same b = true) (h : b.Akin c) : a.same c = true := by
  rcases h with rfl | h
  · exact hab
  · exact same_trans hab h

end Akin

/-! ### Parts -/

/-- Entries with the same key and types that are akin. -/
def AkinEntry {κ : Type} (x y : κ × Ty) : Prop := x.1 = y.1 ∧ x.2.Akin y.2

/-- Properties with the same name and types that are akin. -/
def AkinProperty (p q : Property Ty) : Prop := p.name = q.name ∧ p.type.Akin q.type

/-- Members with the same name and modifiers and types that are akin. -/
def AkinMember (m n : Member Ty) : Prop :=
  m.name = n.name ∧ m.modifiers = n.modifiers ∧ m.type.Akin n.type

/-- Types of one kind whose parts are akin. -/
inductive AkinParts : Ty → Ty → Prop
  | named {name : String} {as bs : List Ty} (args : List.Forall₂ Akin as bs) :
      AkinParts (.named name as) (.named name bs)
  | union {as bs : List Ty} (members : List.Forall₂ Akin as bs) : AkinParts (.union as) (.union bs)
  | array {a b : Option Ty} (element : Option.Rel Akin a b) : AkinParts (.array a) (.array b)
  | interface {name : Option String} {ps qs : List (Property Ty)} {is js : List (IndexKey × Ty)}
      (props : List.Forall₂ AkinProperty ps qs) (index : List.Forall₂ AkinEntry is js) :
      AkinParts (.interface ⟨name, ps, is⟩) (.interface ⟨name, qs, js⟩)
  | function {ps qs : List (String × Ty)} {a b : Ty} (params : List.Forall₂ AkinEntry ps qs)
      (result : a.Akin b) : AkinParts (.function ⟨ps, a⟩) (.function ⟨qs, b⟩)
  | classType {name : String} {ms ns : List (Member Ty)} {xs ys : List Ty} {s t : Option Ty}
      (members : List.Forall₂ AkinMember ms ns) (mixins : List.Forall₂ Akin xs ys)
      (superclass : Option.Rel Akin s t) :
      AkinParts (.classType ⟨name, ms, xs, s⟩) (.classType ⟨name, ns, ys, t⟩)
  | literal {v w : Literal} (name : v.widenedName = w.widenedName) :
      AkinParts (.literal v) (.literal w)
  | intersection {as bs : List Ty} (members : List.Forall₂ Akin as bs) :
      AkinParts (.intersection as) (.intersection bs)

theorem forall₂_refl {α : Type} {R : α → α → Prop} (h : ∀ x, R x x) (xs : List α) :
    List.Forall₂ R xs xs := List.forall₂_same.2 fun x _ => h x

theorem rel_refl {α : Type} {R : α → α → Prop} (h : ∀ x, R x x) : ∀ x : Option α, Option.Rel R x x
  | none => .none
  | some x => .some (h x)

theorem rel_symm {α : Type} {R : α → α → Prop} (hR : ∀ {x y}, R x y → R y x) {x y : Option α}
    (h : Option.Rel R x y) : Option.Rel R y x := by
  cases h with
  | some h => exact .some (hR h)
  | none => exact .none

theorem exists_of_rel {α : Type} {R : α → α → Prop} {x y : Option α} (h : Option.Rel R x y) {a : α}
    (hx : x = some a) : ∃ b, y = some b ∧ R a b := by
  subst hx
  cases h with
  | some h => exact ⟨_, rfl, h⟩

theorem forall₂_toList {α : Type} {R : α → α → Prop} {x y : Option α} (h : Option.Rel R x y) :
    List.Forall₂ R x.toList y.toList := by
  cases h with
  | some h => exact .cons h .nil
  | none => exact .nil

theorem forall₂_of_sameAll : ∀ {as bs : List Ty}, sameAll as bs = true → List.Forall₂ Akin as bs
  | [], bs, h => by
    cases bs with simp only [sameAll, reduceCtorEq] at h
    | nil => exact .nil
  | a :: as, bs, h => by
    cases bs with simp only [sameAll, reduceCtorEq, Bool.and_eq_true] at h
    | cons b bs => exact .cons (.inr h.1) (forall₂_of_sameAll h.2)

theorem rel_of_sameOption {a b : Option Ty} (h : sameOption a b = true) : Option.Rel Akin a b := by
  cases a with
  | none =>
    cases b with simp only [sameOption, reduceCtorEq] at h
    | none => exact .none
  | some a =>
    cases b with simp only [sameOption, reduceCtorEq] at h
    | some b => exact .some (.inr h)

theorem forall₂_of_sameProps : ∀ {ps qs : List (Property Ty)}, sameProps ps qs = true →
    List.Forall₂ AkinProperty ps qs
  | [], qs, h => by
    cases qs with simp only [sameProps, reduceCtorEq] at h
    | nil => exact .nil
  | p :: ps, qs, h => by
    cases qs with simp only [sameProps, reduceCtorEq, Bool.and_eq_true, beq_iff_eq] at h
    | cons q qs => exact .cons ⟨h.1.1.1, .inr h.1.1.2⟩ (forall₂_of_sameProps h.2)

theorem forall₂_of_sameIndex : ∀ {is js : List (IndexKey × Ty)}, sameIndex is js = true →
    List.Forall₂ AkinEntry is js
  | [], js, h => by
    cases js with simp only [sameIndex, reduceCtorEq] at h
    | nil => exact .nil
  | i :: is, js, h => by
    cases js with simp only [sameIndex, reduceCtorEq, Bool.and_eq_true, beq_iff_eq] at h
    | cons j js => exact .cons ⟨h.1.1, .inr h.1.2⟩ (forall₂_of_sameIndex h.2)

theorem forall₂_of_sameParams : ∀ {ps qs : List (String × Ty)}, sameParams ps qs = true →
    List.Forall₂ AkinEntry ps qs
  | [], qs, h => by
    cases qs with simp only [sameParams, reduceCtorEq] at h
    | nil => exact .nil
  | p :: ps, qs, h => by
    cases qs with simp only [sameParams, reduceCtorEq, Bool.and_eq_true, beq_iff_eq] at h
    | cons q qs => exact .cons ⟨h.1.1, .inr h.1.2⟩ (forall₂_of_sameParams h.2)

theorem forall₂_of_sameMembers : ∀ {ms ns : List (Member Ty)}, sameMembers ms ns = true →
    List.Forall₂ AkinMember ms ns
  | [], ns, h => by
    cases ns with simp only [sameMembers, reduceCtorEq] at h
    | nil => exact .nil
  | m :: ms, ns, h => by
    cases ns with simp only [sameMembers, reduceCtorEq, Bool.and_eq_true, beq_iff_eq] at h
    | cons n ns => exact .cons ⟨h.1.1.1.1, h.1.1.2, .inr h.1.1.1.2⟩ (forall₂_of_sameMembers h.2)

theorem akinParts_refl (a : Ty) : AkinParts a a := by
  cases a with
  | named _ _ => exact .named (forall₂_refl Akin.refl _)
  | union _ => exact .union (forall₂_refl Akin.refl _)
  | array _ => exact .array (rel_refl Akin.refl _)
  | interface _ =>
    exact .interface (forall₂_refl (fun _ => ⟨rfl, .refl _⟩) _) (forall₂_refl (fun _ => ⟨rfl, .refl _⟩) _)
  | function _ => exact .function (forall₂_refl (fun _ => ⟨rfl, .refl _⟩) _) (.refl _)
  | classType _ =>
    exact .classType (forall₂_refl (fun _ => ⟨rfl, rfl, .refl _⟩) _) (forall₂_refl Akin.refl _)
      (rel_refl Akin.refl _)
  | literal _ => exact .literal rfl
  | intersection _ => exact .intersection (forall₂_refl Akin.refl _)

/-- Types that are akin are of one kind, and so are their parts. -/
theorem Akin.parts (h : a.Akin b) : AkinParts a b := by
  rcases h with rfl | h
  · exact akinParts_refl a
  · cases a with
    | named name as =>
      cases b with simp only [same, reduceCtorEq, Bool.and_eq_true, beq_iff_eq] at h
      | named name' bs =>
        obtain ⟨rfl, hargs⟩ := h
        exact .named (forall₂_of_sameAll hargs)
    | union as =>
      cases b with simp only [same, reduceCtorEq] at h
      | union bs => exact .union (forall₂_of_sameAll h)
    | array a =>
      cases b with simp only [same, reduceCtorEq] at h
      | array b => exact .array (rel_of_sameOption h)
    | interface i =>
      cases b with simp only [same, reduceCtorEq, Bool.and_eq_true, beq_iff_eq] at h
      | interface j =>
        obtain ⟨name, ps, is⟩ := i
        obtain ⟨name', qs, js⟩ := j
        obtain ⟨⟨rfl, hprops⟩, hindex⟩ := h
        exact .interface (forall₂_of_sameProps hprops) (forall₂_of_sameIndex hindex)
    | function f =>
      cases b with simp only [same, reduceCtorEq, Bool.and_eq_true] at h
      | function g => exact .function (forall₂_of_sameParams h.1) (.inr h.2)
    | classType c =>
      cases b with simp only [same, reduceCtorEq, Bool.and_eq_true, beq_iff_eq] at h
      | classType d =>
        obtain ⟨name, ms, xs, s⟩ := c
        obtain ⟨name', ns, ys, t⟩ := d
        obtain ⟨⟨⟨rfl, hmembers⟩, hmixins⟩, hsuper⟩ := h
        exact .classType (forall₂_of_sameMembers hmembers) (forall₂_of_sameAll hmixins)
          (rel_of_sameOption hsuper)
    | literal v =>
      cases b with simp only [same, reduceCtorEq] at h
      | literal w => exact .literal (Literal.widenedName_of_same h)
    | intersection as =>
      cases b with simp only [same, reduceCtorEq] at h
      | intersection bs => exact .intersection (forall₂_of_sameAll h)

namespace Akin

theorem isUnion (h : a.Akin b) : a.isUnion = b.isUnion := by cases h.parts <;> rfl

theorem isIntersection (h : a.Akin b) : a.isIntersection = b.isIntersection := by cases h.parts <;> rfl

theorem isNamed (h : a.Akin b) (name : String) : a.isNamed name = b.isNamed name := by
  cases h.parts <;> rfl

theorem nominalName? (h : a.Akin b) : a.nominalName? = b.nominalName? := by cases h.parts <;> rfl

theorem arrayElement? (h : a.Akin b) :
    Option.Rel (Option.Rel Akin) a.arrayElement? b.arrayElement? := by
  cases h.parts with
  | named args =>
    simp only [Ty.arrayElement?]
    split
    · cases args with
      | nil => exact .some .none
      | cons hab _ => exact .some (.some hab)
    · exact .none
  | array element => exact .some element
  | _ => exact .none

end Akin

end Ty

/-! ### Shapes -/

open Ty (Akin AkinEntry)

/-- Shapes whose entries are akin. -/
structure Shape.Akin (s t : Shape) : Prop where
  props : List.Forall₂ AkinEntry s.props t.props
  index : List.Forall₂ AkinEntry s.index t.index

section

variable {κ : Type} [DecidableEq κ] {xs ys ds es : List (κ × Ty)}

theorem find?_akin (h : List.Forall₂ AkinEntry xs ys) (key : κ) :
    Option.Rel AkinEntry (xs.find? (·.1 == key)) (ys.find? (·.1 == key)) := by
  induction h with
  | nil => exact .none
  | @cons x y _ _ hxy _ ih =>
    rw [List.find?_cons, List.find?_cons, hxy.1]
    split
    · exact .some hxy
    · exact ih

theorem any_key_akin (h : List.Forall₂ AkinEntry xs ys) (key : κ) :
    xs.any (·.1 == key) = ys.any (·.1 == key) := by
  induction h with
  | nil => rfl
  | cons hxy _ ih => rw [List.any_cons, List.any_cons, hxy.1, ih]

theorem addNew_akin (h : List.Forall₂ AkinEntry xs ys) {d e : κ × Ty} (hde : AkinEntry d e) :
    List.Forall₂ AkinEntry (Shape.addNew xs d) (Shape.addNew ys e) := by
  unfold Shape.addNew
  rw [any_key_akin h, hde.1]
  split
  · exact h
  · exact List.rel_append h (.cons hde .nil)

theorem foldl_addNew_akin (h : List.Forall₂ AkinEntry xs ys) (hes : List.Forall₂ AkinEntry ds es) :
    List.Forall₂ AkinEntry (ds.foldl Shape.addNew xs) (es.foldl Shape.addNew ys) := by
  induction hes generalizing xs ys with
  | nil => exact h
  | cons hde _ ih => exact ih (addNew_akin h hde)

end

namespace Shape

variable {s t : Shape}

theorem Akin.merge (h : s.Akin t) {u v : Shape} (huv : u.Akin v) : (s.merge u).Akin (t.merge v) :=
  ⟨foldl_addNew_akin h.props huv.props, foldl_addNew_akin h.index huv.index⟩

theorem Akin.foldl_merge (h : s.Akin t) {us vs : List Shape} (huv : List.Forall₂ Shape.Akin us vs) :
    (us.foldl Shape.merge s).Akin (vs.foldl Shape.merge t) := by
  induction huv generalizing s t with
  | nil => exact h
  | cons hu _ ih => exact ih (h.merge hu)

theorem Akin.property? (h : s.Akin t) (name : String) :
    Option.Rel Ty.Akin (s.property? name) (t.property? name) := by
  have hfound := find?_akin h.props name
  unfold Shape.property?
  generalize s.props.find? (·.1 == name) = x, t.props.find? (·.1 == name) = y at hfound
  cases hfound with
  | none => exact .none
  | some hxy => exact .some hxy.2

end Shape

namespace Ty

variable {a b : Ty}

theorem forall₂_entries {ps qs : List (Property Ty)} (h : List.Forall₂ AkinProperty ps qs) :
    List.Forall₂ AkinEntry (ps.map fun p => (p.name, p.type)) (qs.map fun p => (p.name, p.type)) := by
  induction h with
  | nil => exact .nil
  | cons hpq _ ih => exact .cons hpq ih

theorem forall₂_shown {ms ns : List (Member Ty)} (h : List.Forall₂ AkinMember ms ns) :
    List.Forall₂ AkinEntry ((ms.filter (!·.isPrivate)).map fun m => (m.name, m.type))
      ((ns.filter (!·.isPrivate)).map fun m => (m.name, m.type)) := by
  induction h with
  | nil => exact .nil
  | @cons m n _ _ hmn _ ih =>
    have hprivate : m.isPrivate = n.isPrivate := congrArg Modifiers.isPrivate hmn.2.1
    rw [List.filter_cons, List.filter_cons, hprivate]
    split
    · exact .cons ⟨hmn.1, hmn.2.2⟩ ih
    · exact ih

mutual

/-- Types that are akin have shapes that are akin. -/
theorem shape?_akin : ∀ (a : Ty) {b : Ty}, a.Akin b → Option.Rel Shape.Akin a.shape? b.shape?
  | .interface _, _, h => by
    cases h.parts with
    | interface props index => exact .some ⟨forall₂_entries props, index⟩
  | .classType ⟨_, _, mixins, superclass⟩, _, h => by
    cases h.parts with
    | classType members hmixins hsuper =>
      have hinherited := forall₂_toList (optionShape?_akin superclass hsuper)
      have hmixed := shapes_akin mixins hmixins
      exact .some (Shape.Akin.foldl_merge ⟨forall₂_shown members, .nil⟩
        (List.rel_append hinherited hmixed))
  | .intersection members, _, h => by
    cases h.parts with
    | @intersection _ others hmembers =>
      have hall := allShapes?_akin members hmembers
      simp only [shape?]
      generalize allShapes? members = x, allShapes? others = y at hall
      cases hall with
      | some hshapes => exact .some (Shape.Akin.foldl_merge ⟨.nil, .nil⟩ hshapes)
      | none => exact .none
  | .named _ _, _, h | .union _, _, h | .array _, _, h | .function _, _, h | .literal _, _, h => by
    cases h.parts
    exact .none
termination_by structural a => a

theorem optionShape?_akin : ∀ (a : Option Ty) {b : Option Ty}, Option.Rel Akin a b →
    Option.Rel Shape.Akin (optionShape? a) (optionShape? b)
  | none, _, .none => .none
  | some a, some _, .some h => shape?_akin a h
termination_by structural a => a

theorem shapes_akin : ∀ (as : List Ty) {bs : List Ty}, List.Forall₂ Akin as bs →
    List.Forall₂ Shape.Akin (shapes as) (shapes bs)
  | [], _, .nil => .nil
  | a :: as, _ :: _, .cons h hrest =>
    List.rel_append (forall₂_toList (shape?_akin a h)) (shapes_akin as hrest)
termination_by structural as => as

theorem allShapes?_akin : ∀ (as : List Ty) {bs : List Ty}, List.Forall₂ Akin as bs →
    Option.Rel (List.Forall₂ Shape.Akin) (allShapes? as) (allShapes? bs)
  | [], _, .nil => .some .nil
  | a :: as, b :: bs, .cons h hrest => by
    have hshape := shape?_akin a h
    have hshapes := allShapes?_akin as hrest
    simp only [allShapes?]
    generalize a.shape? = x, b.shape? = y at hshape
    generalize allShapes? as = xs, allShapes? bs = ys at hshapes
    cases hshape with
    | none => exact .none
    | some hshape =>
      cases hshapes with
      | none => exact .none
      | some hshapes => exact .some (.cons hshape hshapes)
termination_by structural as => as

end

end Ty

end ScriptCheck
