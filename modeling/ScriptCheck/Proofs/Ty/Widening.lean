import Mathlib.Data.List.Find
import ScriptCheck.Operator
import ScriptCheck.Proofs.Ty.Covering
import ScriptCheck.Proofs.Ty.Meet

/-!
Widening. A literal goes where the type that holds it goes, unless the target tells the two apart: it is a
literal itself, or a class or an interface that has the name of a type holding literals. What is taken apart
on the way, unions and intersections of the target and unions of the source, does not matter, and neither
does it that a union loses the members which widening makes equal. The operands of operators tell no literals
apart, so that an operator is bound alike to operands and to widened ones.
-/

namespace ScriptCheck

namespace Ty

variable {s t : Ty} {v : Literal}

/-! ### Targets without literals -/

/-- The names of the types that hold literals. -/
def literalNames : List String := ["int", "float", "string", "bool"]

/-- Whether a type tells literals from the types that hold them: a literal does, and so does a class or an
interface with the name of such a type. -/
def tellsLiterals : Ty → Bool
  | .literal _ => true
  | .classType c => literalNames.contains c.name
  | .interface i => i.name.any literalNames.contains
  | _ => false

mutual

/-- Whether no type that tells literals is reached through unions and intersections. -/
def isLiteralFree : Ty → Bool
  | .union ms => allLiteralFree ms
  | .intersection ms => allLiteralFree ms
  | t => !t.tellsLiterals
termination_by structural t => t

/-- The same for types. -/
def allLiteralFree : List Ty → Bool
  | [] => true
  | t :: ts => isLiteralFree t && allLiteralFree ts
termination_by structural ts => ts

end

theorem allLiteralFree_iff {ts : List Ty} :
    allLiteralFree ts = true ↔ ∀ t ∈ ts, t.isLiteralFree = true := by
  induction ts with
  | nil => simp [allLiteralFree]
  | cons t ts ih => simp [allLiteralFree, ih]

theorem tellsLiterals_of_plain (hu : t.isUnion = false) (hi : t.isIntersection = false)
    (h : t.isLiteralFree = true) : t.tellsLiterals = false := by
  cases t with
  | union => cases hu
  | intersection => cases hi
  | _ => simpa only [isLiteralFree, Bool.not_eq_true'] using h

/-! ### Literals -/

theorem widenedName_mem (v : Literal) : v.widenedName ∈ literalNames := by
  cases v <;> simp [literalNames, Literal.widenedName]

/-- The name of a type that holds literals is neither `any` nor that of arrays. -/
theorem widenedName_ne (v : Literal) : v.widenedName ≠ "any" ∧ v.widenedName ≠ "Array" := by
  cases v <;> simp [Literal.widenedName]

theorem isAny_widenedName (v : Literal) : (singular v.widenedName).isAny = false := by
  simp [singular, isAny, isNamed, (widenedName_ne v).1]

/-- A type that tells no literals is entered by the name of a type holding literals if it is that name. -/
theorem elementInto_widenedName (v : Literal) (ht : t.tellsLiterals = false) :
    elementInto isAssignableTo (singular v.widenedName) t = t.isNamed v.widenedName := by
  have hname := widenedName_mem v
  have harray := (widenedName_ne v).2
  have helement : (singular v.widenedName).arrayElement? = none := by simp [singular, arrayElement?, harray]
  have hplain : elementInto isAssignableTo (singular v.widenedName) t =
      plainInto isAssignableTo (singular v.widenedName) t := by
    simp only [singular] at helement ⊢
    simp only [elementInto, helement]
  rw [hplain]
  cases t with
  | named name args => simp [plainInto, singular, isNamed, Bool.beq_comm]
  | classType c =>
    have hne : c.name ≠ v.widenedName := by
      rintro heq
      simp [tellsLiterals, heq, hname] at ht
    simp [plainInto, singular, isNamed, nominalName?, hne]
  | interface i =>
    have hne : i.name ≠ some v.widenedName := by
      intro heq
      simp [tellsLiterals, heq, hname] at ht
    simp [plainInto, singular, isNamed, nominalName?, hne]
  | _ => rfl

/-- A target that is not taken apart and tells no literals takes a literal if it takes the type that holds
it. -/
theorem literal_assignable_plain (hu : t.isUnion = false) (hi : t.isIntersection = false)
    (ht : t.tellsLiterals = false) :
    (literal v).isAssignableTo t = true ↔ (singular v.widenedName).isAssignableTo t = true := by
  cases hany : t.isAny with
  | true => exact iff_of_true (assignable_of_isAny (.inr hany)) (assignable_of_isAny (.inr hany))
  | false =>
    constructor
    · intro h
      rcases same_or_element_of_assignable rfl hu hi rfl hany h with hsame | helement
      · cases t with
        | literal => cases ht
        | _ => simp only [same, reduceCtorEq] at hsame
      · exact assignable_of_element rfl hu hi ((elementInto_widenedName v ht).trans helement)
    · intro h
      refine assignable_of_element rfl hu hi ?_
      rcases same_or_element_of_assignable rfl hu hi (isAny_widenedName v) hany h with hsame | helement
      · -- the only type that is equal to a name is that name
        cases t with
        | named name args =>
          simp only [singular, same, Bool.and_eq_true, beq_iff_eq] at hsame
          simp [elementInto, isNamed, hsame.1]
        | _ => simp only [singular, same, reduceCtorEq] at hsame
      · exact (elementInto_widenedName v ht).symm.trans helement

theorem LeafOf.tellsLiterals {u : Ty} (h : u.LeafOf t) (ht : t.isLiteralFree = true) :
    u.tellsLiterals = false := by
  induction h with
  | self hu hi => exact tellsLiterals_of_plain hu hi ht
  | union hm _ ih | intersection hm _ ih => exact ih (allLiteralFree_iff.1 ht _ hm)

/-- What enters a target without literals may be replaced by what enters the same types there. -/
theorem EntersWhole.replace {u : Ty} (h : s.EntersWhole t) (ht : t.isLiteralFree = true)
    (hplain : ∀ t : Ty, t.isUnion = false → t.isIntersection = false → t.tellsLiterals = false →
      s.isAssignableTo t = true → u.isAssignableTo t = true) : u.EntersWhole t :=
  h.imp fun t hleaf => hplain t hleaf.plain.1 hleaf.plain.2 (hleaf.tellsLiterals ht)

/-- A target without literals takes a literal if it takes the type that holds it. -/
theorem literal_assignable_iff (ht : t.isLiteralFree = true) :
    (literal v).isAssignableTo t = true ↔ (singular v.widenedName).isAssignableTo t = true := by
  constructor
  · intro h
    have hwhole := entersWhole_of_plain rfl rfl rfl h
    exact (hwhole.replace ht fun _ hu hi htells => (literal_assignable_plain hu hi htells).1).assignable
  · intro h
    have hwhole := entersWhole_of_plain rfl rfl (isAny_widenedName v) h
    exact (hwhole.replace ht fun _ hu hi htells => (literal_assignable_plain hu hi htells).2).assignable

/-! ### Widened types -/

/-- A target without literals takes a type if it takes the widened type. -/
theorem assignable_iff_widened (ht : t.isLiteralFree = true) :
    s.isAssignableTo t = true ↔ s.widened.isAssignableTo t = true := by
  induction s using induction_on_members with
  | plain s _ _ =>
    cases s with
    | literal v => exact literal_assignable_iff ht
    | union | intersection => contradiction
    | _ => exact .rfl
  | union ms ih =>
    rw [widened, union_assignable_iff, unionOf_assignable_iff]
    constructor
    · intro h u hu
      obtain ⟨m, hm, rfl⟩ := mem_widenedAll hu
      exact (ih m hm).1 (h m hm)
    · intro h m hm
      exact (ih m hm).2 (h m.widened (mem_widenedAll_of_mem hm))
  | intersection ms _ => exact .rfl

theorem isAssignableTo_widened (ht : t.isLiteralFree = true) :
    s.widened.isAssignableTo t = s.isAssignableTo t := Bool.eq_iff_iff.2 (assignable_iff_widened ht).symm

end Ty

/-! ### Operators -/

namespace BinaryOperator

/-- No use of a binary operator tells literals apart. -/
theorem literalFree_of_mem {use : BinaryOperator} (h : use ∈ all) :
    use.left.isLiteralFree = true ∧ use.right.isLiteralFree = true := by
  have hall : all.all (fun use => use.left.isLiteralFree && use.right.isLiteralFree) = true := by decide
  simpa using List.all_eq_true.1 hall use h

/-- An operator is bound alike to operands that all its uses take alike. -/
theorem bind?_congr {left left' right right' : Ty} (token : TokenKind)
    (hleft : ∀ use ∈ all, left.isAssignableTo use.left = left'.isAssignableTo use.left)
    (hright : ∀ use ∈ all, right.isAssignableTo use.right = right'.isAssignableTo use.right) :
    bind? token left right = bind? token left' right' :=
  List.find?_congr fun use h => by rw [hleft use h, hright use h]

end BinaryOperator

/-- No use of a unary operator tells literals apart. -/
theorem UnaryOperator.literalFree_of_mem {use : UnaryOperator} (h : use ∈ all) :
    use.operand.isLiteralFree = true := by
  have hall : all.all (fun use => use.operand.isLiteralFree) = true := by decide
  exact List.all_eq_true.1 hall use h

namespace Ty

open BinaryOperator (bind?)

/-- A target from which no literal and no class or interface with the name of a literal's type is reached
through unions and intersections takes a type exactly if it takes the widened type. So every operator is
bound to the same use for operands and for widened operands, be it one of them or both. -/
theorem widening_neutral :
    (∀ s t : Ty, t.isLiteralFree = true →
      (s.isAssignableTo t = true ↔ s.widened.isAssignableTo t = true)) ∧
    (∀ token left right,
      bind? token left.widened right.widened = bind? token left right ∧
      bind? token left.widened right = bind? token left right ∧
      bind? token left right.widened = bind? token left right) ∧
    ∀ token operand, UnaryOperator.bind? token operand.widened = UnaryOperator.bind? token operand := by
  refine ⟨fun s t ht => assignable_iff_widened ht, fun token left right => ?_, fun token operand => ?_⟩
  · have hleft : ∀ use ∈ BinaryOperator.all,
        left.widened.isAssignableTo use.left = left.isAssignableTo use.left :=
      fun use h => isAssignableTo_widened (BinaryOperator.literalFree_of_mem h).1
    have hright : ∀ use ∈ BinaryOperator.all,
        right.widened.isAssignableTo use.right = right.isAssignableTo use.right :=
      fun use h => isAssignableTo_widened (BinaryOperator.literalFree_of_mem h).2
    exact ⟨BinaryOperator.bind?_congr token hleft hright,
      BinaryOperator.bind?_congr token hleft fun _ _ => rfl,
      BinaryOperator.bind?_congr token (fun _ _ => rfl) hright⟩
  · refine List.find?_congr fun use h => ?_
    rw [isAssignableTo_widened (UnaryOperator.literalFree_of_mem h)]

/-- Numbers and texts, as a target with an intersection in it. -/
def numberOrText : Ty := .union [number, .intersection [string, any]]

/-- Two numbers and a text go there since the widened type does, and `+` joins a number and a text as it joins
all numbers and texts. -/
theorem widening_neutral_numbers :
    numberOrText.isLiteralFree = true ∧
    (union [.literal (.int 1), .literal (.text "a"), .literal (.int 2)]).isAssignableTo numberOrText = true ∧
    bind? .plus (.literal (.int 1)) (.literal (.text "a")) = bind? .plus int string := by
  obtain ⟨haccepts, hbinary, -⟩ := widening_neutral
  refine ⟨by decide, ?_, (hbinary .plus (.literal (.int 1)) (.literal (.text "a"))).1.symm⟩
  exact (haccepts _ _ (by decide)).2 (by decide +kernel)

end Ty

end ScriptCheck
