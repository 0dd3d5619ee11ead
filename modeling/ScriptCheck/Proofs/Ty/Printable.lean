import Mathlib.Data.List.Basic
import ScriptCheck.Proofs.Lexing.Spelling
import ScriptCheck.Proofs.Ty.Equality
import ScriptCheck.Ty.Registry

/-!
Types that can be written and read back. Their names are intrinsic, their literals are those that a
source can spell out, and no union, intersection or function stands where its written form would grow
together with what is around it. Such types are equal as values only if they are equal, so that unions
and intersections of distinct members keep all of them.
-/

namespace ScriptCheck

/-- Whether a text is a word that is not reserved. -/
def isIdentifier (name : String) : Bool := isWord name && (TokenKind.ofWord? name).isNone

/-- The literals that can be read back: integers without sign, truth values and plain texts. -/
def Literal.Printable : Literal → Prop
  | .int n => 0 ≤ n ∧ n < integerLimit
  | .float _ => False
  | .text s => ∀ c ∈ s.toList, isPlain c = true
  | .bool _ => True

/-- Among them equality of values is equality. -/
theorem Literal.eq_of_same {a b : Literal} (ha : a.Printable) (h : a.same b = true) : a = b := by
  cases a <;> cases b <;> simp_all [same, Printable]

namespace Ty

mutual

/-- The types that can be read back. -/
def Printable : Ty → Prop
  | .named name args => name ∈ intrinsicTypeNames ∧ name ≠ "Array" ∧ args = []
  | .union members => 2 ≤ members.length ∧ members.Pairwise (· ≠ ·) ∧ AllPrintable members ∧
      ∀ m ∈ members, m.isUnion = false ∧ m.isFunction = false
  | .array element => ElementPrintable element
  | .interface ⟨name, props, index⟩ => name = none ∧ PropsPrintable props ∧ IndexPrintable index
  | .function ⟨params, result⟩ => ParamsPrintable params ∧ Printable result
  | .classType _ => False
  | .literal value => value.Printable
  | .intersection members => 2 ≤ members.length ∧ members.Pairwise (· ≠ ·) ∧
      AllPrintable members ∧
      ∀ m ∈ members, m.isIntersection = false ∧ m.isUnion = false ∧ m.isFunction = false
termination_by structural t => t

/-- The same for types. -/
def AllPrintable : List Ty → Prop
  | [] => True
  | t :: ts => Printable t ∧ AllPrintable ts
termination_by structural ts => ts

/-- The same for the element of an array, which must not be missing. -/
def ElementPrintable : Option Ty → Prop
  | none => False
  | some t => Printable t
termination_by structural t => t

/-- The same for properties. -/
def PropsPrintable : List (Property Ty) → Prop
  | [] => True
  | ⟨name, type, _⟩ :: ps => isIdentifier name = true ∧ Printable type ∧ PropsPrintable ps
termination_by structural ps => ps

/-- The same for index signatures. -/
def IndexPrintable : List (IndexKey × Ty) → Prop
  | [] => True
  | (_, type) :: is => Printable type ∧ IndexPrintable is
termination_by structural is => is

/-- The same for parameters. -/
def ParamsPrintable : List (String × Ty) → Prop
  | [] => True
  | (name, type) :: ps => isIdentifier name = true ∧ Printable type ∧ ParamsPrintable ps
termination_by structural ps => ps

end

theorem allPrintable_iff {ts : List Ty} : AllPrintable ts ↔ ∀ t ∈ ts, t.Printable := by
  induction ts with
  | nil => simp [AllPrintable]
  | cons t ts ih => simp [AllPrintable, ih]

/-! ### Equality -/

mutual

/-- Without numbers that differ from themselves, types that are equal as values are equal. -/
theorem eq_of_same : ∀ (a b : Ty), a.Printable → a.same b = true → a = b
  | .named a as, b, ha, h => by
    cases b with simp only [same, Bool.and_eq_true, beq_iff_eq, reduceCtorEq] at h
    | named b bs =>
      obtain ⟨-, -, rfl⟩ := ha
      cases bs with
      | nil => rw [h.1]
      | cons => simp [sameAll] at h
  | .union as, b, ha, h => by
    cases b with simp only [same, reduceCtorEq] at h
    | union bs => rw [eq_of_sameAll as bs ha.2.2.1 h]
  | .array a, b, ha, h => by
    cases b with simp only [same, reduceCtorEq] at h
    | array b => rw [eq_of_sameElement a b ha h]
  | .interface ⟨a, ps, is⟩, b, ha, h => by
    cases b with simp only [same, reduceCtorEq, Bool.and_eq_true, beq_iff_eq] at h
    | interface b =>
      obtain ⟨b, qs, js⟩ := b
      rw [h.1.1, eq_of_sameProps ps qs ha.2.1 h.1.2, eq_of_sameIndex is js ha.2.2 h.2]
  | .function ⟨ps, a⟩, b, ha, h => by
    cases b with simp only [same, reduceCtorEq, Bool.and_eq_true] at h
    | function b =>
      obtain ⟨qs, b⟩ := b
      rw [eq_of_sameParams ps qs ha.1 h.1, eq_of_same a b ha.2 h.2]
  | .classType _, _, ha, _ => ha.elim
  | .literal a, b, ha, h => by
    cases b with simp only [same, reduceCtorEq] at h
    | literal b => rw [Literal.eq_of_same ha h]
  | .intersection as, b, ha, h => by
    cases b with simp only [same, reduceCtorEq] at h
    | intersection bs => rw [eq_of_sameAll as bs ha.2.2.1 h]
termination_by structural a => a

theorem eq_of_sameAll : ∀ as bs : List Ty, AllPrintable as → sameAll as bs = true → as = bs
  | [], [], _, _ => rfl
  | a :: as, b :: bs, ha, h => by
    simp only [sameAll, Bool.and_eq_true] at h
    rw [eq_of_same a b ha.1 h.1, eq_of_sameAll as bs ha.2 h.2]
  | [], _ :: _, _, h => by simp [sameAll] at h
  | _ :: _, [], _, h => by simp [sameAll] at h
termination_by structural as => as

theorem eq_of_sameElement : ∀ a b : Option Ty, ElementPrintable a → sameOption a b = true → a = b
  | some a, some b, ha, h => by rw [eq_of_same a b ha h]
  | some _, none, _, h => by simp [sameOption] at h
  | none, _, ha, _ => ha.elim
termination_by structural a => a

theorem eq_of_sameProps : ∀ ps qs : List (Property Ty), PropsPrintable ps →
    sameProps ps qs = true → ps = qs
  | [], [], _, _ => rfl
  | ⟨n, a, v⟩ :: ps, ⟨m, b, w⟩ :: qs, ha, h => by
    simp only [sameProps, Bool.and_eq_true, beq_iff_eq] at h
    rw [h.1.1.1, eq_of_same a b ha.2.1 h.1.1.2, h.1.2, eq_of_sameProps ps qs ha.2.2 h.2]
  | [], _ :: _, _, h => by simp [sameProps] at h
  | _ :: _, [], _, h => by simp [sameProps] at h
termination_by structural ps => ps

theorem eq_of_sameIndex : ∀ is js : List (IndexKey × Ty), IndexPrintable is →
    sameIndex is js = true → is = js
  | [], [], _, _ => rfl
  | (k, a) :: is, (l, b) :: js, ha, h => by
    simp only [sameIndex, Bool.and_eq_true, beq_iff_eq] at h
    rw [h.1.1, eq_of_same a b ha.1 h.1.2, eq_of_sameIndex is js ha.2 h.2]
  | [], _ :: _, _, h => by simp [sameIndex] at h
  | _ :: _, [], _, h => by simp [sameIndex] at h
termination_by structural is => is

theorem eq_of_sameParams : ∀ ps qs : List (String × Ty), ParamsPrintable ps →
    sameParams ps qs = true → ps = qs
  | [], [], _, _ => rfl
  | (n, a) :: ps, (m, b) :: qs, ha, h => by
    simp only [sameParams, Bool.and_eq_true, beq_iff_eq] at h
    rw [h.1.1, eq_of_same a b ha.2.1 h.1.2, eq_of_sameParams ps qs ha.2.2 h.2]
  | [], _ :: _, _, h => by simp [sameParams] at h
  | _ :: _, [], _, h => by simp [sameParams] at h
termination_by structural ps => ps

end

/-! ### Unions and intersections -/

/-- Members that differ from each other are all kept. -/
theorem distinct_eq_self {ts : List Ty} (hts : ∀ t ∈ ts, t.Printable)
    (hdistinct : ts.Pairwise (· ≠ ·)) : distinct ts = ts := by
  refine distinct_of_pairwise (hdistinct.imp_of_mem fun {a b} ha _ hne => ?_)
  rw [← Bool.not_eq_true]
  exact fun hsame => hne (eq_of_same a b (hts a ha) hsame)

theorem unionMembers_of {t : Ty} (h : t.isUnion = false) : t.unionMembers = [t] := by
  cases t with
  | union ms => cases h
  | _ => rfl

theorem intersectionMembers_of {t : Ty} (h : t.isIntersection = false) : t.intersectionMembers = [t] := by
  cases t with
  | intersection ms => cases h
  | _ => rfl

/-- Several types that differ from each other and are not opened are put together as they are. -/
theorem gather_of_printable {members : Ty → List Ty} {make : List Ty → Ty} {ts : List Ty}
    (hlength : 2 ≤ ts.length) (hdistinct : ts.Pairwise (· ≠ ·)) (hts : ∀ t ∈ ts, t.Printable)
    (hmembers : ∀ t ∈ ts, members t = [t]) : gather members make ts = make ts := by
  have hopened : ts.flatMap members = ts := by
    rw [List.flatMap_congr hmembers, List.flatMap_singleton']
  have hleft : distinct (ts.flatMap members) = ts := by rw [hopened, distinct_eq_self hts hdistinct]
  rcases gather_cases members make ts with ⟨t, hone, -⟩ | ⟨-, hall⟩
  · rw [← hleft, hone] at hlength
    exact absurd hlength (by decide : ¬2 ≤ 1)
  · rw [hall, hleft]

theorem unionOf_of_printable {ts : List Ty} (h : (union ts).Printable) : unionOf ts = .union ts := by
  obtain ⟨hlength, hdistinct, hall, hplain⟩ := h
  exact gather_of_printable hlength hdistinct (allPrintable_iff.1 hall) fun t ht => unionMembers_of (hplain t ht).1

theorem intersectionOf_of_printable {ts : List Ty} (h : (intersection ts).Printable) :
    intersectionOf ts = .intersection ts := by
  obtain ⟨hlength, hdistinct, hall, hplain⟩ := h
  exact gather_of_printable hlength hdistinct (allPrintable_iff.1 hall) fun t ht =>
    intersectionMembers_of (hplain t ht).1

end Ty

end ScriptCheck
