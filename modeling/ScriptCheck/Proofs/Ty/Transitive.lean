import ScriptCheck.Proofs.Ty.Rules

/-!
Transitivity of assignability. It fails in general: everything goes into `any` and `any` into everything.
It holds on the structural core, whose types are names without arguments, literals, unions, arrays,
functions and the interfaces of objects. Unions are taken apart first; between types of the core that are
no unions only a few rules can meet, and each pair of them composes through smaller types.
-/

namespace ScriptCheck

namespace Ty

/-! ### The core -/

mutual

/-- The types of the core: `any` and `Array` are no names of it, and an interface of it has neither a
name nor index signatures. -/
def Core : Ty → Prop
  | .named name args => name ≠ "any" ∧ name ≠ "Array" ∧ args = []
  | .union members => AllCore members
  | .array element => ElementCore element
  | .interface ⟨name, props, index⟩ => name = none ∧ index = [] ∧ PropsCore props
  | .function ⟨params, result⟩ => ParamsCore params ∧ Core result
  | .literal _ => True
  | .classType _ | .intersection _ => False
termination_by structural t => t

/-- The same for types. -/
def AllCore : List Ty → Prop
  | [] => True
  | t :: ts => Core t ∧ AllCore ts
termination_by structural ts => ts

/-- The same for the element of an array, which must be decided. -/
def ElementCore : Option Ty → Prop
  | none => False
  | some t => Core t
termination_by structural t => t

/-- The same for properties. -/
def PropsCore : List (Property Ty) → Prop
  | [] => True
  | ⟨_, type, _⟩ :: ps => Core type ∧ PropsCore ps
termination_by structural ps => ps

/-- The same for parameters. -/
def ParamsCore : List (String × Ty) → Prop
  | [] => True
  | (_, type) :: ps => Core type ∧ ParamsCore ps
termination_by structural ps => ps

end

theorem allCore_iff {ts : List Ty} : AllCore ts ↔ ∀ t ∈ ts, t.Core := by
  induction ts with
  | nil => simp [AllCore]
  | cons t ts ih => simp [AllCore, ih]

theorem propsCore_iff {ps : List (Property Ty)} : PropsCore ps ↔ ∀ p ∈ ps, p.type.Core := by
  induction ps with
  | nil => simp [PropsCore]
  | cons p ps ih => simp [PropsCore, ih]

theorem paramsCore_iff {ps : List (String × Ty)} : ParamsCore ps ↔ ∀ p ∈ ps, p.2.Core := by
  induction ps with
  | nil => simp [ParamsCore]
  | cons p ps ih => simp [ParamsCore, ih]

namespace Core

variable {t : Ty}

theorem isAny (h : t.Core) : t.isAny = false := by
  cases t with
  | named name args => simpa [Ty.isAny, isNamed] using h.1
  | _ => rfl

theorem isIntersection (h : t.Core) : t.isIntersection = false := by
  cases t with
  | intersection => cases h
  | _ => rfl

theorem element {e : Ty} (h : (Ty.array (some e)).Core) : e.Core := h

theorem member {ms : List Ty} (h : (Ty.union ms).Core) {m : Ty} (hm : m ∈ ms) : m.Core :=
  allCore_iff.1 h m hm

end Core

/-! ### The rules of the core -/

/-- The first property of each name that is asked for has a type that goes into the one asked for. -/
def PropsInto (ps qs : List (Property Ty)) : Prop :=
  ∀ q ∈ qs, ∃ p, ps.find? (·.name == q.name) = some p ∧ p.type.isAssignableTo q.type = true

/-- There are no more parameters than are given, and what is given goes into them. -/
def ParamsFrom (ps qs : List (String × Ty)) : Prop :=
  ps.length ≤ qs.length ∧
    ∀ (i : Nat) (p q : String × Ty), ps[i]? = some p → qs[i]? = some q →
      q.2.isAssignableTo p.2 = true

/-- How a type of the core that is no union goes into another. -/
inductive CoreRule : Ty → Ty → Prop
  | name (n : String) : CoreRule (.named n []) (.named n [])
  | literal {v w : Literal} (h : v.same w = true) : CoreRule (.literal v) (.literal w)
  | widened (v : Literal) : CoreRule (.literal v) (.named v.widenedName [])
  | array {a b : Ty} (h : a.isAssignableTo b = true) : CoreRule (.array (some a)) (.array (some b))
  | alike {ps qs : List (Property Ty)} (h : sameProps ps qs = true) :
      CoreRule (.interface ⟨none, ps, []⟩) (.interface ⟨none, qs, []⟩)
  | props {ps qs : List (Property Ty)} (h : PropsInto ps qs) :
      CoreRule (.interface ⟨none, ps, []⟩) (.interface ⟨none, qs, []⟩)
  | function {ps qs : List (String × Ty)} {a b : Ty} (hparams : ParamsFrom ps qs)
      (hresult : a.isAssignableTo b = true) : CoreRule (.function ⟨ps, a⟩) (.function ⟨qs, b⟩)

theorem satisfies_iff_propsInto {ps qs : List (Property Ty)} :
    shapesSatisfy isAssignableTo (.interface ⟨none, ps, []⟩) (.interface ⟨none, qs, []⟩) = true ↔
      PropsInto ps qs := by
  simp only [shapesSatisfy, shape?, Shape.satisfies, List.all_nil, Bool.and_true, List.all_map,
    List.all_eq_true, Function.comp_apply, Shape.property?_of_props, PropsInto]
  refine forall₂_congr fun q _ => ?_
  cases ps.find? (·.name == q.name) <;> simp

theorem all_zip_iff_paramsFrom {ps qs : List (String × Ty)} :
    (decide (ps.length ≤ qs.length) && (ps.zip qs).all fun (s, t) => t.2.isAssignableTo s.2) = true ↔
      ParamsFrom ps qs := by
  rw [Bool.and_eq_true, decide_eq_true_iff, List.all_eq_true]
  refine and_congr_right fun _ => ⟨fun h i p q hp hq => ?_, fun h e he => ?_⟩
  · exact h (p, q) (List.mem_of_getElem? (List.getElem?_zip_eq_some.2 ⟨hp, hq⟩))
  · obtain ⟨i, hi⟩ := List.mem_iff_getElem?.1 he
    obtain ⟨hp, hq⟩ := List.getElem?_zip_eq_some.1 hi
    exact h i e.1 e.2 hp hq

/-- Equal parameters accept each other. -/
theorem paramsFrom_of_same {ps qs : List (String × Ty)} (h : sameParams ps qs = true) :
    ParamsFrom ps qs := by
  induction ps generalizing qs with
  | nil => exact ⟨Nat.zero_le _, nofun⟩
  | cons p ps ih =>
    cases qs with simp only [sameParams, reduceCtorEq, Bool.and_eq_true] at h
    | cons q qs =>
      obtain ⟨hlength, hparams⟩ := ih h.2
      refine ⟨Nat.succ_le_succ hlength, fun i a b ha hb => ?_⟩
      cases i with
      | zero =>
        cases ha
        cases hb
        exact assignable_of_same (same_symm h.1.2)
      | succ i => exact hparams i a b ha hb

/-- A rule is a step into assignability. -/
theorem CoreRule.assignable {a b : Ty} (h : CoreRule a b) : a.isAssignableTo b = true := by
  cases h with
  | name n => exact assignable_of_same (by simp [same, sameAll])
  | literal h => exact assignable_of_same (by simpa only [same] using h)
  | widened v => exact assignable_of_element rfl rfl rfl (by simp [elementInto, isNamed])
  | array h => exact assignable_of_element rfl rfl rfl h
  | alike h => exact assignable_of_same (by simpa [same, sameIndex] using h)
  | props h => exact assignable_of_element rfl rfl rfl (satisfies_iff_propsInto.2 h)
  | function hparams hresult =>
    refine assignable_of_element rfl rfl rfl ?_
    exact Bool.and_eq_true_iff.2 ⟨all_zip_iff_paramsFrom.2 hparams, hresult⟩

/-- Equal types of the core follow a rule. -/
theorem coreRule_of_same {a b : Ty} (ha : a.Core) (hb : b.Core) (hu : a.isUnion = false)
    (h : a.same b = true) : CoreRule a b := by
  cases a with
  | named n args =>
    cases b with simp only [same, reduceCtorEq, Bool.and_eq_true, beq_iff_eq] at h
    | named m args' =>
      obtain ⟨-, -, rfl⟩ := ha
      obtain ⟨-, -, rfl⟩ := hb
      obtain ⟨rfl, -⟩ := h
      exact .name n
  | union => cases hu
  | array e =>
    cases b with simp only [same, reduceCtorEq] at h
    | array e' =>
      cases e with
      | none => cases ha
      | some x =>
        cases e' with
        | none => cases hb
        | some y => exact .array (assignable_of_same h)
  | interface i =>
    cases b with simp only [same, reduceCtorEq, Bool.and_eq_true] at h
    | interface j =>
      obtain ⟨_, ps, _⟩ := i
      obtain ⟨_, qs, _⟩ := j
      obtain ⟨rfl, rfl, -⟩ := ha
      obtain ⟨rfl, rfl, -⟩ := hb
      exact .alike h.1.2
  | function f =>
    cases b with simp only [same, reduceCtorEq, Bool.and_eq_true] at h
    | function g => exact .function (paramsFrom_of_same h.1) (assignable_of_same h.2)
  | classType => cases ha
  | literal v =>
    cases b with simp only [same, reduceCtorEq] at h
    | literal w => exact .literal h
  | intersection => cases ha

/-- Types of the core that are no unions go into each other by a rule. -/
theorem coreRule_of_assignable {a b : Ty} (ha : a.Core) (hb : b.Core) (hau : a.isUnion = false)
    (hbu : b.isUnion = false) (h : a.isAssignableTo b = true) : CoreRule a b := by
  have hrules := same_or_element_of_assignable hau hbu hb.isIntersection ha.isAny hb.isAny h
  clear h
  rcases hrules with h | h
  · exact coreRule_of_same ha hb hau h
  · cases a with
    | named n args =>
      obtain ⟨-, harray, rfl⟩ := ha
      cases b with
        simp only [elementInto, arrayElement?, plainInto, if_neg harray, reduceCtorEq] at h
      | named m args' =>
        obtain ⟨-, -, rfl⟩ := hb
        rw [Bool.and_eq_true, beq_iff_eq] at h
        obtain ⟨rfl, -⟩ := h
        exact .name n
      | interface j =>
        obtain ⟨_, qs, _⟩ := j
        obtain ⟨rfl, -⟩ := hb
        simp [nominalName?] at h
      | classType => cases hb
    | union => cases hau
    | array e =>
      cases e with
      | none => cases ha
      | some x =>
        cases b with simp only [elementInto, arrayElement?, plainInto, reduceCtorEq] at h
        | named m args => simp [hb.2.1] at h
        | array e' =>
          cases e' with
          | none => cases hb
          | some y => exact .array h
    | interface i =>
      obtain ⟨_, ps, _⟩ := i
      obtain ⟨rfl, rfl, -⟩ := ha
      cases b with simp only [elementInto, arrayElement?, plainInto, reduceCtorEq] at h
      | named m args => simp [nominalName?] at h
      | interface j =>
        obtain ⟨_, qs, _⟩ := j
        obtain ⟨rfl, rfl, -⟩ := hb
        exact .props (satisfies_iff_propsInto.1 h)
    | function f =>
      cases b with simp only [elementInto, arrayElement?, plainInto, reduceCtorEq] at h
      | function g =>
        rw [Bool.and_eq_true] at h
        exact .function (all_zip_iff_paramsFrom.1 h.1) h.2
    | classType => cases ha
    | literal v =>
      cases b with simp only [elementInto, isNamed, reduceCtorEq, beq_iff_eq] at h
      | named m args =>
        obtain ⟨-, -, rfl⟩ := hb
        rw [h]
        exact .widened v
    | intersection => cases ha

/-! ### Rules compose -/

/-- Transitivity on the core, for types that together are smaller than a bound. -/
def TransitiveBelow (n : Nat) : Prop :=
  ∀ a b c : Ty, a.size + b.size + c.size < n → a.Core → b.Core → c.Core →
    a.isAssignableTo b = true → b.isAssignableTo c = true → a.isAssignableTo c = true

/-- Properties that go into each other. -/
theorem PropsInto.trans {n : Nat} (ih : TransitiveBelow n) {ps qs rs : List (Property Ty)}
    (hn : sizeProps ps + sizeProps qs + sizeProps rs < n) (hp : PropsCore ps) (hq : PropsCore qs)
    (hr : PropsCore rs) (hpq : PropsInto ps qs) (hqr : PropsInto qs rs) : PropsInto ps rs := by
  intro r hmem
  obtain ⟨q, hfound, hinto⟩ := hqr r hmem
  have hname : q.name = r.name := by simpa using List.find?_some hfound
  have hq' := List.mem_of_find?_eq_some hfound
  obtain ⟨p, hfound', hinto'⟩ := hpq q hq'
  rw [hname] at hfound'
  have hp' := List.mem_of_find?_eq_some hfound'
  refine ⟨p, hfound', ih _ _ _ ?_ (propsCore_iff.1 hp p hp') (propsCore_iff.1 hq q hq')
    (propsCore_iff.1 hr r hmem) hinto' hinto⟩
  have := size_le_sizeProps hp'
  have := size_le_sizeProps hq'
  have := size_le_sizeProps hmem
  omega

/-- Equal properties go where the others go. -/
theorem propsInto_of_same {n : Nat} (ih : TransitiveBelow n) {ps qs rs : List (Property Ty)}
    (hn : sizeProps ps + sizeProps qs + sizeProps rs < n) (hp : PropsCore ps) (hq : PropsCore qs)
    (hr : PropsCore rs) (hpq : sameProps ps qs = true) (hqr : PropsInto qs rs) : PropsInto ps rs := by
  intro r hmem
  obtain ⟨q, hfound, hinto⟩ := hqr r hmem
  obtain ⟨p, hfound', hsame⟩ := find?_of_sameProps hpq hfound
  have hp' := List.mem_of_find?_eq_some hfound'
  have hq' := List.mem_of_find?_eq_some hfound
  refine ⟨p, hfound', ih _ _ _ ?_ (propsCore_iff.1 hp p hp') (propsCore_iff.1 hq q hq')
    (propsCore_iff.1 hr r hmem) (assignable_of_same hsame) hinto⟩
  have := size_le_sizeProps hp'
  have := size_le_sizeProps hq'
  have := size_le_sizeProps hmem
  omega

/-- What goes into properties goes into equal ones. -/
theorem PropsInto.of_same {n : Nat} (ih : TransitiveBelow n) {ps qs rs : List (Property Ty)}
    (hn : sizeProps ps + sizeProps qs + sizeProps rs < n) (hp : PropsCore ps) (hq : PropsCore qs)
    (hr : PropsCore rs) (hpq : PropsInto ps qs) (hqr : sameProps qs rs = true) : PropsInto ps rs := by
  intro r hmem
  obtain ⟨q, hq', hname, hsame⟩ := exists_same_of_mem_props hqr hmem
  obtain ⟨p, hfound, hinto⟩ := hpq q hq'
  rw [hname] at hfound
  have hp' := List.mem_of_find?_eq_some hfound
  refine ⟨p, hfound, ih _ _ _ ?_ (propsCore_iff.1 hp p hp') (propsCore_iff.1 hq q hq')
    (propsCore_iff.1 hr r hmem) hinto (assignable_of_same hsame)⟩
  have := size_le_sizeProps hp'
  have := size_le_sizeProps hq'
  have := size_le_sizeProps hmem
  omega

/-- Parameters compose the other way round. -/
theorem ParamsFrom.trans {n : Nat} (ih : TransitiveBelow n) {ps qs rs : List (String × Ty)}
    (hn : sizeParams ps + sizeParams qs + sizeParams rs < n) (hp : ParamsCore ps)
    (hq : ParamsCore qs) (hr : ParamsCore rs) (hpq : ParamsFrom ps qs) (hqr : ParamsFrom qs rs) :
    ParamsFrom ps rs := by
  refine ⟨Nat.le_trans hpq.1 hqr.1, fun i p r hi hk => ?_⟩
  obtain ⟨hlt, -⟩ := List.getElem?_eq_some_iff.1 hi
  obtain ⟨q, hj⟩ : ∃ q, qs[i]? = some q := 
    ⟨_, List.getElem?_eq_getElem (Nat.lt_of_lt_of_le hlt hpq.1)⟩
  have hp' := List.mem_of_getElem? hi
  have hq' := List.mem_of_getElem? hj
  have hr' := List.mem_of_getElem? hk
  refine ih _ _ _ ?_ (paramsCore_iff.1 hr r hr') (paramsCore_iff.1 hq q hq')
    (paramsCore_iff.1 hp p hp') (hqr.2 i q r hj hk) (hpq.2 i p q hi hj)
  have := size_le_sizeParams hp'
  have := size_le_sizeParams hq'
  have := size_le_sizeParams hr'
  omega

/-- Two rules that meet compose to a rule. -/
theorem CoreRule.trans {n : Nat} (ih : TransitiveBelow n) {a b c : Ty}
    (hn : a.size + b.size + c.size ≤ n) (ha : a.Core) (hb : b.Core) (hc : c.Core)
    (hab : CoreRule a b) (hbc : CoreRule b c) : CoreRule a c := by
  cases hab with
  | name => exact hbc
  | literal h =>
    cases hbc with
    | literal h' => exact .literal (Literal.same_trans h h')
    | widened w => rw [← Literal.widenedName_of_same h]; exact .widened _
  | widened v => cases hbc; exact .widened v
  | array h =>
    cases hbc with
    | array h' =>
      simp only [size, sizeOption] at hn
      exact .array (ih _ _ _ (by omega) ha.element hb.element hc.element h h')
  | alike h =>
    simp only [size, sizeIndex] at hn
    cases hbc with simp only [size, sizeIndex] at hn
    | alike h' => exact .alike (sameProps_trans h h')
    | props h' => exact .props (propsInto_of_same ih (by omega) ha.2.2 hb.2.2 hc.2.2 h h')
  | props h =>
    cases hbc with simp only [size, sizeIndex] at hn
    | alike h' => exact .props (h.of_same ih (by omega) ha.2.2 hb.2.2 hc.2.2 h')
    | props h' => exact .props (h.trans ih (by omega) ha.2.2 hb.2.2 hc.2.2 h')
  | function hparams hresult =>
    cases hbc with
    | function hparams' hresult' =>
      simp only [size] at hn
      exact .function (hparams.trans ih (by omega) ha.1 hb.1 hc.1 hparams')
        (ih _ _ _ (by omega) ha.2 hb.2 hc.2 hresult hresult')

/-! ### Transitivity -/

/-- A union goes where the types go that it goes into. -/
theorem union_trans {n : Nat} (ih : TransitiveBelow n) {as : List Ty} {b c : Ty}
    (hn : (union as).size + b.size + c.size ≤ n) (ha : (union as).Core) (hb : b.Core) (hc : c.Core)
    (hab : (union as).isAssignableTo b = true) (hbc : b.isAssignableTo c = true) :
    (union as).isAssignableTo c = true := by
  simp only [size] at hn
  rcases same_or_of_union_assignable hb.isAny hab with hsame | hall
  · cases b with simp only [same, reduceCtorEq] at hsame
    | union bs =>
      simp only [size] at hn
      rcases same_or_of_union_assignable hc.isAny hbc with hsame' | hall'
      · exact assignable_of_same (same_trans (by simpa only [same] using hsame) hsame')
      · -- every member of the first is equal to one of the second
        refine union_assignable fun a hmem => ?_
        obtain ⟨b, hmem', hba⟩ := exists_same_of_mem (sameAll_comm as bs ▸ hsame) hmem
        have := size_le_sizeAll hmem
        have := size_le_sizeAll hmem'
        exact ih a b c (by omega) (ha.member hmem) (hb.member hmem') hc
          (assignable_of_same (same_symm hba)) (hall' b hmem')
  · refine union_assignable fun a hmem => ?_
    have := size_le_sizeAll hmem
    exact ih a b c (by omega) (ha.member hmem) hb hc (hall a hmem) hbc

/-- What goes into a union goes where the union goes. -/
theorem trans_union {n : Nat} (ih : TransitiveBelow n) {a c : Ty} {bs : List Ty}
    (hn : a.size + (union bs).size + c.size ≤ n) (ha : a.Core) (hb : (union bs).Core) (hc : c.Core)
    (hau : a.isUnion = false) (hab : a.isAssignableTo (union bs) = true)
    (hbc : (union bs).isAssignableTo c = true) : a.isAssignableTo c = true := by
  simp only [size] at hn
  obtain ⟨b, hmem, hinto⟩ := exists_of_assignable_union hau ha.isAny hab
  have := size_le_sizeAll hmem
  rcases same_or_of_union_assignable hc.isAny hbc with hsame | hall
  · cases c with simp only [same, reduceCtorEq] at hsame
    | union cs =>
      simp only [size] at hn
      obtain ⟨c, hmem', hcb⟩ := exists_same_of_mem (sameAll_comm bs cs ▸ hsame) hmem
      have := size_le_sizeAll hmem'
      refine assignable_union hau hmem' ?_
      exact ih a b c (by omega) ha (hb.member hmem) (hc.member hmem') hinto
        (assignable_of_same (same_symm hcb))
  · exact ih a b c (by omega) ha (hb.member hmem) hc hinto (hall b hmem)

/-- One step of the induction: unions are taken apart from the left, then rules compose. -/
theorem transitiveBelow_succ {n : Nat} (ih : TransitiveBelow n) : TransitiveBelow (n + 1) := by
  intro a b c hn ha hb hc hab hbc
  have hn := Nat.le_of_lt_succ hn
  cases hau : a.isUnion with
  | true =>
    cases a with
    | union as => exact union_trans ih hn ha hb hc hab hbc
    | _ => cases hau
  | false =>
    cases hbu : b.isUnion with
    | true =>
      cases b with
      | union bs => exact trans_union ih hn ha hb hc hau hab hbc
      | _ => cases hbu
    | false =>
      cases hcu : c.isUnion with
      | true =>
        cases c with
        | union cs =>
          simp only [size] at hn
          obtain ⟨c, hmem, hinto⟩ := exists_of_assignable_union hbu hb.isAny hbc
          have := size_le_sizeAll hmem
          exact assignable_union hau hmem
            (ih a b c (by omega) ha hb (hc.member hmem) hab hinto)
        | _ => cases hcu
      | false =>
        have hrule := coreRule_of_assignable ha hb hau hbu hab
        have hrule' := coreRule_of_assignable hb hc hbu hcu hbc
        exact (hrule.trans ih hn ha hb hc hrule').assignable

theorem transitiveBelow (n : Nat) : TransitiveBelow n := by
  induction n with
  | zero => exact fun a b c hn => absurd hn (Nat.not_lt_zero _)
  | succ n ih => exact transitiveBelow_succ ih

/-- Assignability is transitive on the core. -/
theorem isAssignableTo_trans {a b c : Ty} (ha : a.Core) (hb : b.Core) (hc : c.Core)
    (hab : a.isAssignableTo b = true) (hbc : b.isAssignableTo c = true) :
    a.isAssignableTo c = true :=
  transitiveBelow _ a b c (Nat.lt_succ_self _) ha hb hc hab hbc

/-- Three types of callbacks: each takes more arguments and asks for less than the one before. -/
def callback : Ty :=
  .fn [("x", .interface ⟨none, [⟨"p", .union [int, string], true⟩], []⟩)] (.literal (.int 1))

def callbackOfTwo : Ty :=
  .fn [("x", .interface ⟨none, [⟨"p", int, true⟩, ⟨"q", bool, false⟩], []⟩), ("y", string)] int

def callbackOfThree : Ty :=
  .fn [("x", .interface ⟨none, [⟨"q", bool, true⟩, ⟨"p", .literal (.int 5), true⟩], []⟩),
    ("y", .literal (.text "s")), ("z", .array (some bool))] (.union [float, int])

theorem isAssignableTo_trans_callbacks :
    callback.isAssignableTo callbackOfTwo = true ∧
      callbackOfTwo.isAssignableTo callbackOfThree = true ∧
      callback.isAssignableTo callbackOfThree = true := by
  have hfirst : callback.isAssignableTo callbackOfTwo = true := by decide +kernel
  have hsecond : callbackOfTwo.isAssignableTo callbackOfThree = true := by decide +kernel
  refine ⟨hfirst, hsecond, isAssignableTo_trans (b := callbackOfTwo) ?_ ?_ ?_ hfirst hsecond⟩
  · simp [callback, fn, Core, ParamsCore, PropsCore, AllCore, int, string, singular]
  · simp [callbackOfTwo, fn, Core, ParamsCore, PropsCore, int, string, bool, singular]
  · simp [callbackOfThree, fn, Core, ParamsCore, PropsCore, ElementCore, AllCore, int, float, bool,
      singular]

/-- Outside of the core it is not: everything goes through `any`. -/
example : int.isAssignableTo any = true ∧ any.isAssignableTo string = true ∧
    int.isAssignableTo string = false := by decide +kernel

end Ty

end ScriptCheck
