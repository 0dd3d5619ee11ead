import Mathlib.Data.List.Induction
import ScriptCheck.Ty.Basic

/-!
Equality of types as values. It is symmetric and transitive on all types, though not reflexive: a type
with NaN in it differs from itself. Interfaces that are equal have equal properties at the same names. Types
of a list that differ from each other are all distinct.
-/

namespace ScriptCheck

theorem Binary64.same_comm (a b : Binary64) : a.same b = b.same a := by
  cases a <;> cases b <;> simp only [same]
  case infinite.infinite p q => exact Bool.beq_comm
  case finite.finite p m e q n f =>
    rw [Bool.beq_comm (a := p), Bool.eq_iff_iff]
    simp only [Bool.and_eq_true, Bool.or_eq_true, beq_iff_eq]
    constructor <;> rintro ⟨⟨rfl, rfl⟩, h⟩ <;> exact ⟨⟨rfl, rfl⟩, h⟩

theorem Binary64.same_trans {a b c : Binary64} (hab : a.same b = true) (hbc : b.same c = true) :
    a.same c = true := by
  cases a <;> cases b <;> simp only [same, reduceCtorEq] at hab <;> cases c <;>
    simp only [same, reduceCtorEq, Bool.and_eq_true, Bool.or_eq_true, beq_iff_eq] at hab hbc ⊢
  case infinite.infinite.infinite => exact hab.trans hbc
  case finite.finite.finite =>
    obtain ⟨⟨rfl, rfl⟩, hsign⟩ := hab
    obtain ⟨⟨rfl, rfl⟩, hsign'⟩ := hbc
    -- zeros of either sign are equal, other numbers only with equal signs
    refine ⟨⟨rfl, rfl⟩, ?_⟩
    rcases hsign with rfl | hzero
    · exact hsign'
    · exact .inr hzero

theorem Literal.same_comm (a b : Literal) : a.same b = b.same a := by
  cases a <;> cases b <;> simp only [same] <;> first | exact Binary64.same_comm .. | exact Bool.beq_comm

theorem Literal.same_trans {a b c : Literal} (hab : a.same b = true) (hbc : b.same c = true) :
    a.same c = true := by
  cases a <;> cases b <;> simp only [same, reduceCtorEq, beq_iff_eq] at hab <;> cases c <;>
    simp only [same, reduceCtorEq, beq_iff_eq] at hbc ⊢
  case float.float.float => exact Binary64.same_trans hab hbc
  all_goals exact hab.trans hbc

/-- Literals that are equal are held by the same type. -/
theorem Literal.widenedName_of_same {a b : Literal} (h : a.same b = true) :
    a.widenedName = b.widenedName := by
  cases a <;> cases b <;> simp_all [same, widenedName]

namespace Ty

/-! ### Symmetry -/

mutual

theorem same_comm : ∀ a b : Ty, a.same b = b.same a
  | .named a as, b => by
    cases b with simp only [same]
    | named b bs => rw [sameAll_comm as bs, Bool.beq_comm]
  | .union as, b => by
    cases b with simp only [same]
    | union bs => exact sameAll_comm as bs
  | .array a, b => by
    cases b with simp only [same]
    | array b => exact sameOption_comm a b
  | .interface ⟨a, ps, is⟩, b => by
    cases b with simp only [same]
    | interface b => rw [sameProps_comm ps b.props, sameIndex_comm is b.index, Bool.beq_comm]
  | .function ⟨ps, a⟩, b => by
    cases b with simp only [same]
    | function b => rw [sameParams_comm ps b.params, same_comm a b.result]
  | .classType ⟨a, ms, xs, s⟩, b => by
    cases b with simp only [same]
    | classType b =>
      rw [sameMembers_comm ms b.members, sameAll_comm xs b.mixins, sameOption_comm s b.superclass,
        Bool.beq_comm]
  | .literal a, b => by
    cases b with simp only [same]
    | literal b => exact Literal.same_comm a b
  | .intersection as, b => by
    cases b with simp only [same]
    | intersection bs => exact sameAll_comm as bs
termination_by structural a => a

theorem sameAll_comm : ∀ as bs : List Ty, sameAll as bs = sameAll bs as
  | [], bs => by cases bs <;> simp only [sameAll]
  | a :: as, bs => by
    cases bs with simp only [sameAll]
    | cons b bs => rw [same_comm a b, sameAll_comm as bs]
termination_by structural as => as

theorem sameOption_comm : ∀ a b : Option Ty, sameOption a b = sameOption b a
  | none, b => by cases b <;> simp only [sameOption]
  | some a, b => by
    cases b with simp only [sameOption]
    | some b => exact same_comm a b
termination_by structural a => a

theorem sameProps_comm : ∀ ps qs : List (Property Ty), sameProps ps qs = sameProps qs ps
  | [], qs => by cases qs <;> simp only [sameProps]
  | ⟨n, a, v⟩ :: ps, qs => by
    cases qs with simp only [sameProps]
    | cons q qs =>
      rw [same_comm a q.type, sameProps_comm ps qs, Bool.beq_comm (a := n), Bool.beq_comm (a := v)]
termination_by structural ps => ps

theorem sameIndex_comm : ∀ is js : List (IndexKey × Ty), sameIndex is js = sameIndex js is
  | [], js => by cases js <;> simp only [sameIndex]
  | (k, a) :: is, js => by
    cases js with simp only [sameIndex]
    | cons j js => rw [same_comm a j.2, sameIndex_comm is js, Bool.beq_comm (a := k)]
termination_by structural is => is

theorem sameParams_comm : ∀ ps qs : List (String × Ty), sameParams ps qs = sameParams qs ps
  | [], qs => by cases qs <;> simp only [sameParams]
  | (n, a) :: ps, qs => by
    cases qs with simp only [sameParams]
    | cons q qs => rw [same_comm a q.2, sameParams_comm ps qs, Bool.beq_comm (a := n)]
termination_by structural ps => ps

theorem sameMembers_comm : ∀ ms ns : List (Member Ty), sameMembers ms ns = sameMembers ns ms
  | [], ns => by cases ns <;> simp only [sameMembers]
  | ⟨n, a, u, v⟩ :: ms, ns => by
    cases ns with simp only [sameMembers]
    | cons m ns =>
      rw [same_comm a m.type, sameMembers_comm ms ns, Bool.beq_comm (a := n), Bool.beq_comm (a := u),
        Bool.beq_comm (a := v)]
termination_by structural ms => ms

end

theorem same_symm {a b : Ty} (h : a.same b = true) : b.same a = true := by rwa [same_comm]

/-! ### Transitivity -/

mutual

theorem same_trans : ∀ {a b c : Ty}, a.same b = true → b.same c = true → a.same c = true
  | .named a as, b, c, hab, hbc => by
    cases b with simp only [same, reduceCtorEq, Bool.and_eq_true, beq_iff_eq] at hab
    | named b bs =>
      cases c with simp only [same, reduceCtorEq, Bool.and_eq_true, beq_iff_eq] at hbc ⊢
      | named c cs => exact ⟨hab.1.trans hbc.1, sameAll_trans hab.2 hbc.2⟩
  | .union as, b, c, hab, hbc => by
    cases b with simp only [same, reduceCtorEq] at hab
    | union bs =>
      cases c with simp only [same, reduceCtorEq] at hbc ⊢
      | union cs => exact sameAll_trans hab hbc
  | .array a, b, c, hab, hbc => by
    cases b with simp only [same, reduceCtorEq] at hab
    | array b =>
      cases c with simp only [same, reduceCtorEq] at hbc ⊢
      | array c => exact sameOption_trans hab hbc
  | .interface ⟨a, ps, is⟩, b, c, hab, hbc => by
    cases b with simp only [same, reduceCtorEq, Bool.and_eq_true, beq_iff_eq] at hab
    | interface b =>
      cases c with simp only [same, reduceCtorEq, Bool.and_eq_true, beq_iff_eq] at hbc ⊢
      | interface c =>
        exact ⟨⟨hab.1.1.trans hbc.1.1, sameProps_trans hab.1.2 hbc.1.2⟩, sameIndex_trans hab.2 hbc.2⟩
  | .function ⟨ps, a⟩, b, c, hab, hbc => by
    cases b with simp only [same, reduceCtorEq, Bool.and_eq_true] at hab
    | function b =>
      cases c with simp only [same, reduceCtorEq, Bool.and_eq_true] at hbc ⊢
      | function c => exact ⟨sameParams_trans hab.1 hbc.1, same_trans hab.2 hbc.2⟩
  | .classType ⟨a, ms, xs, s⟩, b, c, hab, hbc => by
    cases b with simp only [same, reduceCtorEq, Bool.and_eq_true, beq_iff_eq] at hab
    | classType b =>
      cases c with simp only [same, reduceCtorEq, Bool.and_eq_true, beq_iff_eq] at hbc ⊢
      | classType c =>
        obtain ⟨⟨⟨hname, hmembers⟩, hmixins⟩, hsuper⟩ := hab
        exact ⟨⟨⟨hname.trans hbc.1.1.1, sameMembers_trans hmembers hbc.1.1.2⟩,
          sameAll_trans hmixins hbc.1.2⟩, sameOption_trans hsuper hbc.2⟩
  | .literal a, b, c, hab, hbc => by
    cases b with simp only [same, reduceCtorEq] at hab
    | literal b =>
      cases c with simp only [same, reduceCtorEq] at hbc ⊢
      | literal c => exact Literal.same_trans hab hbc
  | .intersection as, b, c, hab, hbc => by
    cases b with simp only [same, reduceCtorEq] at hab
    | intersection bs =>
      cases c with simp only [same, reduceCtorEq] at hbc ⊢
      | intersection cs => exact sameAll_trans hab hbc
termination_by structural a => a

theorem sameAll_trans : ∀ {as bs cs : List Ty}, sameAll as bs = true → sameAll bs cs = true →
    sameAll as cs = true
  | [], bs, cs, hab, hbc => by
    cases bs with simp only [sameAll, reduceCtorEq] at hab
    | nil => exact hbc
  | a :: as, bs, cs, hab, hbc => by
    cases bs with simp only [sameAll, reduceCtorEq, Bool.and_eq_true] at hab
    | cons b bs =>
      cases cs with simp only [sameAll, reduceCtorEq, Bool.and_eq_true] at hbc ⊢
      | cons c cs => exact ⟨same_trans hab.1 hbc.1, sameAll_trans hab.2 hbc.2⟩
termination_by structural as => as

theorem sameOption_trans : ∀ {a b c : Option Ty}, sameOption a b = true → sameOption b c = true →
    sameOption a c = true
  | none, b, c, hab, hbc => by
    cases b with simp only [sameOption, reduceCtorEq] at hab
    | none => exact hbc
  | some a, b, c, hab, hbc => by
    cases b with simp only [sameOption, reduceCtorEq] at hab
    | some b =>
      cases c with simp only [sameOption, reduceCtorEq] at hbc ⊢
      | some c => exact same_trans hab hbc
termination_by structural a => a

theorem sameProps_trans : ∀ {ps qs rs : List (Property Ty)}, sameProps ps qs = true →
    sameProps qs rs = true → sameProps ps rs = true
  | [], qs, rs, hab, hbc => by
    cases qs with simp only [sameProps, reduceCtorEq] at hab
    | nil => exact hbc
  | ⟨n, a, v⟩ :: ps, qs, rs, hab, hbc => by
    cases qs with simp only [sameProps, reduceCtorEq, Bool.and_eq_true, beq_iff_eq] at hab
    | cons q qs =>
      cases rs with simp only [sameProps, reduceCtorEq, Bool.and_eq_true, beq_iff_eq] at hbc ⊢
      | cons r rs =>
        exact ⟨⟨⟨hab.1.1.1.trans hbc.1.1.1, same_trans hab.1.1.2 hbc.1.1.2⟩,
          hab.1.2.trans hbc.1.2⟩, sameProps_trans hab.2 hbc.2⟩
termination_by structural ps => ps

theorem sameIndex_trans : ∀ {is js ks : List (IndexKey × Ty)}, sameIndex is js = true →
    sameIndex js ks = true → sameIndex is ks = true
  | [], js, ks, hab, hbc => by
    cases js with simp only [sameIndex, reduceCtorEq] at hab
    | nil => exact hbc
  | (i, a) :: is, js, ks, hab, hbc => by
    cases js with simp only [sameIndex, reduceCtorEq, Bool.and_eq_true, beq_iff_eq] at hab
    | cons j js =>
      cases ks with simp only [sameIndex, reduceCtorEq, Bool.and_eq_true, beq_iff_eq] at hbc ⊢
      | cons k ks =>
        exact ⟨⟨hab.1.1.trans hbc.1.1, same_trans hab.1.2 hbc.1.2⟩, sameIndex_trans hab.2 hbc.2⟩
termination_by structural is => is

theorem sameParams_trans : ∀ {ps qs rs : List (String × Ty)}, sameParams ps qs = true →
    sameParams qs rs = true → sameParams ps rs = true
  | [], qs, rs, hab, hbc => by
    cases qs with simp only [sameParams, reduceCtorEq] at hab
    | nil => exact hbc
  | (n, a) :: ps, qs, rs, hab, hbc => by
    cases qs with simp only [sameParams, reduceCtorEq, Bool.and_eq_true, beq_iff_eq] at hab
    | cons q qs =>
      cases rs with simp only [sameParams, reduceCtorEq, Bool.and_eq_true, beq_iff_eq] at hbc ⊢
      | cons r rs =>
        exact ⟨⟨hab.1.1.trans hbc.1.1, same_trans hab.1.2 hbc.1.2⟩, sameParams_trans hab.2 hbc.2⟩
termination_by structural ps => ps

theorem sameMembers_trans : ∀ {ms ns os : List (Member Ty)}, sameMembers ms ns = true →
    sameMembers ns os = true → sameMembers ms os = true
  | [], ns, os, hab, hbc => by
    cases ns with simp only [sameMembers, reduceCtorEq] at hab
    | nil => exact hbc
  | ⟨n, a, u, v⟩ :: ms, ns, os, hab, hbc => by
    cases ns with simp only [sameMembers, reduceCtorEq, Bool.and_eq_true, beq_iff_eq] at hab
    | cons m ns =>
      cases os with simp only [sameMembers, reduceCtorEq, Bool.and_eq_true, beq_iff_eq] at hbc ⊢
      | cons o os =>
        obtain ⟨⟨⟨⟨hname, htype⟩, hmodifiers⟩, hwritable⟩, hrest⟩ := hab
        exact ⟨⟨⟨⟨hname.trans hbc.1.1.1.1, same_trans htype hbc.1.1.1.2⟩,
          hmodifiers.trans hbc.1.1.2⟩, hwritable.trans hbc.1.2⟩, sameMembers_trans hrest hbc.2⟩
termination_by structural ms => ms

end

/-! ### Parts of equal types -/

/-- Equal lists of types are equal member by member. -/
theorem exists_same_of_mem {as bs : List Ty} (h : sameAll as bs = true) {b : Ty} (hb : b ∈ bs) :
    ∃ a ∈ as, a.same b = true := by
  induction bs generalizing as with
  | nil => cases hb
  | cons b' bs ih =>
    cases as with simp only [sameAll, reduceCtorEq, Bool.and_eq_true] at h
    | cons a as =>
      rcases List.mem_cons.1 hb with rfl | hb
      · exact ⟨a, List.mem_cons_self, h.1⟩
      · obtain ⟨a', ha', hsame⟩ := ih h.2 hb
        exact ⟨a', List.mem_cons_of_mem _ ha', hsame⟩

/-- Equal properties stand at the same names. -/
theorem exists_same_of_mem_props {ps qs : List (Property Ty)} (h : sameProps ps qs = true)
    {q : Property Ty} (hq : q ∈ qs) : ∃ p ∈ ps, p.name = q.name ∧ p.type.same q.type = true := by
  induction qs generalizing ps with
  | nil => cases hq
  | cons q' qs ih =>
    cases ps with simp only [sameProps, reduceCtorEq, Bool.and_eq_true, beq_iff_eq] at h
    | cons p ps =>
      rcases List.mem_cons.1 hq with rfl | hq
      · exact ⟨p, List.mem_cons_self, h.1.1⟩
      · obtain ⟨p', hp', hsame⟩ := ih h.2 hq
        exact ⟨p', List.mem_cons_of_mem _ hp', hsame⟩

/-- The first property of a name is the first in equal properties too. -/
theorem find?_of_sameProps {ps qs : List (Property Ty)} (h : sameProps ps qs = true) {name : String}
    {q : Property Ty} (hq : qs.find? (·.name == name) = some q) :
    ∃ p, ps.find? (·.name == name) = some p ∧ p.type.same q.type = true := by
  induction qs generalizing ps with
  | nil => cases hq
  | cons q' qs ih =>
    cases ps with simp only [sameProps, reduceCtorEq, Bool.and_eq_true, beq_iff_eq] at h
    | cons p ps =>
      obtain ⟨⟨⟨hname, htype⟩, -⟩, hrest⟩ := h
      rw [List.find?_cons, ← hname] at hq
      rw [List.find?_cons]
      by_cases hfound : (p.name == name) = true
      · rw [hfound] at hq ⊢
        cases hq
        exact ⟨p, rfl, htype⟩
      · rw [Bool.not_eq_true] at hfound
        rw [hfound] at hq ⊢
        exact ih hrest hq

/-! ### Repetitions -/

theorem distinct_append (ts us : List Ty) : distinct (ts ++ us) = us.foldl addDistinct (distinct ts) :=
  List.foldl_append

theorem distinct_append_singleton (ts : List Ty) (t : Ty) :
    distinct (ts ++ [t]) = addDistinct (distinct ts) t := distinct_append ts [t]

/-- Types that differ from each other are all kept. -/
theorem distinct_of_pairwise {ts : List Ty} (h : ts.Pairwise fun a b => a.same b = false) :
    distinct ts = ts := by
  induction ts using List.reverseRecOn with
  | nil => rfl
  | append_singleton ts t ih =>
    obtain ⟨hts, -, hnew⟩ := List.pairwise_append.1 h
    rw [distinct_append_singleton, ih hts]
    refine if_neg fun hany => ?_
    obtain ⟨u, hu, hut⟩ := List.any_eq_true.1 hany
    rw [hnew u hu t List.mem_cons_self] at hut
    cases hut

end Ty

end ScriptCheck
