import ScriptCheck.Proofs.Ty.Leading

/-!
References and what they stand for. A union and an intersection are read in the same way: members are
collected behind a first one, and what has been read so far has the members so far. Lists of references
stand for lists of types part by part.
-/

namespace ScriptCheck

open Parse

namespace TypeRef

/-! ### Lists of references -/

/-- What a property stands for where nothing has been declared. -/
def PropertyDenotedBy (p : Property Ty) (r : PropertyRef TypeRef) : Prop :=
  r.name = p.name ∧ r.writable = p.writable ∧ DenotedBy p.type r.type

/-- The same for an index signature. -/
def IndexDenotedBy (i : IndexKey × Ty) (r : IndexRef TypeRef) : Prop :=
  r.key = i.1.display ∧ DenotedBy i.2 r.type

/-- The same for a parameter. -/
def ParamDenotedBy (p : String × Ty) (r : ParamRef TypeRef) : Prop :=
  r.name = p.1 ∧ DenotedBy p.2 r.type

theorem allToTy_of_denotedBy {rs : List TypeRef} {ts : List Ty} (h : List.Forall₂ DenotedBy ts rs) :
    allToTy .intrinsic rs = .ok ts := by
  induction h with
  | nil => rfl
  | cons hr _ ih =>
    rw [allToTy, hr, ih]
    rfl

theorem propsToTy_of_denotedBy {rs : List (PropertyRef TypeRef)} {ps : List (Property Ty)}
    (h : List.Forall₂ PropertyDenotedBy ps rs) : propsToTy .intrinsic rs = .ok ps := by
  induction h with
  | nil => rfl
  | @cons p r _ _ hr _ ih =>
    obtain ⟨name, type, writable⟩ := r
    obtain ⟨rfl, rfl, htype⟩ := hr
    rw [propsToTy, htype, ih]
    rfl

theorem indexToTy_of_denotedBy {rs : List (IndexRef TypeRef)} {is : List (IndexKey × Ty)}
    (h : List.Forall₂ IndexDenotedBy is rs) : indexToTy .intrinsic rs = .ok is := by
  induction h with
  | nil => rfl
  | @cons i r _ _ hr _ ih =>
    obtain ⟨key, span, type⟩ := r
    obtain ⟨k, t⟩ := i
    obtain ⟨rfl, htype⟩ := hr
    have hkey : IndexKey.read k.display span = .ok k := by cases k <;> rfl
    rw [indexToTy, hkey, htype, ih]
    rfl

theorem paramsToTy_of_denotedBy {rs : List (ParamRef TypeRef)} {ps : List (String × Ty)}
    (h : List.Forall₂ ParamDenotedBy ps rs) : paramsToTy .intrinsic rs = .ok ps := by
  induction h with
  | nil => rfl
  | @cons p r _ _ hr _ ih =>
    obtain ⟨name, type⟩ := r
    obtain ⟨rfl, htype⟩ := hr
    rw [paramsToTy, htype, ih]
    rfl

/-! ### Members -/

theorem Compound.members_join (k : Compound) (left right : TypeRef) :
    k.members (k.join left right) = k.members left ++ [right] := by
  cases k <;> rfl

/-- What has several members of a kind is a type of this kind. -/
theorem Compound.exists_make {k : Compound} {r : TypeRef} (h : 2 ≤ (k.members r).length) :
    ∃ span, r = k.make (k.members r) span := by
  unfold members at h ⊢
  split at h
  · exact ⟨_, rfl⟩
  · exact ⟨_, rfl⟩
  · exact absurd h (by decide : ¬2 ≤ 1)

/-- How members are joined: the mark between them, what is made of a reference and a member behind it,
and what a reference with members stands for. -/
structure Joint where
  mark : Lexeme
  power : Power
  compound : Compound
  combine : List Ty → Ty
  power?_mark : power? mark.1 = some power
  mark_ne : mark.1 ≠ .openBracket ∧ mark.1 ≠ .less
  parseOperator_mark : ∀ (self : Power → Parse TypeRef) (left : TypeRef) (s : TokenStream),
    s.kind = mark.1 → parseOperator self left power s =
      (do discard advance; return compound.join left (← self power) : Parse TypeRef) s
  combine_make : ∀ {rs : List TypeRef} {ts : List Ty} (span : Span), List.Forall₂ DenotedBy ts rs →
    DenotedBy (combine ts) (compound.make rs span)

/-- Unions. -/
def Joint.union : Joint where
  mark := (.pipe, "|")
  power := .logical
  compound := .union
  combine := .unionOf
  power?_mark := rfl
  mark_ne := by decide
  parseOperator_mark self left s hs := by rw [parseOperator, bind_of_ok (kind_run s), hs]
  combine_make {rs ts} span h := by
    rw [DenotedBy, Compound.make, toTy, allToTy_of_denotedBy h]
    rfl

/-- Intersections. -/
def Joint.intersection : Joint where
  mark := (.ampersand, "&")
  power := .relational
  compound := .intersection
  combine := .intersectionOf
  power?_mark := rfl
  mark_ne := by decide
  parseOperator_mark self left s hs := by rw [parseOperator, bind_of_ok (kind_run s), hs]
  combine_make {rs ts} span h := by
    rw [DenotedBy, Compound.make, toTy, allToTy_of_denotedBy h]
    rfl

namespace Joint

variable (c : Joint) {fuel : Nat} {p : Power} {s : TokenStream} {next : Token}
  {us rest : List Token} {done members : List Ty}

/-- A type that can be a member: it is read as a whole behind the mark, and the mark behind it belongs
to what stands before. -/
structure Joins (t : Ty) : Prop where
  renders : t.Renders
  reach : c.power.rank < t.reach
  edge : c.power.rank ≤ t.edge
  refs : ∀ r, Means t r → c.compound.members r = [r]

theorem bounded_mark {t : Token} (h : t.kind = c.mark.1) : Bounded c.power.rank t := by
  refine ⟨h ▸ c.mark_ne.2, fun q hq => ?_⟩
  rw [h, c.power?_mark] at hq
  cases hq
  exact Nat.le_refl _

/-- Behind a member stands the mark of the one after it, or what is behind all of them. -/
theorem exists_behind (hus : us.map Token.lexeme = (Ty.allLexemes members).flatMap (c.mark :: ·))
    (hnext : Bounded c.power.rank next) (rest : List Token) :
    ∃ next' rest', us ++ next :: rest = next' :: rest' ∧ Bounded c.power.rank next' := by
  cases members with
  | nil =>
    obtain rfl := List.map_eq_nil_iff.1 hus
    exact ⟨next, rest, rfl, hnext⟩
  | cons _ _ =>
    obtain ⟨mark, us, rfl, hmark, -, -⟩ := Expr.map_lexeme_cons hus
    exact ⟨mark, us ++ next :: rest, rfl, c.bounded_mark hmark⟩

/-- A member behind a reference is read together with its mark. -/
theorem parseOperator_member {m : Ty} {ms : List Token} {mark : Token} {left : TypeRef}
    (hm : c.Joins m) (hms : ms.map Token.lexeme = m.lexemes) (hlen : ms.length < fuel)
    (hmark : mark.kind = c.mark.1) (hs : s.tokens = mark :: (ms ++ next :: rest))
    (hnext : Bounded c.power.rank next) (hleft : List.Forall₂ DenotedBy done (c.compound.members left)) :
    ∃ r s', parseOperator (parseWithin fuel) left c.power s = .ok r s' ∧
      List.Forall₂ DenotedBy (done ++ [m]) (c.compound.members r) ∧ s'.tokens = next :: rest := by
  obtain ⟨fuel, rfl⟩ : ∃ k, fuel = k + 1 := ⟨fuel - 1, by omega⟩
  have hs₁ : s.next.tokens = ms ++ next :: rest := TokenStream.tokens_next hs (by simp)
  have hlead := hm.renders hms (Nat.le_of_lt_succ hlen) hm.reach hs₁ (hnext.mono hm.edge)
  obtain ⟨right, s₂, hrun, hright, hs₂⟩ := hlead.ends hnext
  refine ⟨c.compound.join left right, s₂, ?_, ?_, hs₂⟩
  · rw [c.parseOperator_mark _ _ _ (by rw [TokenStream.kind_of_tokens hs, hmark]),
      bind_of_ok (discard_of_ok (advance_run s)), bind_of_ok hrun]
    rfl
  · rw [c.compound.members_join]
    exact List.rel_append hleft (.cons hright.toTy .nil)

/-- Members behind a reference are collected one after the other. -/
theorem leads_members (hmembers : ∀ m ∈ members, c.Joins m) (hp : p.rank < c.power.rank)
    (hus : us.map Token.lexeme = (Ty.allLexemes members).flatMap (c.mark :: ·))
    (hlen : us.length ≤ fuel) (hnext : Bounded c.power.rank next)
    (h : Leads fuel p s (fun r => List.Forall₂ DenotedBy done (c.compound.members r)) (us ++ next :: rest)) :
    Leads fuel p s (fun r => List.Forall₂ DenotedBy (done ++ members) (c.compound.members r)) (next :: rest) := by
  induction members generalizing us done with
  | nil =>
    obtain rfl := List.map_eq_nil_iff.1 hus
    rw [List.append_nil]
    exact h
  | cons m members ih =>
    obtain ⟨hm, hmembers⟩ := List.forall_mem_cons.1 hmembers
    obtain ⟨mark, ts, rfl, hmark, -, hts⟩ := Expr.map_lexeme_cons hus
    obtain ⟨ms, more, rfl, hms, hmore⟩ := List.map_eq_append_iff.1 hts
    simp only [List.length_cons, List.length_append] at hlen
    obtain ⟨next', rest', heq, hnext'⟩ := c.exists_behind hmore hnext rest
    have hstep : Leads fuel p s (fun r => List.Forall₂ DenotedBy (done ++ [m]) (c.compound.members r))
        (more ++ next :: rest) := by
      rw [List.cons_append, List.append_assoc] at h
      refine h.operator (by rw [hmark, c.power?_mark]) (hmark ▸ c.mark_ne.1) hp (by simp) ?_
      intro left s₁ hleft hs₁
      rw [heq] at hs₁ ⊢
      exact c.parseOperator_member hm hms (by omega) hmark hs₁ hnext' hleft
    have hall := ih hmembers hmore (by omega) hstep
    rwa [List.append_assoc, List.singleton_append] at hall

/-- Members with the mark between them lead to a reference with these members. -/
theorem leads (hmembers : ∀ m ∈ members, c.Joins m) (hne : members ≠ [])
    (hus : us.map Token.lexeme = separatedBy c.mark (Ty.allLexemes members))
    (hlen : us.length ≤ fuel) (hp : p.rank < c.power.rank) (hs : s.tokens = us ++ next :: rest)
    (hnext : Bounded c.power.rank next) :
    Leads fuel p s (fun r => List.Forall₂ DenotedBy members (c.compound.members r)) (next :: rest) := by
  rcases members with _ | ⟨m, members⟩
  · exact absurd rfl hne
  · obtain ⟨hm, hmembers⟩ := List.forall_mem_cons.1 hmembers
    obtain ⟨ms, more, rfl, hms, hmore⟩ := List.map_eq_append_iff.1 hus
    simp only [List.length_append] at hlen
    obtain ⟨next', rest', heq, hnext'⟩ := c.exists_behind hmore hnext rest
    rw [List.append_assoc, heq] at hs
    have hfirst : Leads fuel p s (fun r => List.Forall₂ DenotedBy [m] (c.compound.members r))
        (more ++ next :: rest) := by
      rw [heq]
      refine (hm.renders hms (by omega) (Nat.lt_trans hp hm.reach) hs (hnext'.mono hm.edge)).imp ?_
      intro r hr
      rw [hm.refs r hr]
      exact .cons hr.toTy .nil
    exact c.leads_members hmembers hp hmore (by omega) hnext hfirst

/-- A reference with several members stands for what these are combined to. -/
theorem combine_members {r : TypeRef} (h : List.Forall₂ DenotedBy members (c.compound.members r))
    (hlength : 2 ≤ members.length) : DenotedBy (c.combine members) r := by
  obtain ⟨span, hr⟩ := Compound.exists_make (h.length_eq ▸ hlength)
  rw [hr]
  exact c.combine_make span h

end Joint

/-- What is written with several members of an intersection is no union. -/
theorem unionMembers_of_intersection {r : TypeRef} (h : 2 ≤ (Compound.intersection.members r).length) :
    Compound.union.members r = [r] := by
  obtain ⟨span, hr⟩ := Compound.exists_make h
  rw [hr]
  rfl

end TypeRef

namespace Ty

open TypeRef

theorem renders_union {members : List Ty} (h : (union members).Printable)
    (hmembers : ∀ m ∈ members, m.Renders) : (union members).Renders := by
  have hjoins : ∀ m ∈ members, Joint.union.Joins m := by
    intro m hm
    obtain ⟨hunion, hfunction⟩ := h.2.2.2 m hm
    refine ⟨hmembers m hm, ?_, ?_, fun r hr => hr.union hunion⟩
    · cases m <;> simp_all [isUnion, reach, Joint.union, Power.rank]
    · cases m <;> simp_all [isUnion, isFunction, edge, Joint.union, Power.rank]
  intro fuel p ts rest next s hts hlen hp hs hnext
  refine (Joint.union.leads hjoins ?_ hts hlen hp hs hnext).imp ?_
  · rintro rfl
    cases h.1
  · intro r hr
    refine ⟨?_, by rintro ⟨⟩, by rintro ⟨⟩⟩
    rw [← unionOf_of_printable h]
    exact Joint.union.combine_members hr h.1

theorem renders_intersection {members : List Ty} (h : (intersection members).Printable)
    (hmembers : ∀ m ∈ members, m.Renders) : (intersection members).Renders := by
  have hjoins : ∀ m ∈ members, Joint.intersection.Joins m := by
    intro m hm
    obtain ⟨hintersection, hunion, hfunction⟩ := h.2.2.2 m hm
    refine ⟨hmembers m hm, ?_, ?_, fun r hr => hr.intersection hunion hintersection⟩
    · cases m <;> simp_all [isUnion, isIntersection, reach, Joint.intersection, Power.rank]
    · cases m <;> simp_all [isUnion, isFunction, edge, Joint.intersection, Power.rank]
  intro fuel p ts rest next s hts hlen hp hs hnext
  refine (Joint.intersection.leads hjoins ?_ hts hlen hp hs hnext).imp ?_
  · rintro rfl
    cases h.1
  · intro r hr
    refine ⟨?_, fun _ => unionMembers_of_intersection ?_, by rintro - ⟨⟩⟩
    · rw [← intersectionOf_of_printable h]
      exact Joint.intersection.combine_members hr h.1
    · have hlength : members.length = (Compound.intersection.members r).length := hr.length_eq
      rw [← hlength]
      exact h.1

end Ty

end ScriptCheck
