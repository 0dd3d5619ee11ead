import ScriptCheck.Proofs.Anchor.Trees
import ScriptCheck.Proofs.Contract.FirstViolation

/-!
Violations point into the tree. A rule is reported where the part it belongs to starts, or one of the
parts that this is made of, so that a bound tree that is anchored in a set of places has its contracts
violated at these places only.
-/

namespace ScriptCheck

variable {P : Position → Prop}

/-- Everything in a part starts at one of the places. -/
def Part.Anchored (P : Position → Prop) : Part → Prop
  | .expr e => e.Anchored P
  | .field f => f.Anchored P
  | .stmt _ s => s.Anchored P

section

variable {p : Part}

theorem anchored_of_mem_exprs {es : List BoundExpr} (h : BoundExpr.AllAnchored P es)
    (hp : p ∈ es.map .expr) : p.Anchored P := by
  obtain ⟨e, he, rfl⟩ := List.mem_map.1 hp
  exact BoundExpr.allAnchored_iff.1 h e he

theorem anchored_of_mem_value {value : Option BoundExpr} (h : ∀ e ∈ value, e.Anchored P)
    (hp : p ∈ value.toList.map .expr) : p.Anchored P := by
  obtain ⟨e, he, rfl⟩ := List.mem_map.1 hp
  exact h e (Option.mem_toList.1 he)

theorem anchored_of_mem_stmts {expected : Option Ty} {ss : List BoundStmt}
    (h : BoundStmt.AllAnchored P ss) (hp : p ∈ ss.map (.stmt expected)) : p.Anchored P := by
  obtain ⟨s, hs, rfl⟩ := List.mem_map.1 hp
  exact BoundStmt.allAnchored_iff.1 h s hs

theorem BoundKey.parts_at : ∀ {k : BoundKey BoundExpr}, BoundExpr.KeyAnchored P k → p ∈ k.parts →
    p.Anchored P
  | .name _, _, hp => nomatch hp
  | .computed e, h, hp => by
    obtain rfl : p = .expr e := by simpa [BoundKey.parts] using hp
    exact h

theorem BoundFn.parts_at : ∀ {f : BoundFn BoundStmt}, BoundStmt.FnAnchored P f → p ∈ f.parts →
    p.Anchored P
  | ⟨_, _, _⟩, h, hp => anchored_of_mem_stmts h hp

theorem BoundExpr.parts_at {e : BoundExpr} (h : e.Anchored P) (hp : p ∈ e.parts) :
    p.Anchored P := by
  cases e with simp only [parts, List.mem_cons, List.not_mem_nil, or_false] at hp
  | array _ _ | construct _ _ _ => exact anchored_of_mem_exprs h.2 hp
  | object _ entries =>
    obtain ⟨entry, hentry, hp⟩ := List.mem_flatMap.1 hp
    obtain ⟨hkey, hvalue⟩ := entriesAnchored_iff.1 h.2 entry hentry
    rcases List.mem_append.1 hp with hp | hp
    · exact BoundKey.parts_at hkey hp
    · obtain rfl : p = .expr entry.value := by simpa using hp
      exact hvalue
  | binary _ _ _ _ | assign _ _ _ _ =>
    rcases hp with rfl | rfl
    · exact h.2.1
    · exact h.2.2
  | unary _ _ _ =>
    subst hp
    exact h.2
  | access _ _ _ _ =>
    rcases hp with rfl | hp
    · exact h.2.1
    · exact BoundKey.parts_at h.2.2 hp
  | call _ _ _ =>
    rcases hp with rfl | hp
    · exact h.2.1
    · exact anchored_of_mem_exprs h.2.2 hp

theorem BoundStmt.parts_at {expected : Option Ty} {s : BoundStmt} (h : s.Anchored P)
    (hp : p ∈ s.parts expected) : p.Anchored P := by
  cases s with simp only [parts, List.mem_cons, List.not_mem_nil, or_false] at hp
  | expr _ _ =>
    subst hp
    exact h.2
  | block _ _ => exact anchored_of_mem_stmts h.2 hp
  | varDecl _ _ _ _ _ | ret _ _ => exact anchored_of_mem_value h.2 hp
  | ifElse _ _ _ onFalse =>
    rcases hp with rfl | rfl | hp
    · exact h.2.1
    · exact h.2.2.1
    · obtain ⟨s, hs, rfl⟩ := List.mem_map.1 hp
      obtain rfl := Option.mem_toList.1 hs
      exact h.2.2.2
  | whileLoop _ _ _ =>
    rcases hp with rfl | rfl
    · exact h.2.1
    · exact h.2.2
  | forIn _ _ _ _ _ =>
    rcases hp with rfl | hp
    · exact h.2.1
    · exact anchored_of_mem_stmts h.2.2 hp
  | fnDecl _ _ => exact BoundFn.parts_at h.2 hp
  | classDecl _ _ _ _ =>
    rcases List.mem_append.1 hp with hp | hp
    · obtain ⟨f, hf, rfl⟩ := List.mem_map.1 hp
      exact h.2.1 f hf
    · obtain ⟨f, hf, hp⟩ := List.mem_flatMap.1 hp
      exact BoundFn.parts_at (fnsAnchored_iff.1 h.2.2 f hf) hp

variable {r : Rule}

theorem argumentRules_at {params : List (String × Ty)} {args : List BoundExpr} {place : Position}
    (h : P place) (hargs : BoundExpr.AllAnchored P args) (hr : r ∈ argumentRules params args place) :
    P r.report.position := by
  rcases List.mem_cons.1 hr with rfl | hr
  · simp only [Rule.report]
    split <;> exact h
  · obtain ⟨i, hi, rfl⟩ := List.mem_iff_getElem.1 hr
    simp only [List.getElem_zipWith]
    exact (BoundExpr.allAnchored_iff.1 hargs _ (List.getElem_mem _)).start

theorem initializerRules_at {type : Ty} {cause : String → String → Cause} {value : Option BoundExpr}
    (h : ∀ e ∈ value, e.Anchored P) (hr : r ∈ initializerRules type cause value) :
    P r.report.position := by
  obtain ⟨e, he, rfl⟩ := List.mem_map.1 hr
  exact (h e (Option.mem_toList.1 he)).start

theorem BoundExpr.rules_at {e : BoundExpr} (h : e.Anchored P) (hr : r ∈ e.rules) :
    P r.report.position := by
  unfold rules at hr
  split at hr
  · rcases List.mem_cons.1 hr with rfl | hr
    · exact h.2.1.start
    · split at hr
      · obtain rfl := List.mem_singleton.1 hr
        exact h.1
      · exact nomatch hr
  · obtain rfl := List.mem_singleton.1 hr
    exact h.1
  · obtain rfl := List.mem_singleton.1 hr
    exact h.2.2.start
  · rcases List.mem_cons.1 hr with rfl | hr
    · exact h.2.1.start
    · obtain rfl := List.mem_singleton.1 hr
      exact h.1
  · split at hr
    · obtain rfl := List.mem_singleton.1 hr
      exact Anchored.start h.2.2
    · exact nomatch hr
  · split at hr
    · exact argumentRules_at h.1 h.2.2 hr
    · exact nomatch hr
  · split at hr
    · exact argumentRules_at h.1 h.2 hr
    · exact argumentRules_at h.1 h.2 hr
  · exact nomatch hr

theorem BoundStmt.rules_at {expected : Option Ty} {s : BoundStmt} (h : s.Anchored P)
    (hr : r ∈ s.rules expected) : P r.report.position := by
  unfold rules at hr
  split at hr
  · exact initializerRules_at h.2 hr
  · obtain ⟨t, -, rfl⟩ := List.mem_map.1 hr
    exact (h.2 _ rfl).start
  · obtain ⟨t, -, rfl⟩ := List.mem_map.1 hr
    exact h.1
  · exact nomatch hr

theorem Part.parts_at (h : p.Anchored P) : ∀ q ∈ p.parts, q.Anchored P := by
  intro q hq
  cases p with
  | expr e => exact BoundExpr.parts_at h hq
  | field f => exact anchored_of_mem_value h hq
  | stmt expected s => exact BoundStmt.parts_at h hq

theorem Part.rules_at (h : p.Anchored P) (hr : r ∈ p.rules) : P r.report.position := by
  cases p with
  | expr e => exact BoundExpr.rules_at h hr
  | field f => exact initializerRules_at h hr
  | stmt expected s => exact BoundStmt.rules_at h hr

theorem Occurs.anchored {among : List Part} (h : ∀ p ∈ among, p.Anchored P) (hp : Occurs among p) :
    p.Anchored P := by
  induction hp with
  | top hp => exact h _ hp
  | inside _ hq ih => exact Part.parts_at ih _ hq

end

/-- A violated contract is reported where something in the program starts. -/
theorem checkContracts_at {statements : List BoundStmt} (h : BoundStmt.AllAnchored P statements)
    {d : Diagnostic} (hd : checkContracts statements = .error d) : P d.position := by
  rw [checkContracts_eq] at hd
  obtain ⟨before, r, after, hrules, -, -, rfl⟩ := forM_check_eq_error.1 hd
  have hr : r ∈ programRules statements := by
    rw [hrules]
    exact List.mem_append_right _ (List.mem_cons_self ..)
  obtain ⟨p, hp, hr⟩ := List.mem_flatMap.1 hr
  exact Part.rules_at (Occurs.anchored (fun _ => anchored_of_mem_stmts h)
    (Part.mem_postorder_iff.1 hp)) hr

end ScriptCheck
