import Mathlib.Data.List.Nodup
import ScriptCheck.Proofs.Coupling
import ScriptCheck.Proofs.Ids
import ScriptCheck.Resolution

/-!
What a resolution that succeeds leaves behind. An expression changes nothing but distances: under the
id of each of its reads stands the distance at which its name was found. A statement closes every scope
that it opens, and writes no distance but those of its own reads.
-/

namespace ScriptCheck

namespace Resolver

variable {r r₁ r' : Resolver} {xs ys : List (Nat × String)}

/-- The reads were found in the scopes, and their distances noted. -/
structure Finds (r r' : Resolver) (reads : List (Nat × String)) : Prop where
  same : r' = { r with distances := r'.distances }
  noted : ∀ i ∈ reads.map Prod.fst, ∃ name d, (i, name) ∈ reads ∧
    r.scopes.lookup name = some (d, true) ∧ r'.distances.get? i = some d
  others : ∀ i ∉ reads.map Prod.fst, r'.distances.get? i = r.distances.get? i

namespace Finds

theorem refl (r : Resolver) : Finds r r [] := ⟨rfl, nofun, fun _ _ => rfl⟩

theorem scopes_eq (h : Finds r r' xs) : r'.scopes = r.scopes := by
  rw [h.same]

theorem append (h : Finds r r₁ xs) (h' : Finds r₁ r' ys) : Finds r r' (xs ++ ys) := by
  refine ⟨?_, fun i hi => ?_, fun i hi => ?_⟩
  · rw [h'.same, h.same]
  · by_cases hy : i ∈ ys.map Prod.fst
    · obtain ⟨name, d, hmem, hfound, hd⟩ := h'.noted i hy
      rw [h.scopes_eq] at hfound
      exact ⟨name, d, List.mem_append_right _ hmem, hfound, hd⟩
    · rw [List.map_append, List.mem_append] at hi
      obtain ⟨name, d, hmem, hfound, hd⟩ := h.noted i (hi.resolve_right hy)
      refine ⟨name, d, List.mem_append_left _ hmem, hfound, ?_⟩
      rw [h'.others i hy, hd]
  · rw [List.map_append, List.mem_append, not_or] at hi
    rw [h'.others i hi.2, h.others i hi.1]

/-- The order of the reads does not matter. -/
theorem of_perm (h : Finds r r' xs) (hp : xs.Perm ys) : Finds r r' ys := by
  refine ⟨h.same, fun i hi => ?_, fun i hi => ?_⟩
  · obtain ⟨name, d, hmem, hfound⟩ := h.noted i ((hp.map Prod.fst).mem_iff.2 hi)
    exact ⟨name, d, hp.mem_iff.1 hmem, hfound⟩
  · exact h.others i fun hx => hi ((hp.map Prod.fst).mem_iff.1 hx)

/-- If no two reads share an id, each has the distance of its own name. -/
theorem distance (h : Finds r r' xs) (hnodup : (xs.map Prod.fst).Nodup) {x : Nat × String}
    (hx : x ∈ xs) :
    ∃ d, r.scopes.lookup x.2 = some (d, true) ∧ r'.distances.get? x.1 = some d := by
  obtain ⟨name, d, hmem, hfound, hd⟩ := h.noted x.1 (List.mem_map_of_mem hx)
  have hname : (x.1, name) = x := List.inj_on_of_nodup_map hnodup hmem hx rfl
  exact ⟨d, congrArg Prod.snd hname ▸ hfound, hd⟩

end Finds

/-- The scopes that were open are open again, and only distances of the reads were written. -/
structure Keeps (r r' : Resolver) (reads : List (Nat × String)) : Prop where
  outer : r'.scopes.scopes.tail = r.scopes.scopes.tail
  functionDepth : r'.functionDepth = r.functionDepth
  loopDepth : r'.loopDepth = r.loopDepth
  classDepth : r'.classDepth = r.classDepth
  others : ∀ i ∉ reads.map Prod.fst, r'.distances.get? i = r.distances.get? i

namespace Keeps

theorem refl (r : Resolver) : Keeps r r [] := ⟨rfl, rfl, rfl, rfl, fun _ _ => rfl⟩

theorem append (h : Keeps r r₁ xs) (h' : Keeps r₁ r' ys) : Keeps r r' (xs ++ ys) := by
  refine ⟨h'.outer.trans h.outer, h'.functionDepth.trans h.functionDepth,
    h'.loopDepth.trans h.loopDepth, h'.classDepth.trans h.classDepth, fun i hi => ?_⟩
  rw [List.map_append, List.mem_append, not_or] at hi
  rw [h'.others i hi.2, h.others i hi.1]

theorem define (r : Resolver) (name : String) : Keeps r (r.define name) [] :=
  ⟨ScopeStack.scopes_tail_insert .., rfl, rfl, rfl, fun _ _ => rfl⟩

theorem defined {name : String} (h : Keeps (r.define name) r' xs) : Keeps r r' xs :=
  (define r name).append h

/-- Closing the scope that was opened gives the scopes from before. -/
theorem pop_eq (h : Keeps r.push r' xs) : r'.scopes.pop = r.scopes :=
  ScopeStack.pop_eq_of_tail h.outer

theorem inScope (h : Keeps r.push r' xs) : Keeps r r'.pop xs :=
  ⟨congrArg (·.scopes.tail) h.pop_eq, h.functionDepth, h.loopDepth, h.classDepth, h.others⟩

theorem inLoop (h : Keeps r.enterLoop r' xs) : Keeps r r'.leaveLoop xs :=
  ⟨h.outer, h.functionDepth, congrArg (· - 1) h.loopDepth, h.classDepth, h.others⟩

theorem inFunction (h : Keeps r.enterFunction r' xs) :
    Keeps r (r'.leaveFunction r.loopDepth) xs :=
  ⟨congrArg (·.scopes.tail) (ScopeStack.pop_eq_of_tail h.outer), congrArg (· - 1) h.functionDepth,
    rfl, h.classDepth, h.others⟩

theorem inClass (h : Keeps r.enterClass r' xs) : Keeps r r'.leaveClass xs := by
  have h := h.defined
  exact ⟨congrArg (·.scopes.tail) (ScopeStack.pop_eq_of_tail h.outer), h.functionDepth,
    h.loopDepth, congrArg (· - 1) h.classDepth, h.others⟩

end Keeps

theorem Finds.keeps (h : Finds r r' xs) : Keeps r r' xs := by
  rw [h.same]
  exact ⟨rfl, rfl, rfl, rfl, h.others⟩

end Resolver

namespace Resolve

open Resolver

variable {r r' : Resolver}

/-- How a read ends. -/
theorem read_run (name : String) (id : Nat) (place : Position) (r : Resolver) :
    read name id place r =
      if name = "this" && r.classDepth = 0 then .error ⟨.thisOutsideClass, place⟩ r
      else match r.scopes.lookup name with
        | some (d, true) => .ok () { r with distances := r.distances.insert id d }
        | some (_, false) => .error ⟨.readInOwnInitializer name, place⟩ r
        | none => .error ⟨.variableNotDeclared name, place⟩ r := by
  refine (bind_of_ok (m := get) (a := r) rfl).trans ?_
  by_cases hthis : (name = "this" && r.classDepth = 0) = true
  · simp only [hthis, if_true]
    rfl
  · simp only [hthis]
    cases r.scopes.lookup name with
    | none => rfl
    | some found =>
      obtain ⟨d, ready⟩ := found
      cases ready <;> rfl

theorem read_finds {name : String} {id : Nat} {place : Position}
    (h : read name id place r = .ok () r') : Finds r r' [(id, name)] := by
  rw [read_run] at h
  split at h
  · cases h
  · split at h
    · rename_i d hfound
      cases h
      refine ⟨rfl, fun i hi => ⟨name, d, ?_⟩, fun i hi => ?_⟩
      · obtain rfl := List.mem_singleton.1 hi
        exact ⟨List.mem_singleton.2 rfl, hfound, by simp [Table.get?_insert]⟩
      · rw [Table.get?_insert, if_neg fun heq => hi (List.mem_singleton.2 heq.symm)]
    · cases h
    · cases h

theorem declare_ok {name : String} {place : Position} (h : declare name place r = .ok () r') :
    r.scopes.containsCurrent name = false ∧
      r' = { r with scopes := r.scopes.insert name false } := by
  obtain ⟨_, _, hget, h⟩ := ok_of_bind h
  cases hget
  by_cases hknown : r.scopes.containsCurrent name = true
  · rw [if_pos hknown] at h
    cases h
  · rw [if_neg hknown] at h
    cases h
    exact ⟨Bool.eq_false_iff.2 hknown, rfl⟩

theorem declare_keeps {name : String} {place : Position} (h : declare name place r = .ok () r') :
    Keeps r r' [] := by
  obtain ⟨-, rfl⟩ := declare_ok h
  exact ⟨ScopeStack.scopes_tail_insert .., rfl, rfl, rfl, fun _ _ => rfl⟩

end Resolve

/-! ### Expressions -/

namespace Expr

open Resolver

variable {r r' : Resolver}

mutual

/-- An expression that is resolved has its reads found. -/
theorem resolve_finds : ∀ (e : Expr) {r r' : Resolver}, e.resolve r = .ok () r' →
    Finds r r' e.reads
  | .literal _ _, r, _, h => by cases h; exact .refl r
  | .keyword _ _, r, _, h => by cases h; exact .refl r
  | .symbol _ _, _, _, h => Resolve.read_finds h
  | .array _ elements, _, _, h => resolveAll_finds elements h
  | .object _ entries, _, _, h => resolveEntries_finds entries h
  | .binary _ _ left right, _, _, h => by
    obtain ⟨_, _, hleft, hright⟩ := ok_of_bind h
    exact (resolve_finds left hleft).append (resolve_finds right hright)
  | .unary _ _ operand, _, _, h => resolve_finds operand h
  | .assign _ _ target value, _, _, h => by
    obtain ⟨_, _, hvalue, htarget⟩ := ok_of_bind h
    exact ((resolve_finds value hvalue).append (resolve_finds target htarget)).of_perm
      List.perm_append_comm
  | .access _ receiver key, _, _, h => by
    obtain ⟨_, _, hreceiver, hkey⟩ := ok_of_bind h
    exact (resolve_finds receiver hreceiver).append (resolveKey_finds key hkey)
  | .call _ callee args, _, _, h => by
    obtain ⟨_, _, hcallee, hargs⟩ := ok_of_bind h
    exact (resolve_finds callee hcallee).append (resolveAll_finds args hargs)
  | .construct _ _ _ args, _, _, h => by
    obtain ⟨_, _, hclass, hargs⟩ := ok_of_bind h
    exact (Resolve.read_finds hclass).append (resolveAll_finds args hargs)
termination_by structural e => e

theorem resolveAll_finds : ∀ (es : List Expr) {r r' : Resolver}, resolveAll es r = .ok () r' →
    Finds r r' (readsAll es)
  | [], r, _, h => by cases h; exact .refl r
  | e :: es, _, _, h => by
    obtain ⟨_, _, he, hes⟩ := ok_of_bind h
    exact (resolve_finds e he).append (resolveAll_finds es hes)
termination_by structural es => es

theorem resolveKey_finds : ∀ (k : Key Expr) {r r' : Resolver}, resolveKey k r = .ok () r' →
    Finds r r' (readsKey k)
  | .name _ _, r, _, h => by cases h; exact .refl r
  | .computed e, _, _, h => resolve_finds e h
termination_by structural k => k

theorem resolveEntries_finds : ∀ (es : List (Entry Expr)) {r r' : Resolver},
    resolveEntries es r = .ok () r' → Finds r r' (readsEntries es)
  | [], r, _, h => by cases h; exact .refl r
  | ⟨key, value⟩ :: es, _, _, h => by
    obtain ⟨_, _, hkey, h⟩ := ok_of_bind h
    obtain ⟨_, _, hvalue, hes⟩ := ok_of_bind h
    exact ((resolveKey_finds key hkey).append (resolve_finds value hvalue)).append
      (resolveEntries_finds es hes)
termination_by structural es => es

end

theorem resolveOption_finds : ∀ (e : Option Expr) {r r' : Resolver},
    resolveOption e r = .ok () r' → Finds r r' (readsOption e)
  | none, r, _, h => by cases h; exact .refl r
  | some e, _, _, h => e.resolve_finds h

end Expr

/-! ### Statements -/

namespace Stmt

open Resolver

theorem resolveParams_keeps : ∀ (ps : List Param) {r r' : Resolver},
    resolveParams ps r = .ok () r' → Keeps r r' []
  | [], r, _, h => by cases h; exact .refl r
  | p :: ps, _, _, h => by
    obtain ⟨_, _, hdeclare, h⟩ := ok_of_bind h
    obtain ⟨_, _, hdefine, hps⟩ := ok_of_bind h
    cases hdefine
    exact ((Resolve.declare_keeps hdeclare).append (.define _ p.name)).append
      (resolveParams_keeps ps hps)

theorem resolveFields_finds : ∀ (fs : List FieldDecl) {r r' : Resolver},
    resolveFields fs r = .ok () r' → Finds r r' (readsFields fs)
  | [], r, _, h => by cases h; exact .refl r
  | f :: fs, _, _, h => by
    obtain ⟨_, _, hvalue, hfs⟩ := ok_of_bind h
    exact (Expr.resolveOption_finds f.value hvalue).append (resolveFields_finds fs hfs)

mutual

/-- A statement that is resolved closes the scopes it opens. -/
theorem resolve_keeps : ∀ (s : Stmt) {r r' : Resolver}, s.resolve r = .ok () r' →
    Keeps r r' s.reads
  | .expr _ e, _, _, h => (e.resolve_finds h).keeps
  | .block _ body, r, _, h => by
    obtain ⟨r₁, hbody, rfl⟩ := between_ok h
    exact (resolveAll_keeps body hbody).inScope
  | .varDecl _ name _ _ value, r, r', h => by
    obtain ⟨_, _, hdeclare, h⟩ := ok_of_bind h
    obtain ⟨_, _, hvalue, hdefine⟩ := ok_of_bind h
    cases hdefine
    have hkeeps := (Resolve.declare_keeps hdeclare).append
      ((Expr.resolveOption_finds value hvalue).keeps.append (.define _ name))
    rwa [List.append_nil] at hkeeps
  | .ifElse _ condition onTrue onFalse, _, _, h => by
    obtain ⟨_, _, hcondition, h⟩ := ok_of_bind h
    obtain ⟨_, _, htrue, hfalse⟩ := ok_of_bind h
    exact ((condition.resolve_finds hcondition).keeps.append (resolve_keeps onTrue htrue)).append
      (resolveOption_keeps onFalse hfalse)
  | .whileLoop _ condition body, _, _, h => by
    obtain ⟨_, _, hcondition, h⟩ := ok_of_bind h
    obtain ⟨r₁, hbody, rfl⟩ := between_ok h
    exact (condition.resolve_finds hcondition).keeps.append (resolve_keeps body hbody).inLoop
  | .forIn _ name iterable _ body, _, _, h => by
    obtain ⟨_, _, hiterable, h⟩ := ok_of_bind h
    obtain ⟨r₁, hbody, rfl⟩ := between_ok h
    exact (iterable.resolve_finds hiterable).keeps.append
      (resolveAll_keeps body hbody).defined.inLoop.inScope
  | .fnDecl f, _, _, h => by
    obtain ⟨_, _, hdeclare, h⟩ := ok_of_bind h
    obtain ⟨_, _, hdefine, hfn⟩ := ok_of_bind h
    cases hdefine
    exact ((Resolve.declare_keeps hdeclare).append (.define _ f.name)).append
      (resolveFn_keeps f hfn)
  | .ret _ value, r, _, h => by
    obtain ⟨_, _, hget, h⟩ := ok_of_bind h
    cases hget
    by_cases hdepth : r.functionDepth = 0
    · rw [if_pos hdepth] at h
      cases h
    · rw [if_neg hdepth] at h
      exact (Expr.resolveOption_finds value h).keeps
  | .jump _ _, r, _, h => by
    obtain ⟨_, _, hget, h⟩ := ok_of_bind h
    cases hget
    split at h
    · cases h
    · cases h
      exact .refl r
  | .classDecl _ name _ _ fields methods, _, _, h => by
    obtain ⟨_, _, hdeclare, h⟩ := ok_of_bind h
    obtain ⟨_, _, hdefine, h⟩ := ok_of_bind h
    cases hdefine
    obtain ⟨r₁, hbody, rfl⟩ := between_ok h
    obtain ⟨_, _, hfields, hmethods⟩ := ok_of_bind hbody
    have hkeeps := (resolveFields_finds fields hfields).keeps.append
      (resolveMethods_keeps methods hmethods)
    exact ((Resolve.declare_keeps hdeclare).append (.define _ name)).append hkeeps.inClass
  | .typeDecl _ _ _, r, _, h => by cases h; exact .refl r
termination_by structural s => s

theorem resolveAll_keeps : ∀ (ss : List Stmt) {r r' : Resolver}, resolveAll ss r = .ok () r' →
    Keeps r r' (readsAll ss)
  | [], r, _, h => by cases h; exact .refl r
  | s :: ss, _, _, h => by
    obtain ⟨_, _, hs, hss⟩ := ok_of_bind h
    exact (resolve_keeps s hs).append (resolveAll_keeps ss hss)
termination_by structural ss => ss

theorem resolveOption_keeps : ∀ (s : Option Stmt) {r r' : Resolver},
    resolveOption s r = .ok () r' → Keeps r r' (readsOption s)
  | none, r, _, h => by cases h; exact .refl r
  | some s, _, _, h => resolve_keeps s h
termination_by structural s => s

theorem resolveFn_keeps : ∀ (f : FnDecl Stmt) {r r' : Resolver}, resolveFn f r = .ok () r' →
    Keeps r r' (readsFn f)
  | ⟨_, params, _, body, _, _⟩, r, _, h => by
    obtain ⟨_, _, hget, h⟩ := ok_of_bind h
    cases hget
    obtain ⟨r₁, hbody, rfl⟩ := between_ok h
    obtain ⟨_, _, hparams, hbody⟩ := ok_of_bind hbody
    exact ((resolveParams_keeps params hparams).append (resolveAll_keeps body hbody)).inFunction
termination_by structural f => f

theorem resolveMethods_keeps : ∀ (ms : List (MethodDecl Stmt)) {r r' : Resolver},
    resolveMethods ms r = .ok () r' → Keeps r r' (readsMethods ms)
  | [], r, _, h => by cases h; exact .refl r
  | ⟨_, function⟩ :: ms, _, _, h => by
    obtain ⟨_, _, hfunction, hms⟩ := ok_of_bind h
    exact (resolveFn_keeps function hfunction).append (resolveMethods_keeps ms hms)
termination_by structural ms => ms

end

end Stmt

end ScriptCheck
