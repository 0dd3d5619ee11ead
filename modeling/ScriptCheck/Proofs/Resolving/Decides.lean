import ScriptCheck.Proofs.Parsing.FreshIds
import ScriptCheck.Proofs.Resolving.Lexical
import ScriptCheck.Proofs.Resolving.Run

/-!
Resolution decides lexical scoping: a step of resolution succeeds if and only if every site that it
passes is legal, and then notes the distance of each read.
-/

namespace ScriptCheck

/-! ### Surroundings -/

namespace Surroundings

variable {env : Surroundings}

theorem behind_append (env : Surroundings) (xs ys : List String) :
    env.behind (xs ++ ys) = (env.behind xs).behind ys := List.foldl_append

theorem reads_append (env : Surroundings) (xs ys : List (Nat × String)) :
    env.reads (xs ++ ys) = env.reads xs ++ env.reads ys := List.map_append

theorem tail_holding (env : Surroundings) (name : String) (finished : Bool) :
    (env.holding name finished).scopes.tail = env.scopes.tail := by
  unfold holding
  cases env.scopes <;> rfl

/-- Declarations change nothing but the innermost scope. -/
structure Beside (env env' : Surroundings) : Prop where
  tail : env'.scopes.tail = env.scopes.tail
  inFunction : env'.inFunction = env.inFunction
  inLoop : env'.inLoop = env.inLoop
  inClass : env'.inClass = env.inClass

theorem Beside.refl (env : Surroundings) : Beside env env := ⟨rfl, rfl, rfl, rfl⟩

theorem beside_behind (env : Surroundings) (names : List String) : Beside env (env.behind names) := by
  induction names generalizing env with
  | nil => exact .refl env
  | cons name names ih =>
    obtain ⟨htail, hfunction, hloop, hclass⟩ := ih (env.holding name true)
    exact ⟨htail.trans (tail_holding env name true), hfunction, hloop, hclass⟩

theorem behind_looped (env : Surroundings) (names : List String) :
    env.looped.behind names = (env.behind names).looped := by
  induction names generalizing env with
  | nil => rfl
  | cons name names ih => exact ih (env.holding name true)

end Surroundings

/-! ### Scopes that hold the same names -/

open Surroundings

/-- A scope holds the given names. -/
def Holding (held : HeldNames) (scope : Table String Bool) : Prop :=
  ∀ name, scope.get? name = held.lookup name

theorem Holding.insert {held : HeldNames} {scope : Table String Bool} (h : Holding held scope)
    (name : String) (finished : Bool) :
    Holding ((name, finished) :: held) (scope.insert name finished) := by
  intro other
  rw [Table.get?_insert, h other]
  by_cases heq : name = other
  · simp [heq]
  · have : (other == name) = false := by simpa using fun h => heq h.symm
    simp [heq, List.lookup_cons, this]

/-- What an inner declaration of a name holds does not depend on what it replaced. -/
theorem Holding.replace {held : HeldNames} {scope : Table String Bool} {name : String}
    {old : Bool} (h : Holding ((name, old) :: held) scope) (finished : Bool) :
    Holding ((name, finished) :: held) (scope.insert name finished) := by
  intro other
  have hother := h.insert name finished other
  rw [hother]
  by_cases heq : other = name
  · simp [heq]
  · have : (other == name) = false := by simpa using heq
    simp [List.lookup_cons, this]

/-- A name is found at its distance, with what the nearest scope holds of it. -/
theorem search_nearest {name : String} {held : List HeldNames} {scopes : List (Table String Bool)}
    (h : List.Forall₂ Holding held scopes) (k : Nat) :
    ScopeStack.search name k scopes =
      ((held.getD (held.findIdx fun x => (x.lookup name).isSome) []).lookup name).map
        fun finished => (k + held.findIdx fun x => (x.lookup name).isSome, finished) := by
  induction h generalizing k with
  | nil => rfl
  | @cons x scope held scopes hx _ ih =>
    rw [ScopeStack.search, hx name, List.findIdx_cons]
    cases hlookup : x.lookup name with
    | none =>
      simp only [Option.isSome_none, cond_false, List.getD_cons_succ]
      rw [ih (k + 1)]
      congr 1
      funext finished
      congr 1
      omega
    | some finished => simp [hlookup]

namespace Resolver

/-- A resolver has the given surroundings. -/
structure Fits (env : Surroundings) (r : Resolver) : Prop where
  scopes : List.Forall₂ Holding env.scopes r.scopes.scopes
  inFunction : env.inFunction = true ↔ r.functionDepth ≠ 0
  inLoop : env.inLoop = true ↔ r.loopDepth ≠ 0
  inClass : env.inClass = true ↔ r.classDepth ≠ 0

namespace Fits

variable {env env' : Surroundings} {r r' : Resolver}

/-- There is an innermost scope, and it holds the innermost names. -/
theorem innermost (h : Fits env r) :
    ∃ held outer, env.scopes = held :: outer ∧ Holding held r.scopes.current ∧
      List.Forall₂ Holding outer r.scopes.scopes.tail := by
  have hscopes := h.scopes
  rw [ScopeStack.scopes_eq_cons] at hscopes
  generalize hheld : env.scopes = scopes at hscopes
  cases hscopes with
  | cons hcurrent houter => exact ⟨_, _, rfl, hcurrent, houter⟩

theorem nonempty (h : Fits env r) : env.scopes ≠ [] := by
  obtain ⟨held, outer, hscopes, -⟩ := h.innermost
  rw [hscopes]
  exact List.cons_ne_nil held outer

theorem containsCurrent_iff (h : Fits env r) (name : String) :
    r.scopes.containsCurrent name = true ↔ (env.scopes.headD []).lookup name ≠ none := by
  obtain ⟨held, outer, hscopes, hcurrent, -⟩ := h.innermost
  rw [hscopes, List.headD_cons, ScopeStack.containsCurrent, Table.contains, hcurrent name,
    Option.isSome_iff_ne_none]

theorem lookup_eq (h : Fits env r) (name : String) :
    r.scopes.lookup name =
      ((env.nearest name).lookup name).map fun finished => (env.distance name, finished) := by
  rw [ScopeStack.lookup, search_nearest h.scopes, Nat.zero_add]
  rfl

/-- Beside a place, where nothing but the innermost scope changed. -/
theorem beside (h : Fits env r) (hbeside : Beside env env')
    (hscopes : List.Forall₂ Holding env'.scopes r'.scopes.scopes)
    (hfunction : r'.functionDepth = r.functionDepth) (hloop : r'.loopDepth = r.loopDepth)
    (hclass : r'.classDepth = r.classDepth) : Fits env' r' := by
  refine ⟨hscopes, ?_, ?_, ?_⟩
  · rw [hbeside.inFunction, hfunction]
    exact h.inFunction
  · rw [hbeside.inLoop, hloop]
    exact h.inLoop
  · rw [hbeside.inClass, hclass]
    exact h.inClass

theorem opened (h : Fits env r) : Fits env.opened r.push :=
  ⟨.cons (fun _ => rfl) h.scopes, h.inFunction, h.inLoop, h.inClass⟩

theorem looped (h : Fits env r) : Fits env.looped r.enterLoop :=
  ⟨h.scopes, h.inFunction, iff_of_true rfl (Nat.succ_ne_zero _), h.inClass⟩

theorem ofFunction (h : Fits env r) : Fits env.ofFunction r.enterFunction :=
  ⟨h.opened.scopes, iff_of_true rfl (Nat.succ_ne_zero _), iff_of_false Bool.false_ne_true fun h => h rfl,
    h.inClass⟩

theorem holding (h : Fits env r) (name : String) (finished : Bool) :
    Fits (env.holding name finished) { r with scopes := r.scopes.insert name finished } := by
  obtain ⟨held, outer, hscopes, hcurrent, houter⟩ := h.innermost
  refine ⟨?_, h.inFunction, h.inLoop, h.inClass⟩
  rw [Surroundings.holding, hscopes, List.modifyHead_cons, ScopeStack.scopes_insert]
  exact .cons (hcurrent.insert name finished) houter

/-- Finishing a declaration. -/
theorem define {name : String} (h : Fits (env.holding name false) r) :
    Fits (env.holding name true) (r.define name) := by
  obtain ⟨held, outer, hscopes, hcurrent, houter⟩ := h.innermost
  refine ⟨?_, h.inFunction, h.inLoop, h.inClass⟩
  rw [Resolver.define, ScopeStack.scopes_insert]
  unfold Surroundings.holding at hscopes ⊢
  cases henv : env.scopes with
  | nil => simp [henv] at hscopes
  | cons held' outer' =>
    rw [henv] at hscopes
    cases hscopes
    exact .cons (hcurrent.replace true) houter

theorem ofClass (h : Fits env r) : Fits env.ofClass r.enterClass := by
  have hopened := h.opened.holding "this" true
  exact ⟨hopened.scopes, hopened.inFunction, hopened.inLoop, iff_of_true rfl (Nat.succ_ne_zero _)⟩

/-- Closing the innermost scope leaves the scopes around it. -/
theorem outer_of_pop (h : Fits env' r') (htail : env'.scopes.tail = env.scopes)
    (henv : env.scopes ≠ []) : List.Forall₂ Holding env.scopes r'.scopes.pop.scopes := by
  obtain ⟨held, outer, hscopes, -, houter⟩ := h.innermost
  rw [hscopes, List.tail_cons] at htail
  rw [htail] at houter
  have hpop : r'.scopes.pop.scopes = r'.scopes.scopes.tail := by
    unfold ScopeStack.pop ScopeStack.scopes
    cases hopened : r'.scopes.opened with
    | nil =>
      rw [ScopeStack.scopes, hopened] at houter
      exact absurd (List.forall₂_nil_right_iff.1 houter) henv
    | cons scope rest => rfl
  rw [hpop]
  exact houter

end Fits

/-- A resolution came from one resolver to another past sites: the depths are as before, and the
distances of the reads were noted in some order. -/
structure Passes (sites : List Site) (env' : Surroundings) (r r' : Resolver) : Prop where
  fits : Fits env' r'
  functionDepth : r'.functionDepth = r.functionDepth
  loopDepth : r'.loopDepth = r.loopDepth
  classDepth : r'.classDepth = r.classDepth
  noted : ∃ entries : List (Nat × Nat), entries.Perm (sites.filterMap Site.entry?) ∧
    r'.distances = entries.foldl (fun t e => t.insert e.1 e.2) r.distances

end Resolver

/-! ### Steps that decide -/

open Resolver

/-- The outcome of a step past the given sites: it succeeds past legal sites and fails at one that
is not. -/
inductive Verdict (sites : List Site) (env' : Surroundings) (r : Resolver) :
    EStateM.Result Diagnostic Resolver Unit → Prop
  | accepted {r' : Resolver} (legal : ∀ s ∈ sites, s.Legal)
      (passes : Resolver.Passes sites env' r r') : Verdict sites env' r (.ok () r')
  | rejected {e : Diagnostic} {r' : Resolver} {s : Site} (mem : s ∈ sites) (illegal : ¬ s.Legal) :
      Verdict sites env' r (.error e r')

/-- A step decides the sites that it passes, on its way from surroundings to others. -/
def Decides (m : Resolve Unit) (env env' : Surroundings) (sites : List Site) : Prop :=
  ∀ ⦃r : Resolver⦄, Fits env r → Verdict sites env' r (m r)

namespace Decides

variable {m k : Resolve Unit} {env env₁ env' : Surroundings} {xs ys : List Site}

theorem pure (env : Surroundings) : Decides (Pure.pure ()) env env [] := fun _ hr =>
  .accepted nofun ⟨hr, rfl, rfl, rfl, [], .nil, rfl⟩

theorem bind (hm : Decides m env env₁ xs) (hk : Decides k env₁ env' ys) :
    Decides (m >>= fun _ => k) env env' (xs ++ ys) := by
  intro r hr
  have hverdict := hm hr
  generalize hrun : m r = run at hverdict
  cases hverdict with
  | rejected mem illegal =>
    rw [bind_of_error hrun]
    exact .rejected (List.mem_append_left ys mem) illegal
  | @accepted r₁ legal passes =>
    rw [bind_of_ok hrun]
    have hverdict := hk passes.fits
    generalize k r₁ = run' at hverdict
    cases hverdict with
    | rejected mem illegal => exact .rejected (List.mem_append_right xs mem) illegal
    | accepted legal' passes' =>
      obtain ⟨entries, hperm, hnoted⟩ := passes.noted
      obtain ⟨entries', hperm', hnoted'⟩ := passes'.noted
      refine .accepted (List.forall_mem_append.2 ⟨legal, legal'⟩)
        ⟨passes'.fits, passes'.functionDepth.trans passes.functionDepth,
          passes'.loopDepth.trans passes.loopDepth, passes'.classDepth.trans passes.classDepth,
          entries ++ entries', ?_, ?_⟩
      · rw [List.filterMap_append]
        exact hperm.append hperm'
      · rw [hnoted', hnoted, List.foldl_append]

/-- The order of the sites does not matter. -/
theorem perm (h : Decides m env env' xs) (hperm : xs.Perm ys) : Decides m env env' ys := by
  intro r hr
  have hverdict := h hr
  generalize m r = run at hverdict ⊢
  cases hverdict with
  | rejected mem illegal => exact .rejected (hperm.mem_iff.1 mem) illegal
  | accepted legal passes =>
    obtain ⟨entries, hentries, hnoted⟩ := passes.noted
    exact .accepted (fun s hs => legal s (hperm.mem_iff.2 hs))
      ⟨passes.fits, passes.functionDepth, passes.loopDepth, passes.classDepth, entries,
        hentries.trans (hperm.filterMap _), hnoted⟩

/-- A step inside of something that is entered and left again. -/
theorem between {enter leave : Resolver → Resolver} {r : Resolver} {inner inner' : Surroundings}
    (hm : Decides m inner inner' xs) (henter : Fits inner (enter r))
    (hleave : ∀ r', Passes xs inner' (enter r) r' → Passes xs env' r (leave r')) :
    Verdict xs env' r (between enter leave m r) := by
  have hverdict := hm henter
  unfold ScriptCheck.between
  generalize m (enter r) = run at hverdict ⊢
  cases hverdict with
  | rejected mem illegal => exact .rejected mem illegal
  | accepted legal passes => exact .accepted legal (hleave _ passes)

theorem inScope (hm : Decides m env.opened env₁ xs) (htail : env₁.scopes.tail = env.scopes) :
    Decides (ScriptCheck.between push pop m) env env xs := by
  intro r hr
  refine hm.between hr.opened fun r' h => ?_
  have hscopes := h.fits.outer_of_pop htail hr.nonempty
  exact ⟨hr.beside (.refl env) hscopes h.functionDepth h.loopDepth h.classDepth, h.functionDepth,
    h.loopDepth, h.classDepth, h.noted⟩

/-- What is declared in the body of a loop without braces stays declared behind it. -/
theorem inLoop (hm : Decides m env.looped env'.looped xs) (hbeside : Beside env env') :
    Decides (ScriptCheck.between enterLoop leaveLoop m) env env' xs := by
  intro r hr
  refine hm.between hr.looped fun r' h => ?_
  have hloop : r'.leaveLoop.loopDepth = r.loopDepth := congrArg (· - 1) h.loopDepth
  exact ⟨hr.beside hbeside h.fits.scopes h.functionDepth hloop h.classDepth, h.functionDepth, hloop,
    h.classDepth, h.noted⟩

theorem inFor {name : String} (hm : Decides m (env.opened.looped.holding name true) env₁ xs)
    (htail : env₁.scopes.tail = env.scopes) :
    Decides (ScriptCheck.between (fun r => r.push.enterLoop.define name) (fun r => r.leaveLoop.pop) m)
      env env xs := by
  intro r hr
  refine hm.between (hr.opened.looped.holding name true) fun r' h => ?_
  have hscopes := h.fits.outer_of_pop htail hr.nonempty
  have hloop : r'.leaveLoop.loopDepth = r.loopDepth := congrArg (· - 1) h.loopDepth
  exact ⟨hr.beside (.refl env) hscopes h.functionDepth hloop h.classDepth, h.functionDepth, hloop,
    h.classDepth, h.noted⟩

/-- The loops around a function are open again behind it. -/
theorem inFunction (hm : Decides m env.ofFunction env₁ xs) (htail : env₁.scopes.tail = env.scopes) :
    Decides (do
      let loops := (← get).loopDepth
      ScriptCheck.between enterFunction (leaveFunction loops) m) env env xs := by
  intro r hr
  refine hm.between hr.ofFunction fun r' h => ?_
  have hscopes := h.fits.outer_of_pop htail hr.nonempty
  have hfunction : r'.functionDepth - 1 = r.functionDepth := congrArg (· - 1) h.functionDepth
  exact ⟨hr.beside (.refl env) hscopes hfunction rfl h.classDepth, hfunction, rfl, h.classDepth,
    h.noted⟩

theorem inClass (hm : Decides m env.ofClass env₁ xs) (htail : env₁.scopes.tail = env.scopes) :
    Decides (ScriptCheck.between enterClass leaveClass m) env env xs := by
  intro r hr
  refine hm.between hr.ofClass fun r' h => ?_
  have hscopes := h.fits.outer_of_pop htail hr.nonempty
  have hclass : r'.classDepth - 1 = r.classDepth := congrArg (· - 1) h.classDepth
  exact ⟨hr.beside (.refl env) hscopes h.functionDepth h.loopDepth hclass, h.functionDepth,
    h.loopDepth, hclass, h.noted⟩

end Decides

/-! ### Guards -/

/-- A step that first looks whether a site is legal. -/
theorem Decides.guarded {site : Site} (hentry : site.entry? = none) {env env' : Surroundings}
    {xs : List Site} {m k : Resolve Unit} {e : Diagnostic} {p : Resolver → Prop} [DecidablePred p]
    (hp : ∀ r, Fits env r → (p r ↔ ¬ site.Legal)) (hm : ∀ r, m r = if p r then .error e r else k r)
    (hk : Decides k env env' xs) : Decides m env env' (site :: xs) := by
  intro r hr
  rw [hm r]
  by_cases h : p r
  · rw [if_pos h]
    exact .rejected List.mem_cons_self ((hp r hr).1 h)
  · rw [if_neg h]
    have hlegal : site.Legal := not_not.1 fun h' => h ((hp r hr).2 h')
    have hverdict := hk hr
    generalize k r = run at hverdict ⊢
    cases hverdict with
    | rejected mem illegal => exact .rejected (List.mem_cons_of_mem site mem) illegal
    | accepted legal passes =>
      refine .accepted (List.forall_mem_cons.2 ⟨hlegal, legal⟩) ⟨passes.fits, passes.functionDepth,
        passes.loopDepth, passes.classDepth, ?_⟩
      rw [List.filterMap_cons_none hentry]
      exact passes.noted

/-! ### Names -/

theorem Resolve.declare_decides (name : String) (place : Position) (env : Surroundings) :
    Decides (declare name place) env (env.holding name false) [.declaration name env] := by
  intro r hr
  have hknown := hr.containsCurrent_iff name
  by_cases h : r.scopes.containsCurrent name = true
  · have hrun : declare name place r = .error ⟨.variableAlreadyDeclared name, place⟩ r := by
      refine (bind_of_ok (m := get) (a := r) rfl).trans ?_
      rw [if_pos h]
      rfl
    rw [hrun]
    exact .rejected List.mem_cons_self fun hlegal => hknown.1 h hlegal
  · have hrun : declare name place r =
        .ok () { r with scopes := r.scopes.insert name false } := by
      refine (bind_of_ok (m := get) (a := r) rfl).trans ?_
      rw [if_neg h]
      rfl
    have hlegal : Site.Legal (.declaration name env) := not_not.1 fun h' => h (hknown.2 h')
    rw [hrun]
    exact .accepted (List.forall_mem_singleton.2 hlegal)
      ⟨hr.holding name false, rfl, rfl, rfl, [], .nil, rfl⟩

theorem Resolve.define_decides (name : String) (env : Surroundings) :
    Decides (define name) (env.holding name false) (env.holding name true) [] := fun _ hr =>
  .accepted nofun ⟨hr.define, rfl, rfl, rfl, [], .nil, rfl⟩

theorem Resolve.read_decides (name : String) (id : Nat) (place : Position) (env : Surroundings) :
    Decides (read name id place) env env (env.reads [(id, name)]) := by
  intro r hr
  rw [read_run, hr.lookup_eq name]
  by_cases hthis : name = "this" ∧ r.classDepth = 0
  · rw [if_pos (by simpa using hthis)]
    refine .rejected List.mem_cons_self fun hlegal => ?_
    exact hr.inClass.1 (hlegal.2 hthis.1) hthis.2
  · rw [if_neg (by simpa using hthis)]
    cases hlookup : (env.nearest name).lookup name with
    | none => exact .rejected List.mem_cons_self fun hlegal => nomatch hlookup.symm.trans hlegal.1
    | some finished =>
      cases finished with
      | false =>
        exact .rejected List.mem_cons_self fun hlegal => nomatch hlookup.symm.trans hlegal.1
      | true =>
        have hlegal : Site.Legal (.read id name env) :=
          ⟨hlookup, fun h => hr.inClass.2 fun h' => hthis ⟨h, h'⟩⟩
        exact .accepted (List.forall_mem_singleton.2 hlegal)
          ⟨hr.beside (.refl env) hr.scopes rfl rfl rfl, rfl, rfl, rfl, [_], .refl _, rfl⟩

/-! ### Expressions -/

namespace Expr

mutual

/-- Resolving an expression decides its reads. -/
theorem resolve_decides : ∀ (e : Expr) (env : Surroundings),
    Decides e.resolve env env (env.reads e.reads)
  | .literal _ _, env => .pure env
  | .keyword _ _, env => .pure env
  | .symbol node name, env => Resolve.read_decides name node.id node.span.start env
  | .array _ elements, env => resolveAll_decides elements env
  | .object _ entries, env => resolveEntries_decides entries env
  | .binary _ _ left right, env => by
    rw [reads, Surroundings.reads_append]
    exact (resolve_decides left env).bind (resolve_decides right env)
  | .unary _ _ operand, env => resolve_decides operand env
  | .assign _ _ target value, env => by
    -- the value is resolved first, which changes the order of the reads and nothing else
    rw [reads, Surroundings.reads_append]
    exact ((resolve_decides value env).bind (resolve_decides target env)).perm List.perm_append_comm
  | .access _ receiver key, env => by
    rw [reads, Surroundings.reads_append]
    exact (resolve_decides receiver env).bind (resolveKey_decides key env)
  | .call _ callee args, env => by
    rw [reads, Surroundings.reads_append]
    exact (resolve_decides callee env).bind (resolveAll_decides args env)
  | .construct _ className classNode args, env =>
    (Resolve.read_decides className classNode.id classNode.span.start env).bind
      (resolveAll_decides args env)
termination_by structural e => e

theorem resolveAll_decides : ∀ (es : List Expr) (env : Surroundings),
    Decides (resolveAll es) env env (env.reads (readsAll es))
  | [], env => .pure env
  | e :: es, env => by
    rw [readsAll, Surroundings.reads_append]
    exact (resolve_decides e env).bind (resolveAll_decides es env)
termination_by structural es => es

theorem resolveKey_decides : ∀ (k : Key Expr) (env : Surroundings),
    Decides (resolveKey k) env env (env.reads (readsKey k))
  | .name _ _, env => .pure env
  | .computed e, env => resolve_decides e env
termination_by structural k => k

theorem resolveEntries_decides : ∀ (es : List (Entry Expr)) (env : Surroundings),
    Decides (resolveEntries es) env env (env.reads (readsEntries es))
  | [], env => .pure env
  | ⟨key, value⟩ :: es, env => by
    rw [readsEntries, Surroundings.reads_append, Surroundings.reads_append, List.append_assoc]
    exact (resolveKey_decides key env).bind
      ((resolve_decides value env).bind (resolveEntries_decides es env))
termination_by structural es => es

end

theorem resolveOption_decides : ∀ (e : Option Expr) (env : Surroundings),
    Decides (resolveOption e) env env (env.reads (readsOption e))
  | none, env => .pure env
  | some e, env => e.resolve_decides env

end Expr

/-! ### Statements -/

namespace Stmt

open Resolve

/-- A name that is declared at once, such as that of a function, decides its declaration. -/
theorem declared_decides (name : String) (place : Position) {k : Resolve Unit}
    {env env' : Surroundings} {xs : List Site} (hk : Decides k (env.holding name true) env' xs) :
    Decides (do declare name place; define name; k) env env' (.declaration name env :: xs) :=
  (declare_decides name place env).bind ((define_decides name env).bind hk)

theorem resolveParams_decides : ∀ (ps : List Param) (env : Surroundings),
    Decides (resolveParams ps) env (env.behind (ps.map Param.name)) (siteParams ps env)
  | [], env => .pure env
  | p :: ps, env =>
    declared_decides p.name p.span.start (resolveParams_decides ps (env.holding p.name true))

theorem resolveFields_decides : ∀ (fs : List FieldDecl) (env : Surroundings),
    Decides (resolveFields fs) env env (env.reads (readsFields fs))
  | [], env => .pure env
  | f :: fs, env => by
    rw [readsFields, List.flatMap_cons, Surroundings.reads_append]
    exact (Expr.resolveOption_decides f.value env).bind (resolveFields_decides fs env)

mutual

/-- Resolving a statement decides its sites and leaves the names that it declares. -/
theorem resolve_decides : ∀ (s : Stmt) (env : Surroundings),
    Decides s.resolve env (env.behind s.declared) (s.sites env)
  | .expr _ e, env => e.resolve_decides env
  | .block _ body, env =>
    let ⟨names, h⟩ := resolveAll_decides body env.opened
    h.inScope (env.opened.beside_behind names).tail
  | .varDecl span name _ _ value, env => by
    rw [sites, ← List.append_nil (Surroundings.reads _ _)]
    exact (declare_decides name span.start env).bind
      ((Expr.resolveOption_decides value _).bind (define_decides name env))
  | .ifElse _ condition onTrue onFalse, env => by
    rw [sites, declared, Surroundings.behind_append, List.append_assoc]
    exact (condition.resolve_decides env).bind
      ((resolve_decides onTrue env).bind (resolveOption_decides onFalse _))
  | .whileLoop _ condition body, env => by
    have hbody := resolve_decides body env.looped
    rw [Surroundings.behind_looped] at hbody
    exact (condition.resolve_decides env).bind (hbody.inLoop (env.beside_behind _))
  | .forIn _ name iterable _ body, env =>
    let ⟨names, h⟩ := resolveAll_decides body (env.opened.looped.holding name true)
    (iterable.resolve_decides env).bind (h.inFor ((beside_behind _ names).tail))
  | .fnDecl f, env =>
    declared_decides f.name f.span.start (resolveFn_decides f (env.holding f.name true))
  | .ret span value, env => by
    refine .guarded (p := fun r => r.functionDepth = 0) (e := ⟨.returnOutsideFunction, span.start⟩) rfl
      (fun r hr => ?_) (fun r => ?_) (Expr.resolveOption_decides value env)
    · rw [Site.Legal, hr.inFunction, not_not]
    · refine (bind_of_ok (m := get) (a := r) rfl).trans ?_
      by_cases h : r.functionDepth = 0
      · rw [if_pos h, if_pos h]
        rfl
      · rw [if_neg h, if_neg h]
  | .jump span isContinue, env => by
    refine .guarded (p := fun r => r.loopDepth = 0)
      (e := ⟨.loopControlOutsideLoop (if isContinue then "continue" else "break"), span.start⟩) rfl
      (fun r hr => ?_) (fun r => ?_) (.pure env)
    · rw [Site.Legal, hr.inLoop, not_not]
    · refine (bind_of_ok (m := get) (a := r) rfl).trans ?_
      by_cases h : r.loopDepth = 0
      · rw [if_pos h, if_pos h]
        rfl
      · rw [if_neg h, if_neg h]
  | .classDecl span name _ _ fields methods, env =>
    declared_decides name span.start
      (((resolveFields_decides fields _).bind (resolveMethods_decides methods _)).inClass rfl)
  | .typeDecl _ _ _, env => .pure env
termination_by structural s => s

theorem resolveAll_decides : ∀ (ss : List Stmt) (env : Surroundings),
    ∃ names, Decides (resolveAll ss) env (env.behind names) (sitesAll ss env)
  | [], env => ⟨[], .pure env⟩
  | s :: ss, env => by
    obtain ⟨names, h⟩ := resolveAll_decides ss (env.behind s.declared)
    rw [← Surroundings.behind_append] at h
    exact ⟨s.declared ++ names, (resolve_decides s env).bind h⟩
termination_by structural ss => ss

theorem resolveOption_decides : ∀ (s : Option Stmt) (env : Surroundings),
    Decides (resolveOption s) env (env.behind (declaredOption s)) (sitesOption s env)
  | none, env => .pure env
  | some s, env => resolve_decides s env
termination_by structural s => s

theorem resolveFn_decides : ∀ (f : FnDecl Stmt) (env : Surroundings),
    Decides (resolveFn f) env env (sitesFn f env)
  | ⟨_, params, _, body, _, _⟩, env => by
    obtain ⟨names, h⟩ := resolveAll_decides body (env.ofFunction.behind (params.map Param.name))
    rw [← Surroundings.behind_append] at h
    exact ((resolveParams_decides params env.ofFunction).bind h).inFunction
      (beside_behind env.ofFunction _).tail
termination_by structural f => f

theorem resolveMethods_decides : ∀ (ms : List (MethodDecl Stmt)) (env : Surroundings),
    Decides (resolveMethods ms) env env (sitesMethods ms env)
  | [], env => .pure env
  | ⟨_, function⟩ :: ms, env => (resolveFn_decides function env).bind (resolveMethods_decides ms env)
termination_by structural ms => ms

end

end Stmt

/-! ### Programs -/

theorem Table.seek_eq_lookup {α : Type} (name : String) (es : List (String × α)) :
    seek name es = es.lookup name := by
  induction es with
  | nil => rfl
  | cons e es ih =>
    rcases e with ⟨key, value⟩
    by_cases h : name = key
    · simp [seek, h]
    · have hne : (name == key) = false := by simpa using h
      simp [seek, List.lookup_cons, hne, Ne.symm h, ih]

theorem Table.put_of_not_mem {κ α : Type} [DecidableEq κ] {key : κ} {value : α}
    {es : List (κ × α)} (h : key ∉ es.map Prod.fst) : put key value es = es ++ [(key, value)] := by
  induction es with
  | nil => rfl
  | cons e es ih =>
    rw [List.map_cons, List.mem_cons, not_or] at h
    rw [put, if_neg (Ne.symm h.1), ih h.2, List.cons_append]

/-- Writing under new keys appends the entries. -/
theorem Table.entries_foldl_insert {κ α : Type} [DecidableEq κ] (es : List (κ × α))
    (t : Table κ α) (h : (t.entries.map Prod.fst ++ es.map Prod.fst).Nodup) :
    (es.foldl (fun t e => t.insert e.1 e.2) t).entries = t.entries ++ es := by
  induction es generalizing t with
  | nil => simp
  | cons e es ih =>
    have hnew : e.1 ∉ t.entries.map Prod.fst := fun hmem =>
      (List.nodup_append.1 h).2.2 e.1 hmem e.1 List.mem_cons_self rfl
    have hput : (t.insert e.1 e.2).entries = t.entries ++ [e] := put_of_not_mem hnew
    rw [List.foldl_cons, ih, hput, List.append_assoc, List.singleton_append]
    rw [hput, List.map_append, List.append_assoc]
    exact h

/-- The ids of the reads of a program, none of which two reads share. -/
def Block.DistinctReads (block : Block) : Prop := ((Stmt.readsAll block.body).map Prod.fst).Nodup

theorem Block.distinctReads_of_parse {s t : TokenStream} {block : Block}
    (h : Block.parse s = .ok block t) : block.DistinctReads := by
  obtain ⟨-, hperm⟩ := Block.parse_draws h
  exact (Stmt.readsAll_sublist block.body).nodup (hperm.nodup_iff.2 List.nodup_range')

namespace Resolver

/-- The sites of a program that stands among globals. -/
def sites (r : Resolver) (block : Block) : List Site :=
  Stmt.sitesAll block.body (.ofGlobals r.scopes.globals.entries)

theorem fits_start {r : Resolver} (hscopes : r.scopes.opened = []) :
    Fits (.ofGlobals r.scopes.globals.entries) r.start := by
  refine ⟨?_, iff_of_false Bool.false_ne_true fun h => h rfl,
    iff_of_false Bool.false_ne_true fun h => h rfl, iff_of_false Bool.false_ne_true fun h => h rfl⟩
  show List.Forall₂ Holding [_] (r.scopes.opened ++ [_])
  rw [hscopes]
  exact .cons (fun name => Table.seek_eq_lookup name _) .nil

/-- Resolution decides lexical scoping: a program is accepted if and only if all its sites are legal.
Then the distances are those of its reads, each noted once if no two reads share an id; and no two
reads of a program that was parsed do. -/
theorem resolve_iff_legal (r : Resolver) (block : Block) (hscopes : r.scopes.opened = [])
    (hdistances : r.distances = .empty) :
    ((∃ d, (r.resolve block).1 = .ok d) ↔ ∀ s ∈ r.sites block, s.Legal) ∧
    (∀ d, (r.resolve block).1 = .ok d → block.DistinctReads →
      d.entries.Perm ((r.sites block).filterMap Site.entry?)) ∧
    (∀ s t, Block.parse s = .ok block t → block.DistinctReads) := by
  obtain ⟨names, hdecides⟩ := Stmt.resolveAll_decides block.body (.ofGlobals r.scopes.globals.entries)
  have hverdict := hdecides (fits_start hscopes)
  refine ⟨?_, ?_, fun s t => Block.distinctReads_of_parse⟩
  · unfold resolve EStateM.run
    generalize Stmt.resolveAll block.body r.start = run at hverdict
    cases hverdict with
    | accepted legal passes => exact iff_of_true ⟨_, rfl⟩ legal
    | rejected mem illegal => exact iff_of_false nofun fun h => illegal (h _ mem)
  · unfold resolve EStateM.run
    generalize Stmt.resolveAll block.body r.start = run at hverdict
    cases hverdict with
    | rejected mem illegal => nofun
    | accepted legal passes =>
      rintro d ⟨⟩ hdistinct
      obtain ⟨entries, hperm, hnoted⟩ := passes.noted
      have hids : (entries.map Prod.fst).Nodup := by
        have hreads := Stmt.siteIds_sitesAll block.body (.ofGlobals r.scopes.globals.entries)
        rw [(hperm.map Prod.fst).nodup_iff, ← Stmt.siteIds, hreads]
        exact hdistinct
      rw [hnoted, show r.start.distances = .empty from hdistances, Table.entries_foldl_insert]
      · exact hperm
      · exact hids

/-- A class whose method reads `this`, a global, its parameter and a variable that is declared in a
loop without braces. -/
def counterBlock : Block :=
  let span : Span := ⟨.nowhere, .nowhere⟩
  let read (id : Nat) (name : String) : Expr := .symbol ⟨id, span⟩ name
  let body : List Stmt :=
    [.whileLoop span (read 1 "this") (.varDecl span "last" false none (some (read 2 "n"))),
     .forIn span "i" (read 3 "limits") span
      [.ifElse span (read 4 "i") (.jump span false) (some (.expr span (read 5 "n")))],
     .ret span (some (read 6 "last"))]
  let run : FnDecl Stmt := ⟨"run", [⟨"n", .named "int" [] span, span⟩], none, body, span, span⟩
  ⟨[.classDecl span "Counter" none [] [] [⟨.none, run⟩]], span⟩

theorem resolve_iff_legal_counter :
    ∃ d, ((Resolver.empty.defineGlobal "limits").resolve counterBlock).1 = .ok d ∧
      d.entries.Perm [(1, 1), (2, 0), (3, 2), (4, 0), (5, 1), (6, 0)] := by
  obtain ⟨haccepts, hentries, -⟩ :=
    resolve_iff_legal (Resolver.empty.defineGlobal "limits") counterBlock rfl rfl
  obtain ⟨d, hd⟩ := haccepts.2 (by decide +kernel)
  exact ⟨d, hd, hentries d hd (by unfold Block.DistinctReads; decide +kernel)⟩

end Resolver

end ScriptCheck
