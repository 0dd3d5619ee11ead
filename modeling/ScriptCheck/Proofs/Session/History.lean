import ScriptCheck.Proofs.Binding.Occurrences
import ScriptCheck.Proofs.Parsing.Leaves
import ScriptCheck.Proofs.Session.Distances

/-!
The statements behind a session. A session knows what the programs declare that have passed in it; the
place behind their statements is the place where the next program starts. In every program that is read,
resolved and bound there, each expression was bound at its place, and each name in it has the distance
that resolution has noted.
-/

namespace ScriptCheck

open Ty (Closed)

variable {P : Ty → Prop}

/-! ### Names of an expression -/

namespace BoundExpr

variable {D : Nat → Nat → Prop}

mutual

theorem carries_subterms : ∀ e : BoundExpr, e.Carries D → ∀ x ∈ e.subterms, x.Carries D
  | .literal _ _, h, x, hx => List.mem_singleton.1 hx ▸ h
  | .keyword _ _, h, x, hx => List.mem_singleton.1 hx ▸ h
  | .symbol _ _ _, h, x, hx => List.mem_singleton.1 hx ▸ h
  | .array _ elements, h, x, hx => by
    rcases List.mem_cons.1 hx with rfl | hx
    · exact h
    · exact allCarry_subterms elements h x hx
  | .object _ entries, h, x, hx => by
    rcases List.mem_cons.1 hx with rfl | hx
    · exact h
    · exact entriesCarry_subterms entries h x hx
  | .binary _ _ left right, h, x, hx => by
    rcases List.mem_cons.1 hx with rfl | hx
    · exact h
    · rcases List.mem_append.1 hx with hx | hx
      · exact carries_subterms left h.1 x hx
      · exact carries_subterms right h.2 x hx
  | .unary _ _ operand, h, x, hx => by
    rcases List.mem_cons.1 hx with rfl | hx
    · exact h
    · exact carries_subterms operand h x hx
  | .assign _ _ target value, h, x, hx => by
    rcases List.mem_cons.1 hx with rfl | hx
    · exact h
    · rcases List.mem_append.1 hx with hx | hx
      · exact carries_subterms target h.1 x hx
      · exact carries_subterms value h.2 x hx
  | .access _ receiver key _, h, x, hx => by
    rcases List.mem_cons.1 hx with rfl | hx
    · exact h
    · rcases List.mem_append.1 hx with hx | hx
      · exact carries_subterms receiver h.1 x hx
      · exact keyCarries_subterms key h.2 x hx
  | .call _ callee args, h, x, hx => by
    rcases List.mem_cons.1 hx with rfl | hx
    · exact h
    · rcases List.mem_append.1 hx with hx | hx
      · exact carries_subterms callee h.1 x hx
      · exact allCarry_subterms args h.2 x hx
  | .construct _ _ args, h, x, hx => by
    rcases List.mem_cons.1 hx with rfl | hx
    · exact h
    · exact allCarry_subterms args h x hx
termination_by structural e => e

theorem allCarry_subterms : ∀ es : List BoundExpr, AllCarry D es → ∀ x ∈ subtermsAll es, x.Carries D
  | [], _ => nofun
  | e :: es, h => List.forall_mem_append.2 ⟨carries_subterms e h.1, allCarry_subterms es h.2⟩
termination_by structural es => es

theorem keyCarries_subterms : ∀ k : BoundKey BoundExpr, KeyCarries D k → ∀ x ∈ subtermsKey k, x.Carries D
  | .name _, _ => nofun
  | .computed e, h => carries_subterms e h
termination_by structural k => k

theorem entriesCarry_subterms : ∀ es : List (BoundEntry BoundExpr), EntriesCarry D es →
    ∀ x ∈ subtermsEntries es, x.Carries D
  | [], _ => nofun
  | ⟨key, value⟩ :: es, h =>
    List.forall_mem_append.2 ⟨List.forall_mem_append.2
      ⟨keyCarries_subterms key h.1, carries_subterms value h.2.1⟩, entriesCarry_subterms es h.2.2⟩
termination_by structural es => es

end

end BoundExpr

namespace BoundStmt

variable {D : Nat → Nat → Prop}

theorem carries_optional {e : Option BoundExpr} (h : ∀ t ∈ e, t.Carries D) (p : Place) :
    ∀ x ∈ optional e p, x.expr.Carries D := by
  intro x hx
  obtain ⟨t, ht, rfl⟩ := List.mem_map.1 hx
  exact h t (Option.mem_toList.1 ht)

mutual

theorem carries_roots : ∀ (s : BoundStmt) (p : Place), s.Carries D →
    ∀ x ∈ s.roots p, x.expr.Carries D
  | .expr _ _, _, h => List.forall_mem_singleton.2 h
  | .block _ body, p, h => allCarry_roots body p.push h
  | .varDecl _ _ _ _ _, p, h => carries_optional h p
  | .ifElse _ _ onTrue onFalse, p, h =>
    List.forall_mem_cons.2 ⟨h.1, List.forall_mem_append.2
      ⟨carries_roots onTrue p h.2.1, optionCarries_roots onFalse (onTrue.after p) h.2.2⟩⟩
  | .whileLoop _ _ body, p, h => List.forall_mem_cons.2 ⟨h.1, carries_roots body p h.2⟩
  | .forIn _ name _ _ body, p, h => List.forall_mem_cons.2 ⟨h.1, allCarry_roots body _ h.2⟩
  | .fnDecl _ f, _, h => fnCarries_roots f _ h
  | .ret _ _, p, h => carries_optional h p
  | .jump _ _, _, _ => nofun
  | .classDecl _ _ _ methods, p, h => by
    refine List.forall_mem_append.2 ⟨fun x hx => ?_, fnsCarry_roots methods _ h.2⟩
    obtain ⟨f, hf, hx⟩ := List.mem_flatMap.1 hx
    exact carries_optional (h.1 f hf) _ x hx
  | .typeDecl _ _ _, _, _ => nofun
termination_by structural s => s

theorem allCarry_roots : ∀ (ss : List BoundStmt) (p : Place), AllCarry D ss →
    ∀ x ∈ rootsAll ss p, x.expr.Carries D
  | [], _, _ => nofun
  | s :: ss, p, h =>
    List.forall_mem_append.2 ⟨carries_roots s p h.1, allCarry_roots ss (s.after p) h.2⟩
termination_by structural ss => ss

theorem optionCarries_roots : ∀ (s : Option BoundStmt) (p : Place), OptionCarries D s →
    ∀ x ∈ rootsOption s p, x.expr.Carries D
  | none, _, _ => nofun
  | some s, p, h => carries_roots s p h
termination_by structural s => s

theorem fnCarries_roots : ∀ (f : BoundFn BoundStmt) (p : Place), FnCarries D f →
    ∀ x ∈ rootsFn f p, x.expr.Carries D
  | ⟨_, _, body⟩, _, h => allCarry_roots body _ h
termination_by structural f => f

theorem fnsCarry_roots : ∀ (fs : List (BoundFn BoundStmt)) (p : Place), FnsCarry D fs →
    ∀ x ∈ rootsFns fs p, x.expr.Carries D
  | [], _, _ => nofun
  | f :: fs, p, h => List.forall_mem_append.2 ⟨fnCarries_roots f p h.1, fnsCarry_roots fs p h.2⟩
termination_by structural fs => fs

end

/-- What holds of all expressions in the outermost ones holds of all expressions. -/
theorem forall_mem_occurrences {ss : List BoundStmt} {p : Place} {Q : Occurrence → Prop}
    (h : ∀ x ∈ rootsAll ss p, ∀ e ∈ x.expr.subterms, Q ⟨x.place, e⟩) :
    ∀ x ∈ occurrences ss p, Q x := by
  intro x hx
  obtain ⟨root, hroot, hx⟩ := List.mem_flatMap.1 hx
  obtain ⟨e, he, rfl⟩ := List.mem_map.1 hx
  exact h root hroot e he

end BoundStmt

/-! ### Intrinsic names -/

theorem Ty.Closed.intrinsic (hP : Closed P) : ∀ i ∈ Intrinsic.all, i.2.Every P := by
  have hunary : Intrinsic.unaryMath.Every P := hP.fn (by simpa using hP.number) (hP.singular _)
  have hbinary : Intrinsic.binaryMath.Every P :=
    hP.fn (by simpa using hP.number) (hP.singular _)
  have hrounding : Intrinsic.roundingMath.Every P :=
    hP.fn (List.forall_mem_singleton.2 (hP.singular _)) (hP.singular _)
  have hmembers : ∀ m ∈ Intrinsic.mathMembers, m.2.Every P := by
    simp only [Intrinsic.mathMembers, List.forall_mem_cons]
    exact ⟨hP.singular _, hP.singular _, hrounding, hrounding, hrounding, hunary, hunary,
      hP.fn (List.forall_mem_nil _) (hP.singular _), hbinary, hbinary, List.forall_mem_nil _⟩
  have hmath : Intrinsic.math.Every P := by
    refine .interface (hP.interface _) (fun p hp => ?_) (List.forall_mem_nil _)
    obtain ⟨m, hm, rfl⟩ := List.mem_map.1 hp
    exact hmembers m hm
  have hfn : ∀ name param result : String,
      (Ty.fn [(name, .singular param)] (.singular result)).Every P := fun name param result =>
    hP.fn (List.forall_mem_singleton.2 (hP.singular param)) (hP.singular result)
  simp only [Intrinsic.all, List.forall_mem_cons]
  exact ⟨hfn _ _ _, hfn _ _ _, hfn _ _ _, hfn _ _ _, hfn _ _ _, hfn _ _ _, hfn _ _ _, hmath,
    List.forall_mem_nil _⟩

theorem Registry.intrinsic_every (hP : Closed P) : Registry.intrinsic.scopes.Holds (Ty.Every P) := by
  unfold intrinsic
  generalize intrinsicTypeNames.filter (· ≠ "Array") = names
  suffices hfold : ∀ r : Registry, r.scopes.Holds (Ty.Every P) →
      (names.foldl (fun r name => r.declare name (.singular name)) r).scopes.Holds (Ty.Every P) from
    hfold ⟨.empty⟩ .empty
  induction names with
  | nil => exact fun _ hr => hr
  | cons name names ih => exact fun r hr => ih _ (hr.insert (hP.singular name) name)

/-- At the start of a new session only the intrinsic names are known. -/
theorem Place.Fits.intrinsic (hP : Closed P) (mode : ErrorMode) :
    Place.intrinsic.Fits P (Session.new mode).binder := by
  have hstart : Place.Fits P ⟨.empty, .intrinsic, []⟩ .empty :=
    { names := .cons (fun _ => rfl) .nil
      types := List.forall₂_same.2 fun scope _ name => by
        cases scope.get? name with
        | none => exact .none
        | some t => exact .some (.refl t)
      classes := rfl
      around := nofun
      every := ⟨.empty, Registry.intrinsic_every hP⟩ }
  have htypes := hP.intrinsic
  unfold Place.intrinsic Session.new
  dsimp only
  generalize Intrinsic.all = is at htypes
  suffices hfold : ∀ {p : Place} {b : Binder}, p.Fits P b →
      (is.foldl (fun p i => p.declare i.1 .intrinsic) p).Fits P
        (is.foldl (fun b i => b.defineConst i.1 i.2) b) from hfold hstart
  induction is with
  | nil => exact fun hp => hp
  | cons i is ih =>
    rw [List.forall_mem_cons] at htypes
    exact fun hp => ih htypes.2 (hp.define .intrinsic rfl htypes.1 i.1)

/-! ### Sessions -/

/-- A program that is bound has its statements bound in order. -/
theorem Binder.run_of_bind {b : Binder} {block : Block} {distances : Table Nat Nat}
    {statements : List BoundStmt} (h : (b.bind block distances).1 = .ok statements) :
    ∃ b', Stmt.bindAll block.body (b.start distances) = .ok statements b' := by
  unfold Binder.bind at h
  split at h
  · rename_i hrun
    cases h
    exact ⟨_, hrun⟩
  · cases h

namespace Session

variable {s after : Session} {source file : String} {past statements : List BoundStmt}
  {distances : Table Nat Nat}

/-- A session with the statements of the programs that have passed in it. -/
inductive History : Session → List BoundStmt → Prop
  | new (mode : ErrorMode) : History (.new mode) []
  | passed {s after : Session} {past : List BoundStmt} {program : CheckedProgram}
      {source file : String} (h : History s past)
      (hcheck : s.check source file = (.ok program, after)) :
      History after (past ++ program.statements)
  | failed {s after : Session} {past : List BoundStmt} {e : Failure} {source file : String}
      (h : History s past) (hcheck : s.check source file = (.error e, after)) : History after past
  | takeErrors {s : Session} {past : List BoundStmt} (h : History s past) :
      History s.takeErrors.2 past

theorem History.reachable (h : s.History past) : s.Reachable := by
  induction h with
  | new mode => exact .new mode
  | @passed s _ _ _ source file _ hcheck ih =>
    have hafter := ih.check source file
    rwa [hcheck] at hafter
  | @failed s _ _ _ source file _ hcheck ih =>
    have hafter := ih.check source file
    rwa [hcheck] at hafter
  | takeErrors _ ih => exact ih.takeErrors

/-- Every session that there can be has a history. -/
theorem Reachable.history (h : s.Reachable) : ∃ past, s.History past := by
  induction h with
  | new mode => exact ⟨[], .new mode⟩
  | @check s _ source file ih =>
    obtain ⟨past, hpast⟩ := ih
    cases hcheck : s.check source file with
    | mk result after =>
      cases result with
      | ok program => exact ⟨_, hpast.passed hcheck⟩
      | error e => exact ⟨_, hpast.failed hcheck⟩
  | takeErrors _ ih =>
    obtain ⟨past, hpast⟩ := ih
    exact ⟨past, hpast.takeErrors⟩

/-- The binder of a session fits the place behind the statements of its history. -/
theorem History.fits (hP : Closed P) (h : s.History past) :
    (∀ d ∈ BoundStmt.classesAll past, d.Admitted P) → ∀ distances,
      (BoundStmt.afterAll past .intrinsic).Fits P (s.binder.start distances) := by
  induction h with
  | new mode => exact fun _ _ => (Place.Fits.intrinsic hP mode).congr rfl rfl rfl
  | @passed s _ past program source file hs hcheck ih =>
    intro hclasses distances
    rw [BoundStmt.classesAll_append, List.forall_mem_append] at hclasses
    have hsettled := hs.reachable.settled
    cases passes_of_check hcheck with
    | @intro tokens block stream r statements b htokens hparse hresolve hbind _ =>
      have hsound := Stmt.bindAll_sound hP block.body hbind (Block.parse_wellRead hP.literal hparse)
        (ih hclasses.1 r.distances) hclasses.2
      have hkept := (Stmt.bindAll_kept block.body _).of_ok (.refl _) hbind
      -- Only the global scopes are open behind the program, so that closing changes nothing.
      have hdepth : s.resolver.scopes.depth = 1 := by rw [ScopeStack.depth, hsettled.opened]; rfl
      have hvalues : b.scopes.truncate = b.scopes :=
        ScopeStack.truncate_of_depth (hkept.values.depth.trans (hsettled.fits.depth_eq.trans hdepth))
      have htypes : b.types.scopes.truncate = b.types.scopes :=
        ScopeStack.truncate_of_depth (hkept.types.depth.trans (hsettled.typeDepth.trans hdepth))
      rw [BoundStmt.afterAll, List.foldl_append]
      exact hsound.fits.congr hvalues (congrArg Registry.mk htypes) hkept.classes.symm
  | @failed s _ past e source file hs hcheck ih =>
    intro hclasses distances
    obtain ⟨n, -, hrestored⟩ := fails_of_check hcheck
    have hscopes := (hrestored.scopes_eq hs.reachable.settled).2
    exact (ih hclasses distances).congr hscopes hrestored.types rfl
  | takeErrors _ ih => exact ih

/-- The program is read, resolved and bound. -/
def Accepts (s : Session) (source file : String) (distances : Table Nat Nat)
    (statements : List BoundStmt) : Prop :=
  ∃ block r b, s.ReadsAs source file block ∧ s.resolver.resolve block = (.ok distances, r) ∧
    s.binder.bind block distances = (.ok statements, b)

/-- In a program that is bound, every expression was bound at its place. -/
theorem Accepts.sound (h : s.Accepts source file distances statements) (hs : s.History past)
    (hP : Closed P) (hclasses : ∀ d ∈ BoundStmt.classesAll (past ++ statements), d.Admitted P) :
    ∀ x ∈ BoundStmt.occurrences statements (BoundStmt.afterAll past .intrinsic), x.Sound P := by
  obtain ⟨block, r, b, ⟨tokens, stream, -, hparse⟩, -, hbind⟩ := h
  rw [BoundStmt.classesAll_append, List.forall_mem_append] at hclasses
  obtain ⟨b', hrun⟩ := Binder.run_of_bind (congrArg Prod.fst hbind)
  have hsound := Stmt.bindAll_sound hP block.body hrun (Block.parse_wellRead hP.literal hparse)
    (hs.fits hP hclasses.1 distances) hclasses.2
  refine BoundStmt.forall_mem_occurrences fun x hx e he => ?_
  obtain ⟨base, hfits, htyped⟩ := hsound.roots x hx
  exact ⟨base, hfits, htyped.subterms e he⟩

/-- In a program that is bound, every name has the distance that resolution has noted. -/
theorem Accepts.carries (h : s.Accepts source file distances statements) (hs : s.Reachable)
    (p : Place) : ∀ x ∈ BoundStmt.occurrences statements p,
      x.expr.Carries fun id d => distances.get? id = some d := by
  obtain ⟨block, r, b, ⟨tokens, stream, -, hparse⟩, hresolve, hbind⟩ := h
  unfold Resolver.resolve at hresolve
  split at hresolve
  · rename_i r' hresolved
    cases hresolve
    unfold Binder.bind at hbind
    split at hbind
    · rename_i hrun
      cases hbind
      have hcarry := (bindAll_forgetting hs.settled hparse hresolved hrun fun _ _ h => h).1
      refine BoundStmt.forall_mem_occurrences fun x hx e he => ?_
      exact BoundExpr.carries_subterms x.expr (BoundStmt.allCarry_roots statements p hcarry x hx) e he
    · cases hbind
  · cases hresolve

/-- A result may be looked at. -/
theorem exists_ok_where {ε α : Type} {x : Except ε α} {test : α → Bool}
    (h : x.toOption.any test = true) : ∃ a, x = .ok a ∧ test a = true := by
  cases x with
  | ok a => exact ⟨a, rfl, h⟩
  | error e => cases h

/-- A program that passes may be looked at. -/
theorem exists_program_where {test : CheckedProgram → Bool}
    (h : (s.check source file).1.toOption.any test = true) :
    ∃ program after, s.check source file = (.ok program, after) ∧ test program = true := by
  obtain ⟨program, hresult, htest⟩ := exists_ok_where h
  exact ⟨program, (s.check source file).2, Prod.ext hresult rfl, htest⟩

/-- A program that passes is bound. -/
theorem accepts_of_check {program : CheckedProgram}
    (h : s.check source file = (.ok program, after)) :
    s.Accepts source file program.distances program.statements := by
  cases passes_of_check h with
  | @intro tokens block stream r statements b htokens hparse hresolve hbind _ =>
    refine ⟨block, r.close, b.close, ⟨tokens, stream, htokens, hparse⟩, ?_, ?_⟩
    · simp only [Resolver.resolve, EStateM.run, hresolve]
    · simp only [Binder.bind, EStateM.run, hbind]

end Session

end ScriptCheck
