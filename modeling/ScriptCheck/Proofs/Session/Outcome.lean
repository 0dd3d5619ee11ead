import ScriptCheck.Session

/-!
What a check can do, said once. A program passes if every stage takes what the stage before it gives, and
it fails at the first stage that does not. The session behind a program that passes knows what it
declared; behind a failure it knows what it knew before, and only ids are used up.
-/

namespace ScriptCheck

namespace Session

/-- The program goes through all stages. -/
inductive Passes (s : Session) (source file : String) : CheckedProgram → Session → Prop
  | intro {tokens : List Token} {block : Block} {stream : TokenStream} {r : Resolver}
      {statements : List BoundStmt} {b : Binder}
      (htokens : tokenize source file = .ok tokens)
      (hparse : Block.parse (s.stream tokens file) = .ok block stream)
      (hresolve : Stmt.resolveAll block.body s.resolver.start = .ok () r)
      (hbind : Stmt.bindAll block.body (s.binder.start r.distances) = .ok statements b)
      (hcontracts : checkContracts statements = .ok ()) :
      Passes s source file ⟨statements, r.distances, b.boundTypes⟩
        { s with
          resolver := r.close
          binder := { b.close with boundTypes := .empty }
          typeNames := stream.typeNames
          nextId := stream.nextId }

/-- The program fails at one of the stages, and the next id is the given one. -/
inductive Fails (s : Session) (source file : String) : Failure → Nat → Prop
  | unread {d : Diagnostic} (htokens : tokenize source file = .error d) :
      Fails s source file (.rejected d) s.nextId
  | unparsed {tokens : List Token} {e : Failure} {stream : TokenStream}
      (htokens : tokenize source file = .ok tokens)
      (hparse : Block.parse (s.stream tokens file) = .error e stream) :
      Fails s source file e stream.nextId
  | unresolved {tokens : List Token} {block : Block} {stream : TokenStream} {d : Diagnostic}
      {r : Resolver} (htokens : tokenize source file = .ok tokens)
      (hparse : Block.parse (s.stream tokens file) = .ok block stream)
      (hresolve : Stmt.resolveAll block.body s.resolver.start = .error d r) :
      Fails s source file (.rejected d) stream.nextId
  | unbound {tokens : List Token} {block : Block} {stream : TokenStream} {r : Resolver}
      {e : Failure} {b : Binder} (htokens : tokenize source file = .ok tokens)
      (hparse : Block.parse (s.stream tokens file) = .ok block stream)
      (hresolve : Stmt.resolveAll block.body s.resolver.start = .ok () r)
      (hbind : Stmt.bindAll block.body (s.binder.start r.distances) = .error e b) :
      Fails s source file e stream.nextId
  | broken {tokens : List Token} {block : Block} {stream : TokenStream} {r : Resolver}
      {statements : List BoundStmt} {b : Binder} {d : Diagnostic}
      (htokens : tokenize source file = .ok tokens)
      (hparse : Block.parse (s.stream tokens file) = .ok block stream)
      (hresolve : Stmt.resolveAll block.body s.resolver.start = .ok () r)
      (hbind : Stmt.bindAll block.body (s.binder.start r.distances) = .ok statements b)
      (hcontracts : checkContracts statements = .error d) :
      Fails s source file (.rejected d) stream.nextId

/-- The session behind a failure knows what it knew before. -/
structure Restored (s : Session) (nextId : Nat) (after : Session) : Prop where
  names : after.resolver.scopes = .ofGlobals s.resolver.scopes.globals
  distances : after.resolver.distances = .empty ∨ after.resolver.distances = s.resolver.distances
  values : after.binder.scopes = .ofGlobals s.binder.scopes.globals
  types : after.binder.types = s.binder.types
  typeNames : after.typeNames = s.typeNames
  nextId : after.nextId = nextId

variable {s after : Session} {source file : String}

/-- What is restored does not depend on what is recorded. -/
theorem recover_restored {before : Session} {e : Failure} {n : Nat}
    (hdistances : after.resolver.distances = .empty ∨
      after.resolver.distances = before.resolver.distances)
    (htypeNames : after.typeNames = before.typeNames) (hnextId : after.nextId = n) :
    before.Restored n (before.recover after e) := by
  have hrestored : before.Restored n
      { after with
        resolver := after.resolver.restore before.resolver.scopes.globals
        binder := after.binder.restore before.binder.globals } :=
    ⟨rfl, hdistances, rfl, rfl, htypeNames, hnextId⟩
  unfold recover
  split
  · exact { hrestored with }
  · exact hrestored

theorem check_of_passes {program : CheckedProgram} (h : s.Passes source file program after) :
    s.check source file = (.ok program, after) := by
  obtain ⟨htokens, hparse, hresolve, hbind, hcontracts⟩ := h
  simp only [check, run, checkBlock, Resolver.resolve, Binder.bind, EStateM.run, htokens, hparse,
    hresolve, hbind, hcontracts]
  rfl

theorem check_of_fails {e : Failure} {n : Nat} (h : s.Fails source file e n) :
    ∃ after, s.check source file = (.error e, after) ∧ s.Restored n after := by
  cases h with
  | unread htokens =>
    simp only [check, run, htokens]
    exact ⟨_, rfl, recover_restored (.inr rfl) rfl rfl⟩
  | unparsed htokens hparse =>
    simp only [check, run, EStateM.run, htokens, hparse]
    exact ⟨_, rfl, recover_restored (.inr rfl) rfl rfl⟩
  | unresolved htokens hparse hresolve =>
    simp only [check, run, checkBlock, Resolver.resolve, EStateM.run, htokens, hparse, hresolve]
    exact ⟨_, rfl, recover_restored (.inl rfl) rfl rfl⟩
  | unbound htokens hparse hresolve hbind =>
    simp only [check, run, checkBlock, Resolver.resolve, Binder.bind, EStateM.run, htokens, hparse,
      hresolve, hbind]
    exact ⟨_, rfl, recover_restored (.inl rfl) rfl rfl⟩
  | broken htokens hparse hresolve hbind hcontracts =>
    simp only [check, run, checkBlock, Resolver.resolve, Binder.bind, EStateM.run, htokens, hparse,
      hresolve, hbind, hcontracts]
    exact ⟨_, rfl, recover_restored (.inl rfl) rfl rfl⟩

theorem passes_or_fails (s : Session) (source file : String) :
    (∃ program after, s.Passes source file program after) ∨ ∃ e n, s.Fails source file e n := by
  cases htokens : tokenize source file with
  | error d => exact .inr ⟨_, _, .unread htokens⟩
  | ok tokens =>
    cases hparse : Block.parse (s.stream tokens file) with
    | error e stream => exact .inr ⟨_, _, .unparsed htokens hparse⟩
    | ok block stream =>
      cases hresolve : Stmt.resolveAll block.body s.resolver.start with
      | error d r => exact .inr ⟨_, _, .unresolved htokens hparse hresolve⟩
      | ok _ r =>
        cases hbind : Stmt.bindAll block.body (s.binder.start r.distances) with
        | error e b => exact .inr ⟨_, _, .unbound htokens hparse hresolve hbind⟩
        | ok statements b =>
          cases hcontracts : checkContracts statements with
          | error d => exact .inr ⟨_, _, .broken htokens hparse hresolve hbind hcontracts⟩
          | ok _ => exact .inl ⟨_, _, .intro htokens hparse hresolve hbind hcontracts⟩

/-- A check that gives a program has taken it through all stages. -/
theorem passes_of_check {program : CheckedProgram} (h : s.check source file = (.ok program, after)) :
    s.Passes source file program after := by
  obtain ⟨p, t, hpasses⟩ | ⟨e, n, hfails⟩ := s.passes_or_fails source file
  · rw [check_of_passes hpasses] at h
    cases h
    exact hpasses
  · obtain ⟨t, hcheck, -⟩ := check_of_fails hfails
    rw [hcheck] at h
    cases h

/-- A check that gives a failure has failed at a stage and restored the session. -/
theorem fails_of_check {e : Failure} (h : s.check source file = (.error e, after)) :
    ∃ n, s.Fails source file e n ∧ s.Restored n after := by
  obtain ⟨p, t, hpasses⟩ | ⟨e', n, hfails⟩ := s.passes_or_fails source file
  · rw [check_of_passes hpasses] at h
    cases h
  · obtain ⟨t, hcheck, hrestored⟩ := check_of_fails hfails
    rw [hcheck] at h
    cases h
    exact ⟨n, hfails, hrestored⟩

theorem exists_program (h : (s.check source file).1.isOk = true) :
    ∃ program after, s.check source file = (.ok program, after) := by
  cases hcheck : s.check source file with
  | mk result after =>
    rw [hcheck] at h
    cases result with
    | ok program => exact ⟨program, after, rfl⟩
    | error e => cases h

theorem exists_failure (h : (s.check source file).1.isOk = false) :
    ∃ e after, s.check source file = (.error e, after) := by
  cases hcheck : s.check source file with
  | mk result after =>
    rw [hcheck] at h
    cases result with
    | ok program => cases h
    | error e => exact ⟨e, after, rfl⟩

end Session

end ScriptCheck
