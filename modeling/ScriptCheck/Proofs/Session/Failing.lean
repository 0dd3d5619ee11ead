import ScriptCheck.Proofs.Parsing.Relabeled
import ScriptCheck.Proofs.Relabel.Tables
import ScriptCheck.Proofs.Session.Distances

/-!
A failing program is invisible. It leaves the session with the names, values, types and type names from
before, and only ids are used up. Two sessions that differ in nothing but the next id stay like that while
the same programs are checked in both, and give the same results up to the ids of expressions.
-/

namespace ScriptCheck

open Relabeling

/-- What checking has found out, with new labels. -/
def CheckedProgram.relabel (f : Relabeling) (p : CheckedProgram) : CheckedProgram :=
  ⟨BoundStmt.relabelAll f p.statements, p.distances.relabel f, p.boundTypes.relabel f⟩

/-! ### Shifted ids -/

variable {k : Nat}

theorem Failure.relabel_shiftIds : ∀ e : Failure, e.relabel (shiftIds k) = e
  | .rejected _ => rfl
  | .stuck => rfl

/-- Reading does not depend on which ids are drawn. -/
theorem Block.parse_shifted (k : Nat) (s : TokenStream) :
    Block.parse (s.relabel (shiftIds k)) =
      relabelOutcome (shiftIds k) (Block.relabel (shiftIds k)) (Block.parse s) :=
  (Block.parseFrom_lockstep (c := ⟨shiftIds k, True, True⟩) trivial ⟨0, s.file⟩).relabeled
    (fun i => Nat.add_right_comm i 1 k) trivial s

/-- Two runs of resolution with shifted ids. -/
def Paths.shifted (k : Nat) : Paths :=
  ⟨shiftIds k, fun t t' => t' = t.relabel (shiftIds k), fun _ => True,
    follows_relabel (injective_shiftIds k)⟩

/-- Two runs of binding with shifted ids. -/
def Sides.shifted (k : Nat) (known : Table Nat Nat) : Sides where
  labels := shiftIds k
  known
  known' := known.relabel (shiftIds k)
  tables := fun t t' => t' = t.relabel (shiftIds k)
  fresh := fun _ => True
  drops := fun _ => False
  follows := follows_relabel (injective_shiftIds k)
  leads := fun {i _} h => .inl ((Table.get?_relabel (injective_shiftIds k) known i).trans h)

namespace Session

/-- The sessions differ in nothing but the next id that matters to a check. -/
structure Shifted (k : Nat) (s t : Session) : Prop where
  names : t.resolver.scopes = s.resolver.scopes
  values : t.binder.scopes = s.binder.scopes
  types : t.binder.types = s.binder.types
  typeNames : t.typeNames = s.typeNames
  nextId : t.nextId = s.nextId + k

namespace Shifted

variable {s t after : Session} {source file : String} {tokens : List Token} {block : Block}
  {stream : TokenStream}

theorem stream_eq (h : Shifted k s t) (tokens : List Token) (file : String) :
    t.stream tokens file = (s.stream tokens file).relabel (shiftIds k) := by
  have hsame (ts : List Token) : ts.map (Token.relabel (shiftIds k)) = ts :=
    List.map_id'' (f := Token.relabel (shiftIds k)) (fun _ => rfl) ts
  simp only [Session.stream, h.typeNames, h.nextId, TokenStream.relabel, hsame]
  rfl

theorem parse_ok (h : Shifted k s t)
    (hparse : Block.parse (s.stream tokens file) = .ok block stream) :
    Block.parse (t.stream tokens file) =
      .ok (block.relabel (shiftIds k)) (stream.relabel (shiftIds k)) := by
  rw [h.stream_eq, Block.parse_shifted, hparse]
  rfl

theorem resolve_agrees (h : Shifted k s t) (hs : Settled s.resolver s.binder)
    (ht : Settled t.resolver t.binder) (block : Block) :
    Agree (shiftIds k).blame (Paths.shifted k).Related (fun u => u) (fun _ => True)
      (Stmt.resolveAll block.body s.resolver.start)
      (Stmt.resolveAll (block.relabel (shiftIds k)).body t.resolver.start) := by
  have hstart : (Paths.shifted k).Related s.resolver.start t.resolver.start := by
    refine ⟨?_, ?_⟩
    · simp only [Resolver.start, h.names]
    · show t.resolver.distances = s.resolver.distances.relabel (shiftIds k)
      rw [hs.distances, ht.distances]
      rfl
  have hcouples : (Paths.shifted k).Resolves _ _ :=
    Stmt.resolveAll_couples block.body fun _ _ => trivial
  rw [Stmt.relabelAll_eq_map] at hcouples
  exact hcouples hstart

theorem bind_agrees (h : Shifted k s t) (hs : Settled s.resolver s.binder) {r : Resolver}
    (hparse : Block.parse (s.stream tokens file) = .ok block stream)
    (hresolve : Stmt.resolveAll block.body s.resolver.start = .ok () r) :
    Agree (shiftIds k).failureBlame ((Sides.shifted k r.distances).Along r.scopes r.classDepth)
      (BoundStmt.relabelAll (shiftIds k))
      (BoundStmt.AllCarry (Sides.shifted k r.distances).belongs)
      (Stmt.bindAll block.body (s.binder.start r.distances))
      (Stmt.bindAll (block.relabel (shiftIds k)).body
        (t.binder.start (r.distances.relabel (shiftIds k)))) := by
  have hcovers := Block.covers_of_parse hparse (c := .shifted k r.distances)
    (fun _ _ => trivial) rfl
  have hagree := hs.binds hresolve hcovers h.values h.types rfl
  rw [Stmt.relabelAll_eq_map] at hagree
  exact hagree

theorem contracts_mirror (k : Nat) (statements : List BoundStmt) :
    Mirrors (shiftIds k).blame (checkContracts statements)
      (checkContracts (BoundStmt.relabelAll (shiftIds k) statements)) :=
  BoundStmt.checkAll_mirrors (shiftIds k) statements none

/-- What passes in one session passes in the other. -/
theorem passes {program : CheckedProgram} (h : Shifted k s t) (hs : Settled s.resolver s.binder)
    (ht : Settled t.resolver t.binder) (hpasses : s.Passes source file program after) :
    ∃ after', t.Passes source file (program.relabel (shiftIds k)) after' ∧
      Shifted k after after' := by
  obtain ⟨htokens, hparse, hresolve, hbind, hcontracts⟩ := hpasses
  rename_i tokens block stream r statements b
  obtain ⟨r', hresolve', hr, -⟩ := (h.resolve_agrees hs ht block).of_ok hresolve
  obtain ⟨b', hbind', hb, -⟩ := (h.bind_agrees hs hparse hresolve).of_ok hbind
  have hdistances : r'.distances = r.distances.relabel (shiftIds k) := hr.distances
  have hcontracts' := contracts_mirror k statements
  rw [hcontracts] at hcontracts'
  rw [← hdistances] at hbind'
  have hprogram : CheckedProgram.relabel (shiftIds k) ⟨statements, r.distances, b.boundTypes⟩ =
      ⟨BoundStmt.relabelAll (shiftIds k) statements, r'.distances, b'.boundTypes⟩ := by
    rw [CheckedProgram.relabel, hdistances, show b'.boundTypes = _ from hb.boundTypes]
  rw [hprogram]
  refine ⟨_, .intro htokens (h.parse_ok hparse) hresolve' hbind' hcontracts', ?_⟩
  exact
    { names := by rw [hr.same]; rfl
      values := congrArg ScopeStack.truncate hb.scopes
      types := congrArg Registry.truncate hb.types
      typeNames := rfl
      nextId := rfl }

/-- What fails in one session fails in the other in the same way. -/
theorem fails {e : Failure} {n : Nat} (h : Shifted k s t) (hs : Settled s.resolver s.binder)
    (ht : Settled t.resolver t.binder) (hfails : s.Fails source file e n) :
    t.Fails source file e (n + k) := by
  cases hfails with
  | unread htokens =>
    rw [← h.nextId]
    exact .unread htokens
  | @unparsed tokens e stream htokens hparse =>
    have hparse' : Block.parse (t.stream tokens file) =
        .error (e.relabel (shiftIds k)) (stream.relabel (shiftIds k)) := by
      rw [h.stream_eq, Block.parse_shifted, hparse]
      rfl
    rw [Failure.relabel_shiftIds] at hparse'
    exact .unparsed htokens hparse'
  | @unresolved _ block _ d _ htokens hparse hresolve =>
    obtain ⟨-, hnever | ⟨r', hresolve'⟩⟩ := (h.resolve_agrees hs ht block).of_error hresolve
    · exact hnever.elim
    · exact .unresolved htokens (h.parse_ok hparse) hresolve'
  | @unbound _ block _ r e _ htokens hparse hresolve hbind =>
    obtain ⟨r', hresolve', hr, -⟩ := (h.resolve_agrees hs ht block).of_ok hresolve
    have hdistances : r'.distances = r.distances.relabel (shiftIds k) := hr.distances
    obtain ⟨-, hnever | ⟨b', hbind'⟩⟩ := (h.bind_agrees hs hparse hresolve).of_error hbind
    · exact hnever.elim
    · rw [← hdistances, show (shiftIds k).failureBlame.relabel e = e from e.relabel_shiftIds]
        at hbind'
      exact .unbound htokens (h.parse_ok hparse) hresolve' hbind'
  | @broken _ block _ r statements _ d htokens hparse hresolve hbind hcontracts =>
    obtain ⟨r', hresolve', hr, -⟩ := (h.resolve_agrees hs ht block).of_ok hresolve
    have hdistances : r'.distances = r.distances.relabel (shiftIds k) := hr.distances
    obtain ⟨b', hbind', -, -⟩ := (h.bind_agrees hs hparse hresolve).of_ok hbind
    have hcontracts' := contracts_mirror k statements
    rw [hcontracts] at hcontracts'
    rw [← hdistances] at hbind'
    exact .broken htokens (h.parse_ok hparse) hresolve' hbind' hcontracts'.2

/-- A check gives the same in both sessions up to ids, and they go on to differ by these only. -/
theorem check (h : Shifted k s t) (hs : Settled s.resolver s.binder)
    (ht : Settled t.resolver t.binder) (source file : String) :
    (t.check source file).1 = (s.check source file).1.map (CheckedProgram.relabel (shiftIds k)) ∧
      Shifted k (s.check source file).2 (t.check source file).2 := by
  obtain ⟨program, after, hpasses⟩ | ⟨e, n, hfails⟩ := s.passes_or_fails source file
  · obtain ⟨after', hpasses', hafter⟩ := h.passes hs ht hpasses
    rw [check_of_passes hpasses, check_of_passes hpasses']
    exact ⟨rfl, hafter⟩
  · obtain ⟨after, hcheck, hrestored⟩ := check_of_fails hfails
    obtain ⟨after', hcheck', hrestored'⟩ := check_of_fails (h.fails hs ht hfails)
    rw [hcheck, hcheck']
    refine ⟨rfl, ?_⟩
    exact
      { names := by rw [hrestored.names, hrestored'.names, h.names]
        values := by rw [hrestored.values, hrestored'.values, h.values]
        types := by rw [hrestored.types, hrestored'.types, h.types]
        typeNames := by rw [hrestored.typeNames, hrestored'.typeNames, h.typeNames]
        nextId := by rw [hrestored.nextId, hrestored'.nextId] }

end Shifted

variable {s after : Session} {source file : String}

/-- The session behind programs that are checked one after the other. -/
def checkAll (s : Session) (programs : List (String × String)) : Session :=
  programs.foldl (fun s p => (s.check p.1 p.2).2) s

/-- The sessions go on to differ by ids only, whatever is checked in both. -/
theorem Shifted.checkAll (programs : List (String × String)) : ∀ {s t : Session}, Shifted k s t →
    Settled s.resolver s.binder → Settled t.resolver t.binder →
    Shifted k (s.checkAll programs) (t.checkAll programs) ∧
      Settled (s.checkAll programs).resolver (s.checkAll programs).binder ∧
      Settled (t.checkAll programs).resolver (t.checkAll programs).binder := by
  induction programs with
  | nil => exact fun h hs ht => ⟨h, hs, ht⟩
  | cons p programs ih =>
    exact fun h hs ht => ih (h.check hs ht p.1 p.2).2 (settled_check hs p.1 p.2)
      (settled_check ht p.1 p.2)

/-- Ids are used up, never given back. -/
theorem Fails.nextId_le {e : Failure} {n : Nat} (h : s.Fails source file e n) : s.nextId ≤ n := by
  have hread {tokens : List Token} {block : Block} {stream : TokenStream}
      (hparse : Block.parse (s.stream tokens file) = .ok block stream) : s.nextId ≤ stream.nextId :=
    (Block.parse_draws hparse).1
  cases h with
  | unread _ => exact Nat.le_refl _
  | @unparsed tokens e stream _ hparse =>
    have houtcome := Block.parse_outcome (s.stream tokens file)
    rw [hparse] at houtcome
    exact houtcome.1
  | unresolved _ hparse _ => exact hread hparse
  | unbound _ hparse _ _ => exact hread hparse
  | broken _ hparse _ _ _ => exact hread hparse

/-- A program that fails leaves the global names, values, types and type names as they were, and
whatever is checked afterwards gives what it would have given without that program, with the same
failures at the same places and with ids that are all larger by the same number. -/
theorem check_failing (hs : s.Reachable) {e : Failure}
    (hfails : s.check source file = (.error e, after)) :
    after.resolver.scopes.globals = s.resolver.scopes.globals ∧
      after.binder.globals = s.binder.globals ∧ after.typeNames = s.typeNames ∧
      ∃ k, ∀ later v file',
        ((after.checkAll later).check v file').1 =
          ((s.checkAll later).check v file').1.map (CheckedProgram.relabel (shiftIds k)) := by
  have hsettled := hs.settled
  obtain ⟨n, hfails, hrestored⟩ := fails_of_check hfails
  obtain ⟨hnames, hvalues⟩ := hrestored.scopes_eq hsettled
  refine ⟨by rw [hnames], ?_, hrestored.typeNames, n - s.nextId, fun later v file' => ?_⟩
  · rw [Binder.globals, Binder.globals, hvalues, hrestored.types]
  · have hshifted : Shifted (n - s.nextId) s after :=
      { names := hnames
        values := hvalues
        types := hrestored.types
        typeNames := hrestored.typeNames
        nextId := by rw [hrestored.nextId, Nat.add_sub_cancel' hfails.nextId_le] }
    obtain ⟨hlater, hs', ht'⟩ :=
      hshifted.checkAll later hsettled (settled_of_restored hsettled hrestored)
    exact (hlater.check hs' ht' v file').1

/-- A program that fails behind a declaration, and a session that goes on. -/
theorem check_failing_unknown :
    ∃ e after, (new .record).check "let a = 1; let b = c;" "main" = (.error e, after) ∧
      after.binder.globals = (new .record).binder.globals ∧
      ∃ k, ∀ later v file',
        ((after.checkAll later).check v file').1 =
          (((new .record).checkAll later).check v file').1.map
            (CheckedProgram.relabel (shiftIds k)) := by
  have hfails : ((new .record).check "let a = 1; let b = c;" "main").1.isOk = false := by
    decide +kernel
  obtain ⟨e, after, hcheck⟩ := exists_failure hfails
  obtain ⟨-, hglobals, -, hlater⟩ := check_failing (.new .record) hcheck
  exact ⟨e, after, hcheck, hglobals, hlater⟩

end Session

end ScriptCheck
