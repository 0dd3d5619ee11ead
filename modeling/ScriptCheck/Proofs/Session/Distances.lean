import ScriptCheck.Proofs.Contracts
import ScriptCheck.Proofs.Relabel.Same
import ScriptCheck.Proofs.Resolving.Relabeled
import ScriptCheck.Proofs.Session.Reachable

/-!
Distances lead where names do. In every session that there can be, no program is rejected for a missing
symbol: a name that resolution finds has a value at the distance that resolution has noted. Binding the
program while some or all of the distances are forgotten, so that it searches its own scopes for these
names from the innermost one on, gives the same statements with the same distances.
-/

namespace ScriptCheck

/-! ### Failures before binding -/

theorem blameless_of_syntactic {d : Diagnostic} (h : d.cause.stage = .syntactic) :
    Blameless (.rejected d) := by
  intro name place heq
  cases heq
  cases h

theorem LexRule.token?_error {rule : LexRule} {file : String} {offset : Nat} {taken : List Char}
    {d : Diagnostic} (h : rule.token? file offset taken = .error d) : d.cause.stage = .syntactic := by
  unfold token? at h
  cases rule with
  | quoted quote =>
    dsimp only at h
    split at h
    · cases h
    · cases h
      rfl
  | _ => cases h

theorem scan_error {file : String} {offset : Nat} {cs : List Char} {d : Diagnostic}
    (h : scan file offset cs = .error d) : d.cause.stage = .syntactic := by
  fun_induction scan file offset cs with
  | case1 => cases h
  | case2 =>
    cases h
    rfl
  | case3 offset c rest rule n hfirst taken ih =>
    cases htoken : rule.token? file offset taken with
    | error d' =>
      rw [htoken] at h
      cases h
      exact LexRule.token?_error htoken
    | ok token? =>
      rw [htoken] at h
      cases hrest : scan file (offset + byteLength taken) ((c :: rest).drop n) with
      | error d' =>
        refine ih ?_
        simp only [hrest] at h ⊢
        cases h
        rfl
      | ok tokens =>
        simp only [hrest] at h
        cases h

/-- The failures of a parser are syntactic. -/
theorem Block.parse_blameless {s t : TokenStream} {e : Failure} (h : Block.parse s = .error e t) :
    Blameless e := by
  have houtcome := Block.parse_outcome s
  rw [h] at houtcome
  cases e with
  | rejected d => exact blameless_of_syntactic (houtcome.2 d rfl)
  | stuck => exact blameless_stuck

theorem Stmt.resolveAll_blameless {body : List Stmt} {r r' : Resolver} {d : Diagnostic}
    (h : resolveAll body r = .error d r') : Blameless (.rejected d) := by
  let c : Paths := ⟨.same, fun _ _ => True, fun _ => True, fun _ _ _ _ _ _ => trivial⟩
  have hcouples : c.Resolves _ _ := resolveAll_couples body fun _ _ => trivial
  have hsame : c.Related r r := ⟨rfl, trivial⟩
  exact ((hcouples hsame).of_error h).1

theorem checkContracts_blameless {statements : List BoundStmt} {d : Diagnostic}
    (h : checkContracts statements = .error d) : Blameless (.rejected d) := by
  have hmirrors := BoundStmt.checkAll_mirrors .same statements none
  rw [show BoundStmt.checkAll none statements = .error d from h] at hmirrors
  exact hmirrors.1

/-! ### Sessions -/

namespace Session

variable {s : Session} {source file : String}

/-- No stage rejects a program for a missing symbol. -/
theorem Fails.blameless {e : Failure} {n : Nat} (h : s.Fails source file e n)
    (hs : Settled s.resolver s.binder) : Blameless e := by
  cases h with
  | unread htokens => exact blameless_of_syntactic (scan_error htokens)
  | unparsed _ hparse => exact Block.parse_blameless hparse
  | unresolved _ _ hresolve => exact Stmt.resolveAll_blameless hresolve
  | unbound _ hparse hresolve hbind => exact ((hs.bindsAlone hparse hresolve).of_error hbind).1
  | broken _ _ _ _ hcontracts => exact checkContracts_blameless hcontracts

/-- The source is read as the given program. -/
def ReadsAs (s : Session) (source file : String) (block : Block) : Prop :=
  ∃ tokens stream, tokenize source file = .ok tokens ∧
    Block.parse (s.stream tokens file) = .ok block stream

/-- Binding gives the same statements if some of the distances are forgotten. -/
theorem bindAll_forgetting (hs : Settled s.resolver s.binder) {t t' : TokenStream} {block : Block}
    {r : Resolver} {statements : List BoundStmt} {b : Binder} (hparse : Block.parse t = .ok block t')
    (hresolve : Stmt.resolveAll block.body s.resolver.start = .ok () r)
    (hbind : Stmt.bindAll block.body (s.binder.start r.distances) = .ok statements b)
    {known : Table Nat Nat}
    (hknown : ∀ id d, known.get? id = some d → r.distances.get? id = some d) :
    BoundStmt.AllCarry (fun id d => r.distances.get? id = some d) statements ∧
      ∃ b', Stmt.bindAll block.body (s.binder.start known) = .ok statements b' := by
  have hcovers := Block.covers_of_parse hparse (c := .forgetting r.distances known hknown)
    (fun _ _ => trivial) rfl
  obtain ⟨b', hbind', -, hcarry⟩ := (hs.binds hresolve hcovers rfl rfl trivial).of_ok hbind
  refine ⟨hcarry, b', ?_⟩
  have hbody : Stmt.relabelAll (Sides.forgetting r.distances known hknown).labels block.body =
      block.body := Stmt.relabelAll_same block.body
  have hstatements : BoundStmt.relabelAll (Sides.forgetting r.distances known hknown).labels
      statements = statements := BoundStmt.relabelAll_same statements
  rw [hbody, hstatements] at hbind'
  exact hbind'

/-- Checking finds no symbol missing. In a program that checks, every name has the distance that
resolution has noted under its id; and it gets the same one if that distance is forgotten, so that
binding finds the name by a search of its own scopes. -/
theorem check_aligned (hs : s.Reachable) (source file : String) :
    (∀ name place, (s.check source file).1 ≠ .error (.of (.symbolNotFound name) place)) ∧
      ∀ program, (s.check source file).1 = .ok program →
        BoundStmt.AllCarry (fun id d => program.distances.get? id = some d) program.statements ∧
        ∃ block, s.ReadsAs source file block ∧
          ∀ known, (∀ id d, known.get? id = some d → program.distances.get? id = some d) →
            (s.binder.bind block known).1 = .ok program.statements := by
  have hsettled := hs.settled
  refine ⟨fun name place hcheck => ?_, fun program hcheck => ?_⟩
  · obtain ⟨n, hfails, -⟩ := fails_of_check (Prod.ext hcheck rfl)
    exact hfails.blameless hsettled name place rfl
  · obtain ⟨after, hcheck⟩ : ∃ after, s.check source file = (.ok program, after) :=
      ⟨_, Prod.ext hcheck rfl⟩
    cases passes_of_check hcheck with
    | @intro tokens block stream r statements b htokens hparse hresolve hbind _ =>
      refine ⟨(bindAll_forgetting hsettled hparse hresolve hbind fun _ _ h => h).1, block,
        ⟨tokens, stream, htokens, hparse⟩, fun known hknown => ?_⟩
      obtain ⟨-, b', hbind'⟩ := bindAll_forgetting hsettled hparse hresolve hbind hknown
      simp only [Binder.bind, EStateM.run, hbind']

/-- In the second program, names of both programs are read inside scopes of its own. -/
theorem check_aligned_nested :
    ∃ program, (((new .record).check "let a = 1;" "main").2.check
        "fn f(int b) \x7b let c = a + b; while c > a \x7b c = c - b; \x7d \x7d" "main").1 = .ok program ∧
      BoundStmt.AllCarry (fun id d => program.distances.get? id = some d) program.statements := by
  have hok : (((new .record).check "let a = 1;" "main").2.check
      "fn f(int b) \x7b let c = a + b; while c > a \x7b c = c - b; \x7d \x7d" "main").1.isOk = true := by
    decide +kernel
  obtain ⟨program, after, hcheck⟩ := exists_program hok
  have hprogram := congrArg Prod.fst hcheck
  have hreachable : ((new .record).check "let a = 1;" "main").2.Reachable := .check (.new .record) _ _
  exact ⟨program, hprogram, ((check_aligned hreachable _ _).2 program hprogram).1⟩

end Session

end ScriptCheck
