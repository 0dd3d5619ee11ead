import ScriptCheck.Proofs.Binding.Inference
import ScriptCheck.Proofs.Session.History

/-!
Inference through whole sessions. In every program that is read and bound, what was inferred for a variable
or for a function takes all that goes there, so that checking never reports a mismatch at such a place.
-/

namespace ScriptCheck

/-- What was written in a program, and what is demanded of its statements, beside each other. -/
structure InferenceAgrees (body : List Stmt) (statements : List BoundStmt) (p : Place) : Prop where
  /-- Something is demanded of every initial value and of every return in a function, and demands on types
  that are left to inference are met. -/
  agrees : List.Forall₂ Ascription.Agrees (Stmt.ascriptionsAll body none)
    (BoundStmt.demandsAll statements none p)
  /-- The demands are all the rules of statements that are checked. -/
  complete : (BoundStmt.demandsAll statements none p).map Demand.rule =
    (programParts statements).flatMap Part.statementContracts
  /-- What is reported is the violation of a rule that is none of the demands on inferred types. -/
  unreported : ∀ d, checkContracts statements = .error d →
    ∃ r ∈ programRules statements, ¬ r.Holds ∧ d = r.report ∧
      ∀ x ∈ (Stmt.ascriptionsAll body none).zip (BoundStmt.demandsAll statements none p),
        x.1.Inferred x.2.place.types → x.2.rule ≠ r

theorem inferenceAgrees_of_agrees {body : List Stmt} {statements : List BoundStmt} {p : Place}
    (h : List.Forall₂ Ascription.Agrees (Stmt.ascriptionsAll body none)
      (BoundStmt.demandsAll statements none p)) : InferenceAgrees body statements p := by
  refine ⟨h, BoundStmt.rules_demandsAll statements none p, fun d hd => ?_⟩
  rw [checkContracts_eq] at hd
  obtain ⟨before, r, behind, heq, -, hviolated, hreport⟩ := forM_check_eq_error.1 hd
  have hmem : r ∈ programRules statements := heq ▸ List.mem_append_right _ List.mem_cons_self
  refine ⟨r, hmem, hviolated, hreport, ?_⟩
  rintro ⟨a, demand⟩ hx hinferred rfl
  exact hviolated ((List.forall₂_zip h hx).holds hinferred)

namespace Session

variable {s : Session} {source file : String} {past statements : List BoundStmt} {block : Block}
  {distances : Table Nat Nat}

/-- In a program that was read and bound, behind any programs before it and whatever distances are known, an
initial value goes into the type of its variable if that was written without a type or with `any`, and what
is returned goes into the result of the innermost function around if that was written without one. Checking
reports no mismatch there. -/
theorem inference_agrees (hs : s.History past) (hread : s.ReadsAs source file block)
    (hbind : (s.binder.bind block distances).1 = .ok statements) :
    InferenceAgrees block.body statements (BoundStmt.afterAll past .intrinsic) := by
  obtain ⟨tokens, stream, -, hparse⟩ := hread
  obtain ⟨b, hrun⟩ := Binder.run_of_bind hbind
  refine inferenceAgrees_of_agrees (Stmt.bindAll_agrees block.body hrun
    (Block.parse_wellRead Ty.closed_isNormal.literal hparse)
    (hs.fits Ty.closed_isNormal (fun d _ => d.admitted_isNormal) distances) fun t _ => .outside)

/-- A program that is read may be looked at. -/
theorem exists_block_where (test : Block → Bool)
    (h : (match tokenize source file with
      | .ok tokens =>
        match Block.parse (s.stream tokens file) with
        | .ok block _ => test block
        | .error _ _ => false
      | .error _ => false) = true) : ∃ block, s.ReadsAs source file block ∧ test block = true := by
  split at h
  · rename_i tokens htokens
    split at h
    · rename_i block stream hparse
      exact ⟨block, ⟨tokens, stream, htokens, hparse⟩, h⟩
    · cases h
  · cases h

/-- A variable is declared with a name for `any`; a method returns an integer or a text, behind a function
that returns nothing. -/
theorem inference_agrees_nested : ∃ block distances statements,
    (new .record).ReadsAs
      "type B = any; B x = 1; class A \x7b fn m() \x7b fn g() \x7b return; \x7d return 1; return 'a'; \x7d \x7d"
      "main" block ∧
    ((new .record).binder.bind block distances).1 = .ok statements ∧
    InferenceAgrees block.body statements .intrinsic ∧
    (Stmt.ascriptionsAll block.body none).length = 4 ∧
    ∀ x ∈ (Stmt.ascriptionsAll block.body none).zip (BoundStmt.demandsAll statements none .intrinsic),
      x.1.Inferred x.2.place.types ∧ x.2.rule.Holds := by
  let inferred : Block → List BoundStmt → Bool := fun block statements =>
    ((Stmt.ascriptionsAll block.body none).zip
      (BoundStmt.demandsAll statements none .intrinsic)).all fun x => x.1.Inferred x.2.place.types
  let test : Block → Bool := fun block =>
    (Stmt.ascriptionsAll block.body none).length = 4 &&
    ((new .record).resolver.resolve block).1.toOption.any fun distances =>
      ((new .record).binder.bind block distances).1.toOption.any (inferred block)
  have hblock : ∃ block, (new .record).ReadsAs
      "type B = any; B x = 1; class A \x7b fn m() \x7b fn g() \x7b return; \x7d return 1; return 'a'; \x7d \x7d"
      "main" block ∧ test block = true := exists_block_where test (by decide +kernel)
  obtain ⟨block, hread, htest⟩ := hblock
  obtain ⟨hlength, hany⟩ := Bool.and_eq_true_iff.1 htest
  obtain ⟨distances, -, hany⟩ := exists_ok_where hany
  obtain ⟨statements, hbind, hinferred⟩ := exists_ok_where hany
  have hagrees := inference_agrees (.new .record) hread hbind
  refine ⟨block, distances, statements, hread, hbind, hagrees, of_decide_eq_true hlength, ?_⟩
  intro x hx
  have hx' := of_decide_eq_true (List.all_eq_true.1 hinferred x hx)
  exact ⟨hx', (List.forall₂_zip hagrees.agrees hx).holds hx'⟩

end Session

end ScriptCheck
