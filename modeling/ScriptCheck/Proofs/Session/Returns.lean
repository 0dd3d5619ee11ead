import ScriptCheck.Proofs.Binding.Returns
import ScriptCheck.Proofs.Session.Inference

/-!
What statements return, through whole sessions. In every program that is read and bound, each statement at
every depth returns the union of the returns in it, made at once, and so does each function that was written
without a result.
-/

namespace ScriptCheck

namespace Session

variable {s : Session} {source file : String} {block : Block} {distances : Table Nat Nat}
  {statements : List BoundStmt}

/-- In a program that was read and bound, behind any programs before it and whatever distances are known, the
statements at every depth stand beside those that were written. A statement returns nothing if no return was
written in it outside the functions and classes in it; otherwise it returns the one union of the types of
these returns, in the order in which they were written, and so does a function that was written without a
result. -/
theorem returns_flat (hs : s.Reachable) (hread : s.ReadsAs source file block)
    (hbind : (s.binder.bind block distances).1 = .ok statements) :
    List.Forall₂ (fun w t => w.Tallies t ∧ (t.returns = none ↔ w.returned = []))
      (Stmt.nestedAll block.body) (BoundStmt.nestedAll statements) := by
  obtain ⟨past, hpast⟩ := hs.history
  obtain ⟨tokens, stream, -, hparse⟩ := hread
  obtain ⟨b, hrun⟩ := Binder.run_of_bind hbind
  have hsound := Stmt.bindAll_sound Ty.closed_isNormal block.body hrun
    (Block.parse_wellRead Ty.closed_isNormal.literal hparse)
    (hpast.fits Ty.closed_isNormal (fun d _ => d.admitted_isNormal) distances) fun d _ => d.admitted_isNormal
  obtain ⟨-, hnested⟩ := Stmt.bindAll_tallies block.body hrun hsound.types
  exact hnested.imp fun _ _ htallies => ⟨htallies, htallies.returns_eq_none⟩

/-- A method that returns numbers from a branch and at its end, and a text from a loop with a function in it
that returns nothing. -/
def returningMethod : String :=
  "class A \x7b fn m(bool b) \x7b if b \x7b return 1; \x7d while b \x7b fn g() \x7b return; \x7d " ++
    "return 'a'; \x7d return 2; \x7d \x7d"

/-- The method has three returns and gives a number or a text. -/
theorem returns_flat_method : ∃ block distances statements,
    (new .record).ReadsAs returningMethod "main" block ∧
    ((new .record).binder.bind block distances).1 = .ok statements ∧
    List.Forall₂ (fun w t => w.Tallies t ∧ (t.returns = none ↔ w.returned = []))
      (Stmt.nestedAll block.body) (BoundStmt.nestedAll statements) ∧
    (Stmt.nestedAll block.body).length = 10 ∧
    ∃ t ∈ BoundStmt.nestedAll statements, ∃ g ∈ t.functions,
      (BoundStmt.returnedAll g.body).length = 3 ∧ g.signature.result.display = "int | string" := by
  let test : Block → Bool := fun block =>
    (Stmt.nestedAll block.body).length = 10 &&
    ((new .record).resolver.resolve block).1.toOption.any fun distances =>
      ((new .record).binder.bind block distances).1.toOption.any fun statements =>
        (BoundStmt.nestedAll statements).any fun t => t.functions.any fun g =>
          (BoundStmt.returnedAll g.body).length = 3 && g.signature.result.display = "int | string"
  have hblock : ∃ block, (new .record).ReadsAs returningMethod "main" block ∧ test block = true :=
    exists_block_where test (by decide +kernel)
  obtain ⟨block, hread, htest⟩ := hblock
  obtain ⟨hlength, hany⟩ := Bool.and_eq_true_iff.1 htest
  obtain ⟨distances, -, hany⟩ := exists_ok_where hany
  obtain ⟨statements, hbind, hany⟩ := exists_ok_where hany
  obtain ⟨t, ht, hany⟩ := List.any_eq_true.1 hany
  obtain ⟨g, hg, hresult⟩ := List.any_eq_true.1 hany
  obtain ⟨hreturned, hdisplay⟩ := Bool.and_eq_true_iff.1 hresult
  exact ⟨block, distances, statements, hread, hbind, returns_flat (.new .record) hread hbind,
    of_decide_eq_true hlength, t, ht, g, hg, of_decide_eq_true hreturned, of_decide_eq_true hdisplay⟩

end Session

end ScriptCheck
