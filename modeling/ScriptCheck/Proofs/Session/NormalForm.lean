import ScriptCheck.Proofs.Session.Identity

/-!
Normal forms through whole sessions. The types that a session knows are in normal form at every depth, those
of its values and those of its type names; so are all types in a program that passes, and those that are
noted of its expressions.
-/

namespace ScriptCheck

open Ty (IsNormal closed_isNormal)

/-- All types of a program are in normal form, at every depth. -/
structure CheckedProgram.Normal (program : CheckedProgram) : Prop where
  statements : ∀ t ∈ BoundStmt.typesAll program.statements, t.Every IsNormal
  boundTypes : ∀ e ∈ program.boundTypes.entries, e.2.Every IsNormal

/-- Whatever is noted is the type of an expression that was bound. -/
theorem Record.every {P : Ty → Prop} (hP : Ty.Closed P) {es : List (Nat × Ty)} {ids : List Nat}
    {xs : List Expr} {roots : List Occurrence}
    (h : Record es ids xs (roots.flatMap (·.expr.subterms))) (hroots : ∀ x ∈ roots, x.Sound P) :
    ∀ e ∈ es, e.2.Every P := by
  intro e he
  obtain ⟨y, hy, htype⟩ := h.only e he
  obtain ⟨x, hx, hy⟩ := List.mem_flatMap.1 hy
  obtain ⟨b, hfits, htyped⟩ := hroots x hx
  exact (htyped.subterms y hy).every_types hP hfits.every _ htype

namespace Session

variable {s after : Session} {source file : String}

/-- What a session knows is in normal form. -/
theorem Reachable.normal (hs : s.Reachable) : s.binder.Every IsNormal := by
  obtain ⟨past, hpast⟩ := hs.history
  have hfits := hpast.fits closed_isNormal (fun d _ => d.admitted_isNormal) .empty
  exact ⟨hfits.every.values, hfits.every.types⟩

/-- A program that passes is in normal form. -/
theorem Reachable.normal_program (hs : s.Reachable) {program : CheckedProgram}
    (hcheck : s.check source file = (.ok program, after)) : program.Normal := by
  obtain ⟨past, hpast⟩ := hs.history
  cases passes_of_check hcheck with
  | @intro tokens block stream r statements b htokens hparse hresolve hbind _ =>
    have hsound := Stmt.bindAll_sound closed_isNormal block.body hbind
      (Block.parse_wellRead closed_isNormal.literal hparse)
      (hpast.fits closed_isNormal (fun d _ => d.admitted_isNormal) r.distances)
      fun d _ => d.admitted_isNormal
    have hrecord := Stmt.bindAll_notes (Block.nodup_ids_of_parse hparse) hbind
      (BoundStmt.afterAll past .intrinsic)
    exact ⟨hsound.types, hrecord.every closed_isNormal hsound.roots⟩

/-- After any sequence of checks, all types that the session knows are in normal form at every depth: those
of its values and of its type names, and those of every program that passes next, with the types that are
noted of its expressions. -/
theorem check_normal (hs : s.Reachable) :
    (s.binder.scopes.Holds fun v => v.type.Every IsNormal) ∧
      s.binder.types.scopes.Holds (Ty.Every IsNormal) ∧
      ∀ source file program after, s.check source file = (.ok program, after) → program.Normal := by
  refine ⟨hs.normal.values, hs.normal.types, ?_⟩
  intro source file program after hcheck
  exact hs.normal_program hcheck

/-- A union of a union that was declared in the program before, with a member twice. -/
theorem check_normal_alias : ∃ program after,
    ((new .record).check "type A = int | string;" "one").2.check
      "type B = A | bool | A; B b = 1; let c = [b, 2.5];" "two" = (.ok program, after) ∧
    program.Normal ∧ ∃ t ∈ BoundStmt.typesAll program.statements, t.unionMembers.length = 3 := by
  let test : CheckedProgram → Bool := fun program =>
    (BoundStmt.typesAll program.statements).any fun t => t.unionMembers.length = 3
  have htest : (((new .record).check "type A = int | string;" "one").2.check
      "type B = A | bool | A; B b = 1; let c = [b, 2.5];" "two").1.toOption.any test = true := by
    decide +kernel
  obtain ⟨program, after, hcheck, hprogram⟩ := exists_program_where htest
  obtain ⟨t, ht, hlength⟩ := List.any_eq_true.1 hprogram
  obtain ⟨-, -, hnormal⟩ := check_normal ((Reachable.new .record).check "type A = int | string;" "one")
  exact ⟨program, after, hcheck, hnormal _ _ _ _ hcheck, t, ht, of_decide_eq_true hlength⟩

end Session

end ScriptCheck
