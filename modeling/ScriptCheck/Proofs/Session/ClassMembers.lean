import ScriptCheck.Proofs.Binding.ClassMembers
import ScriptCheck.Proofs.Session.Inference

/-!
Classes in bound programs. Every class declaration that is bound, at whatever depth and in whatever state,
gives a class whose members are those of its body in their order and with their types, and leaves that class
behind as what its name stands for. Where two methods of a class have one name, the first member of the name
gets the type of the last method, and the others keep the types from before their bodies were bound.
-/

namespace ScriptCheck

namespace Session

/-- In a program that is bound, the statements at every depth are bound one by one. A class declaration among
them, wherever it is bound, gives a class with one member for each field and behind them one for each method,
in their order. The member of a field has the type of the bound field, and that of a method the type of the
bound method, unless another method of the class has its name: the first member of a name has the type of the
last method of that name, and the others have the signatures that were written. Behind the declaration the
name of the class stands for it, as a type and as a value. -/
theorem class_matches_body {b : Binder} {block : Block} {distances : Table Nat Nat}
    {statements : List BoundStmt} (h : (b.bind block distances).1 = .ok statements) :
    List.Forall₂ (fun s t => s.BoundAs t ∧
        ∀ before after, s.bind before = .ok t after → s.ClassDeclared t after)
      (Stmt.nestedAll block.body) (BoundStmt.nestedAll statements) := by
  obtain ⟨b', hrun⟩ := Binder.run_of_bind h
  refine (Stmt.bindAll_nested block.body hrun).imp fun s t hbound => ⟨hbound, ?_⟩
  intro before after hbind
  exact Stmt.bind_classDeclared hbind

/-- The names of the members of a class and of the methods in its body, with their types written out. -/
def writtenMembers : BoundStmt → List (String × String) × List (String × String)
  | .classDecl _ c _ methods =>
    (c.members.map fun m => (m.name, m.type.display),
      methods.map fun g => (g.name, (Ty.function g.signature).display))
  | _ => ([], [])

/-- A program that is read and bound, and in which a class declaration has the given members and methods. -/
theorem exists_class_where (source : String) (members methods : List (String × String))
    (hmembers : members ≠ []) (h : (match tokenize source "main" with
      | .ok tokens =>
        match Block.parse ((new .record).stream tokens "main") with
        | .ok block _ =>
          ((new .record).resolver.resolve block).1.toOption.any fun distances =>
            ((new .record).binder.bind block distances).1.toOption.any fun statements =>
              (BoundStmt.nestedAll statements).any fun t => writtenMembers t = (members, methods)
        | .error _ _ => false
      | .error _ => false) = true) :
    ∃ block distances statements info c fields gs, (new .record).ReadsAs source "main" block ∧
      ((new .record).binder.bind block distances).1 = .ok statements ∧
      .classDecl info c fields gs ∈ BoundStmt.nestedAll statements ∧
      c.members.map (fun m => (m.name, m.type.display)) = members ∧
      gs.map (fun g => (g.name, (Ty.function g.signature).display)) = methods := by
  obtain ⟨block, hread, htest⟩ := exists_block_where _ h
  obtain ⟨distances, -, hany⟩ := exists_ok_where htest
  obtain ⟨statements, hbind, hany⟩ := exists_ok_where hany
  obtain ⟨t, ht, hwritten⟩ := List.any_eq_true.1 hany
  cases t with
  | classDecl info c fields gs =>
    obtain ⟨hm, hg⟩ := Prod.mk.inj (of_decide_eq_true hwritten)
    exact ⟨block, distances, statements, info, c, fields, gs, hread, hbind, ht, hm, hg⟩
  | _ => exact absurd (Prod.mk.inj (of_decide_eq_true hwritten)).1.symm hmembers

/-- A class in a function, with a method of the name of a field and one that takes an object of the class. -/
def copyingClass : String :=
  "fn f() \x7b class A \x7b int x = 1; fn x() \x7b return this; \x7d " ++
    "fn copy(A a) \x7b return new A(); \x7d \x7d \x7d"

/-- The class has three members, and the methods in it have the types of the last two. -/
theorem class_matches_body_copying : ∃ block distances statements info c fields gs,
    (new .record).ReadsAs copyingClass "main" block ∧
    ((new .record).binder.bind block distances).1 = .ok statements ∧
    .classDecl info c fields gs ∈ BoundStmt.nestedAll statements ∧
    c.members.map (fun m => (m.name, m.type.display)) =
      [("x", "int"), ("x", "() :: A"), ("copy", "(A a) :: A")] ∧
    ∃ s ∈ Stmt.nestedAll block.body, ∃ before after,
      s.bind before = .ok (.classDecl info c fields gs) after ∧
      s.ClassDeclared (.classDecl info c fields gs) after := by
  obtain ⟨block, distances, statements, info, c, fields, gs, hread, hbind, hclass, hmembers, -⟩ :=
    exists_class_where copyingClass [("x", "int"), ("x", "() :: A"), ("copy", "(A a) :: A")]
      [("x", "() :: A"), ("copy", "(A a) :: A")] (List.cons_ne_nil _ _) (by decide +kernel)
  obtain ⟨s, hs, ⟨before, after, hrun⟩, hdeclared⟩ := exists_of_forall₂_right (class_matches_body hbind) hclass
  exact ⟨block, distances, statements, info, c, fields, gs, hread, hbind, hclass, hmembers, s, hs, before,
    after, hrun, hdeclared _ _ hrun⟩

/-- A class with two methods of one name. -/
def repeatingClass : String :=
  "class A \x7b fn m() \x7b return 1; \x7d fn m() \x7b return 'a'; \x7d \x7d"

/-- The first member has the type of the second method, and the second member has the type of neither. -/
theorem class_differs_from_body : ∃ block distances statements info c fields gs,
    (new .record).ReadsAs repeatingClass "main" block ∧
    ((new .record).binder.bind block distances).1 = .ok statements ∧
    .classDecl info c fields gs ∈ BoundStmt.nestedAll statements ∧
    c.members.map (fun m => (m.name, m.type.display)) = [("m", "() :: string"), ("m", "() :: any")] ∧
    gs.map (fun g => (g.name, (Ty.function g.signature).display)) =
      [("m", "() :: int"), ("m", "() :: string")] ∧
    c.members.map (·.type) ≠ gs.map fun g => .function g.signature := by
  obtain ⟨block, distances, statements, info, c, fields, gs, hread, hbind, hclass, hmembers, hmethods⟩ :=
    exists_class_where repeatingClass [("m", "() :: string"), ("m", "() :: any")]
      [("m", "() :: int"), ("m", "() :: string")] (List.cons_ne_nil _ _) (by decide +kernel)
  refine ⟨block, distances, statements, info, c, fields, gs, hread, hbind, hclass, hmembers, hmethods, ?_⟩
  intro heq
  have hdisplay : (c.members.map fun m => (m.name, m.type.display)).map Prod.snd =
      (gs.map fun g => (g.name, (Ty.function g.signature).display)).map Prod.snd := by
    simpa [Function.comp_def] using congrArg (List.map Ty.display) heq
  rw [hmembers, hmethods] at hdisplay
  exact absurd hdisplay (by decide)

end Session

end ScriptCheck
