import ScriptCheck.Proofs.Relabel.Bound

/-!
One relabeling after another. Relabeling a bound tree twice is relabeling it once, by the composition
of both, so that what is written at one place in two trees can be compared after it is moved there.
-/

namespace ScriptCheck

/-- New labels that are given to labels that are new already. -/
def Relabeling.after (g f : Relabeling) : Relabeling := ⟨g.place ∘ f.place, g.id ∘ f.id⟩

variable (g f : Relabeling)

namespace BoundExpr

mutual

theorem relabel_relabel : ∀ e : BoundExpr, (e.relabel f).relabel g = e.relabel (g.after f)
  | .literal _ _ => rfl
  | .keyword _ _ => rfl
  | .symbol _ _ _ => rfl
  | .array _ elements => congrArg (array _) (relabelAll_relabelAll elements)
  | .object _ entries => congrArg (object _) (relabelEntries_relabelEntries entries)
  | .binary _ _ left right => by
    simp only [relabel, relabel_relabel left, relabel_relabel right]
    rfl
  | .unary _ _ operand => congrArg (unary _ _) (relabel_relabel operand)
  | .assign _ _ target value => by
    simp only [relabel, relabel_relabel target, relabel_relabel value]
    rfl
  | .access _ receiver key _ => by
    simp only [relabel, relabel_relabel receiver, relabelKey_relabelKey key]
    rfl
  | .call _ callee args => by
    simp only [relabel, relabel_relabel callee, relabelAll_relabelAll args]
    rfl
  | .construct _ _ args => congrArg (construct _ _) (relabelAll_relabelAll args)
termination_by structural e => e

theorem relabelAll_relabelAll : ∀ es : List BoundExpr,
    relabelAll g (relabelAll f es) = relabelAll (g.after f) es
  | [] => rfl
  | e :: es => by rw [relabelAll, relabelAll, relabelAll, relabel_relabel e, relabelAll_relabelAll es]
termination_by structural es => es

theorem relabelKey_relabelKey : ∀ k : BoundKey BoundExpr,
    relabelKey g (relabelKey f k) = relabelKey (g.after f) k
  | .name _ => rfl
  | .computed e => congrArg BoundKey.computed (relabel_relabel e)
termination_by structural k => k

theorem relabelEntries_relabelEntries : ∀ es : List (BoundEntry BoundExpr),
    relabelEntries g (relabelEntries f es) = relabelEntries (g.after f) es
  | [] => rfl
  | ⟨key, value⟩ :: es => by
    rw [relabelEntries, relabelEntries, relabelEntries, relabelKey_relabelKey key,
      relabel_relabel value, relabelEntries_relabelEntries es]
termination_by structural es => es

end

theorem map_relabel_relabel : ∀ e : Option BoundExpr,
    (e.map (relabel f)).map (relabel g) = e.map (relabel (g.after f))
  | none => rfl
  | some e => congrArg some (e.relabel_relabel g f)

end BoundExpr

theorem BoundField.relabel_relabel (d : BoundField) :
    (d.relabel f).relabel g = d.relabel (g.after f) := by
  simp only [relabel, BoundExpr.map_relabel_relabel]

namespace BoundStmt

mutual

theorem relabel_relabel : ∀ s : BoundStmt, (s.relabel f).relabel g = s.relabel (g.after f)
  | .expr _ e => congrArg (expr _) (e.relabel_relabel g f)
  | .block _ body => congrArg (block _) (relabelAll_relabelAll body)
  | .varDecl _ _ _ value _ => by
    simp only [relabel, BoundExpr.map_relabel_relabel]
    rfl
  | .ifElse _ condition onTrue onFalse => by
    simp only [relabel, condition.relabel_relabel, relabel_relabel onTrue,
      relabelOption_relabelOption onFalse]
    rfl
  | .whileLoop _ condition body => by
    simp only [relabel, condition.relabel_relabel, relabel_relabel body]
    rfl
  | .forIn _ _ _ iterable body => by
    simp only [relabel, iterable.relabel_relabel, relabelAll_relabelAll body]
    rfl
  | .fnDecl _ function => congrArg (fnDecl _) (relabelFn_relabelFn function)
  | .ret _ value => congrArg (ret _) (BoundExpr.map_relabel_relabel g f value)
  | .jump _ _ => rfl
  | .classDecl _ _ fields methods => by
    have hfields : (fields.map (BoundField.relabel f)).map (BoundField.relabel g) =
        fields.map (BoundField.relabel (g.after f)) := by
      rw [List.map_map]
      exact List.map_congr_left fun d _ => d.relabel_relabel g f
    simp only [relabel, hfields, relabelFns_relabelFns methods]
    rfl
  | .typeDecl _ _ _ => rfl
termination_by structural s => s

theorem relabelAll_relabelAll : ∀ ss : List BoundStmt,
    relabelAll g (relabelAll f ss) = relabelAll (g.after f) ss
  | [] => rfl
  | s :: ss => by rw [relabelAll, relabelAll, relabelAll, relabel_relabel s, relabelAll_relabelAll ss]
termination_by structural ss => ss

theorem relabelOption_relabelOption : ∀ s : Option BoundStmt,
    relabelOption g (relabelOption f s) = relabelOption (g.after f) s
  | some s => congrArg some (relabel_relabel s)
  | none => rfl
termination_by structural s => s

theorem relabelFn_relabelFn : ∀ d : BoundFn BoundStmt,
    relabelFn g (relabelFn f d) = relabelFn (g.after f) d
  | ⟨_, _, body⟩ => congrArg (BoundFn.mk _ _) (relabelAll_relabelAll body)
termination_by structural d => d

theorem relabelFns_relabelFns : ∀ ds : List (BoundFn BoundStmt),
    relabelFns g (relabelFns f ds) = relabelFns (g.after f) ds
  | [] => rfl
  | d :: ds => by
    rw [relabelFns, relabelFns, relabelFns, relabelFn_relabelFn d, relabelFns_relabelFns ds]
termination_by structural ds => ds

end

end BoundStmt

end ScriptCheck
