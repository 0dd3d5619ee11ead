import ScriptCheck.Contract
import ScriptCheck.Proofs.Relabel.Bound
import ScriptCheck.Proofs.Relabel.Failures

/-!
Contracts do not depend on labels: with new labels the same contract is the first to be violated, at its
new place. A program of two parts keeps its contracts if both parts do.
-/

namespace ScriptCheck

open BoundExpr

section

variable (f : Relabeling)

theorem expectInto_mirrors (received expected : Ty) (place : Position)
    {cause : String → String → Cause} (h : ∀ x y, (cause x y).isMissingSymbol = false) :
    Mirrors f.blame (expectInto received expected place cause)
      (expectInto received expected (f.place place) cause) := by
  unfold expectInto
  split
  · exact .ok ()
  · exact .error (blameless_of (h _ _) place)

theorem checkEach_mirrors : ∀ (ps : List (String × Ty)) (as : List BoundExpr),
    Mirrors f.blame (checkEach ps as) (checkEach ps (relabelAll f as))
  | [], _ => .ok ()
  | _ :: _, [] => .ok ()
  | p :: ps, a :: as => by
    rw [relabelAll, checkEach, checkEach, type_relabel, span_relabel]
    exact (expectInto_mirrors f _ _ _ fun _ _ => rfl).bind fun _ => checkEach_mirrors ps as

theorem checkArguments_mirrors (s : Signature Ty) (args : List BoundExpr) (place : Position) :
    Mirrors f.blame (checkArguments s args place)
      (checkArguments s (relabelAll f args) (f.place place)) := by
  unfold checkArguments
  rw [length_relabelAll]
  dsimp only
  split
  · exact .error (blameless_of rfl place)
  · split
    · exact .error (blameless_of rfl place)
    · exact checkEach_mirrors f s.params args

theorem checkOperands_mirrors (use : BinaryOperator) (left right : BoundExpr) :
    Mirrors f.blame (checkOperands use left right)
      (checkOperands use (left.relabel f) (right.relabel f)) := by
  unfold checkOperands
  rw [type_relabel, type_relabel, span_relabel]
  split
  · exact .ok ()
  · exact .error (blameless_of rfl left.span.start)

theorem checkComparable_mirrors (use : BinaryOperator) (left right : BoundExpr) (place : Position) :
    Mirrors f.blame (checkComparable use left right place)
      (checkComparable use (left.relabel f) (right.relabel f) (f.place place)) := by
  unfold checkComparable
  rw [type_relabel, type_relabel]
  split
  · exact .error (blameless_of rfl place)
  · exact .ok ()

theorem checkOperand_mirrors (use : UnaryOperator) (operand : BoundExpr) (place : Position) :
    Mirrors f.blame (checkOperand use operand place)
      (checkOperand use (operand.relabel f) (f.place place)) := by
  unfold checkOperand
  rw [type_relabel]
  split
  · exact .ok ()
  · exact .error (blameless_of rfl place)

theorem checkAssignment_mirrors (operator : Option BinaryOperator) (target value : BoundExpr)
    (place : Position) :
    Mirrors f.blame (checkAssignment operator target value place)
      (checkAssignment operator (target.relabel f) (value.relabel f) (f.place place)) := by
  cases operator with
  | none =>
    simp only [checkAssignment, type_relabel, span_relabel]
    exact expectInto_mirrors f _ _ _ fun _ _ => rfl
  | some use =>
    simp only [checkAssignment, type_relabel]
    exact (checkOperands_mirrors f use target value).bind fun _ =>
      expectInto_mirrors f _ _ _ fun _ _ => rfl

theorem checkIndex_mirrors (receiver key : BoundExpr) :
    Mirrors f.blame (checkIndex receiver key) (checkIndex (receiver.relabel f) (key.relabel f)) := by
  unfold checkIndex
  rw [type_relabel, type_relabel, span_relabel]
  dsimp only
  split
  · exact expectInto_mirrors f _ _ _ fun _ _ => rfl
  · exact .ok ()

theorem checkCall_mirrors (callee : BoundExpr) (args : List BoundExpr) (place : Position) :
    Mirrors f.blame (checkCall callee args place)
      (checkCall (callee.relabel f) (relabelAll f args) (f.place place)) := by
  unfold checkCall
  rw [type_relabel]
  split
  · exact checkArguments_mirrors f _ args place
  · exact .ok ()

theorem checkConstruct_mirrors (d : ClassDef Ty) (args : List BoundExpr) (place : Position) :
    Mirrors f.blame (checkConstruct d args place)
      (checkConstruct d (relabelAll f args) (f.place place)) := by
  unfold checkConstruct
  split
  · exact checkArguments_mirrors f _ args place
  · rw [relabelAll_eq_map, List.isEmpty_map, List.length_map]
    split
    · exact .ok ()
    · exact .error (blameless_of rfl place)

end

namespace BoundExpr

variable (f : Relabeling)

mutual

theorem check_mirrors : ∀ e : BoundExpr, Mirrors f.blame e.check (e.relabel f).check
  | .literal _ _ => .ok ()
  | .keyword _ _ => .ok ()
  | .symbol _ _ _ => .ok ()
  | .array _ elements => checkAll_mirrors elements
  | .object _ entries => checkEntries_mirrors entries
  | .binary node use left right =>
    (check_mirrors left).bind fun _ => (check_mirrors right).bind fun _ =>
      (checkOperands_mirrors f use left right).bind fun _ =>
        checkComparable_mirrors f use left right node.span.start
  | .unary node use operand =>
    (check_mirrors operand).bind fun _ => checkOperand_mirrors f use operand node.span.start
  | .assign node operator target value =>
    (check_mirrors target).bind fun _ => (check_mirrors value).bind fun _ =>
      checkAssignment_mirrors f operator target value node.span.start
  | .access _ receiver key _ =>
    (check_mirrors receiver).bind fun _ => checkKey_mirrors receiver key
  | .call node callee args =>
    (check_mirrors callee).bind fun _ => (checkAll_mirrors args).bind fun _ =>
      checkCall_mirrors f callee args node.span.start
  | .construct node d args =>
    (checkAll_mirrors args).bind fun _ => checkConstruct_mirrors f d args node.span.start
termination_by structural e => e

theorem checkAll_mirrors : ∀ es : List BoundExpr,
    Mirrors f.blame (checkAll es) (checkAll (relabelAll f es))
  | [] => .ok ()
  | e :: es => (check_mirrors e).bind fun _ => checkAll_mirrors es
termination_by structural es => es

theorem checkKey_mirrors (receiver : BoundExpr) : ∀ k : BoundKey BoundExpr,
    Mirrors f.blame (checkKey receiver k) (checkKey (receiver.relabel f) (relabelKey f k))
  | .name _ => .ok ()
  | .computed e => (check_mirrors e).bind fun _ => checkIndex_mirrors f receiver e
termination_by structural k => k

theorem checkEntryKey_mirrors : ∀ k : BoundKey BoundExpr,
    Mirrors f.blame (checkEntryKey k) (checkEntryKey (relabelKey f k))
  | .name _ => .ok ()
  | .computed e => check_mirrors e
termination_by structural k => k

theorem checkEntries_mirrors : ∀ es : List (BoundEntry BoundExpr),
    Mirrors f.blame (checkEntries es) (checkEntries (relabelEntries f es))
  | [] => .ok ()
  | ⟨key, value⟩ :: es =>
    (checkEntryKey_mirrors key).bind fun _ => (check_mirrors value).bind fun _ =>
      checkEntries_mirrors es
termination_by structural es => es

end

end BoundExpr

section

variable (f : Relabeling)

theorem checkInitializer_mirrors (type : Ty) {cause : String → String → Cause}
    (h : ∀ x y, (cause x y).isMissingSymbol = false) : ∀ value : Option BoundExpr,
    Mirrors f.blame (checkInitializer type cause value)
      (checkInitializer type cause (value.map (BoundExpr.relabel f)))
  | none => .ok ()
  | some value => by
    simp only [Option.map_some, checkInitializer, type_relabel, span_relabel]
    exact (value.check_mirrors f).bind fun _ => expectInto_mirrors f _ _ _ h

theorem checkFields_mirrors : ∀ fs : List BoundField,
    Mirrors f.blame (checkFields fs) (checkFields (fs.map (BoundField.relabel f)))
  | [] => .ok ()
  | d :: ds =>
    (checkInitializer_mirrors f d.type (fun _ _ => rfl) d.value).bind fun _ =>
      checkFields_mirrors ds

theorem checkReturn_mirrors (expected : Option Ty) (place : Position) : ∀ value : Option BoundExpr,
    Mirrors f.blame (checkReturn expected place value)
      (checkReturn expected (f.place place) (value.map (BoundExpr.relabel f)))
  | none => by
    cases expected with
    | none => exact .ok ()
    | some t => exact expectInto_mirrors f _ _ _ fun _ _ => rfl
  | some value => by
    simp only [Option.map_some, checkReturn, type_relabel, span_relabel]
    refine (value.check_mirrors f).bind fun _ => ?_
    cases expected with
    | none => exact .ok ()
    | some t => exact expectInto_mirrors f _ _ _ fun _ _ => rfl

end

namespace BoundStmt

variable (f : Relabeling)

mutual

theorem check_mirrors : ∀ (s : BoundStmt) (expected : Option Ty),
    Mirrors f.blame (s.check expected) ((s.relabel f).check expected)
  | .expr _ e, _ => e.check_mirrors f
  | .block _ body, expected => checkAll_mirrors body expected
  | .varDecl _ _ type value _, _ => checkInitializer_mirrors f type (fun _ _ => rfl) value
  | .ifElse _ condition onTrue onFalse, expected =>
    (condition.check_mirrors f).bind fun _ => (check_mirrors onTrue expected).bind fun _ =>
      checkOption_mirrors onFalse expected
  | .whileLoop _ condition body, expected =>
    (condition.check_mirrors f).bind fun _ => check_mirrors body expected
  | .forIn _ _ _ iterable body, expected =>
    (iterable.check_mirrors f).bind fun _ => checkAll_mirrors body expected
  | .fnDecl _ d, _ => checkFn_mirrors d
  | .ret info value, expected => checkReturn_mirrors f expected info.span.start value
  | .jump _ _, _ => .ok ()
  | .classDecl _ _ fields methods, _ =>
    (checkFields_mirrors f fields).bind fun _ => checkFns_mirrors methods
  | .typeDecl _ _ _, _ => .ok ()
termination_by structural s => s

theorem checkAll_mirrors : ∀ (ss : List BoundStmt) (expected : Option Ty),
    Mirrors f.blame (checkAll expected ss) (checkAll expected (relabelAll f ss))
  | [], _ => .ok ()
  | s :: ss, expected =>
    (check_mirrors s expected).bind fun _ => checkAll_mirrors ss expected
termination_by structural ss => ss

theorem checkOption_mirrors : ∀ (s : Option BoundStmt) (expected : Option Ty),
    Mirrors f.blame (checkOption expected s) (checkOption expected (relabelOption f s))
  | none, _ => .ok ()
  | some s, expected => check_mirrors s expected
termination_by structural s => s

theorem checkFn_mirrors : ∀ d : BoundFn BoundStmt,
    Mirrors f.blame (checkFn d) (checkFn (relabelFn f d))
  | ⟨_, signature, body⟩ => checkAll_mirrors body (some signature.result)
termination_by structural d => d

theorem checkFns_mirrors : ∀ ds : List (BoundFn BoundStmt),
    Mirrors f.blame (checkFns ds) (checkFns (relabelFns f ds))
  | [] => .ok ()
  | d :: ds => (checkFn_mirrors d).bind fun _ => checkFns_mirrors ds
termination_by structural ds => ds

end

theorem checkAll_append (expected : Option Ty) (ss ts : List BoundStmt) :
    checkAll expected (ss ++ ts) = (checkAll expected ss >>= fun _ => checkAll expected ts) := by
  induction ss with
  | nil => rfl
  | cons s ss ih =>
    rw [List.cons_append, checkAll, checkAll, ih]
    cases check expected s with
    | ok _ => rfl
    | error _ => rfl

end BoundStmt

end ScriptCheck
