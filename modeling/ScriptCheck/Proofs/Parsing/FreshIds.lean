import ScriptCheck.Proofs.Ids
import ScriptCheck.Proofs.Parsing.SameTurns

/-!
Ids are fresh. The ids of what a step has read are the ids that it has drawn, each once: up to their
order they are the numbers from the next id before the step up to the one behind it. They are drawn in
the order in which `ids` lists them, except that a class holds its fields before its methods.
-/

namespace ScriptCheck

open Parse

/-- The ids of the result of a step are the given ones and those that the step draws. -/
def DrawsAfter {α : Type} (old : List Nat) (ids : α → List Nat) (m : Parse α) : Prop :=
  ∀ ⦃s t : TokenStream⦄ ⦃a : α⦄, m s = .ok a t →
    s.nextId ≤ t.nextId ∧ (ids a).Perm (old ++ List.range' s.nextId (t.nextId - s.nextId))

/-- The terms on which no ids are drawn. -/
def Terms.silent : Terms := ⟨.same, True, False⟩

namespace DrawsAfter

variable {α β γ : Type} {old : List Nat} {ids : α → List Nat} {ids' : β → List Nat} {m : Parse α}
  {k : α → Parse β}

theorem pure {a : α} (h : (ids a).Perm old) : DrawsAfter old ids (Pure.pure a) := by
  intro s t b hrun
  cases hrun
  refine ⟨Nat.le_refl _, ?_⟩
  rw [Nat.sub_self, List.range'_zero, List.append_nil]
  exact h

theorem fails {e : TokenStream → Failure} (h : ∀ s, m s = .error (e s) s) :
    DrawsAfter old ids m := by
  intro s t a hrun
  rw [h] at hrun
  cases hrun

theorem freshId : DrawsAfter [] (fun i => [i]) freshId := by
  intro s t i hrun
  cases hrun
  refine ⟨Nat.le_succ _, ?_⟩
  rw [Nat.add_sub_cancel_left]
  exact List.Perm.refl _

/-- Drawing goes on behind a step. -/
theorem andThen (hm : DrawsAfter old ids m) (hk : ∀ a, DrawsAfter (ids a) ids' (k a)) :
    DrawsAfter old ids' (m >>= k) := by
  intro s t b hrun
  cases hms : m s with
  | error e u => rw [bind_of_error hms] at hrun; cases hrun
  | ok a u =>
    rw [bind_of_ok hms] at hrun
    obtain ⟨hle₁, hperm₁⟩ := hm hms
    obtain ⟨hle₂, hperm₂⟩ := hk a hrun
    refine ⟨Nat.le_trans hle₁ hle₂, ?_⟩
    -- the two ranges meet at the next id in between
    have hrange : List.range' s.nextId (t.nextId - s.nextId) =
        List.range' s.nextId (u.nextId - s.nextId) ++
          List.range' u.nextId (t.nextId - u.nextId) := by
      have happend := List.range'_append_1 (s := s.nextId) (m := u.nextId - s.nextId)
        (n := t.nextId - u.nextId)
      rw [Nat.add_sub_cancel' hle₁] at happend
      rw [happend]
      congr 1
      omega
    rw [hrange, ← List.append_assoc]
    exact hperm₂.trans (hperm₁.append_right _)

/-- Ids that were there before stay. -/
theorem frame (hm : DrawsAfter [] ids m) (old : List Nat) :
    DrawsAfter old (fun a => old ++ ids a) m := by
  intro s t a hrun
  obtain ⟨hle, hperm⟩ := hm hrun
  exact ⟨hle, hperm.append_left old⟩

/-- A step between others adds the ids of its result. -/
theorem bind (hm : DrawsAfter [] ids m) (hk : ∀ a, DrawsAfter (old ++ ids a) ids' (k a)) :
    DrawsAfter old ids' (m >>= k) := (hm.frame old).andThen hk

/-- A step that draws nothing adds nothing. -/
theorem past {e : Extent} {g : α → γ} {m' : Parse γ} (hm : Lockstep .silent e g m m')
    (hk : ∀ a, DrawsAfter old ids' (k a)) : DrawsAfter old ids' (m >>= k) := by
  have hnothing : DrawsAfter old (fun _ => old) m := by
    intro s t a hrun
    have houtcome := hm.outcome s
    rw [hrun] at houtcome
    have heq : t.nextId = s.nextId := houtcome.2.2 id
    refine ⟨houtcome.1, ?_⟩
    rw [heq, Nat.sub_self, List.range'_zero, List.append_nil]
  exact hnothing.andThen hk

theorem afterRemaining {k : Nat → Parse β} (hk : ∀ n, DrawsAfter old ids' (k n)) :
    DrawsAfter old ids' (remaining >>= k) := fun s _ _ hrun => hk s.remaining hrun

theorem afterLookahead {k : TokenKind → Parse β} (hk : ∀ t, DrawsAfter old ids' (k t)) :
    DrawsAfter old ids' (lookahead 1 >>= k) := fun s _ _ hrun => hk (s.peek 1).kind hrun

theorem ite {c : Prop} [Decidable c] {x y : Parse α} (hx : DrawsAfter old ids x)
    (hy : DrawsAfter old ids y) : DrawsAfter old ids (if c then x else y) := by
  by_cases hc : c
  · rw [if_pos hc]; exact hx
  · rw [if_neg hc]; exact hy

theorem itemsUntil {close : TokenKind} {item : Nat → Parse α}
    (hitem : ∀ index, DrawsAfter [] ids (item index)) :
    ∀ n index, DrawsAfter [] (List.flatMap ids) (itemsUntil close item n index)
  | 0, _ => fails fun _ => rfl
  | n + 1, index => by
    refine past .kind fun _ => ite (pure (List.Perm.refl _)) ?_
    refine andThen (hitem index) fun a => ?_
    refine bind (itemsUntil hitem n (index + 1)) fun rest => ?_
    exact pure (List.Perm.refl _)

theorem manyUntil {close : TokenKind} {item : Nat → Parse α}
    (hitem : ∀ index, DrawsAfter [] ids (item index)) :
    DrawsAfter [] (List.flatMap ids) (Parse.manyUntil close item) :=
  afterRemaining fun _ => itemsUntil hitem _ _

theorem commaUntil {close : TokenKind} {item : Nat → Parse α}
    (hitem : ∀ index, DrawsAfter [] ids (item index)) :
    DrawsAfter [] (List.flatMap ids) (Parse.commaUntil close item) := by
  refine manyUntil fun index => andThen (hitem index) fun a => ?_
  exact past (.comma close) fun _ => pure (List.Perm.refl _)

end DrawsAfter

open DrawsAfter (past andThen)

/-! ### Expressions -/

namespace Expr

variable {self : Power → Parse Expr} {p : Power} {left : Expr}

theorem parseAtom_draws : DrawsAfter [] ids parseAtom := by
  refine andThen .freshId fun id => past .current fun t => ?_
  dsimp only
  split
  case h_1 => exact past .number fun _ => .pure (List.Perm.refl _)
  case h_9 => exact .fails unexpectedToken_run
  all_goals exact past (.discarded .advance) fun _ => .pure (List.Perm.refl _)

theorem parseUnary_draws (hself : ∀ p, DrawsAfter [] ids (self p)) :
    DrawsAfter [] ids (parseUnary self) := by
  refine past .advance fun operator => andThen (hself _) fun operand => ?_
  exact .bind .freshId fun id => .pure (List.Perm.refl _)

theorem parseGroup_draws (hself : ∀ p, DrawsAfter [] ids (self p)) :
    DrawsAfter [] ids (parseGroup self) := by
  refine past (.discarded .advance) fun _ => andThen (hself _) fun e => ?_
  exact past (.discarded (.expected .closeParen)) fun _ => .pure (List.Perm.refl _)

theorem parseArgs_draws (hself : ∀ p, DrawsAfter [] ids (self p)) :
    DrawsAfter [] idsAll (parseArgs self) := by
  refine past (.discarded (.expected .openParen)) fun _ => ?_
  refine andThen (.commaUntil fun _ => hself _) fun args => ?_
  refine past (.discarded (.expected .closeParen)) fun _ => .pure ?_
  rw [idsAll_eq_flatMap]

theorem parseArray_draws (hself : ∀ p, DrawsAfter [] ids (self p)) :
    DrawsAfter [] ids (parseArray self) := by
  refine past .advance fun first => andThen (.commaUntil fun _ => hself _) fun elements => ?_
  refine past (.discarded (.expected .closeBracket)) fun _ => past (.spanFrom _) fun span => ?_
  refine .bind .freshId fun id => .pure ?_
  rw [ids, idsAll_eq_flatMap]

theorem parseKey_draws (hself : ∀ p, DrawsAfter [] ids (self p)) :
    DrawsAfter [] idsKey (parseKey self) := by
  refine past .kind fun k => ?_
  split
  · exact past .advance fun t => .pure (List.Perm.refl _)
  · exact past .advance fun t => .pure (List.Perm.refl _)
  · refine past (.discarded .advance) fun _ => andThen (hself _) fun key => ?_
    exact past (.discarded (.expected .closeBracket)) fun _ => .pure (List.Perm.refl _)
  · exact .fails (unexpected_run _)

theorem parseEntry_draws (hself : ∀ p, DrawsAfter [] ids (self p)) :
    DrawsAfter [] idsEntry (parseEntry self) := by
  refine andThen (parseKey_draws hself) fun key => past (.discarded (.expected .colon)) fun _ => ?_
  exact .bind (hself _) fun value => .pure (List.Perm.refl _)

theorem parseObject_draws (hself : ∀ p, DrawsAfter [] ids (self p)) :
    DrawsAfter [] ids (parseObject self) := by
  refine past .advance fun first => ?_
  refine andThen (.commaUntil fun _ => parseEntry_draws hself) fun entries => ?_
  refine past (.discarded (.expected .closeCurly)) fun _ => past (.spanFrom _) fun span => ?_
  refine .bind .freshId fun id => .pure ?_
  rw [ids, idsEntries_eq_flatMap]

theorem parseConstruct_draws (hself : ∀ p, DrawsAfter [] ids (self p)) :
    DrawsAfter [] ids (parseConstruct self) := by
  refine past .advance fun first => past (.expectedOr .identifier _) fun name => ?_
  refine andThen .freshId fun classId => .bind (parseArgs_draws hself) fun args => ?_
  refine past (.spanFrom _) fun span => .bind .freshId fun id => ?_
  exact .pure (List.Perm.refl _)

theorem parsePrimary_draws (hself : ∀ p, DrawsAfter [] ids (self p)) :
    DrawsAfter [] ids (parsePrimary self) := by
  refine past .kind fun k => ?_
  cases k
  case number | identifier | text | kwTrue | kwFalse | kwNull | kwUndefined | kwThis =>
    exact parseAtom_draws
  case dash | bang | plusPlus | minusMinus => exact parseUnary_draws hself
  case openParen => exact parseGroup_draws hself
  case openBracket => exact parseArray_draws hself
  case openCurly => exact parseObject_draws hself
  case kwNew => exact parseConstruct_draws hself
  all_goals exact .fails unexpectedToken_run

theorem parseBinary_draws (hself : ∀ p, DrawsAfter [] ids (self p)) :
    DrawsAfter left.ids ids (parseBinary self left p) := by
  refine past .advance fun operator => .bind (hself _) fun right => ?_
  exact .bind .freshId fun id => .pure (List.Perm.refl _)

theorem parseAssign_draws (hself : ∀ p, DrawsAfter [] ids (self p)) :
    DrawsAfter left.ids ids (parseAssign self left) := by
  refine past .advance fun operator => .bind (hself _) fun value => ?_
  exact .bind .freshId fun id => .pure (List.Perm.refl _)

theorem parseCall_draws (hself : ∀ p, DrawsAfter [] ids (self p)) :
    DrawsAfter left.ids ids (parseCall self left) := by
  refine .bind (parseArgs_draws hself) fun args => past (.spanFrom _) fun span => ?_
  exact .bind .freshId fun id => .pure (List.Perm.refl _)

theorem parseMember_draws : DrawsAfter left.ids ids (parseMember left) := by
  refine past (.discarded .advance) fun _ => past (.expectedOr .identifier _) fun name => ?_
  refine past (.spanFrom _) fun span => .bind .freshId fun id => .pure ?_
  rw [ids, idsKey, List.append_nil]

theorem parseIndex_draws (hself : ∀ p, DrawsAfter [] ids (self p)) :
    DrawsAfter left.ids ids (parseIndex self left) := by
  refine past (.discarded .advance) fun _ => .bind (hself _) fun key => ?_
  refine past (.discarded (.expected .closeBracket)) fun _ => past (.spanFrom _) fun span => ?_
  exact .bind .freshId fun id => .pure (List.Perm.refl _)

theorem parseOperator_draws (hself : ∀ p, DrawsAfter [] ids (self p)) :
    DrawsAfter left.ids ids (parseOperator self left p) := by
  cases p
  case assignment => exact parseAssign_draws hself
  case call => exact parseCall_draws hself
  case member => exact past .kind fun _ => .ite parseMember_draws (parseIndex_draws hself)
  all_goals exact parseBinary_draws hself

theorem parseOperators_draws (hself : ∀ p, DrawsAfter [] ids (self p)) :
    ∀ (n : Nat) (left : Expr), DrawsAfter left.ids ids (parseOperators self p n left)
  | 0, _ => .fails fun _ => rfl
  | n + 1, left => by
    refine past .kind fun k => ?_
    split
    · exact .pure (List.Perm.refl _)
    · refine .ite (.pure (List.Perm.refl _)) ?_
      exact andThen (parseOperator_draws hself) fun joined => parseOperators_draws hself n joined

theorem parseWithin_draws : ∀ (n : Nat) (p : Power), DrawsAfter [] ids (parseWithin n p)
  | 0, _ => .fails fun _ => rfl
  | n + 1, p => by
    refine andThen (parsePrimary_draws (parseWithin_draws n)) fun left => ?_
    exact .afterRemaining fun _ => parseOperators_draws (parseWithin_draws n) _ left

/-- An expression has the ids that were drawn while it was read. -/
theorem parse_draws (p : Power) : DrawsAfter [] ids (parse p) :=
  .afterRemaining fun _ => parseWithin_draws _ p

end Expr

/-! ### Statements -/

namespace Stmt

variable {self : Parse Stmt}

theorem parseInitializer_draws : DrawsAfter [] Expr.idsOption parseInitializer := by
  refine past .kind fun _ => .ite ?_ (.pure (List.Perm.refl _))
  refine past (.discarded .advance) fun _ => andThen (Expr.parse_draws _) fun e => ?_
  exact .pure (List.Perm.refl _)

theorem parseVariable_draws (start : Position) (isConst : Bool) (type : Option TypeRef) :
    DrawsAfter [] ids (parseVariable start isConst type) := by
  refine past (.expectedOr .identifier _) fun name => andThen parseInitializer_draws fun value => ?_
  refine past (requireValue_lockstep isConst type value) fun _ => ?_
  refine past (.discarded (.expected .semicolon)) fun _ => past (.spanFrom _) fun span => ?_
  exact .pure (List.Perm.refl _)

theorem parseVarDecl_draws : DrawsAfter [] ids parseVarDecl := by
  refine past .advance fun first => past .kind fun k => .afterLookahead fun k' => ?_
  refine .ite (parseVariable_draws _ _ _) ?_
  exact past (TypeRef.parse_lockstep .lowest) fun type => parseVariable_draws _ _ _

theorem parseBlockOf_draws (hself : DrawsAfter [] ids self) :
    DrawsAfter [] (fun b => idsAll b.body) (parseBlockOf self) := by
  refine past (.expected .openCurly) fun first => andThen (.manyUntil fun _ => hself) fun body => ?_
  refine past (.discarded (.expected .closeCurly)) fun _ => past (.spanFrom _) fun span => .pure ?_
  rw [idsAll_eq_flatMap]

theorem parseIf_draws (hself : DrawsAfter [] ids self) : DrawsAfter [] ids (parseIf self) := by
  refine past .advance fun first => andThen (Expr.parse_draws _) fun condition => ?_
  refine .bind hself fun onTrue => past .kind fun _ => .ite ?_ ?_
  · refine past (.discarded .advance) fun _ => .bind hself fun onFalse => ?_
    exact past (.spanFrom _) fun span => .pure (List.Perm.refl _)
  · refine past (.spanFrom _) fun span => .pure ?_
    rw [ids, idsOption, List.append_nil]

theorem parseWhile_draws (hself : DrawsAfter [] ids self) :
    DrawsAfter [] ids (parseWhile self) := by
  refine past .advance fun first => andThen (Expr.parse_draws _) fun condition => ?_
  refine .bind hself fun body => ?_
  exact past (.spanFrom _) fun span => .pure (List.Perm.refl _)

theorem parseFor_draws (hself : DrawsAfter [] ids self) : DrawsAfter [] ids (parseFor self) := by
  refine past .advance fun first => past (.expectedOr .identifier _) fun name => ?_
  refine past (.discarded (.expected .kwIn)) fun _ => andThen (Expr.parse_draws _) fun iterable => ?_
  refine .bind (parseBlockOf_draws hself) fun body => ?_
  exact past (.spanFrom _) fun span => .pure (List.Perm.refl _)

theorem parseFn_draws (hself : DrawsAfter [] ids self) : DrawsAfter [] idsFn (parseFn self) := by
  refine past (.expected .kwFn) fun first => past (.expectedOr .identifier _) fun name => ?_
  refine past (.discarded (.expected .openParen)) fun _ => ?_
  refine past (.commaUntil fun _ => parseParam_lockstep) fun params => ?_
  refine past (.discarded (.expected .closeParen)) fun _ => ?_
  refine past parseResult_lockstep fun result => andThen (parseBlockOf_draws hself) fun body => ?_
  exact past (.spanFrom _) fun span => .pure (List.Perm.refl _)

theorem parseReturn_draws : DrawsAfter [] ids parseReturn := by
  refine past .advance fun first => past .kind fun _ => .ite ?_ ?_
  · refine past (.discarded (.expected .semicolon)) fun _ => past (.spanFrom _) fun span => ?_
    exact .pure (List.Perm.refl _)
  · refine andThen (Expr.parse_draws _) fun value => ?_
    refine past (.discarded (.expected .semicolon)) fun _ => past (.spanFrom _) fun span => ?_
    exact .pure (List.Perm.refl _)

theorem parseJump_draws : DrawsAfter [] ids parseJump := by
  refine past .advance fun t => past (.discarded (.expected .semicolon)) fun _ => ?_
  exact past (.spanFrom _) fun span => .pure (List.Perm.refl _)

/-- The ids of a member of a class. -/
def idsMember : FieldDecl ⊕ MethodDecl Stmt → List Nat
  | .inl field => Expr.idsOption field.value
  | .inr method => idsMethod method

theorem parseMember_draws (hself : DrawsAfter [] ids self) :
    DrawsAfter [] idsMember (parseMember self) := by
  refine past .position fun start => .afterRemaining fun n => ?_
  refine past (parseModifiers_lockstep (n + 1) (n + 1) .none (Nat.le_refl _) fun _ => rfl)
    fun modifiers => past .kind fun _ => .ite ?_ ?_
  · exact andThen (parseFn_draws hself) fun function => .pure (List.Perm.refl _)
  · refine past (TypeRef.parse_lockstep .lowest) fun type => ?_
    refine past (.expectedOr .identifier _) fun name => ?_
    refine andThen parseInitializer_draws fun value => ?_
    refine past (.discarded (.expected .semicolon)) fun _ => past (.spanFrom _) fun span => ?_
    exact .pure (List.Perm.refl _)

/-- A class holds the same ids as its members in the order of their writing. -/
theorem idsMembers_perm : ∀ ms : List (FieldDecl ⊕ MethodDecl Stmt),
    (idsFields (ms.filterMap Sum.getLeft?) ++ idsMethods (ms.filterMap Sum.getRight?)).Perm
      (ms.flatMap idsMember)
  | [] => List.Perm.refl _
  | .inl field :: ms => by
    rw [List.flatMap_cons]
    exact (List.append_assoc .. ▸ (idsMembers_perm ms).append_left (Expr.idsOption field.value))
  | .inr ⟨modifiers, function⟩ :: ms => by
    rw [List.flatMap_cons]
    have hswap := List.perm_append_comm_assoc (idsFields (ms.filterMap Sum.getLeft?))
      (idsFn function) (idsMethods (ms.filterMap Sum.getRight?))
    exact hswap.trans ((idsMembers_perm ms).append_left (idsFn function))

theorem parseClass_draws (hself : DrawsAfter [] ids self) :
    DrawsAfter [] ids (parseClass self) := by
  refine past .advance fun first => past (.expectedOr .identifier _) fun name => ?_
  refine past (.register _) fun _ => past parseSuperclass_lockstep fun superclass => ?_
  refine past parseMixins_lockstep fun mixins => past (.discarded (.expected .openCurly)) fun _ => ?_
  refine andThen (.manyUntil fun _ => parseMember_draws hself) fun members => ?_
  refine past (.discarded (.expected .closeCurly)) fun _ => past (.spanFrom _) fun span => ?_
  exact .pure (idsMembers_perm members)

theorem parseInterface_draws : DrawsAfter [] ids parseInterface := by
  refine past .advance fun first => past (.expectedOr .identifier _) fun name => ?_
  refine past (.register _) fun _ => ?_
  refine past (TypeRef.parseInterface_lockstep TypeRef.parse_lockstep) fun type => ?_
  exact past (.spanFrom _) fun span => .pure (List.Perm.refl _)

theorem parseTypeDecl_draws : DrawsAfter [] ids parseTypeDecl := by
  refine past .advance fun first => past (.expectedOr .identifier _) fun name => ?_
  refine past (.register _) fun _ => past (.discarded (.expected .assignment)) fun _ => ?_
  refine past (TypeRef.parse_lockstep .lowest) fun type => ?_
  refine past (.discarded (.expected .semicolon)) fun _ => past (.spanFrom _) fun span => ?_
  exact .pure (List.Perm.refl _)

theorem parsePlain_draws : DrawsAfter [] ids parsePlain := by
  have htyped : DrawsAfter [] ids parseTyped :=
    past .position fun start => past (TypeRef.parse_lockstep .lowest) fun type =>
      parseVariable_draws _ _ _
  have hexpr : DrawsAfter [] ids parseExpr := by
    refine andThen (Expr.parse_draws _) fun e => past (.discarded (.expected .semicolon)) fun _ => ?_
    exact past (.spanFrom _) fun span => .pure (List.Perm.refl _)
  intro s t a hrun
  rw [parsePlain_run] at hrun
  split at hrun
  · exact htyped hrun
  · exact hexpr hrun

theorem parseStep_draws (hself : DrawsAfter [] ids self) : DrawsAfter [] ids (parseStep self) := by
  refine past .kind fun k => ?_
  cases k
  case kwConst | kwLet => exact parseVarDecl_draws
  case kwIf => exact parseIf_draws hself
  case kwWhile => exact parseWhile_draws hself
  case kwFor => exact parseFor_draws hself
  case openCurly =>
    exact andThen (parseBlockOf_draws hself) fun block => .pure (List.Perm.refl _)
  case kwFn => exact andThen (parseFn_draws hself) fun function => .pure (List.Perm.refl _)
  case kwReturn => exact parseReturn_draws
  case kwBreak | kwContinue => exact parseJump_draws
  case kwClass => exact parseClass_draws hself
  case kwInterface => exact parseInterface_draws
  case kwType => exact parseTypeDecl_draws
  all_goals exact parsePlain_draws

theorem parseWithin_draws : ∀ n, DrawsAfter [] ids (parseWithin n)
  | 0 => .fails fun _ => rfl
  | n + 1 => parseStep_draws (parseWithin_draws n)

/-- A statement has the ids that were drawn while it was read. -/
theorem parse_draws : DrawsAfter [] ids parse := .afterRemaining fun _ => parseWithin_draws _

end Stmt

/-- A program has the ids that were drawn while it was read. -/
theorem Block.parse_draws : DrawsAfter [] (fun b => Stmt.idsAll b.body) Block.parse := by
  intro s t block hrun
  have hfrom : DrawsAfter [] (fun b => Stmt.idsAll b.body) (parseFrom ⟨0, s.file⟩) := by
    refine andThen (.manyUntil fun _ => Stmt.parse_draws) fun body => ?_
    refine past (.spanFrom _) fun span => .pure ?_
    rw [Stmt.idsAll_eq_flatMap]
  exact hfrom hrun

end ScriptCheck
