import ScriptCheck.Proofs.Binding.Discipline
import ScriptCheck.Proofs.Parts

/-!
What a bound expression says about the binder it was bound in. The rules give the type of an expression
from the types of its parts, the slot that an access leads to, and what may be written to. Binding an
expression that succeeds gives a tree that follows the rules; what holds of all such trees is then shown
by induction on the rules, without another look at binding.
-/

namespace ScriptCheck

namespace Binder

/-- The second binder differs from the first in the types of expressions at most. -/
def Noted (b b' : Binder) : Prop := ∃ ts, b' = { b with boundTypes := ts }

/-- The slot that an access to an expanded type leads to, and whether it is a built-in member. -/
inductive Leads (b : Binder) (t : Ty) (position : Position) :
    BoundKey BoundExpr → Slot → Bool → Prop
  | extension {name : String} {type : Ty} (found : t.extension? name = some type) :
      Leads b t position (.name name) ⟨type, false⟩ true
  | member {name : String} {slot : Slot} (missing : t.extension? name = none)
      (found : memberOf b.types b.classes position (.name name) t = .ok slot) :
      Leads b t position (.name name) slot false
  | element {key : BoundExpr} {element : Ty} (found : t.widened.elementType? = some element) :
      Leads b t position (.computed key) ⟨element, true⟩ false
  | character {key : BoundExpr} (isText : t.widened.isNamed "string" = true) :
      Leads b t position (.computed key) ⟨.string, false⟩ false
  | computed {key : BoundExpr} {slot : Slot} (noElement : t.widened.elementType? = none)
      (noText : t.widened.isNamed "string" = false)
      (found : memberOf b.types b.classes position (memberKeyOf key.type) t = .ok slot) :
      Leads b t position (.computed key) slot false

/-- What may be written to: a variable that is writable, or a member whose slot is. -/
inductive Writes (b : Binder) : BoundExpr → Prop
  | symbol {node : BoundNode} {name : String} {distance : Nat} {found : Variable}
      (reads : b.readVariable name node.id node.span.start = .ok (found, distance))
      (writable : found.writable = true) : Writes b (.symbol node name distance)
  | access {node : BoundNode} {object : BoundExpr} {key : BoundKey BoundExpr} {slot : Slot}
      {isExtension : Bool}
      (leads : b.Leads (b.types.expand object.type) node.span.start key slot isExtension)
      (writable : slot.writable = true) : Writes b (.access node object key isExtension)

end Binder

/-- An operator that writes to its operand. -/
def UnaryKind.writes : UnaryKind → Bool
  | .increment | .decrement => true
  | .negation | .logicalNegation => false

/-- The type of a keyword. -/
def Keyword.type : Keyword → Ty
  | .null => .null
  | .undefined => .undefined

/-- The rules for bound expressions. -/
inductive BoundExpr.Typed (b : Binder) : BoundExpr → Prop
  | literal {node : BoundNode} {value : Literal} (type : node.type = .literal value)
      (ordinary : value ≠ .float .nan) : Typed b (.literal node value)
  | keyword {node : BoundNode} {word : Keyword} (type : node.type = word.type) :
      Typed b (.keyword node word)
  | symbol {node : BoundNode} {name : String} {distance : Nat} {found : Variable}
      (reads : b.readVariable name node.id node.span.start = .ok (found, distance))
      (type : node.type = found.type) : Typed b (.symbol node name distance)
  | array {node : BoundNode} {elements : List BoundExpr} (parts : ∀ e ∈ elements, Typed b e)
      (type : node.type = arrayType elements) : Typed b (.array node elements)
  | object {node : BoundNode} {entries : List (BoundEntry BoundExpr)}
      (keys : ∀ e ∈ entries, ∀ key, e.key = .computed key → Typed b key)
      (values : ∀ e ∈ entries, Typed b e.value)
      (type : node.type = .interface (objectType entries)) : Typed b (.object node entries)
  | binary {node : BoundNode} {use : BinaryOperator} {left right : BoundExpr}
      (first : Typed b left) (second : Typed b right) (listed : use ∈ BinaryOperator.all)
      (type : node.type = use.result) : Typed b (.binary node use left right)
  | unary {node : BoundNode} {use : UnaryOperator} {operand : BoundExpr}
      (part : Typed b operand) (written : use.kind.writes = true → b.Writes operand)
      (listed : use ∈ UnaryOperator.all) (type : node.type = use.result) :
      Typed b (.unary node use operand)
  | assign {node : BoundNode} {use : Option BinaryOperator} {target value : BoundExpr}
      (first : Typed b target) (written : b.Writes target) (second : Typed b value)
      (type : node.type = target.type) (listed : ∀ u ∈ use, u ∈ BinaryOperator.all) :
      Typed b (.assign node use target value)
  | access {node : BoundNode} {object : BoundExpr} {key : BoundKey BoundExpr} {slot : Slot}
      {isExtension : Bool} (receiver : Typed b object)
      (computed : ∀ e, key = .computed e → Typed b e)
      (leads : b.Leads (b.types.expand object.type) node.span.start key slot isExtension)
      (type : node.type = slot.type) : Typed b (.access node object key isExtension)
  | call {node : BoundNode} {callee : BoundExpr} {args : List BoundExpr} (called : Typed b callee)
      (parts : ∀ e ∈ args, Typed b e) (type : callResult? callee.type = some node.type) :
      Typed b (.call node callee args)
  | construct {node : BoundNode} {definition : ClassDef Ty} {args : List BoundExpr}
      (found : ∃ name id position v, b.readVariable name id position = .ok v ∧
        v.1.type = .classType definition)
      (parts : ∀ e ∈ args, Typed b e) (type : node.type = .classType definition) :
      Typed b (.construct node definition args)

namespace Binder

theorem Noted.refl (b : Binder) : b.Noted b := ⟨b.boundTypes, rfl⟩

theorem Noted.trans {b b₁ b₂ : Binder} (h : b.Noted b₁) (h' : b₁.Noted b₂) : b.Noted b₂ := by
  obtain ⟨ts, rfl⟩ := h
  obtain ⟨us, rfl⟩ := h'
  exact ⟨us, rfl⟩

/-- Leaving the body of a class undoes entering it. -/
theorem Noted.leaveClass {b b' : Binder} {name : String} {type : Ty}
    (h : ((b.enterClass name).defineConst "this" type).Noted b') : b.Noted b'.leaveClass := by
  obtain ⟨ts, rfl⟩ := h
  exact ⟨ts, rfl⟩

/-- From a binder with the same scopes, a step comes to a result in `Q` and keeps the scopes, or it
fails. -/
def Yields (base : Binder) {α : Type} (m : Binding α) (Q : α → Prop) : Prop :=
  Triple base.Noted m (fun a b => base.Noted b ∧ Q a) fun _ => True

namespace Yields

variable {base : Binder} {α β : Type} {m : Binding α} {k : α → Binding β} {Q : α → Prop}
  {R : β → Prop}

theorem pure {a : α} (h : Q a) : base.Yields (Pure.pure a) Q := Triple.pure fun _ hb => ⟨hb, h⟩

theorem fails (e : Failure) : base.Yields (throw e : Binding α) Q := Triple.fails fun _ _ => trivial

theorem bind (hm : base.Yields m Q) (hk : ∀ a, Q a → base.Yields (k a) R) :
    base.Yields (m >>= k) R :=
  Triple.bind hm fun a b hb => hk a hb.2 b hb.1

theorem reading {k : Binder → Binding β} (hk : ∀ b, base.Noted b → base.Yields (k b) R) :
    base.Yields (get >>= k) R :=
  Triple.reading fun b hb => (hk b hb).mono (fun _ hs => hs ▸ hb) (fun _ _ h => h) fun _ h => h

theorem ite {c : Prop} [Decidable c] {x y : Binding α} (hx : c → base.Yields x Q)
    (hy : ¬c → base.Yields y Q) : base.Yields (if c then x else y) Q := by
  by_cases hc : c
  · rw [if_pos hc]
    exact hx hc
  · rw [if_neg hc]
    exact hy hc

/-- A step that only notes types, of which no result is known. -/
theorem of_onlyNotes (h : OnlyNotes m) : base.Yields m fun _ => True := by
  have hstable : Stable base.Noted := by
    rintro _ ts ⟨us, rfl⟩
    exact ⟨ts, rfl⟩
  exact (h _ hstable).mono (fun _ hb => hb) (fun _ _ hb => ⟨hb, trivial⟩) fun _ _ => trivial

theorem of_ok (h : base.Yields m Q) {a : α} {b : Binder} (hm : m base = .ok a b) :
    base.Noted b ∧ Q a := Triple.of_ok h (.refl base) hm

end Yields

end Binder

open Binder Binding

variable {base : Binder}

/-! ### Steps -/

theorem readVariable_yields (name : String) (id : Nat) (position : Position) :
    base.Yields (readVariable name id position)
      fun v => base.readVariable name id position = .ok v := by
  refine .reading fun b hb => ?_
  obtain ⟨ts, rfl⟩ := hb
  have hsame : Binder.readVariable { base with boundTypes := ts } name id position =
      base.readVariable name id position := rfl
  rw [hsame]
  cases hread : base.readVariable name id position with
  | ok v => exact .pure rfl
  | error e => exact .fails e

theorem member_yields (t : Ty) (key : MemberKey) (position : Position) :
    base.Yields (member t key position)
      fun slot => memberOf base.types base.classes position key t = .ok slot := by
  refine .reading fun b hb => ?_
  obtain ⟨ts, rfl⟩ := hb
  dsimp only
  cases hmember : memberOf base.types base.classes position key t with
  | ok slot => exact .pure rfl
  | error e => exact .fails e

theorem finish_yields (node : Node) (type : Ty) :
    base.Yields (finish node type) fun n => n = ⟨node.id, node.span, type⟩ :=
  .bind (.of_onlyNotes (note_onlyNotes node.id type)) fun _ _ => .pure rfl

theorem bindSlot_yields (receiver : Ty) (key : BoundKey BoundExpr) (position : Position) :
    base.Yields (bindSlot receiver key position)
      fun r => base.Leads (base.types.expand receiver) position key r.1 r.2 := by
  refine .reading fun b hb => ?_
  obtain ⟨ts, rfl⟩ := hb
  cases key with
  | name name =>
    simp only [slotIn]
    cases hext : (base.types.expand receiver).extension? name with
    | some type => exact .pure (.extension hext)
    | none => exact .bind (member_yields _ _ _) fun slot hslot => .pure (.member hext hslot)
  | computed key =>
    simp only [slotIn]
    cases helement : (base.types.expand receiver).widened.elementType? with
    | some element => exact .pure (.element helement)
    | none =>
      refine .ite (fun htext => .pure (.character htext)) fun htext => ?_
      refine .bind (member_yields _ _ _) fun slot hslot => .pure ?_
      exact .computed helement (Bool.eq_false_iff.2 htext) hslot

theorem callType_yields (callee : Expr) (bound : BoundExpr) :
    base.Yields (callType callee bound) fun t => callResult? bound.type = some t := by
  unfold callType
  cases callee.canBeCalled with
  | false => exact .fails _
  | true =>
    cases hresult : callResult? bound.type with
    | some t => exact .pure rfl
    | none => exact .fails _

/-- The only uses that write are those of `++` and `--`. -/
theorem UnaryOperator.token_of_writes {token : TokenKind} {operand : Ty} {use : UnaryOperator}
    (h : UnaryOperator.bind? token operand = some use) (hwrites : use.kind.writes = true) :
    token = .plusPlus ∨ token = .minusMinus := by
  have hmem : use ∈ all := List.mem_of_find?_eq_some h
  have htoken : use.tokens.contains token = true :=
    (Bool.and_eq_true _ _ ▸ List.find?_some h).1
  simp only [all, List.mem_cons, List.not_mem_nil, or_false] at hmem
  obtain rfl | rfl | rfl | rfl | rfl | rfl := hmem
  · cases hwrites
  · cases hwrites
  · cases hwrites
  · cases hwrites
  · exact .inl (by simpa using htoken)
  · exact .inr (by simpa using htoken)

/-! ### Expressions -/

namespace Expr

mutual

/-- Binding an expression that was read gives a tree that follows the rules. -/
theorem bind_typed : ∀ e : Expr, (∀ x ∈ e.subterms, x.IsOrdinary) →
    base.Yields e.bind (BoundExpr.Typed base)
  | .literal node value, he =>
    .bind (finish_yields node _) fun n hn =>
      .pure (.literal (congrArg BoundNode.type hn) (he _ List.mem_cons_self))
  | .keyword node word, _ =>
    .bind (finish_yields node _) fun n hn => .pure (.keyword (by cases word <;> rw [hn] <;> rfl))
  | .symbol node name, _ =>
    .bind (readVariable_yields name node.id node.span.start) fun v hv =>
      .bind (finish_yields node _) fun n hn => .pure (.symbol (hn ▸ hv) (congrArg BoundNode.type hn))
  | .array node elements, he =>
    .bind (bindAll_typed elements (List.forall_mem_cons.1 he).2) fun es hes =>
      .bind (finish_yields node _) fun n hn => .pure (.array hes (congrArg BoundNode.type hn))
  | .object node entries, he =>
    .bind (bindEntries_typed entries (List.forall_mem_cons.1 he).2) fun es hes =>
      .bind (finish_yields node _) fun n hn =>
        .pure (.object (fun e he => (hes e he).1) (fun e he => (hes e he).2)
          (congrArg BoundNode.type hn))
  | .binary node operator left right, he => by
    obtain ⟨hleft, hright⟩ := List.forall_mem_append.1 (List.forall_mem_cons.1 he).2
    refine .bind (bind_typed left hleft) fun l hl => .bind (bind_typed right hright) fun r hr => ?_
    cases huse : BinaryOperator.bind? operator.kind l.type r.type with
    | none => exact .fails _
    | some use =>
      exact .bind (finish_yields node _) fun n hn =>
        .pure (.binary hl hr (List.mem_of_find?_eq_some huse) (congrArg BoundNode.type hn))
  | .unary node operator operand, he => by
    have hoperand := (List.forall_mem_cons.1 he).2
    -- The operand of `++` and `--` is a target, and no other use writes.
    have hrest : ∀ o : BoundExpr, o.Typed base →
        (operator.kind = .plusPlus ∨ operator.kind = .minusMinus → base.Writes o) →
        base.Yields
          (match UnaryOperator.bind? operator.kind o.type with
            | some use => do return BoundExpr.unary (← finish node use.result) use o
            | none => throw (operatorFailure operator [o.type])) (BoundExpr.Typed base) := by
      intro o ho hwrites
      cases huse : UnaryOperator.bind? operator.kind o.type with
      | none => exact .fails _
      | some use =>
        refine .bind (finish_yields node _) fun n hn => .pure ?_
        exact .unary ho (fun hkind => hwrites (UnaryOperator.token_of_writes huse hkind))
          (List.mem_of_find?_eq_some huse) (congrArg BoundNode.type hn)
    refine .ite (fun _ => ?_) fun hother => ?_
    · exact .bind (bindTarget_typed operand hoperand) fun o ho => hrest o ho.1 fun _ => ho.2
    · refine .bind (bind_typed operand hoperand) fun o ho => hrest o ho fun htoken => absurd ?_ hother
      simpa using htoken
  | .assign node operator target value, he => by
    obtain ⟨htarget, hvalue⟩ := List.forall_mem_append.1 (List.forall_mem_cons.1 he).2
    refine .bind (bindTarget_typed target htarget) fun t ht => ?_
    refine .bind (bind_typed value hvalue) fun v hv => .ite (fun _ => ?_) fun _ => ?_
    · exact .bind (finish_yields node _) fun n hn =>
        .pure (.assign ht.1 ht.2 hv (hn ▸ rfl) nofun)
    · cases huse : BinaryOperator.bind? operator.kind t.type v.type with
      | none => exact .fails _
      | some use =>
        refine .bind (finish_yields node _) fun n hn =>
          .pure (.assign ht.1 ht.2 hv (hn ▸ rfl) fun u hu => ?_)
        exact Option.mem_some.1 hu ▸ List.mem_of_find?_eq_some huse
  | .access node receiver key, he => by
    obtain ⟨hreceiver, hkey⟩ := List.forall_mem_append.1 (List.forall_mem_cons.1 he).2
    exact .bind (bind_typed receiver hreceiver) fun r hr => .bind (bindKey_typed key hkey) fun k hk =>
      .bind (bindSlot_yields _ _ node.span.start) fun slot hslot =>
        .bind (finish_yields node _) fun n hn =>
          .pure (.access hr hk (hn ▸ hslot) (congrArg BoundNode.type hn))
  | .call node callee args, he => by
    obtain ⟨hcallee, hargs⟩ := List.forall_mem_append.1 (List.forall_mem_cons.1 he).2
    exact .bind (bind_typed callee hcallee) fun c hc => .bind (bindAll_typed args hargs) fun as has =>
      .bind (callType_yields callee c) fun t ht => .bind (finish_yields node _) fun n hn =>
        .pure (.call hc has (ht.trans (congrArg (some ·.type) hn.symm)))
  | .construct node className classNode args, he => by
    have hargs := (List.forall_mem_cons.1 he).2
    refine .bind (readVariable_yields className classNode.id classNode.span.start) fun found hv => ?_
    obtain ⟨⟨name, type, writable⟩, distance⟩ := found
    cases type with
    | classType d =>
      refine .bind (.of_onlyNotes (note_onlyNotes _ _)) fun _ _ => ?_
      refine .bind (bindAll_typed args hargs) fun as has => .bind (finish_yields node _) fun n hn => ?_
      exact .pure (.construct ⟨_, _, _, _, hv, rfl⟩ has (congrArg BoundNode.type hn))
    | _ => exact .fails _
termination_by structural e => e

theorem bindTarget_typed : ∀ e : Expr, (∀ x ∈ e.subterms, x.IsOrdinary) →
    base.Yields e.bindTarget fun t => t.Typed base ∧ base.Writes t
  | .symbol node name, _ => by
    refine .bind (readVariable_yields name node.id node.span.start) fun v hv => ?_
    refine .ite (fun hwritable => ?_) fun _ => .bind (.fails _ : base.Yields _ fun _ => False) nofun
    exact .bind (finish_yields node _) fun n hn =>
      .pure ⟨.symbol (hn ▸ hv) (congrArg BoundNode.type hn), .symbol (hn ▸ hv) hwritable⟩
  | .access node receiver key, he => by
    obtain ⟨hreceiver, hkey⟩ := List.forall_mem_append.1 (List.forall_mem_cons.1 he).2
    refine .bind (bind_typed receiver hreceiver) fun r hr => .bind (bindKey_typed key hkey) fun k hk => ?_
    refine .bind (bindSlot_yields _ _ node.span.start) fun slot hslot => ?_
    refine .ite (fun hwritable => ?_) fun _ => .bind (.fails _ : base.Yields _ fun _ => False) nofun
    exact .bind (finish_yields node _) fun n hn =>
      .pure ⟨.access hr hk (hn ▸ hslot) (congrArg BoundNode.type hn),
        .access (hn ▸ hslot) hwritable⟩
  | .literal _ _, _ => .fails _
  | .keyword _ _, _ => .fails _
  | .array _ _, _ => .fails _
  | .object _ _, _ => .fails _
  | .binary _ _ _ _, _ => .fails _
  | .unary _ _ _, _ => .fails _
  | .assign _ _ _ _, _ => .fails _
  | .call _ _ _, _ => .fails _
  | .construct _ _ _ _, _ => .fails _
termination_by structural e => e

theorem bindAll_typed : ∀ es : List Expr, (∀ x ∈ subtermsAll es, x.IsOrdinary) →
    base.Yields (bindAll es) fun ts => ∀ t ∈ ts, t.Typed base
  | [], _ => .pure nofun
  | e :: es, h => by
    obtain ⟨he, hes⟩ := List.forall_mem_append.1 h
    exact .bind (bind_typed e he) fun _ ht => .bind (bindAll_typed es hes) fun _ hts =>
      .pure (List.forall_mem_cons.2 ⟨ht, hts⟩)
termination_by structural es => es

theorem bindKey_typed : ∀ k : Key Expr, (∀ x ∈ subtermsKey k, x.IsOrdinary) →
    base.Yields (bindKey k) fun key => ∀ e, key = .computed e → e.Typed base
  | .name _ _, _ => .pure nofun
  | .computed e, he => .bind (bind_typed e he) fun t ht => .pure fun _ heq => by
      cases heq
      exact ht
termination_by structural k => k

theorem bindEntries_typed : ∀ es : List (Entry Expr), (∀ x ∈ subtermsEntries es, x.IsOrdinary) →
    base.Yields (bindEntries es) fun ts => ∀ t ∈ ts,
      (∀ key, t.key = .computed key → key.Typed base) ∧ t.value.Typed base
  | [], _ => .pure nofun
  | ⟨key, value⟩ :: es, h => by
    obtain ⟨hfirst, hes⟩ := List.forall_mem_append.1 h
    obtain ⟨hkey, hvalue⟩ := List.forall_mem_append.1 hfirst
    refine .bind (bindKey_typed key hkey) fun k hk => ?_
    have hrest : base.Yields
        (do
          let value ← bind value
          let rest ← bindEntries es
          return (⟨k, value⟩ : BoundEntry BoundExpr) :: rest) fun ts => ∀ t ∈ ts,
            (∀ key, t.key = .computed key → key.Typed base) ∧ t.value.Typed base :=
      .bind (bind_typed value hvalue) fun v hv => .bind (bindEntries_typed es hes) fun _ hts =>
        .pure (List.forall_mem_cons.2 ⟨⟨hk, hv⟩, hts⟩)
    cases k with
    | computed k => exact .bind (.of_onlyNotes (.of_looks (expectKey_looks k))) fun _ _ => hrest
    | name text => exact hrest
termination_by structural es => es

end

theorem bindOption_typed : ∀ e : Option Expr, (∀ v ∈ e, ∀ x ∈ v.subterms, x.IsOrdinary) →
    base.Yields (bindOption e) fun o => ∀ t ∈ o, t.Typed base
  | some e, he => .bind (e.bind_typed (he e rfl)) fun _ ht => .pure fun _ hmem => by
      cases hmem
      exact ht
  | none, _ => .pure nofun

end Expr

/-! ### The expressions in an expression -/

namespace BoundExpr

mutual

/-- An expression and all expressions in it. -/
def subterms : BoundExpr → List BoundExpr
  | .literal node value => [.literal node value]
  | .keyword node word => [.keyword node word]
  | .symbol node name distance => [.symbol node name distance]
  | .array node elements => .array node elements :: subtermsAll elements
  | .object node entries => .object node entries :: subtermsEntries entries
  | .binary node use left right => .binary node use left right :: (subterms left ++ subterms right)
  | .unary node use operand => .unary node use operand :: subterms operand
  | .assign node use target value => .assign node use target value :: (subterms target ++ subterms value)
  | .access node receiver key isExtension =>
    .access node receiver key isExtension :: (subterms receiver ++ subtermsKey key)
  | .call node callee args => .call node callee args :: (subterms callee ++ subtermsAll args)
  | .construct node definition args => .construct node definition args :: subtermsAll args
termination_by structural e => e

/-- All expressions in a list. -/
def subtermsAll : List BoundExpr → List BoundExpr
  | [] => []
  | e :: es => subterms e ++ subtermsAll es
termination_by structural es => es

/-- All expressions in a key. -/
def subtermsKey : BoundKey BoundExpr → List BoundExpr
  | .name _ => []
  | .computed e => subterms e
termination_by structural k => k

/-- All expressions in entries. -/
def subtermsEntries : List (BoundEntry BoundExpr) → List BoundExpr
  | [] => []
  | ⟨key, value⟩ :: es => subtermsKey key ++ subterms value ++ subtermsEntries es
termination_by structural es => es

end

variable {x : BoundExpr}

theorem mem_subtermsAll {es : List BoundExpr} : x ∈ subtermsAll es ↔ ∃ e ∈ es, x ∈ e.subterms := by
  induction es with
  | nil => simp [subtermsAll]
  | cons e es ih => simp [subtermsAll, ih]

theorem mem_subtermsKey {key : BoundKey BoundExpr} :
    x ∈ subtermsKey key ↔ ∃ e, key = .computed e ∧ x ∈ e.subterms := by
  cases key with
  | name _ => simp [subtermsKey]
  | computed e => simp [subtermsKey]

theorem mem_subtermsEntries {es : List (BoundEntry BoundExpr)} :
    x ∈ subtermsEntries es ↔ ∃ e ∈ es, x ∈ subtermsKey e.key ∨ x ∈ e.value.subterms := by
  induction es with
  | nil => simp [subtermsEntries]
  | cons e es ih =>
    obtain ⟨key, value⟩ := e
    simp [subtermsEntries, ih, or_assoc]

/-- The expressions in an expression follow the rules too. -/
theorem Typed.subterms {b : Binder} {e : BoundExpr} (h : e.Typed b) : ∀ x ∈ e.subterms, x.Typed b := by
  induction h with
  | literal type ordinary => exact fun x hx => List.mem_singleton.1 hx ▸ .literal type ordinary
  | keyword type => exact fun x hx => List.mem_singleton.1 hx ▸ .keyword type
  | symbol reads type => exact fun x hx => List.mem_singleton.1 hx ▸ .symbol reads type
  | array elements type ih =>
    refine List.forall_mem_cons.2 ⟨.array elements type, fun x hx => ?_⟩
    obtain ⟨e, he, hx⟩ := mem_subtermsAll.1 hx
    exact ih e he x hx
  | object keys values type ihkeys ihvalues =>
    refine List.forall_mem_cons.2 ⟨.object keys values type, fun x hx => ?_⟩
    obtain ⟨e, he, hx | hx⟩ := mem_subtermsEntries.1 hx
    · obtain ⟨key, hkey, hx⟩ := mem_subtermsKey.1 hx
      exact ihkeys e he key hkey x hx
    · exact ihvalues e he x hx
  | binary first second listed type ihfirst ihsecond =>
    exact List.forall_mem_cons.2 ⟨.binary first second listed type,
      List.forall_mem_append.2 ⟨ihfirst, ihsecond⟩⟩
  | unary part written listed type ih =>
    exact List.forall_mem_cons.2 ⟨.unary part written listed type, ih⟩
  | assign first written second type listed ihfirst ihsecond =>
    exact List.forall_mem_cons.2 ⟨.assign first written second type listed,
      List.forall_mem_append.2 ⟨ihfirst, ihsecond⟩⟩
  | access receiver computed leads type ihreceiver ihcomputed =>
    refine List.forall_mem_cons.2 ⟨.access receiver computed leads type,
      List.forall_mem_append.2 ⟨ihreceiver, fun x hx => ?_⟩⟩
    obtain ⟨key, hkey, hx⟩ := mem_subtermsKey.1 hx
    exact ihcomputed key hkey x hx
  | call called args type ihcalled ihargs =>
    refine List.forall_mem_cons.2 ⟨.call called args type,
      List.forall_mem_append.2 ⟨ihcalled, fun x hx => ?_⟩⟩
    obtain ⟨e, he, hx⟩ := mem_subtermsAll.1 hx
    exact ihargs e he x hx
  | construct found args type ih =>
    refine List.forall_mem_cons.2 ⟨.construct found args type, fun x hx => ?_⟩
    obtain ⟨e, he, hx⟩ := mem_subtermsAll.1 hx
    exact ih e he x hx

/-- The types that a bound expression has besides those of its parts: its own, those of its operator and
the class that it constructs. -/
def types : BoundExpr → List Ty
  | .binary n use _ _ => [n.type, use.left, use.right, use.result]
  | .unary n use _ => [n.type, use.operand, use.result]
  | .assign n use _ _ => n.type :: use.toList.flatMap fun u => [u.left, u.right, u.result]
  | .construct n c _ => [n.type, .classType c]
  | e => [e.type]

/-- The types of an expression and of all expressions in it. -/
def allTypes (e : BoundExpr) : List Ty := e.subterms.flatMap types

theorem type_mem_types (e : BoundExpr) : e.type ∈ e.types := by
  cases e <;> exact List.mem_cons_self

end BoundExpr

end ScriptCheck
