import ScriptCheck.Binding
import ScriptCheck.Proofs.Anchor.Trees
import ScriptCheck.Proofs.Coupling
import ScriptCheck.Resolution

/-!
Failures point into the tree. Resolution and binding report a failure at the start of something in the
tree they are given, so that a tree that is anchored in a set of places fails at these places only. What
is bound from an anchored tree is anchored too.
-/

namespace ScriptCheck

variable {P : Position → Prop}

/-- A failure that points at one of the places, if it points anywhere. -/
def Failure.PointsAt (P : Position → Prop) : Failure → Prop
  | .rejected d => P d.position
  | .stuck => True

/-! ### Outcomes -/

section

variable {ε σ α β : Type}

/-- A step gives results in `Q` and failures in `E`. -/
def Ends (E : ε → Prop) (Q : α → Prop) (m : EStateM ε σ α) : Prop :=
  ∀ s, (∀ a t, m s = .ok a t → Q a) ∧ ∀ e t, m s = .error e t → E e

/-- A computation gives results in `Q` and failures in `E`. -/
def Gives (E : ε → Prop) (Q : α → Prop) (x : Except ε α) : Prop :=
  (∀ a, x = .ok a → Q a) ∧ ∀ e, x = .error e → E e

namespace Ends

variable {E : ε → Prop} {Q : α → Prop} {R : β → Prop} {m : EStateM ε σ α} {f : α → EStateM ε σ β}

theorem pure {a : α} (h : Q a) : Ends E Q (Pure.pure a : EStateM ε σ α) := by
  refine fun s => ⟨?_, nofun⟩
  rintro b t ⟨⟩
  exact h

theorem fails {e : ε} (h : E e) : Ends E Q (throw e : EStateM ε σ α) := by
  refine fun s => ⟨nofun, ?_⟩
  rintro e' t ⟨⟩
  exact h

theorem modified (u : σ → σ) : Ends E (fun _ => True) (modify u : EStateM ε σ PUnit) :=
  fun _ => ⟨fun _ _ _ => trivial, nofun⟩

theorem bind (hm : Ends E Q m) (hf : ∀ a, Q a → Ends E R (f a)) : Ends E R (m >>= f) := by
  intro s
  cases hms : m s with
  | ok a t =>
    rw [bind_of_ok hms]
    exact hf a ((hm s).1 a t hms) t
  | error e t =>
    rw [bind_of_error hms]
    refine ⟨nofun, ?_⟩
    rintro _ _ ⟨⟩
    exact (hm s).2 e t hms

/-- What stands behind a failure does not matter. -/
theorem stops {e : ε} (h : E e) : Ends E R ((throw e : EStateM ε σ α) >>= f) := by
  refine fun s => ⟨nofun, ?_⟩
  rintro e' t ⟨⟩
  exact h

theorem afterGet {f : σ → EStateM ε σ β} (hf : ∀ s, Ends E R (f s)) : Ends E R (get >>= f) :=
  fun s => hf s s

theorem ite {c : Prop} [Decidable c] {x y : EStateM ε σ α} (hx : Ends E Q x) (hy : Ends E Q y) :
    Ends E Q (if c then x else y) := by
  by_cases hc : c
  · rw [if_pos hc]
    exact hx
  · rw [if_neg hc]
    exact hy

theorem between (enter leave : σ → σ) (hm : Ends E Q m) :
    Ends E Q (ScriptCheck.between enter leave m) := by
  intro s
  have hrun := hm (enter s)
  unfold ScriptCheck.between
  cases hms : m (enter s) with
  | ok a t =>
    refine ⟨?_, nofun⟩
    rintro _ _ ⟨⟩
    exact hrun.1 a t hms
  | error e t =>
    refine ⟨nofun, ?_⟩
    rintro _ _ ⟨⟩
    exact hrun.2 e t hms

end Ends

namespace Gives

variable {E : ε → Prop} {Q : α → Prop} {R : β → Prop} {x : Except ε α} {f : α → Except ε β}

theorem ok {a : α} (h : Q a) : Gives E Q (.ok a : Except ε α) := by
  refine ⟨?_, nofun⟩
  rintro b ⟨⟩
  exact h

theorem error {e : ε} (h : E e) : Gives E Q (.error e : Except ε α) := by
  refine ⟨nofun, ?_⟩
  rintro e' ⟨⟩
  exact h

theorem bind (hx : Gives E Q x) (hf : ∀ a, Q a → Gives E R (f a)) : Gives E R (x >>= f) := by
  cases x with
  | ok a => exact hf a (hx.1 a rfl)
  | error e => exact error (hx.2 e rfl)

theorem ite {c : Prop} [Decidable c] {x y : Except ε α} (hx : Gives E Q x) (hy : Gives E Q y) :
    Gives E Q (if c then x else y) := by
  by_cases hc : c
  · rw [if_pos hc]
    exact hx
  · rw [if_neg hc]
    exact hy

end Gives

end

/-! ### Resolution -/

/-- A step of resolution that fails at one of the places only. -/
abbrev ResolvesAt (P : Position → Prop) (m : Resolve Unit) : Prop :=
  Ends (fun d : Diagnostic => P d.position) (fun _ => True) m

namespace Resolve

theorem declare_at (name : String) {place : Position} (h : P place) :
    ResolvesAt P (declare name place) :=
  .afterGet fun _ => .ite (.stops h) (.modified _)

theorem define_at (name : String) : ResolvesAt P (define name) := .modified _

theorem read_at (name : String) (id : Nat) {place : Position} (h : P place) :
    ResolvesAt P (read name id place) := by
  refine .afterGet fun r => .ite (.stops h) ?_
  split
  · exact fun _ => ⟨fun _ _ _ => trivial, nofun⟩
  · exact .fails h
  · exact .fails h

end Resolve

namespace Expr

mutual

theorem resolve_at : ∀ e : Expr, e.Anchored P → ResolvesAt P e.resolve
  | .literal _ _, _ => .pure trivial
  | .keyword _ _, _ => .pure trivial
  | .symbol node name, h => Resolve.read_at name node.id h
  | .array _ elements, h => resolveAll_at elements h.2
  | .object _ entries, h => resolveEntries_at entries h.2
  | .binary _ _ left right, h => .bind (resolve_at left h.2.2.1) fun _ _ => resolve_at right h.2.2.2
  | .unary _ _ operand, h => resolve_at operand h.2.2
  | .assign _ _ target value, h =>
    .bind (resolve_at value h.2.2.2) fun _ _ => resolve_at target h.2.2.1
  | .access _ receiver key, h => .bind (resolve_at receiver h.2.1) fun _ _ => resolveKey_at key h.2.2
  | .call _ callee args, h => .bind (resolve_at callee h.2.1) fun _ _ => resolveAll_at args h.2.2
  | .construct _ className classNode args, h =>
    .bind (Resolve.read_at className classNode.id h.2.1) fun _ _ => resolveAll_at args h.2.2
termination_by structural e => e

theorem resolveAll_at : ∀ es : List Expr, AllAnchored P es → ResolvesAt P (resolveAll es)
  | [], _ => .pure trivial
  | e :: es, h => .bind (resolve_at e h.1) fun _ _ => resolveAll_at es h.2
termination_by structural es => es

theorem resolveKey_at : ∀ k : Key Expr, KeyAnchored P k → ResolvesAt P (resolveKey k)
  | .name _ _, _ => .pure trivial
  | .computed e, h => resolve_at e h
termination_by structural k => k

theorem resolveEntries_at : ∀ es : List (Entry Expr), EntriesAnchored P es →
    ResolvesAt P (resolveEntries es)
  | [], _ => .pure trivial
  | ⟨key, value⟩ :: es, h =>
    .bind (resolveKey_at key h.1) fun _ _ => .bind (resolve_at value h.2.1) fun _ _ =>
      resolveEntries_at es h.2.2
termination_by structural es => es

end

theorem resolveOption_at : ∀ e : Option Expr, (∀ x ∈ e, x.Anchored P) →
    ResolvesAt P (resolveOption e)
  | none, _ => .pure trivial
  | some e, h => e.resolve_at (h e rfl)

end Expr

namespace Stmt

open Resolve

theorem resolveParams_at : ∀ ps : List Param, (∀ p ∈ ps, p.Anchored P) →
    ResolvesAt P (resolveParams ps)
  | [], _ => .pure trivial
  | p :: ps, h => by
    obtain ⟨hp, hps⟩ := List.forall_mem_cons.1 h
    exact .bind (declare_at p.name hp.1) fun _ _ => .bind (define_at p.name) fun _ _ =>
      resolveParams_at ps hps

theorem resolveFields_at : ∀ fs : List FieldDecl, (∀ f ∈ fs, f.Anchored P) →
    ResolvesAt P (resolveFields fs)
  | [], _ => .pure trivial
  | f :: fs, h => by
    obtain ⟨hf, hfs⟩ := List.forall_mem_cons.1 h
    exact .bind (Expr.resolveOption_at f.value hf.2) fun _ _ => resolveFields_at fs hfs

mutual

/-- A statement that does not resolve is reported where something in it starts. -/
theorem resolve_at : ∀ s : Stmt, s.Anchored P → ResolvesAt P s.resolve
  | .expr _ e, h => e.resolve_at h.2
  | .block _ body, h => .between _ _ (resolveAll_at body h.2)
  | .varDecl span name _ _ value, h =>
    .bind (declare_at name h.1) fun _ _ => .bind (Expr.resolveOption_at value h.2.2) fun _ _ =>
      define_at name
  | .ifElse _ condition onTrue onFalse, h =>
    .bind (condition.resolve_at h.2.1) fun _ _ => .bind (resolve_at onTrue h.2.2.1) fun _ _ =>
      resolveOption_at onFalse h.2.2.2
  | .whileLoop _ condition body, h =>
    .bind (condition.resolve_at h.2.1) fun _ _ => .between _ _ (resolve_at body h.2.2)
  | .forIn _ _ iterable _ body, h =>
    .bind (iterable.resolve_at h.2.1) fun _ _ => .between _ _ (resolveAll_at body h.2.2)
  | .fnDecl f, h => by
    have hstart : P f.span.start := by
      cases f
      exact h.1
    exact .bind (declare_at f.name hstart) fun _ _ => .bind (define_at f.name) fun _ _ =>
      resolveFn_at f h
  | .ret _ value, h => .afterGet fun _ => .ite (.stops h.1) (Expr.resolveOption_at value h.2)
  | .jump _ _, h => .afterGet fun _ => .ite (.fails h) (.pure trivial)
  | .classDecl _ name _ _ fields methods, h =>
    .bind (declare_at name h.1) fun _ _ => .bind (define_at name) fun _ _ =>
      .between _ _ (.bind (resolveFields_at fields h.2.2.2.1) fun _ _ =>
        resolveMethods_at methods h.2.2.2.2)
  | .typeDecl _ _ _, _ => .pure trivial
termination_by structural s => s

theorem resolveAll_at : ∀ ss : List Stmt, AllAnchored P ss → ResolvesAt P (resolveAll ss)
  | [], _ => .pure trivial
  | s :: ss, h => .bind (resolve_at s h.1) fun _ _ => resolveAll_at ss h.2
termination_by structural ss => ss

theorem resolveOption_at : ∀ s : Option Stmt, OptionAnchored P s → ResolvesAt P (resolveOption s)
  | none, _ => .pure trivial
  | some s, h => resolve_at s h
termination_by structural s => s

theorem resolveFn_at : ∀ f : FnDecl Stmt, FnAnchored P f → ResolvesAt P (resolveFn f)
  | ⟨_, params, _, body, _, _⟩, h =>
    .afterGet fun _ => .between _ _ (.bind (resolveParams_at params h.2.1) fun _ _ =>
      resolveAll_at body h.2.2.2)
termination_by structural f => f

theorem resolveMethods_at : ∀ ms : List (MethodDecl Stmt), MethodsAnchored P ms →
    ResolvesAt P (resolveMethods ms)
  | [], _ => .pure trivial
  | ⟨_, function⟩ :: ms, h => .bind (resolveFn_at function h.1) fun _ _ => resolveMethods_at ms h.2
termination_by structural ms => ms

end

end Stmt

/-! ### Types -/

namespace TypeRef

variable (r : Registry)

/-- What is known of types: they fail at one of the places only. -/
abbrev TypedAt {α : Type} (P : Position → Prop) (x : Except Diagnostic α) : Prop :=
  Gives (fun d : Diagnostic => P d.position) (fun _ => True) x

theorem resolve_at (name : String) (args : List Ty) {span : Span} (h : P span.start) :
    TypedAt P (r.resolve name args span) := by
  refine .ite (.ite (.ok trivial) (.ok trivial)) ?_
  cases r.get? name with
  | none => exact .error h
  | some t => exact .ite (.ok trivial) (.ok trivial)

theorem read_at (key : String) {span : Span} (h : P span.start) : TypedAt P (IndexKey.read key span) :=
  .ite (.ok trivial) (.ite (.ok trivial) (.error h))

mutual

/-- A reference that stands for no type is reported where something in it starts. -/
theorem toTy_at : ∀ t : TypeRef, t.Anchored P → TypedAt P (toTy r t)
  | .named name args _, h => .bind (allToTy_at args h.2) fun args _ => resolve_at r name args h.1
  | .array element _, h => .bind (toTy_at element h.2) fun _ _ => .ok trivial
  | .union members _, h => .bind (allToTy_at members h.2) fun _ _ => .ok trivial
  | .intersection members _, h => .bind (allToTy_at members h.2) fun _ _ => .ok trivial
  | .interface props index _, h =>
    .bind (propsToTy_at props h.2.1) fun _ _ => .bind (indexToTy_at index h.2.2) fun _ _ => .ok trivial
  | .function params result _, h =>
    .bind (paramsToTy_at params h.2.1) fun _ _ => .bind (toTy_at result h.2.2) fun _ _ => .ok trivial
  | .literal _ _, _ => .ok trivial
termination_by structural t => t

theorem allToTy_at : ∀ ts : List TypeRef, AllAnchored P ts → TypedAt P (allToTy r ts)
  | [], _ => .ok trivial
  | t :: ts, h => .bind (toTy_at t h.1) fun _ _ => .bind (allToTy_at ts h.2) fun _ _ => .ok trivial
termination_by structural ts => ts

theorem propsToTy_at : ∀ ps : List (PropertyRef TypeRef), PropsAnchored P ps →
    TypedAt P (propsToTy r ps)
  | [], _ => .ok trivial
  | ⟨_, type, _⟩ :: ps, h =>
    .bind (toTy_at type h.1) fun _ _ => .bind (propsToTy_at ps h.2) fun _ _ => .ok trivial
termination_by structural ps => ps

theorem indexToTy_at : ∀ is : List (IndexRef TypeRef), IndexAnchored P is →
    TypedAt P (indexToTy r is)
  | [], _ => .ok trivial
  | ⟨key, _, type⟩ :: is, h =>
    .bind (read_at key h.1) fun _ _ => .bind (toTy_at type h.2.1) fun _ _ =>
      .bind (indexToTy_at is h.2.2) fun _ _ => .ok trivial
termination_by structural is => is

theorem paramsToTy_at : ∀ ps : List (ParamRef TypeRef), ParamsAnchored P ps →
    TypedAt P (paramsToTy r ps)
  | [], _ => .ok trivial
  | ⟨_, type⟩ :: ps, h =>
    .bind (toTy_at type h.1) fun _ _ => .bind (paramsToTy_at ps h.2) fun _ _ => .ok trivial
termination_by structural ps => ps

end

end TypeRef

/-! ### Members -/

section

variable (r : Registry) (classes : List String) {place : Position} (key : MemberKey)
  {expanded : Ty → Except Failure Slot}

/-- What is known of members: they are missing at one of the places only. -/
abbrev FoundAt {α : Type} (P : Position → Prop) (x : Except Failure α) : Prop :=
  Gives (Failure.PointsAt P) (fun _ => True) x

theorem ClassDef.slot_at (c : ClassDef Ty) (h : P place) : FoundAt P (c.slot classes place key) := by
  cases key with
  | index _ => exact .ok trivial
  | name name =>
    simp only [ClassDef.slot]
    cases c.findMember? name with
    | none => exact .ok trivial
    | some found => exact .ite (.error h) (.ok trivial)

mutual

theorem memberSlot_at (h : P place) (hexpanded : ∀ t, FoundAt P (expanded t)) : ∀ t : Ty,
    FoundAt P (memberSlot r classes place key expanded t)
  | .interface _ => .ok trivial
  | .classType c => c.slot_at classes key h
  | .intersection members => firstSlot_at h hexpanded members
  | .named _ _ | .union _ | .array _ | .function _ | .literal _ => by
    simp only [memberSlot]
    exact .ite (.ok trivial) (.ok trivial)
termination_by structural t => t

theorem firstSlot_at (h : P place) (hexpanded : ∀ t, FoundAt P (expanded t)) : ∀ ts : List Ty,
    FoundAt P (firstSlot r classes place key expanded ts)
  | [] => .ok trivial
  | t :: ts => by
    have hrest (slot : Slot) : FoundAt P (if slot.type.isNamed "undefined" then
        firstSlot r classes place key expanded ts else pure slot) :=
      .ite (firstSlot_at h hexpanded ts) (.ok trivial)
    rw [firstSlot]
    cases r.expansion? t with
    | some found => exact (hexpanded found).bind fun slot _ => hrest slot
    | none => exact (memberSlot_at h hexpanded t).bind fun slot _ => hrest slot
termination_by structural ts => ts

end

theorem memberWithin_at (h : P place) : ∀ (n : Nat) (t : Ty),
    FoundAt P (memberWithin r classes place key n t)
  | 0, _ => .error trivial
  | n + 1, t => memberSlot_at r classes key h (memberWithin_at h n) t

end

/-! ### Binding -/

/-- A step of binding that fails at one of the places only. -/
abbrev BindsAt {α : Type} (P : Position → Prop) (Q : α → Prop) (m : Binding α) : Prop :=
  Ends (Failure.PointsAt P) Q m

namespace Binding

variable {place : Position}

theorem typeOf_at {ref : TypeRef} (h : ref.Anchored P) : BindsAt P (fun _ => True) (typeOf ref) := by
  refine .afterGet fun b => ?_
  cases hto : ref.toTy b.types with
  | ok t => exact .pure trivial
  | error d => exact .fails ((TypeRef.toTy_at b.types ref h).2 d hto)

theorem typeOrAny_at : ∀ ref : Option TypeRef, (∀ t ∈ ref, t.Anchored P) →
    BindsAt P (fun _ => True) (typeOrAny ref)
  | none, _ => .pure trivial
  | some ref, h => typeOf_at (h ref rfl)

theorem readVariable_at (name : String) (id : Nat) (h : P place) :
    BindsAt P (fun _ => True) (readVariable name id place) := by
  refine .afterGet fun b => ?_
  have hread : FoundAt P (b.readVariable name id place) := by
    unfold Binder.readVariable
    split
    · split
      · exact .ok trivial
      · exact .error h
      · exact .error trivial
    · split
      · exact .ok trivial
      · exact .error h
  cases hrun : b.readVariable name id place with
  | ok found => exact .pure trivial
  | error e => exact .fails (hread.2 e hrun)

theorem member_at (t : Ty) (key : MemberKey) (h : P place) :
    BindsAt P (fun _ => True) (member t key place) := by
  refine .afterGet fun b => ?_
  have hmember : FoundAt P (memberOf b.types b.classes place key t) :=
    memberWithin_at b.types b.classes key h _ t
  cases hrun : memberOf b.types b.classes place key t with
  | ok slot => exact .pure trivial
  | error e => exact .fails (hmember.2 e hrun)

theorem finish_at (node : Node) (type : Ty) :
    BindsAt P (fun n => n.span = node.span) (finish node type) :=
  .bind (.modified _) fun _ _ => .pure rfl

end Binding

open Binding

theorem bindSlot_at (receiver : Ty) (key : BoundKey BoundExpr) {place : Position} (h : P place) :
    BindsAt P (fun _ => True) (bindSlot receiver key place) := by
  refine .afterGet fun b => ?_
  cases key with
  | name name =>
    simp only [slotIn]
    split
    · exact .pure trivial
    · exact .bind (member_at _ _ h) fun _ _ => .pure trivial
  | computed key =>
    simp only [slotIn]
    split
    · exact .pure trivial
    · exact .ite (.pure trivial) (.bind (member_at _ _ h) fun _ _ => .pure trivial)

theorem callType_at (callee : Expr) {bound : BoundExpr} (h : bound.Anchored P) :
    BindsAt P (fun _ => True) (callType callee bound) := by
  unfold callType
  split
  · exact .pure trivial
  · exact .fails h.start

theorem expectKey_at {key : BoundExpr} (h : key.Anchored P) :
    BindsAt P (fun _ => True) (expectKey key) := .ite (.pure trivial) (.fails h.start)

namespace Expr

mutual

/-- An expression that does not bind is reported where something in it starts, and what is bound of it
starts there too. -/
theorem bind_at : ∀ e : Expr, e.Anchored P → BindsAt P (BoundExpr.Anchored P) e.bind
  | .literal node _, h =>
    .bind (finish_at node _) fun n hn => .pure (show P n.span.start from hn ▸ h)
  | .keyword node _, h =>
    .bind (finish_at node _) fun n hn => .pure (show P n.span.start from hn ▸ h)
  | .symbol node name, h =>
    .bind (readVariable_at name node.id h) fun _ _ => .bind (finish_at node _) fun n hn =>
      .pure (show P n.span.start from hn ▸ h)
  | .array node elements, h =>
    .bind (bindAll_at elements h.2) fun es hes => .bind (finish_at node _) fun n hn =>
      .pure ⟨hn ▸ h.1, hes⟩
  | .object node entries, h =>
    .bind (bindEntries_at entries h.2) fun es hes => .bind (finish_at node _) fun n hn =>
      .pure ⟨hn ▸ h.1, hes⟩
  | .binary node operator left right, h => by
    refine .bind (bind_at left h.2.2.1) fun l hl => .bind (bind_at right h.2.2.2) fun r hr => ?_
    split
    · exact .bind (finish_at node _) fun n hn => .pure ⟨hn ▸ h.1, hl, hr⟩
    · exact .fails h.2.1
  | .unary node operator operand, h => by
    have hrest (x : BoundExpr) (hx : x.Anchored P) : BindsAt P (BoundExpr.Anchored P)
        (match UnaryOperator.bind? operator.kind x.type with
        | some use => do return .unary (← finish node use.result) use x
        | none => throw (operatorFailure operator [x.type])) := by
      split
      · exact .bind (finish_at node _) fun n hn => .pure ⟨hn ▸ h.1, hx⟩
      · exact .fails h.2.1
    exact .ite (.bind (bindTarget_at operand h.2.2) hrest) (.bind (bind_at operand h.2.2) hrest)
  | .assign node operator target value, h => by
    refine .bind (bindTarget_at target h.2.2.1) fun t ht => .bind (bind_at value h.2.2.2) fun v hv => ?_
    refine .ite (.bind (finish_at node _) fun n hn => .pure ⟨hn ▸ h.1, ht, hv⟩) ?_
    split
    · exact .bind (finish_at node _) fun n hn => .pure ⟨hn ▸ h.1, ht, hv⟩
    · exact .fails h.2.1
  | .access node receiver key, h =>
    .bind (bind_at receiver h.2.1) fun r hr => .bind (bindKey_at key h.2.2) fun k hk =>
      .bind (bindSlot_at _ _ h.1) fun _ _ => .bind (finish_at node _) fun n hn =>
        .pure ⟨hn ▸ h.1, hr, hk⟩
  | .call node callee args, h =>
    .bind (bind_at callee h.2.1) fun c hc => .bind (bindAll_at args h.2.2) fun as has =>
      .bind (callType_at callee hc) fun _ _ => .bind (finish_at node _) fun n hn =>
        .pure ⟨hn ▸ h.1, hc, has⟩
  | .construct node className classNode args, h => by
    refine .bind (readVariable_at className classNode.id h.2.1) fun found _ => ?_
    obtain ⟨v, distance⟩ := found
    dsimp only
    split
    · exact .bind (.modified _) fun _ _ => .bind (bindAll_at args h.2.2) fun as has =>
        .bind (finish_at node _) fun n hn => .pure ⟨hn ▸ h.1, has⟩
    · exact .fails h.2.1
termination_by structural e => e

theorem bindTarget_at : ∀ e : Expr, e.Anchored P → BindsAt P (BoundExpr.Anchored P) e.bindTarget
  | .symbol node name, h =>
    .bind (readVariable_at name node.id h) fun _ _ =>
      .ite (.bind (finish_at node _) fun n hn => .pure (show P n.span.start from hn ▸ h)) (.stops h)
  | .access node receiver key, h =>
    .bind (bind_at receiver h.2.1) fun _ hr => .bind (bindKey_at key h.2.2) fun _ hk =>
      .bind (bindSlot_at _ _ h.1) fun _ _ =>
        .ite (.bind (finish_at node _) fun _ hn => .pure ⟨hn ▸ h.1, hr, hk⟩) (.stops h.1)
  | .literal _ _, h => .fails h
  | .keyword _ _, h => .fails h
  | .array _ _, h => .fails h.1
  | .object _ _, h => .fails h.1
  | .binary _ _ _ _, h => .fails h.1
  | .unary _ _ _, h => .fails h.1
  | .assign _ _ _ _, h => .fails h.1
  | .call _ _ _, h => .fails h.1
  | .construct _ _ _ _, h => .fails h.1
termination_by structural e => e

theorem bindAll_at : ∀ es : List Expr, AllAnchored P es →
    BindsAt P (BoundExpr.AllAnchored P) (bindAll es)
  | [], _ => .pure trivial
  | e :: es, h => .bind (bind_at e h.1) fun _ hx => .bind (bindAll_at es h.2) fun _ hxs =>
    .pure ⟨hx, hxs⟩
termination_by structural es => es

theorem bindKey_at : ∀ k : Key Expr, KeyAnchored P k →
    BindsAt P (BoundExpr.KeyAnchored P) (bindKey k)
  | .name _ _, _ => .pure trivial
  | .computed e, h => .bind (bind_at e h) fun _ hx => .pure hx
termination_by structural k => k

theorem bindEntries_at : ∀ es : List (Entry Expr), EntriesAnchored P es →
    BindsAt P (BoundExpr.EntriesAnchored P) (bindEntries es)
  | [], _ => .pure trivial
  | ⟨key, value⟩ :: es, h => by
    have hrest (k : BoundKey BoundExpr) (hk : BoundExpr.KeyAnchored P k) :
        BindsAt P (BoundExpr.EntriesAnchored P) (do
          let value ← value.bind
          let rest ← bindEntries es
          return ⟨k, value⟩ :: rest) :=
      .bind (bind_at value h.2.1) fun v hv => .bind (bindEntries_at es h.2.2) fun xs hxs =>
        .pure ⟨hk, hv, hxs⟩
    refine .bind (bindKey_at key h.1) fun k hk => ?_
    cases k with
    | name _ => exact hrest _ hk
    | computed e => exact .bind (expectKey_at hk) fun _ _ => hrest _ hk
termination_by structural es => es

end

theorem bindOption_at : ∀ e : Option Expr, (∀ x ∈ e, x.Anchored P) →
    BindsAt P (fun b => ∀ x ∈ b, x.Anchored P) (bindOption e)
  | none, _ => .pure nofun
  | some e, h => .bind (e.bind_at (h e rfl)) fun _ hx => .pure (by rintro _ ⟨⟩; exact hx)

end Expr

section

theorem bindParams_at : ∀ ps : List Param, (∀ p ∈ ps, p.Anchored P) →
    BindsAt P (fun _ => True) (bindParams ps)
  | [], _ => .pure trivial
  | p :: ps, h => by
    obtain ⟨hp, hps⟩ := List.forall_mem_cons.1 h
    exact .bind (typeOf_at hp.2) fun _ _ => .bind (bindParams_at ps hps) fun _ _ => .pure trivial

theorem bindSignature_at {params : List Param} {result : Option TypeRef}
    (hparams : ∀ p ∈ params, p.Anchored P) (hresult : ∀ t ∈ result, t.Anchored P) :
    BindsAt P (fun _ => True) (bindSignature params result) :=
  .bind (bindParams_at params hparams) fun _ _ => .bind (typeOrAny_at result hresult) fun _ _ =>
    .pure trivial

theorem bindSuperclass_at : ∀ name : Option Name, (∀ n ∈ name, P n.span.start) →
    BindsAt P (fun _ => True) (bindSuperclass name)
  | none, _ => .pure trivial
  | some name, h => by
    refine .afterGet fun b => ?_
    split
    · exact .pure trivial
    · exact .fails (h name rfl)

theorem bindMixins_at : ∀ names : List Name, (∀ n ∈ names, P n.span.start) →
    BindsAt P (fun _ => True) (bindMixins names)
  | [], _ => .pure trivial
  | name :: names, h => by
    obtain ⟨hname, hnames⟩ := List.forall_mem_cons.1 h
    refine .afterGet fun b => ?_
    split
    · exact .bind (bindMixins_at names hnames) fun _ _ => .pure trivial
    · exact .bind (bindMixins_at names hnames) fun _ _ => .pure trivial
    · exact .fails hname

theorem fieldMembers_at : ∀ fs : List FieldDecl, (∀ f ∈ fs, f.Anchored P) →
    BindsAt P (fun _ => True) (fieldMembers fs)
  | [], _ => .pure trivial
  | f :: fs, h => by
    obtain ⟨hf, hfs⟩ := List.forall_mem_cons.1 h
    exact .bind (typeOf_at hf.1) fun _ _ => .bind (fieldMembers_at fs hfs) fun _ _ => .pure trivial

theorem methodMembers_at : ∀ ms : List (MethodDecl Stmt), Stmt.MethodsAnchored P ms →
    BindsAt P (fun _ => True) (methodMembers ms)
  | [], _ => .pure trivial
  | ⟨_, ⟨_, _, _, _, _, _⟩⟩ :: ms, h =>
    .bind (bindSignature_at h.1.2.1 h.1.2.2.1) fun _ _ => .bind (methodMembers_at ms h.2) fun _ _ =>
      .pure trivial

theorem bindFields_at : ∀ (fs : List FieldDecl) (ms : List (Member Ty)), (∀ f ∈ fs, f.Anchored P) →
    BindsAt P (fun bound => ∀ f ∈ bound, f.Anchored P) (bindFields fs ms)
  | [], _, _ => .pure nofun
  | _ :: _, [], _ => .pure nofun
  | f :: fs, _ :: ms, h => by
    obtain ⟨hf, hfs⟩ := List.forall_mem_cons.1 h
    exact .bind (Expr.bindOption_at f.value hf.2) fun _ hv => .bind (bindFields_at fs ms hfs)
      fun _ hrest => .pure (List.forall_mem_cons.2 ⟨hv, hrest⟩)

end

namespace Stmt

mutual

/-- A statement that does not bind is reported where something in it starts, and what is bound of it
starts there too. -/
theorem bind_at : ∀ s : Stmt, s.Anchored P → BindsAt P (BoundStmt.Anchored P) s.bind
  | .expr _ e, h => .bind (e.bind_at h.2) fun _ he => .pure ⟨h.1, he⟩
  | .block _ body, h =>
    .bind (.between _ _ (bindAll_at body h.2)) fun _ hbody => .pure ⟨h.1, hbody⟩
  | .varDecl _ _ _ type value, h =>
    .bind (typeOrAny_at type h.2.1) fun _ _ => .bind (Expr.bindOption_at value h.2.2) fun _ hv =>
      .bind (.modified _) fun _ _ => .pure ⟨h.1, hv⟩
  | .ifElse _ condition onTrue onFalse, h =>
    .bind (condition.bind_at h.2.1) fun _ hc => .bind (bind_at onTrue h.2.2.1) fun _ ht =>
      .bind (bindOption_at onFalse h.2.2.2) fun _ hf => .pure ⟨h.1, hc, ht, hf⟩
  | .whileLoop _ condition body, h =>
    .bind (condition.bind_at h.2.1) fun _ hc => .bind (bind_at body h.2.2) fun _ hbody =>
      .pure ⟨h.1, hc, hbody⟩
  | .forIn _ _ iterable _ body, h =>
    .bind (iterable.bind_at h.2.1) fun _ hi => .bind (.between _ _ (bindAll_at body h.2.2))
      fun _ hbody => .pure ⟨h.1, hi, hbody⟩
  | .fnDecl f, h => by
    have ⟨hstart, hparams, hresult⟩ : P f.span.start ∧ (∀ p ∈ f.params, p.Anchored P) ∧
        ∀ t ∈ f.result, t.Anchored P := by
      cases f
      exact ⟨h.1, h.2.1, h.2.2.1⟩
    refine .bind (bindSignature_at hparams hresult) fun signature _ => .bind (.modified _) fun _ _ =>
      .bind (bindFn_at signature f h) fun _ hf => .ite ?_ ?_
    · exact .bind (.modified _) fun _ _ => .pure ⟨hstart, hf⟩
    · exact .pure ⟨hstart, hf⟩
  | .ret _ value, h => .bind (Expr.bindOption_at value h.2) fun _ hv => .pure ⟨h.1, hv⟩
  | .jump _ _, h => .pure h
  | .classDecl _ _ superclass mixins fields methods, h => by
    obtain ⟨hstart, hsuper, hmixins, hfields, hmethods⟩ := h
    refine .bind (.modified _) fun _ _ => .bind (bindSuperclass_at superclass hsuper) fun _ _ =>
      .bind (bindMixins_at mixins hmixins) fun _ _ => .bind (fieldMembers_at fields hfields) fun _ _ =>
      .bind (methodMembers_at methods hmethods) fun _ _ => .bind (.modified _) fun _ _ =>
      .bind (Q := fun bound => (∀ f ∈ bound.1, f.Anchored P) ∧ BoundStmt.FnsAnchored P bound.2)
        (.between _ _ ?_) fun bound hbound => .bind (.modified _) fun _ _ =>
          .pure ⟨hstart, hbound.1, hbound.2⟩
    exact .bind (bindFields_at fields _ hfields) fun _ hf => .bind (bindMethods_at methods hmethods)
      fun _ hm => .pure ⟨hf, hm⟩
  | .typeDecl _ _ _, h =>
    .bind (.modified _) fun _ _ => .bind (typeOf_at h.2) fun _ _ => .bind (.modified _) fun _ _ =>
      .pure h.1
termination_by structural s => s

theorem bindAll_at : ∀ ss : List Stmt, AllAnchored P ss →
    BindsAt P (BoundStmt.AllAnchored P) (bindAll ss)
  | [], _ => .pure trivial
  | s :: ss, h => .bind (bind_at s h.1) fun _ hs => .bind (bindAll_at ss h.2) fun _ hss =>
    .pure ⟨hs, hss⟩
termination_by structural ss => ss

theorem bindOption_at : ∀ s : Option Stmt, OptionAnchored P s →
    BindsAt P (BoundStmt.OptionAnchored P) (bindOption s)
  | none, _ => .pure trivial
  | some s, h => .bind (bind_at s h) fun _ hs => .pure hs
termination_by structural s => s

theorem bindFn_at (signature : Signature Ty) : ∀ f : FnDecl Stmt, FnAnchored P f →
    BindsAt P (BoundStmt.FnAnchored P) (bindFn signature f)
  | ⟨_, _, _, body, _, _⟩, h => .bind (.between _ _ (bindAll_at body h.2.2.2)) fun _ hbody =>
    .pure hbody
termination_by structural f => f

theorem bindMethods_at : ∀ ms : List (MethodDecl Stmt), MethodsAnchored P ms →
    BindsAt P (BoundStmt.FnsAnchored P) (bindMethods ms)
  | [], _ => .pure trivial
  | ⟨_, function⟩ :: ms, h => by
    have ⟨hparams, hresult⟩ : (∀ p ∈ function.params, p.Anchored P) ∧
        ∀ t ∈ function.result, t.Anchored P := by
      obtain ⟨⟩ := function
      exact ⟨h.1.2.1, h.1.2.2.1⟩
    exact .bind (bindSignature_at hparams hresult) fun signature _ =>
      .bind (bindFn_at signature function h.1) fun _ hf => .bind (bindMethods_at ms h.2) fun _ hms =>
        .pure ⟨hf, hms⟩
termination_by structural ms => ms

end

end Stmt

end ScriptCheck
