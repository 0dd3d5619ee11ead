import ScriptCheck.Binding
import ScriptCheck.Proofs.Triple

/-!
Steps of binding that only look. Finding the type that a reference stands for, or a variable, a member or the
type of a call, leaves the binder as it is, whether it is found or not. So do the parts of a declaration that
give no more than types.
-/

namespace ScriptCheck

open Binding

/-- A step that leaves the binder as it is, whether or not it fails. -/
abbrev Looks {α : Type} (m : Binding α) : Prop := KeepsEach (fun _ => True) m

theorem Looks.ok {α : Type} {m : Binding α} (h : Looks m) {b b' : Binder} {a : α} (hm : m b = .ok a b') :
    b' = b :=
  (h (· = b) trivial).of_ok rfl hm

/-- A step that only looks keeps every condition. -/
theorem KeepsEach.of_looks {α : Type} {m : Binding α} {C : (Binder → Prop) → Prop} (h : Looks m) :
    KeepsEach C m :=
  h.imp fun _ _ => trivial

theorem typeOf_looks (ref : TypeRef) : Looks (typeOf ref) := by
  refine .reading fun b => ?_
  cases ref.toTy b.types with
  | ok t => exact .pure t
  | error d => exact .fails _

theorem typeOrAny_looks : ∀ type : Option TypeRef, Looks (typeOrAny type)
  | some ref => typeOf_looks ref
  | none => .pure _

theorem readVariable_looks (name : String) (id : Nat) (position : Position) :
    Looks (readVariable name id position) := by
  refine .reading fun b => ?_
  cases b.readVariable name id position with
  | ok found => exact .pure found
  | error e => exact .fails e

theorem member_looks (t : Ty) (key : MemberKey) (position : Position) :
    Looks (member t key position) := by
  refine .reading fun b => ?_
  cases memberOf b.types b.classes position key t with
  | ok slot => exact .pure slot
  | error e => exact .fails e

theorem bindSlot_looks (receiver : Ty) (key : BoundKey BoundExpr) (position : Position) :
    Looks (bindSlot receiver key position) := by
  refine .reading fun b => ?_
  cases key with
  | name name =>
    simp only [slotIn]
    split
    · exact .pure _
    · exact .bind (member_looks _ _ _) fun slot => .pure _
  | computed key =>
    simp only [slotIn]
    split
    · exact .pure _
    · split
      · exact .pure _
      · exact .bind (member_looks _ _ _) fun slot => .pure _

theorem callType_looks (callee : Expr) (bound : BoundExpr) : Looks (callType callee bound) := by
  unfold callType
  split
  · exact .pure _
  · exact .fails _

theorem expectKey_looks (key : BoundExpr) : Looks (expectKey key) := by
  unfold expectKey
  split
  · exact .pure ()
  · exact .fails _

theorem bindParams_looks : ∀ params : List Param, Looks (bindParams params)
  | [] => .pure _
  | p :: ps => .bind (typeOf_looks p.type) fun _ => .bind (bindParams_looks ps) fun _ => .pure _

theorem bindSignature_looks (params : List Param) (result : Option TypeRef) :
    Looks (bindSignature params result) :=
  .bind (bindParams_looks params) fun _ => .bind (typeOrAny_looks result) fun _ => .pure _

theorem bindSuperclass_looks : ∀ superclass : Option Name, Looks (bindSuperclass superclass)
  | none => .pure _
  | some name => by
    refine .reading fun b => ?_
    split
    · exact .pure _
    · exact .fails _

theorem bindMixins_looks : ∀ mixins : List Name, Looks (bindMixins mixins)
  | [] => .pure _
  | name :: names => by
    refine .reading fun b => ?_
    split
    · exact .bind (bindMixins_looks names) fun _ => .pure _
    · exact .bind (bindMixins_looks names) fun _ => .pure _
    · exact .fails _

theorem fieldMembers_looks : ∀ fields : List FieldDecl, Looks (fieldMembers fields)
  | [] => .pure _
  | f :: fs => .bind (typeOf_looks f.type) fun _ => .bind (fieldMembers_looks fs) fun _ => .pure _

theorem methodMembers_looks : ∀ methods : List (MethodDecl Stmt), Looks (methodMembers methods)
  | [] => .pure _
  | m :: ms =>
    .bind (bindSignature_looks m.function.params m.function.result) fun _ =>
      .bind (methodMembers_looks ms) fun _ => .pure _

end ScriptCheck
