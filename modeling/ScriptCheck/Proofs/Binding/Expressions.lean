import ScriptCheck.Proofs.Binding.Sides
import ScriptCheck.Proofs.Ids

/-!
Binding expressions in two runs. If both runs read the same variables in the current scopes, binding an
expression and binding it with new labels are coupled: the second run gives the bound expression with
new labels or fails at the new place, and every name carries a distance that belongs to its id.
Expressions leave the scopes as they are, so that the scopes are fixed throughout.
-/

namespace ScriptCheck

open Binding BoundExpr

variable {c : Sides} {base : Binder}

theorem slotIn_couples (t : Ty) (key : BoundKey BoundExpr) (place : Position) :
    c.Binds base (fun s => s) (fun _ => True) (slotIn t key place)
      (slotIn t (relabelKey c.labels key) (c.labels.place place)) := by
  have hmember : ∀ k, c.Binds base (fun s => s) (fun _ => True)
      (do return (← member t k place, false))
      (do return (← member t k (c.labels.place place), false)) := fun k =>
    .bind (member_couples t k place) fun _ _ => .pure trivial
  cases key with
  | name name =>
    simp only [slotIn, relabelKey]
    cases t.extension? name with
    | some type => exact .pure trivial
    | none => exact hmember _
  | computed key =>
    simp only [slotIn, relabelKey, type_relabel]
    cases t.widened.elementType? with
    | some element => exact .pure trivial
    | none => exact .ite (.pure trivial) (hmember _)

theorem bindSlot_couples (receiver : Ty) (key : BoundKey BoundExpr) (place : Position) :
    c.Binds base (fun s => s) (fun _ => True) (bindSlot receiver key place)
      (bindSlot receiver (relabelKey c.labels key) (c.labels.place place)) := by
  intro b b' hb
  show Agree _ _ _ _ (slotIn (b.types.expand receiver) key place b)
    (slotIn (b'.types.expand receiver) (relabelKey c.labels key) (c.labels.place place) b')
  rw [hb.1.types]
  exact slotIn_couples _ key place hb

@[simp] theorem Expr.canBeCalled_relabel (f : Relabeling) (e : Expr) :
    (e.relabel f).canBeCalled = e.canBeCalled := by
  cases e <;> rfl

theorem callType_couples (callee : Expr) (bound : BoundExpr) :
    c.Binds base (fun t => t) (fun _ => True) (callType callee bound)
      (callType (callee.relabel c.labels) (bound.relabel c.labels)) := by
  unfold callType
  rw [Expr.canBeCalled_relabel, type_relabel, span_relabel]
  cases callee.canBeCalled with
  | false => exact reject_couples rfl _
  | true =>
    cases callResult? bound.type with
    | some t => exact .pure trivial
    | none => exact reject_couples rfl _

theorem expectKey_couples (key : BoundExpr) :
    c.Binds base (fun u => u) (fun _ => True) (expectKey key)
      (expectKey (key.relabel c.labels)) := by
  unfold expectKey
  rw [type_relabel, span_relabel]
  exact .ite (.pure trivial) (reject_couples rfl _)

theorem arrayType_relabel (f : Relabeling) (es : List BoundExpr) :
    arrayType (relabelAll f es) = arrayType es := by
  have htypes : (relabelAll f es).map (·.type.widened) = es.map (·.type.widened) := by
    rw [relabelAll_eq_map, List.map_map]
    exact List.map_congr_left fun e _ => by rw [Function.comp_apply, type_relabel]
  unfold arrayType
  rw [htypes, relabelAll_eq_map, List.isEmpty_map]

theorem objectType_relabel (f : Relabeling) (es : List (BoundEntry BoundExpr)) :
    objectType (relabelEntries f es) = objectType es := by
  unfold objectType
  rw [relabelEntries_eq_map, List.foldl_map]
  congr 1
  funext i e
  obtain ⟨key, value⟩ := e
  cases key <;> simp [relabelEntry, relabelKey]

theorem Key.describe_relabel (f : Relabeling) (key : Key Expr) :
    (Expr.relabelKey f key).describe = key.describe := by
  cases key with
  | name text span => rfl
  | computed e => cases e <;> rfl

namespace Expr

/-- What is asked of an expression that two runs bind: its ids may be noted, and both runs read the same
variables. -/
structure Suits (c : Sides) (base : Binder) (ids : List Nat)
    (reads : List (Nat × String)) : Prop where
  fresh : ∀ i ∈ ids, c.fresh i
  reads : ∀ r ∈ reads, c.Reads base r.1 r.2

theorem Suits.left {is js : List Nat} {rs ss : List (Nat × String)}
    (h : Suits c base (is ++ js) (rs ++ ss)) : Suits c base is rs :=
  ⟨fun i hi => h.fresh i (List.mem_append_left _ hi),
    fun r hr => h.reads r (List.mem_append_left _ hr)⟩

theorem Suits.right {is js : List Nat} {rs ss : List (Nat × String)}
    (h : Suits c base (is ++ js) (rs ++ ss)) : Suits c base js ss :=
  ⟨fun i hi => h.fresh i (List.mem_append_right _ hi),
    fun r hr => h.reads r (List.mem_append_right _ hr)⟩

/-- The last id is that of the expression itself. -/
theorem Suits.last {is : List Nat} {i : Nat} {rs : List (Nat × String)}
    (h : Suits c base (is ++ [i]) rs) : c.fresh i := h.fresh i (by simp)

/-- The ids before the last are those of the parts. -/
theorem Suits.parts {is : List Nat} {i : Nat} {rs : List (Nat × String)}
    (h : Suits c base (is ++ [i]) rs) : Suits c base is rs :=
  ⟨fun j hj => h.fresh j (List.mem_append_left _ hj), h.reads⟩

mutual

/-- Binding an expression is coupled with binding it under new labels. -/
theorem bind_couples : ∀ e : Expr, Suits c base e.ids e.reads →
    c.Binds base (BoundExpr.relabel c.labels) (Carries c.belongs) e.bind
      (e.relabel c.labels).bind
  | .literal node value, h =>
    .bind (finish_couples (h.fresh _ (List.mem_singleton.2 rfl)) _) fun _ _ => .pure trivial
  | .keyword node word, h =>
    .bind (finish_couples (h.fresh _ (List.mem_singleton.2 rfl)) _) fun _ _ => .pure trivial
  | .symbol node name, h => by
    refine .bind (h.reads (node.id, name) (List.mem_singleton.2 rfl) node.span.start)
      fun found hfound => ?_
    refine .bind (finish_couples (h.fresh _ (List.mem_singleton.2 rfl)) _) fun n hn => ?_
    refine .result rfl ?_
    rw [Carries, hn]
    exact hfound
  | .array node elements, h => by
    refine .bind (bindAll_couples elements h.parts) fun bound hbound => ?_
    rw [arrayType_relabel]
    exact .bind (finish_couples h.last _) fun _ _ => .result rfl hbound
  | .object node entries, h => by
    refine .bind (bindEntries_couples entries h.parts) fun bound hbound => ?_
    rw [objectType_relabel]
    exact .bind (finish_couples h.last _) fun _ _ => .result rfl hbound
  | .binary node operator left right, h => by
    refine .bind (bind_couples left h.parts.left) fun l hl => ?_
    refine .bind (bind_couples right h.parts.right) fun r hr => ?_
    rw [type_relabel, type_relabel, Token.relabel_kind]
    cases BinaryOperator.bind? operator.kind l.type r.type with
    | some use => exact .bind (finish_couples h.last _) fun _ _ => .result rfl ⟨hl, hr⟩
    | none => exact .fails (blameless_of rfl _)
  | .unary node operator operand, h => by
    have hrest : ∀ o : BoundExpr, o.Carries c.belongs →
        c.Binds base (BoundExpr.relabel c.labels) (Carries c.belongs)
          (match UnaryOperator.bind? operator.kind o.type with
            | some use => do return .unary (← finish node use.result) use o
            | none => throw (operatorFailure operator [o.type]))
          (match UnaryOperator.bind? operator.kind (o.relabel c.labels).type with
            | some use => do
              return .unary (← finish (node.relabel c.labels) use.result) use (o.relabel c.labels)
            | none =>
              throw (operatorFailure (operator.relabel c.labels) [(o.relabel c.labels).type])) := by
      intro o ho
      rw [type_relabel]
      cases UnaryOperator.bind? operator.kind o.type with
      | some use => exact .bind (finish_couples h.last _) fun _ _ => .result rfl ho
      | none => exact .fails (blameless_of rfl _)
    exact .ite (.bind (bindTarget_couples operand h.parts) hrest)
      (.bind (bind_couples operand h.parts) hrest)
  | .assign node operator target value, h => by
    refine .bind (bindTarget_couples target h.parts.left) fun t ht => ?_
    refine .bind (bind_couples value h.parts.right) fun v hv => ?_
    rw [type_relabel, type_relabel, Token.relabel_kind]
    refine .ite (.bind (finish_couples h.last _) fun _ _ => .result rfl ⟨ht, hv⟩) ?_
    cases BinaryOperator.bind? operator.kind t.type v.type with
    | some use => exact .bind (finish_couples h.last _) fun _ _ => .result rfl ⟨ht, hv⟩
    | none => exact .fails (blameless_of rfl _)
  | .access node receiver key, h => by
    refine .bind (bind_couples receiver h.parts.left) fun r hr => ?_
    refine .bind (bindKey_couples key h.parts.right) fun k hk => ?_
    rw [type_relabel]
    refine .bind (bindSlot_couples _ k node.span.start) fun slot _ => ?_
    exact .bind (finish_couples h.last _) fun _ _ => .result rfl ⟨hr, hk⟩
  | .call node callee args, h => by
    refine .bind (bind_couples callee h.parts.left) fun f hf => ?_
    refine .bind (bindAll_couples args h.parts.right) fun as has => ?_
    refine .bind (callType_couples callee f) fun type _ => ?_
    exact .bind (finish_couples h.last _) fun _ _ => .result rfl ⟨hf, has⟩
  | .construct node className classNode args, h => by
    have hclass : c.fresh classNode.id := h.fresh _ (List.mem_cons_self ..)
    have hargs : Suits c base (idsAll args) (readsAll args) :=
      ⟨fun i hi => h.fresh i (List.mem_cons_of_mem _ (List.mem_append_left _ hi)),
        fun r hr => h.reads r (List.mem_cons_of_mem _ hr)⟩
    refine .bind (h.reads (classNode.id, className) (List.mem_cons_self ..) classNode.span.start)
      fun found _ => ?_
    obtain ⟨⟨_, type, _⟩, _⟩ := found
    cases type with
    | classType d =>
      refine .bind (note_couples hclass _) fun _ _ => ?_
      refine .bind (bindAll_couples args hargs) fun as has => ?_
      exact .bind (finish_couples h.last _) fun _ _ => .result rfl has
    | _ => exact reject_couples rfl _
termination_by structural e => e

theorem bindTarget_couples : ∀ e : Expr, Suits c base e.ids e.reads →
    c.Binds base (BoundExpr.relabel c.labels) (Carries c.belongs) e.bindTarget
      (e.relabel c.labels).bindTarget
  | .symbol node name, h => by
    have hid : c.fresh node.id := h.fresh _ (List.mem_singleton.2 rfl)
    refine .bind (h.reads (node.id, name) (List.mem_singleton.2 rfl) node.span.start)
      fun found hfound => ?_
    have hrest : Unit → c.Binds base (BoundExpr.relabel c.labels) (Carries c.belongs)
        (do return .symbol (← finish node found.1.type) name found.2)
        (do return .symbol (← finish (node.relabel c.labels) found.1.type) name found.2) := by
      intro _
      refine .bind (finish_couples hid _) fun n hn => .result rfl ?_
      rw [Carries, hn]
      exact hfound
    exact rejectUnless_couples rfl _ hrest
  | .access node receiver key, h => by
    refine .bind (bind_couples receiver h.parts.left) fun r hr => ?_
    refine .bind (bindKey_couples key h.parts.right) fun k hk => ?_
    rw [type_relabel]
    refine .bind (bindSlot_couples _ k node.span.start) fun slot _ => ?_
    have hrest : Unit → c.Binds base (BoundExpr.relabel c.labels) (Carries c.belongs)
        (do return .access (← finish node slot.1.type) r k slot.2)
        (do
          let bound ← finish (node.relabel c.labels) slot.1.type
          return .access bound (r.relabel c.labels) (BoundExpr.relabelKey c.labels k) slot.2) :=
      fun _ => .bind (finish_couples h.last _) fun _ _ => .result rfl ⟨hr, hk⟩
    rw [Key.describe_relabel]
    exact rejectUnless_couples rfl _ hrest
  | .literal node _, _ => reject_couples rfl node.span.start
  | .keyword node _, _ => reject_couples rfl node.span.start
  | .array node _, _ => reject_couples rfl node.span.start
  | .object node _, _ => reject_couples rfl node.span.start
  | .binary node _ _ _, _ => reject_couples rfl node.span.start
  | .unary node _ _, _ => reject_couples rfl node.span.start
  | .assign node _ _ _, _ => reject_couples rfl node.span.start
  | .call node _ _, _ => reject_couples rfl node.span.start
  | .construct node _ _ _, _ => reject_couples rfl node.span.start
termination_by structural e => e

theorem bindAll_couples : ∀ es : List Expr, Suits c base (idsAll es) (readsAll es) →
    c.Binds base (BoundExpr.relabelAll c.labels) (AllCarry c.belongs) (bindAll es)
      (bindAll (relabelAll c.labels es))
  | [], _ => .pure trivial
  | e :: es, h => by
    refine .bind (bind_couples e h.left) fun b hb => ?_
    exact .bind (bindAll_couples es h.right) fun bs hbs => .result rfl ⟨hb, hbs⟩
termination_by structural es => es

theorem bindKey_couples : ∀ k : Key Expr, Suits c base (idsKey k) (readsKey k) →
    c.Binds base (BoundExpr.relabelKey c.labels) (KeyCarries c.belongs) (bindKey k)
      (bindKey (relabelKey c.labels k))
  | .name _ _, _ => .pure trivial
  | .computed e, h => .bind (bind_couples e h) fun _ hb => .result rfl hb
termination_by structural k => k

theorem bindEntries_couples : ∀ es : List (Entry Expr),
    Suits c base (idsEntries es) (readsEntries es) →
    c.Binds base (BoundExpr.relabelEntries c.labels) (EntriesCarry c.belongs) (bindEntries es)
      (bindEntries (relabelEntries c.labels es))
  | [], _ => .pure trivial
  | ⟨key, value⟩ :: es, h => by
    refine .bind (bindKey_couples key h.left.left) fun k hk => ?_
    have hrest : Unit → c.Binds base (BoundExpr.relabelEntries c.labels)
        (EntriesCarry c.belongs)
        (do
          let value ← bind value
          let rest ← bindEntries es
          return ⟨k, value⟩ :: rest)
        (do
          let value ← bind (value.relabel c.labels)
          let rest ← bindEntries (relabelEntries c.labels es)
          return ⟨BoundExpr.relabelKey c.labels k, value⟩ :: rest) := by
      intro _
      refine .bind (bind_couples value h.left.right) fun v hv => ?_
      exact .bind (bindEntries_couples es h.right) fun vs hvs => .result rfl ⟨hk, hv, hvs⟩
    cases k with
    | computed k => exact .bind (expectKey_couples k) fun u _ => hrest u
    | name text => exact hrest ()
termination_by structural es => es

end

theorem bindOption_couples : ∀ e : Option Expr, Suits c base (idsOption e) (readsOption e) →
    c.Binds base (Option.map (BoundExpr.relabel c.labels)) (fun b => ∀ e ∈ b, e.Carries c.belongs)
      (bindOption e) (bindOption (e.map (relabel c.labels)))
  | none, _ => .result rfl nofun
  | some e, h => .bind (bind_couples e h) fun b hb => .result rfl fun _ hmem => by cases hmem; exact hb

end Expr

end ScriptCheck
