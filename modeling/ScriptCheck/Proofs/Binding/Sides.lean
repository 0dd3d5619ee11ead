import ScriptCheck.Binding
import ScriptCheck.Proofs.Relabel.Bound
import ScriptCheck.Proofs.Relabel.Failures

/-!
Two runs of binding and what they have to agree on. The runs may know different distances, give
different labels and start with different types noted; scopes, type names and open classes are the
same in both. The elementary steps of binding are coupled, one lemma each; reading a name is coupled
where the distances of the two runs lead to the same variable.
-/

namespace ScriptCheck

/-- What two runs of binding are compared by: the labels of the second, the distances known to each,
how their tables of types are related, the ids that may be noted, and the failures that the second run
need not share. The second run knows the same distances, or does not know them and then need not get
stuck on them. -/
structure Sides where
  labels : Relabeling
  known : Table Nat Nat
  known' : Table Nat Nat
  tables : Table Nat Ty → Table Nat Ty → Prop
  fresh : Nat → Prop
  drops : Failure → Prop
  follows : labels.Follows fresh tables
  leads : ∀ {i d : Nat}, known.get? i = some d →
    known'.get? (labels.id i) = some d ∨ known'.get? (labels.id i) = none ∧ drops .stuck

namespace Sides

variable (c : Sides)

/-- How failures are compared. -/
def blame : Blame Failure := ⟨Failure.relabel c.labels, Blameless, c.drops⟩

/-- The first run knows the distance for the id. -/
def belongs (i d : Nat) : Prop := c.known.get? i = some d

/-- The states of two runs. -/
structure Related (b b' : Binder) : Prop where
  scopes : b'.scopes = b.scopes
  types : b'.types = b.types
  classes : b'.classes = b.classes
  boundTypes : c.tables b.boundTypes b'.boundTypes
  distances : b.distances = c.known
  distances' : b'.distances = c.known'

/-- The states of two runs that have noted types since the given one. -/
def At (base b b' : Binder) : Prop :=
  c.Related b b' ∧ b.scopes = base.scopes ∧ b.types = base.types ∧ b.classes = base.classes

/-- Two steps that are coupled and do nothing but note types. -/
def Binds {α β : Type} (base : Binder) (g : α → β) (P : α → Prop) (m : Binding α)
    (m' : Binding β) : Prop :=
  Couples c.blame (c.At base) (c.At base) g P m m'

/-- The two runs read the same variable. -/
def Reads (base : Binder) (id : Nat) (name : String) : Prop :=
  ∀ place, c.Binds base (fun found => found) (fun found => c.belongs id found.2)
    (Binding.readVariable name id place)
    (Binding.readVariable name (c.labels.id id) (c.labels.place place))

end Sides

namespace Binding

variable {c : Sides} {base : Binder}

theorem reject_couples {α β : Type} {R R' : Binder → Binder → Prop} {g : α → β} {P : α → Prop}
    {cause : Cause} (h : cause.isMissingSymbol = false) (place : Position) :
    Couples c.blame R R' g P (reject cause place) (reject cause (c.labels.place place)) :=
  .fails (blameless_of h place)

/-- Going on unless a cause is found. -/
theorem rejectUnless_couples {α β : Type} {R R' : Binder → Binder → Prop} {g : α → β}
    {P : α → Prop} {p : Prop} [Decidable p] {k : Unit → Binding α} {k' : Unit → Binding β}
    {cause : Cause} (h : cause.isMissingSymbol = false) (place : Position)
    (hk : ∀ u, Couples c.blame R R' g P (k u) (k' u)) :
    Couples c.blame R R' g P (if p then k () else reject cause place >>= k)
      (if p then k' () else reject cause (c.labels.place place) >>= k') :=
  .ite (hk ()) (.fails (blameless_of h place))

theorem note_couples {id : Nat} (hid : c.fresh id) (type : Ty) :
    c.Binds base (fun u => u) (fun _ => True) (note id type) (note (c.labels.id id) type) :=
  .changes fun _ _ hb =>
    ⟨{ hb.1 with boundTypes := c.follows type hb.1.boundTypes hid }, hb.2⟩

/-- A bound node keeps its id. -/
theorem finish_couples {node : Node} (hid : c.fresh node.id) (type : Ty) :
    c.Binds base (BoundNode.relabel c.labels) (fun n => n.id = node.id) (finish node type)
      (finish (node.relabel c.labels) type) :=
  .bind (note_couples hid type) fun _ _ => .pure rfl

end Binding

/-! ### Types -/

theorem Registry.resolve_mirrors (f : Relabeling) (r : Registry) (name : String) (args : List Ty)
    (span : Span) :
    Mirrors (f.blame) (r.resolve name args span) (r.resolve name args (span.relabel f)) := by
  unfold resolve
  split
  · split <;> exact .ok _
  · split
    · split <;> exact .ok _
    · exact .error (blameless_of rfl span.start)

theorem IndexKey.read_mirrors (f : Relabeling) (key : String) (span : Span) :
    Mirrors (f.blame) (IndexKey.read key span) (IndexKey.read key (span.relabel f)) := by
  unfold IndexKey.read
  split
  · exact .ok _
  · split
    · exact .ok _
    · exact .error (blameless_of rfl span.start)

namespace TypeRef

variable (f : Relabeling) (r : Registry)

mutual

/-- The type that a reference stands for does not depend on labels. -/
theorem toTy_mirrors : ∀ t : TypeRef, Mirrors (f.blame) (t.toTy r) ((t.relabel f).toTy r)
  | .named name args span =>
    (allToTy_mirrors args).bind fun _ => Registry.resolve_mirrors f r name _ span
  | .array element _ => (toTy_mirrors element).bind fun _ => .ok _
  | .union members _ => (allToTy_mirrors members).bind fun _ => .ok _
  | .intersection members _ => (allToTy_mirrors members).bind fun _ => .ok _
  | .interface props index _ =>
    (propsToTy_mirrors props).bind fun _ => (indexToTy_mirrors index).bind fun _ => .ok _
  | .function params result _ =>
    (paramsToTy_mirrors params).bind fun _ => (toTy_mirrors result).bind fun _ => .ok _
  | .literal _ _ => .ok _
termination_by structural t => t

theorem allToTy_mirrors :
    ∀ ts : List TypeRef, Mirrors (f.blame) (allToTy r ts) (allToTy r (relabelAll f ts))
  | [] => .ok _
  | t :: ts => (toTy_mirrors t).bind fun _ => (allToTy_mirrors ts).bind fun _ => .ok _
termination_by structural ts => ts

theorem propsToTy_mirrors : ∀ ps : List (PropertyRef TypeRef),
    Mirrors (f.blame) (propsToTy r ps) (propsToTy r (relabelProps f ps))
  | [] => .ok _
  | ⟨_, type, _⟩ :: ps =>
    (toTy_mirrors type).bind fun _ => (propsToTy_mirrors ps).bind fun _ => .ok _
termination_by structural ps => ps

theorem indexToTy_mirrors : ∀ is : List (IndexRef TypeRef),
    Mirrors (f.blame) (indexToTy r is) (indexToTy r (relabelIndex f is))
  | [] => .ok _
  | ⟨key, span, type⟩ :: is =>
    (IndexKey.read_mirrors f key span).bind fun _ => (toTy_mirrors type).bind fun _ =>
      (indexToTy_mirrors is).bind fun _ => .ok _
termination_by structural is => is

theorem paramsToTy_mirrors : ∀ ps : List (ParamRef TypeRef),
    Mirrors (f.blame) (paramsToTy r ps) (paramsToTy r (relabelParams f ps))
  | [] => .ok _
  | ⟨_, type⟩ :: ps =>
    (toTy_mirrors type).bind fun _ => (paramsToTy_mirrors ps).bind fun _ => .ok _
termination_by structural ps => ps

end

end TypeRef

/-! ### Members -/

section

variable (f : Relabeling) (r : Registry) (classes : List String) (place : Position) (key : MemberKey)

theorem ClassDef.slot_mirrors (d : ClassDef Ty) :
    Mirrors (f.failureBlame) (d.slot classes place key) (d.slot classes (f.place place) key) := by
  cases key with
  | index key => exact .ok _
  | name name =>
    simp only [slot]
    cases d.findMember? name with
    | none => exact .ok _
    | some found =>
      dsimp only
      split
      · exact .error (blameless_of rfl place)
      · exact .ok _

variable {expanded expanded' : Ty → Except Failure Slot}

mutual

theorem memberSlot_mirrors (h : ∀ t, Mirrors (f.failureBlame) (expanded t) (expanded' t)) : ∀ t : Ty,
    Mirrors (f.failureBlame) (memberSlot r classes place key expanded t)
      (memberSlot r classes (f.place place) key expanded' t)
  | .interface _ => .ok _
  | .classType d => d.slot_mirrors f classes place key
  | .intersection members => firstSlot_mirrors h members
  | .named _ _ => by simp only [memberSlot]; split <;> exact .ok _
  | .union _ => by simp only [memberSlot]; split <;> exact .ok _
  | .array _ => by simp only [memberSlot]; split <;> exact .ok _
  | .function _ => by simp only [memberSlot]; split <;> exact .ok _
  | .literal _ => by simp only [memberSlot]; split <;> exact .ok _
termination_by structural t => t

theorem firstSlot_mirrors (h : ∀ t, Mirrors (f.failureBlame) (expanded t) (expanded' t)) :
    ∀ ts : List Ty,
    Mirrors (f.failureBlame) (firstSlot r classes place key expanded ts)
      (firstSlot r classes (f.place place) key expanded' ts)
  | [] => .ok _
  | t :: ts => by
    have hrest : ∀ slot : Slot, Mirrors (f.failureBlame)
        (if slot.type.isNamed "undefined" then firstSlot r classes place key expanded ts
          else pure slot)
        (if slot.type.isNamed "undefined" then
          firstSlot r classes (f.place place) key expanded' ts else pure slot) := by
      intro slot
      by_cases hu : slot.type.isNamed "undefined" = true
      · rw [if_pos hu, if_pos hu]; exact firstSlot_mirrors h ts
      · rw [if_neg hu, if_neg hu]; exact .ok _
    rw [firstSlot, firstSlot]
    cases r.expansion? t with
    | some found => exact (h found).bind hrest
    | none => exact (memberSlot_mirrors h t).bind hrest
termination_by structural ts => ts

end

theorem memberWithin_mirrors : ∀ (n : Nat) (t : Ty),
    Mirrors (f.failureBlame) (memberWithin r classes place key n t)
      (memberWithin r classes (f.place place) key n t)
  | 0, _ => .error blameless_stuck
  | n + 1, t => memberSlot_mirrors f r classes place key (memberWithin_mirrors n) t

/-- A member of a type does not depend on where it is looked up. -/
theorem memberOf_mirrors (t : Ty) :
    Mirrors (f.failureBlame) (memberOf r classes place key t)
      (memberOf r classes (f.place place) key t) := memberWithin_mirrors f r classes place key _ t

end

namespace Binding

variable {c : Sides} {base : Binder}

theorem get_run (b : Binder) : (get : Binding Binder) b = .ok b b := rfl

theorem typeOf_ok {ref : TypeRef} {b : Binder} {t : Ty} (h : ref.toTy b.types = .ok t) :
    typeOf ref b = .ok t b := by
  rw [typeOf, bind_of_ok (get_run b), h]
  rfl

theorem typeOf_error {ref : TypeRef} {b : Binder} {d : Diagnostic}
    (h : ref.toTy b.types = .error d) : typeOf ref b = .error (.rejected d) b := by
  rw [typeOf, bind_of_ok (get_run b), h]
  rfl

theorem typeOf_couples (ref : TypeRef) :
    c.Binds base (fun t => t) (fun _ => True) (typeOf ref) (typeOf (ref.relabel c.labels)) := by
  intro b b' hb
  have hsame := ref.toTy_mirrors c.labels b.types
  cases href : ref.toTy b.types with
  | ok t =>
    rw [href, ← hb.1.types] at hsame
    rw [typeOf_ok href, typeOf_ok hsame]
    exact ⟨b', rfl, hb, trivial⟩
  | error d =>
    rw [href, ← hb.1.types] at hsame
    rw [typeOf_error href, typeOf_error hsame.2]
    exact ⟨hsame.1, .inr ⟨b', rfl⟩⟩

section

variable {t : Ty} {key : MemberKey} {place : Position} {b : Binder}

theorem member_ok {slot : Slot} (h : memberOf b.types b.classes place key t = .ok slot) :
    member t key place b = .ok slot b := by
  rw [member, bind_of_ok (get_run b), h]
  rfl

theorem member_error {e : Failure} (h : memberOf b.types b.classes place key t = .error e) :
    member t key place b = .error e b := by
  rw [member, bind_of_ok (get_run b), h]
  rfl

end

theorem member_couples (t : Ty) (key : MemberKey) (place : Position) :
    c.Binds base (fun slot => slot) (fun _ => True) (member t key place)
      (member t key (c.labels.place place)) := by
  intro b b' hb
  have hsame := memberOf_mirrors c.labels b.types b.classes place key t
  cases hm : memberOf b.types b.classes place key t with
  | ok slot =>
    rw [hm, ← hb.1.types, ← hb.1.classes] at hsame
    rw [member_ok hm, member_ok hsame]
    exact ⟨b', rfl, hb, trivial⟩
  | error e =>
    rw [hm, ← hb.1.types, ← hb.1.classes] at hsame
    rw [member_error hm, member_error hsame.2]
    exact ⟨hsame.1, .inr ⟨b', rfl⟩⟩

end Binding

end ScriptCheck
