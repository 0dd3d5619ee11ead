import ScriptCheck.Proofs.Session.History

/-!
Private members. A private member is accessed only in the body of a class declaration that has the name
of the class owning it. The two classes are compared by name: where classes of one name disagree about
their private members, the declaration around the access need not be the one that the member belongs to.
Where they agree, it declares the member as private itself.
-/

namespace ScriptCheck

open Ty (Closed OnClasses)

/-! ### Declared classes -/

/-- The class is one of the declared ones, with the types that its methods had at some time. -/
def ClassDef.Known (ds : List DeclaredClass) (c : ClassDef Ty) : Prop :=
  ∃ d ∈ ds, d.Lawful ∧ c.Alike d.definition

theorem admitted_known {ds : List DeclaredClass} :
    ∀ d ∈ ds, d.Admitted (OnClasses (ClassDef.Known ds)) :=
  fun d hd hlawful _ halike => ⟨d, hd, hlawful, halike⟩

/-- Whether the first member of a name that a class declares itself is private. -/
def ClassDef.privacy? (c : ClassDef Ty) (name : String) : Option Bool :=
  (c.members.find? (·.name == name)).map Member.isPrivate

theorem ClassDef.Alike.privacy? {c d : ClassDef Ty} (h : c.Alike d) (name : String) :
    c.privacy? name = d.privacy? name := by
  have hfound := find?_alike h.members name
  unfold ClassDef.privacy?
  generalize c.members.find? (·.name == name) = x, d.members.find? (·.name == name) = y at hfound
  cases hfound with
  | none => rfl
  | some halike => exact congrArg (fun m => some m.isPrivate) halike.modifiers

/-- The class declaration declares a private member of the name. -/
def DeclaredClass.DeclaresPrivate (d : DeclaredClass) (name : String) : Prop :=
  d.definition.privacy? name = some true

instance (d : DeclaredClass) (name : String) : Decidable (d.DeclaresPrivate name) :=
  inferInstanceAs (Decidable (_ = _))

/-- Classes of one name declare the same private members. -/
def NamesakesAgree (ds : List DeclaredClass) : Prop :=
  ∀ c ∈ ds, ∀ d ∈ ds, c.name = d.name → ∀ name, c.definition.privacy? name = d.definition.privacy? name

/-- Classes that all have different names have no namesakes. -/
theorem namesakesAgree_of_nodup {ds : List DeclaredClass}
    (h : (ds.map DeclaredClass.name).Nodup) : NamesakesAgree ds := by
  intro c hc d hd heq name
  rw [List.inj_on_of_nodup_map h hc hd heq]

/-! ### Accesses -/

/-- The text by which a key looks a member up, if it is known. -/
def BoundKey.text? : BoundKey BoundExpr → Option String
  | .name text => some text
  | .computed e =>
    match e.type with
    | .literal (.text text) => some text
    | _ => none

/-- The private member that an expression accesses, with the name of the class that owns it. -/
def Occurrence.privateAccess? (x : Occurrence) : Option (String × String) :=
  match x.expr with
  | .access _ object key false =>
    match key.text?, x.place.types.expand object.type with
    | some name, .classType c =>
      match c.findMember? name with
      | some ⟨member, owner⟩ => if member.isPrivate then some (name, owner) else none
      | none => none
    | _, _ => none
  | _ => none

theorem Occurrence.privateAccess?_eq_some {x : Occurrence} {name owner : String}
    (h : x.privateAccess? = some (name, owner)) :
    ∃ node object key c member, x.expr = .access node object key false ∧ key.text? = some name ∧
      x.place.types.expand object.type = .classType c ∧
      c.findMember? name = some ⟨member, owner⟩ ∧ member.isPrivate = true := by
  unfold privateAccess? at h
  split at h
  · rename_i node object key hexpr
    split at h
    · rename_i text c htext hexpand
      split at h
      · rename_i member owner' hfound
        split at h
        · cases h
          exact ⟨node, object, key, c, member, hexpr, htext, hexpand, hfound, ‹_›⟩
        · cases h
      · cases h
    · cases h
  · cases h

theorem ClassDef.Alike.exists_member {c d : ClassDef Ty} (h : c.Alike d) {name : String}
    {found : FoundMember} (hfound : d.findMember? name = some found) :
    ∃ other, c.findMember? name = some other ∧ other.member.Alike found.member ∧
      other.owner = found.owner := by
  have hrel := h.findMember? name
  rw [hfound] at hrel
  generalize c.findMember? name = x at hrel ⊢
  cases hrel with
  | some hsame => exact ⟨_, rfl, hsame.1, hsame.2⟩

/-- A type that can declare members. -/
def Ty.declaresMembers : Ty → Bool
  | .interface _ | .classType _ | .intersection _ => true
  | _ => false

/-- An access by a known text to a type that declares members is a search for that name. -/
theorem Binder.Leads.of_text {b : Binder} {t : Ty} {position : Position} {key : BoundKey BoundExpr}
    {slot : Slot} (h : b.Leads t position key slot false) (ht : t.declaresMembers = true)
    {name : String} (hkey : key.text? = some name) :
    memberOf b.types b.classes position (.name name) t = .ok slot := by
  cases h with
  | member _ found =>
    cases hkey
    exact found
  | element found =>
    cases t with
    | interface | classType | intersection => cases found
    | _ => cases ht
  | character isText =>
    cases t with
    | interface | classType | intersection => cases isText
    | _ => cases ht
  | @computed e _ _ _ found =>
    have hname : memberKeyOf e.type = .name name := by
      unfold BoundKey.text? at hkey
      dsimp only at hkey
      split at hkey
      · rename_i text htype
        cases hkey
        rw [htype]
        rfl
      · cases hkey
    rwa [hname] at found

/-- The slot of a member is that of the member found; a private one is found only where a class of its
owner's name is around. -/
theorem ClassDef.slot_of_ok {c : ClassDef Ty} {classes : List String} {position : Position}
    {name : String} {slot : Slot} (h : c.slot classes position (.name name) = .ok slot)
    {found : FoundMember} (hfound : c.findMember? name = some found) :
    slot = ⟨found.member.type, found.member.writable⟩ ∧
      (found.member.isPrivate = true → found.owner ∈ classes) := by
  unfold ClassDef.slot at h
  dsimp only at h
  rw [hfound] at h
  dsimp only at h
  split at h
  · cases h
  · rename_i hallowed
    refine ⟨(Except.ok.inj h).symm, fun hprivate => ?_⟩
    rw [hprivate] at hallowed
    simpa using hallowed

namespace Session

variable {s : Session} {source file : String} {past statements : List BoundStmt}
  {distances : Table Nat Nat}

/-- A private member is accessed only in the body of a class declaration with the name of its owner,
which declares the member as private itself if classes of one name declare the same private members. -/
theorem private_access (hs : s.History past) (h : s.Accepts source file distances statements) :
    ∀ x ∈ BoundStmt.occurrences statements (BoundStmt.afterAll past .intrinsic), ∀ name owner,
      x.privateAccess? = some (name, owner) →
        ∃ d ∈ x.place.classes, d.name = owner ∧
          (NamesakesAgree (BoundStmt.classesAll (past ++ statements)) → d.DeclaresPrivate name) := by
  intro x hx name owner haccess
  obtain ⟨b, hfits, htyped⟩ := h.sound hs (Ty.closed_onClasses _) admitted_known x hx
  obtain ⟨node, object, key, c, member, hexpr, hkey, hexpand, hfound, hprivate⟩ :=
    Occurrence.privateAccess?_eq_some haccess
  rw [hexpr] at htyped
  cases htyped with
  | access receiver _ leads _ =>
    -- The binder may have known the class with other types of methods.
    obtain ⟨first, hfirst, halike⟩ := (hexpand ▸ hfits.expand object.type).of_class
    have hevery : (Ty.classType first).Every (OnClasses (ClassDef.Known _)) :=
      hfirst ▸ Registry.expand_every hfits.every.types
        (receiver.every (Ty.closed_onClasses _) hfits.every)
    rw [hfirst] at leads
    obtain ⟨found, hfound', hmember, howner⟩ := halike.exists_member hfound
    have hprivate' : found.member.isPrivate = true :=
      (congrArg Modifiers.isPrivate hmember.modifiers).trans hprivate
    have hclasses := (ClassDef.slot_of_ok (leads.of_text rfl hkey) hfound').2 hprivate'
    rw [hfits.classes, howner] at hclasses
    obtain ⟨d, hd, rfl⟩ := List.mem_map.1 hclasses
    refine ⟨d, hd, rfl, fun hagree => ?_⟩
    obtain ⟨around, haround, -, hsame⟩ := hfits.around d hd
    cases (Ty.classMember?_good hevery found hfound').1 with
    | mixed _ => cases hprivate'
    | @declared origin m good hfind =>
      obtain ⟨source, hsource, -, hsame'⟩ := good
      have hnames : around.name = source.name :=
        hsame.name.symm.trans (howner.symm.trans hsame'.name)
      calc d.definition.privacy? name = around.definition.privacy? name := hsame.privacy? name
        _ = source.definition.privacy? name := hagree around haround source hsource hnames name
        _ = origin.privacy? name := (hsame'.privacy? name).symm
        _ = some true := by rw [ClassDef.privacy?, hfind, Option.map_some, hprivate']

/-- In a class that compares itself with another one of its kind, by a name and by a text. -/
theorem private_access_same : ∃ distances statements x d,
    (new .record).Accepts
      "class A \x7b private int x; fn same(A a) \x7b this.x == a[\"x\"]; \x7d \x7d" "main"
      distances statements ∧
    x ∈ BoundStmt.occurrences statements .intrinsic ∧ x.privateAccess? = some ("x", "A") ∧
    NamesakesAgree (BoundStmt.classesAll statements) ∧
    d ∈ x.place.classes ∧ d.name = "A" ∧ d.DeclaresPrivate "x" := by
  let test : CheckedProgram → Bool := fun program =>
    (BoundStmt.occurrences program.statements .intrinsic).any
      (fun x => x.privateAccess? = some ("x", "A")) &&
    decide ((BoundStmt.classesAll program.statements).map DeclaredClass.name).Nodup
  have htest : ((new .record).check
      "class A \x7b private int x; fn same(A a) \x7b this.x == a[\"x\"]; \x7d \x7d"
      "main").1.toOption.any test = true := by decide +kernel
  obtain ⟨program, after, hcheck, hprogram⟩ := exists_program_where htest
  obtain ⟨hany, hnodup⟩ := Bool.and_eq_true_iff.1 hprogram
  obtain ⟨x, hx, haccess⟩ := List.any_eq_true.1 hany
  have hagree := namesakesAgree_of_nodup (of_decide_eq_true hnodup)
  have haccepts := accepts_of_check hcheck
  obtain ⟨d, hd, hname, hprivate⟩ :=
    private_access (.new .record) haccepts x hx "x" "A" (of_decide_eq_true haccess)
  exact ⟨_, _, x, d, haccepts, hx, of_decide_eq_true haccess, hagree, hd, hname, hprivate hagree⟩

/-- A class inside a function may have the name of a class outside, and access the private members of
the other one, which it does not declare. -/
theorem private_access_namesake : ∃ distances statements x,
    (new .record).Accepts
      "class A \x7b private int x; \x7d fn f(A a) \x7b class A \x7b fn m() \x7b a.x; \x7d \x7d \x7d"
      "main" distances statements ∧
    x ∈ BoundStmt.occurrences statements .intrinsic ∧ x.privateAccess? = some ("x", "A") ∧
    ∀ d ∈ x.place.classes, d.name = "A" → ¬ d.DeclaresPrivate "x" := by
  let test : CheckedProgram → Bool := fun program =>
    (BoundStmt.occurrences program.statements .intrinsic).any fun x =>
      x.privateAccess? = some ("x", "A") &&
        x.place.classes.all fun d => !decide (d.DeclaresPrivate "x")
  have htest : ((new .record).check
      "class A \x7b private int x; \x7d fn f(A a) \x7b class A \x7b fn m() \x7b a.x; \x7d \x7d \x7d"
      "main").1.toOption.any test = true := by decide +kernel
  obtain ⟨program, after, hcheck, hprogram⟩ := exists_program_where htest
  obtain ⟨x, hx, hboth⟩ := List.any_eq_true.1 hprogram
  obtain ⟨haccess, hall⟩ := Bool.and_eq_true_iff.1 hboth
  refine ⟨_, _, x, accepts_of_check hcheck, hx, of_decide_eq_true haccess, fun d hd _ hprivate => ?_⟩
  have hnot := List.all_eq_true.1 hall d hd
  rw [decide_eq_true hprivate] at hnot
  cases hnot

end Session

end ScriptCheck
