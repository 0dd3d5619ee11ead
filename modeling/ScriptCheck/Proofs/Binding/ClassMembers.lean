import ScriptCheck.Proofs.Binding.Returns

/-!
The members of a class beside its body. A class has one member for each field and behind them one for each
method. The members of methods are made before the bodies are bound, from signatures whose results may still
be unknown, and get the types of the bound methods afterwards. They are found by name: each method gives its
type to the first member of its name. So a member has the type of its own method unless methods share a name.
-/

namespace ScriptCheck

open Binding

variable {name : String} {t : Ty} {m : Member Ty} {ms : List (Member Ty)} {fs : List (BoundFn BoundStmt)}

/-! ### Giving types to members -/

@[simp] theorem map_name_retypeFirst (name : String) (t : Ty) (ms : List (Member Ty)) :
    (retypeFirst name t ms).map (·.name) = ms.map (·.name) := by
  induction ms with
  | nil => rfl
  | cons m ms ih =>
    unfold retypeFirst
    split
    · rfl
    · rw [List.map_cons, ih, List.map_cons]

/-- A member that is not the first one of the name stays as it is. -/
theorem getElem?_retypeFirst_of_other {j : Nat} (h : ms[j]? = some m)
    (hother : m.name = name → name ∈ (ms.map (·.name)).take j) :
    (retypeFirst name t ms)[j]? = some m := by
  induction ms generalizing j with
  | nil => cases h
  | cons n ms ih =>
    unfold retypeFirst
    split
    · rename_i heq
      cases j with
      | zero =>
        cases h
        exact absurd (hother heq) List.not_mem_nil
      | succ j => exact h
    · rename_i hne
      cases j with
      | zero => exact h
      | succ j =>
        refine ih h fun heq => ?_
        have hmem := hother heq
        rw [List.map_cons, List.take_succ_cons, List.mem_cons] at hmem
        exact hmem.resolve_left (Ne.symm hne)

/-- The first member of the name gets the type. -/
theorem getElem?_retypeFirst {j : Nat} (h : ms[j]? = some m) (heq : m.name = name)
    (hfirst : name ∉ (ms.map (·.name)).take j) :
    (retypeFirst name t ms)[j]? = some { m with type := t } := by
  induction ms generalizing j with
  | nil => cases h
  | cons n ms ih =>
    unfold retypeFirst
    cases j with
    | zero =>
      cases h
      rw [if_pos heq]
      rfl
    | succ j =>
      rw [List.map_cons, List.take_succ_cons, List.mem_cons, not_or] at hfirst
      rw [if_neg (Ne.symm hfirst.1)]
      exact ih h hfirst.2

/-- Gives the types of methods to members, one after the other. -/
def retypeAll (fs : List (BoundFn BoundStmt)) (ms : List (Member Ty)) : List (Member Ty) :=
  fs.foldl (fun ms f => retypeFirst f.name (.function f.signature) ms) ms

@[simp] theorem map_name_retypeAll (fs : List (BoundFn BoundStmt)) (ms : List (Member Ty)) :
    (retypeAll fs ms).map (·.name) = ms.map (·.name) := by
  induction fs generalizing ms with
  | nil => rfl
  | cons f fs ih => exact (ih _).trans (map_name_retypeFirst _ _ _)

/-- A member that is not the first one of the name of a method stays as it is. -/
theorem getElem?_retypeAll_of_other {j : Nat} (h : ms[j]? = some m)
    (hother : m.name ∈ fs.map (·.name) → m.name ∈ (ms.map (·.name)).take j) :
    (retypeAll fs ms)[j]? = some m := by
  induction fs generalizing ms with
  | nil => exact h
  | cons f fs ih =>
    rw [List.map_cons, List.mem_cons] at hother
    refine ih (getElem?_retypeFirst_of_other h fun heq => heq ▸ hother (.inl heq)) fun hmem => ?_
    rw [map_name_retypeFirst]
    exact hother (.inr hmem)

/-- A name stands first at one place, and not behind another one. -/
structure Spans (names : List String) (name : String) (i j : Nat) : Prop where
  first : names[i]? = some name
  before : name ∉ names.take i
  behind : name ∉ names.drop (j + 1)

/-- The first member of a name ends up with the type of the last method of that name. -/
theorem getElem?_retypeAll_of_spans {g : BoundFn BoundStmt} {i j : Nat}
    (hnames : ms.map (·.name) = fs.map (·.name)) (hg : fs[j]? = some g)
    (h : Spans (fs.map (·.name)) g.name i j) :
    ∃ m, (retypeAll fs ms)[i]? = some m ∧ m.name = g.name ∧ m.type = .function g.signature := by
  obtain ⟨hlt, rfl⟩ := List.getElem?_eq_some_iff.1 hg
  obtain ⟨hfirst, hbefore, hbehind⟩ := h
  -- the methods in front change no name, and those behind leave the member alone
  rw [← hnames, ← map_name_retypeAll (fs.take j)] at hfirst hbefore
  rw [List.getElem?_map] at hfirst
  obtain ⟨m, hm, hname⟩ := Option.map_eq_some_iff.1 hfirst
  have hstep := getElem?_retypeFirst (t := .function fs[j].signature) hm hname hbefore
  rw [← List.map_drop, ← hname] at hbehind
  refine ⟨{ m with type := .function fs[j].signature }, ?_, hname, rfl⟩
  have hsplit : fs = fs.take j ++ fs[j] :: fs.drop (j + 1) := by
    rw [← List.drop_eq_getElem_cons hlt, List.take_append_drop]
  have hall : retypeAll fs ms = retypeAll (fs.drop (j + 1))
      (retypeFirst fs[j].name (.function fs[j].signature) (retypeAll (fs.take j) ms)) := by
    conv_lhs => rw [hsplit, retypeAll, List.foldl_append, List.foldl_cons]
    rfl
  rw [hall]
  exact getElem?_retypeAll_of_other hstep fun hmem => absurd hmem hbehind

/-- No other name is equal to the one at the place. -/
def Unrepeated (names : List String) (j : Nat) : Prop := ∀ k, names[k]? = names[j]? → k = j

theorem Unrepeated.spans {names : List String} {j : Nat} (hunique : Unrepeated names j)
    (h : names[j]? = some name) : Spans names name j j := by
  refine ⟨h, fun hmem => ?_, fun hmem => ?_⟩
  · obtain ⟨k, hk, heq⟩ := List.mem_take_iff_getElem.1 hmem
    have := hunique k (by rw [h, ← heq, List.getElem?_eq_getElem])
    omega
  · obtain ⟨k, hk, heq⟩ := List.mem_drop_iff_getElem.1 hmem
    have := hunique (j + 1 + k) (by rw [h, ← heq, List.getElem?_eq_getElem])
    omega

/-! ### Names -/

theorem map_name_fieldMembers : ∀ (fields : List FieldDecl) {b b' : Binder} {ms : List (Member Ty)},
    fieldMembers fields b = .ok ms b' → ms.map (·.name) = fields.map (·.name)
  | [], _, _, _, h => by cases h; rfl
  | f :: fields, _, _, _, h => by
    obtain ⟨_, _, _, h₁⟩ := ok_of_bind h
    obtain ⟨_, _, hrest, h₂⟩ := ok_of_bind h₁
    cases h₂
    exact congrArg (f.name :: ·) (map_name_fieldMembers fields hrest)

/-- Bound fields have the names that were written and the types of their members. -/
theorem bindFields_eq : ∀ (fields : List FieldDecl) (ms rest : List (Member Ty)) {b b' : Binder}
    {ds : List BoundField}, bindFields fields (ms ++ rest) b = .ok ds b' →
    ms.map (·.name) = fields.map (·.name) →
    ds.map (·.name) = fields.map (·.name) ∧ ds.map (·.type) = ms.map (·.type)
  | [], ms, _, _, _, _, h, hnames => by
    obtain rfl := List.map_eq_nil_iff.1 hnames
    cases h
    exact ⟨rfl, rfl⟩
  | _ :: _, [], _, _, _, _, _, hnames => by cases hnames
  | f :: fields, m :: ms, rest, _, _, _, h, hnames => by
    obtain ⟨_, _, _, h₁⟩ := ok_of_bind h
    obtain ⟨_, _, hrest, h₂⟩ := ok_of_bind h₁
    cases h₂
    obtain ⟨hnames', htypes⟩ := bindFields_eq fields ms rest hrest (List.cons.inj hnames).2
    exact ⟨congrArg (f.name :: ·) hnames', congrArg (m.type :: ·) htypes⟩

/-- The signature that was written, as it is read in some state. -/
def FnDecl.Reads (f : FnDecl Stmt) (signed : Signature Ty) : Prop :=
  ∃ b, bindSignature f.params f.result b = .ok signed b

/-- A member for a method has its name and the signature that was written. -/
def FnDecl.Foretells (f : FnDecl Stmt) (m : Member Ty) : Prop :=
  m.name = f.name ∧ ∃ signed, f.Reads signed ∧ m.type = .function signed

theorem methodMembers_foretold : ∀ (methods : List (MethodDecl Stmt)) {b b' : Binder}
    {ms : List (Member Ty)}, methodMembers methods b = .ok ms b' →
    List.Forall₂ (fun m => m.function.Foretells) methods ms
  | [], _, _, _, h => by cases h; exact .nil
  | m :: methods, _, _, _, h => by
    obtain ⟨signed, b₁, hsigned, h₁⟩ := ok_of_bind h
    obtain rfl := (bindSignature_looks m.function.params m.function.result).ok hsigned
    obtain ⟨_, _, hrest, h₂⟩ := ok_of_bind h₁
    cases h₂
    exact .cons ⟨rfl, signed, ⟨_, hsigned⟩, rfl⟩ (methodMembers_foretold methods hrest)

/-- A function has the name and the parameters that were written, and the result that was written or else
the union of what its body returns. -/
def FnDecl.SignedAs (f : FnDecl Stmt) (g : BoundFn BoundStmt) : Prop :=
  g.name = f.name ∧ ∃ signed, f.Reads signed ∧
    g.signature = { signed with result := resultType f.result signed g.body }

theorem bindMethods_signed : ∀ (methods : List (MethodDecl Stmt)) {b b' : Binder}
    {gs : List (BoundFn BoundStmt)}, Stmt.bindMethods methods b = .ok gs b' →
    List.Forall₂ (fun m => m.function.SignedAs) methods gs
  | [], _, _, _, h => by cases h; exact .nil
  | m :: methods, _, _, _, h => by
    obtain ⟨signature, g, gs, b₁, rfl, hsigned, hg, hgs⟩ := Stmt.bindMethods_cons h
    obtain ⟨ts, b₂, -, rfl, rfl⟩ := Stmt.bindFn_ok hg
    exact .cons ⟨rfl, signature, ⟨_, hsigned⟩, rfl⟩ (bindMethods_signed methods hgs)

/-- What stands beside methods and has their names has them in the same order. -/
theorem map_name_of_forall₂ {β : Type} {R : MethodDecl Stmt → β → Prop} {name : β → String}
    (hname : ∀ f x, R f x → name x = f.function.name) {methods : List (MethodDecl Stmt)} {xs : List β}
    (h : List.Forall₂ R methods xs) : xs.map name = methods.map (·.function.name) := by
  induction h with
  | nil => rfl
  | cons hx _ ih => rw [List.map_cons, List.map_cons, hname _ _ hx, ih]

/-! ### Class declarations -/

/-- The members of a class beside the fields and methods that were written and those that were bound: one
member for each field, with its type, and behind them one for each method, with its type unless another
method has its name. The first member of a name has the type of the last method of that name, and the
others have the signatures that were written. -/
structure ClassDef.MatchesBody (c : ClassDef Ty) (fields : List FieldDecl) (methods : List (MethodDecl Stmt))
    (boundFields : List BoundField) (boundMethods : List (BoundFn BoundStmt)) : Prop where
  names : c.members.map (·.name) = fields.map (·.name) ++ methods.map (·.function.name)
  fieldNames : boundFields.map (·.name) = fields.map (·.name)
  signed : List.Forall₂ (fun m => m.function.SignedAs) methods boundMethods
  fieldTypes : (c.members.take boundFields.length).map (·.type) = boundFields.map (·.type)
  methodTypes : ∀ j g, boundMethods[j]? = some g → Unrepeated (methods.map (·.function.name)) j →
    ∃ m, c.members[boundFields.length + j]? = some m ∧ m.name = g.name ∧
      m.type = .function g.signature
  firstTypes : ∀ i j g, boundMethods[j]? = some g →
    Spans (methods.map (·.function.name)) g.name i j →
    ∃ m, c.members[boundFields.length + i]? = some m ∧ m.name = g.name ∧
      m.type = .function g.signature
  laterTypes : ∀ j f, methods[j]? = some f →
    f.function.name ∈ (methods.map (·.function.name)).take j →
    ∃ m, c.members[boundFields.length + j]? = some m ∧ f.function.Foretells m

/-- The name of a class stands for it, as a type and as a value of the innermost scope. -/
structure Binder.HoldsClass (b : Binder) (c : ClassDef Ty) : Prop where
  type : b.types.get? c.name = some (.classType c)
  value : b.scopes.lookup c.name = some (0, ⟨c.name, .classType c, false⟩)

theorem Binder.declareClass_holds (b : Binder) (c : ClassDef Ty) : (b.declareClass c).HoldsClass c := by
  refine ⟨?_, ScopeStack.lookup_insert _ _ _⟩
  show ((b.types.scopes.insert c.name (.classType c)).lookup c.name).map Prod.snd = _
  rw [ScopeStack.lookup_insert, Option.map_some]

/-- The members of fields stay, and those of methods get their types. -/
theorem matchesBody_retype {b b₀ b₁ b₂ b₃ : Binder} {fields : List FieldDecl}
    {methods : List (MethodDecl Stmt)} {own signatures : List (Member Ty)} {boundFields : List BoundField}
    {boundMethods : List (BoundFn BoundStmt)} (mixed : List Ty) (super : Option Ty)
    (hown : fieldMembers fields b = .ok own b)
    (hsignatures : methodMembers methods b = .ok signatures b)
    (hfields : bindFields fields (own ++ signatures) b₀ = .ok boundFields b₁)
    (hmethods : Stmt.bindMethods methods b₂ = .ok boundMethods b₃) :
    (ClassDef.retype ⟨name, own ++ signatures, mixed, super⟩ boundFields.length boundMethods).MatchesBody
      fields methods boundFields boundMethods := by
  have hnames := map_name_fieldMembers fields hown
  have hforetold := methodMembers_foretold methods hsignatures
  have hnames' := map_name_of_forall₂ (fun _ _ h => h.1) hforetold
  obtain ⟨hbound, htypes⟩ := bindFields_eq fields own signatures hfields hnames
  have hsigned := bindMethods_signed methods hmethods
  have hsame := map_name_of_forall₂ (fun _ _ h => h.1) hsigned
  have hlength : boundFields.length = own.length := by simpa using congrArg List.length htypes
  have hmembers : (ClassDef.retype ⟨name, own ++ signatures, mixed, super⟩ boundFields.length
      boundMethods).members = own ++ retypeAll boundMethods signatures := by
    show retypeMethods _ _ _ = _
    rw [retypeMethods, hlength, List.take_left, List.drop_left]
    rfl
  have hmember : ∀ j, (ClassDef.retype ⟨name, own ++ signatures, mixed, super⟩ boundFields.length
      boundMethods).members[boundFields.length + j]? = (retypeAll boundMethods signatures)[j]? := by
    intro j
    rw [hmembers, hlength, List.getElem?_append_right (Nat.le_add_right _ _), Nat.add_sub_cancel_left]
  refine ⟨?_, hbound, hsigned, ?_, ?_, ?_, ?_⟩
  · rw [hmembers, List.map_append, hnames, map_name_retypeAll, hnames']
  · rw [hmembers, hlength, List.take_left, htypes]
  · intro j g hg hunique
    have hj : (methods.map (·.function.name))[j]? = some g.name := by
      rw [← hsame, List.getElem?_map, hg, Option.map_some]
    rw [hmember]
    exact getElem?_retypeAll_of_spans (hnames'.trans hsame.symm) hg (hsame ▸ hunique.spans hj)
  · intro i j g hg hspans
    rw [hmember]
    exact getElem?_retypeAll_of_spans (hnames'.trans hsame.symm) hg (hsame ▸ hspans)
  · intro j f hf hbefore
    obtain ⟨hlt, rfl⟩ := List.getElem?_eq_some_iff.1 hf
    have hlt' : j < signatures.length := hforetold.length_eq ▸ hlt
    have hforetells := hforetold.get hlt hlt'
    refine ⟨signatures[j], ?_, hforetells⟩
    rw [hmember]
    refine getElem?_retypeAll_of_other (List.getElem?_eq_getElem hlt') fun _ => ?_
    rw [hnames', show signatures[j].name = _ from hforetells.1]
    exact hbefore

/-- A class declaration is bound to a class that matches its body, and its name stands for that class behind
it. -/
def Stmt.ClassDeclared (s : Stmt) (t : BoundStmt) (after : Binder) : Prop :=
  ∀ span name superclass mixins fields methods, s = .classDecl span name superclass mixins fields methods →
    ∃ c boundFields boundMethods, t = .classDecl ⟨span, none⟩ c boundFields boundMethods ∧ c.name = name ∧
      c.MatchesBody fields methods boundFields boundMethods ∧ after.HoldsClass c

namespace Stmt

theorem bind_classDeclared {s : Stmt} {b b' : Binder} {t : BoundStmt} (h : s.bind b = .ok t b') :
    s.ClassDeclared t b' := by
  rintro span name superclass mixins fields methods rfl
  cases binds_of_ok h with
  | classDecl _ _ _ fieldTypes methodTypes initial inside =>
    exact ⟨_, _, _, rfl, rfl, matchesBody_retype _ _ fieldTypes methodTypes initial inside,
      Binder.declareClass_holds _ _⟩

/-! ### Statements at every depth -/

/-- A statement is bound from some state to some other. -/
def BoundAs (s : Stmt) (t : BoundStmt) : Prop := ∃ before after, s.bind before = .ok t after

mutual

/-- The statements in a statement are bound one by one. -/
theorem bind_nested : ∀ (s : Stmt) {b b' : Binder} {t : BoundStmt}, s.bind b = .ok t b' →
    List.Forall₂ BoundAs s.nested t.nested
  | .expr _ _, _, _, _, h => by
    cases binds_of_ok h with
    | expr _ => exact .nil
  | .block _ body, _, _, _, h => by
    cases binds_of_ok h with
    | block inside => exact bindAll_nested body inside
  | .varDecl _ _ _ _ _, _, _, _, h => by
    cases binds_of_ok h with
    | varDecl _ _ => exact .nil
  | .ifElse _ _ onTrue onFalse, _, _, _, h => by
    cases binds_of_ok h with
    | ifElse _ first second =>
      exact List.rel_append (.cons ⟨_, _, first⟩ (bind_nested onTrue first))
        (bindOption_nested onFalse second)
  | .whileLoop _ _ body, _, _, _, h => by
    cases binds_of_ok h with
    | whileLoop _ inside => exact .cons ⟨_, _, inside⟩ (bind_nested body inside)
  | .forIn _ _ _ _ body, _, _, _, h => by
    cases binds_of_ok h with
    | forIn _ inside => exact bindAll_nested body inside
  | .fnDecl f, _, _, _, h => by
    cases binds_of_ok h with
    | fnDecl _ inside => exact bindFn_nested f inside
  | .ret _ _, _, _, _, h => by
    cases binds_of_ok h with
    | ret _ => exact .nil
  | .jump _ _, _, _, _, h => by
    cases h
    exact .nil
  | .classDecl _ _ _ _ _ methods, _, _, _, h => by
    cases binds_of_ok h with
    | classDecl _ _ _ _ _ _ inside => exact bindMethods_nested methods inside
  | .typeDecl _ _ _, _, _, _, h => by
    cases binds_of_ok h with
    | typeDecl _ _ => exact .nil
termination_by structural s => s

theorem bindAll_nested : ∀ (ss : List Stmt) {b b' : Binder} {ts : List BoundStmt},
    bindAll ss b = .ok ts b' → List.Forall₂ BoundAs (nestedAll ss) (BoundStmt.nestedAll ts)
  | [], _, _, _, h => by
    cases h
    exact .nil
  | s :: ss, _, _, _, h => by
    obtain ⟨t, ts, b₁, rfl, ht, hts⟩ := bindAll_cons h
    exact List.rel_append (.cons ⟨_, _, ht⟩ (bind_nested s ht)) (bindAll_nested ss hts)
termination_by structural ss => ss

theorem bindOption_nested : ∀ (s : Option Stmt) {b b' : Binder} {t : Option BoundStmt},
    bindOption s b = .ok t b' → List.Forall₂ BoundAs (nestedOption s) (BoundStmt.nestedOption t)
  | none, _, _, _, h => by
    cases h
    exact .nil
  | some s, _, _, _, h => by
    obtain ⟨t, rfl, ht⟩ := bindOption_some h
    exact .cons ⟨_, _, ht⟩ (bind_nested s ht)
termination_by structural s => s

theorem bindFn_nested : ∀ (f : FnDecl Stmt) {signature : Signature Ty} {b b' : Binder}
    {g : BoundFn BoundStmt}, bindFn signature f b = .ok g b' →
    List.Forall₂ BoundAs (nestedFn f) (BoundStmt.nestedFn g)
  | ⟨_, _, _, body, _, _⟩, _, _, _, _, h => by
    obtain ⟨ts, b₁, hrun, rfl, rfl⟩ := bindFn_ok h
    exact bindAll_nested body hrun
termination_by structural f => f

theorem bindMethods_nested : ∀ (ms : List (MethodDecl Stmt)) {b b' : Binder}
    {gs : List (BoundFn BoundStmt)}, bindMethods ms b = .ok gs b' →
    List.Forall₂ BoundAs (nestedMethods ms) (BoundStmt.nestedFns gs)
  | [], _, _, _, h => by
    cases h
    exact .nil
  | ⟨_, function⟩ :: ms, _, _, _, h => by
    obtain ⟨signature, g, gs, b₁, rfl, -, hg, hgs⟩ := bindMethods_cons h
    exact List.rel_append (bindFn_nested function hg) (bindMethods_nested ms hgs)
termination_by structural ms => ms

end

end Stmt

end ScriptCheck
