import ScriptCheck.Proofs.Binding.Alignment

/-!
Binding statements in two runs along their resolution. Resolution and binding open their scopes at the
same places and fill them with the same names, though not at the same moments: a variable is declared
before its initial value is resolved and gets its type after that value is bound. One step lemma for each
statement carries the alignment of the scopes, and with it the coupling of the two runs.
-/

namespace ScriptCheck

open Binding Sides

variable {c : Sides} {base : Binder}

/-! ### Signatures and members -/

theorem typeOrAny_couples : ∀ ref : Option TypeRef,
    c.Binds base (fun t => t) (fun _ => True) (typeOrAny ref)
      (typeOrAny (ref.map (TypeRef.relabel c.labels)))
  | none => .pure trivial
  | some ref => typeOf_couples ref

/-- The parameters keep their names. -/
theorem bindParams_couples (ps : List Param) :
    c.Binds base (fun qs => qs) (fun qs => qs.map Prod.fst = ps.map (·.name)) (bindParams ps)
      (bindParams (ps.map (Param.relabel c.labels))) := by
  induction ps with
  | nil => exact .pure rfl
  | cons p ps ih =>
    refine .bind (typeOf_couples p.type) fun t _ => ?_
    refine .bind ih fun qs hqs => .result rfl ?_
    rw [List.map_cons, List.map_cons, hqs]

theorem bindSignature_couples (ps : List Param) (result : Option TypeRef) :
    c.Binds base (fun s => s) (fun s => s.params.map Prod.fst = ps.map (·.name))
      (bindSignature ps result)
      (bindSignature (ps.map (Param.relabel c.labels)) (result.map (TypeRef.relabel c.labels))) := by
  refine .bind (bindParams_couples ps) fun qs hqs => ?_
  exact .bind (typeOrAny_couples result) fun _ _ => .pure hqs

theorem bindSuperclass_couples (name : Option Name) :
    c.Binds base (fun t => t) (fun _ => True) (bindSuperclass name)
      (bindSuperclass (name.map (Name.relabel c.labels))) := by
  cases name with
  | none => exact .pure trivial
  | some name =>
    refine .reading fun b b' hb => ?_
    rw [hb.1.types]
    dsimp only [Name.relabel]
    split
    · exact .pure trivial
    · exact reject_couples rfl name.span.start

theorem bindMixins_couples (names : List Name) :
    c.Binds base (fun ts => ts) (fun _ => True) (bindMixins names)
      (bindMixins (names.map (Name.relabel c.labels))) := by
  induction names with
  | nil => exact .pure trivial
  | cons name names ih =>
    refine .reading fun b b' hb => ?_
    rw [hb.1.types]
    dsimp only [Name.relabel]
    split
    · exact .bind ih fun _ _ => .pure trivial
    · exact .bind ih fun _ _ => .pure trivial
    · exact reject_couples rfl name.span.start

theorem fieldMembers_couples (fs : List FieldDecl) :
    c.Binds base (fun ms => ms) (fun _ => True) (fieldMembers fs)
      (fieldMembers (fs.map (FieldDecl.relabel c.labels))) := by
  induction fs with
  | nil => exact .pure trivial
  | cons f fs ih =>
    refine .bind (typeOf_couples f.type) fun t _ => ?_
    exact .bind ih fun _ _ => .pure trivial

theorem methodMembers_couples (ms : List (MethodDecl Stmt)) :
    c.Binds base (fun ms => ms) (fun _ => True) (methodMembers ms)
      (methodMembers (Stmt.relabelMethods c.labels ms)) := by
  induction ms with
  | nil => exact .pure trivial
  | cons m ms ih =>
    obtain ⟨modifiers, function⟩ := m
    simp only [Stmt.relabelMethods, methodMembers, Stmt.relabelFn_params, Stmt.relabelFn_result,
      Stmt.relabelFn_name]
    refine .bind (bindSignature_couples function.params function.result) fun s _ => ?_
    exact .bind ih fun _ _ => .pure trivial

/-- Initial values of fields, for the members that there are. -/
theorem bindFields_couples : ∀ (fs : List FieldDecl) (ms : List (Member Ty)),
    Expr.Suits c base (Stmt.idsFields fs) (Stmt.readsFields fs) →
    c.Binds base (List.map (BoundField.relabel c.labels))
      (fun ds => ∀ d ∈ ds, d.Carries c.belongs) (bindFields fs ms)
      (bindFields (fs.map (FieldDecl.relabel c.labels)) ms)
  | [], _, _ => .result rfl nofun
  | _ :: _, [], _ => .result rfl nofun
  | f :: fs, m :: ms, h => by
    refine .bind (Expr.bindOption_couples f.value h.left) fun value hvalue => ?_
    refine .bind (bindFields_couples fs ms h.right) fun ds hds => .result rfl ?_
    intro d hd
    rcases List.mem_cons.1 hd with rfl | hd
    · exact hvalue
    · exact hds d hd

/-! ### Results -/

theorem variableType_relabel (f : Relabeling) (declared : Ty) (value : Option BoundExpr) :
    variableType declared (value.map (BoundExpr.relabel f)) = variableType declared value := by
  cases value with
  | none => rfl
  | some value => simp only [Option.map_some, variableType, BoundExpr.type_relabel]

theorem resultType_relabel (f : Relabeling) (written : Option TypeRef) (signature : Signature Ty)
    (body : List BoundStmt) :
    resultType (written.map (TypeRef.relabel f)) signature (BoundStmt.relabelAll f body) =
      resultType written signature body := by
  cases written with
  | none => simp only [Option.map_none, resultType, BoundStmt.map_returns_relabelAll]
  | some _ => rfl

theorem retypeMethods_relabel (f : Relabeling) (n : Nat) (methods : List (BoundFn BoundStmt))
    (members : List (Member Ty)) :
    retypeMethods n (BoundStmt.relabelFns f methods) members = retypeMethods n methods members := by
  unfold retypeMethods
  rw [BoundStmt.relabelFns_eq_map, List.foldl_map]
  simp only [BoundStmt.relabelFn_name, BoundStmt.relabelFn_signature]

/-! ### Scopes -/

namespace Sides.Along

variable {names : ScopeStack Bool} {d : Nat} {b b' : Binder}

theorem push (h : c.Along names d b b') : c.Along names.push d b.push b'.push :=
  { h with
    scopes := congrArg ScopeStack.push h.scopes
    types := congrArg Registry.push h.types
    fits := h.fits.push
    typeDepth := congrArg (· + 1) h.typeDepth }

theorem pop (h : c.Along names d b b') : c.Along names.pop d b.pop b'.pop := by
  refine { h with
    scopes := congrArg ScopeStack.pop h.scopes
    types := congrArg Registry.pop h.types
    fits := h.fits.pop
    typeDepth := ?_ }
  have hdepth := h.typeDepth
  simp only [ScopeStack.depth, Binder.pop, Registry.pop, ScopeStack.pop, List.length_tail]
    at hdepth ⊢
  omega

theorem define (h : c.Along names d b b') (name : String) (type : Ty) (writable : Bool) :
    c.Along (names.insert name true) d (b.define name type writable)
      (b'.define name type writable) :=
  { h with
    scopes := congrArg (·.insert name ⟨name, type, writable⟩) h.scopes
    fits := h.fits.define name _
    typeDepth := h.typeDepth.trans (ScopeStack.depth_insert ..).symm }

theorem declare (h : c.Along names d b b') (name : String) :
    c.Along (names.insert name false) d b b' :=
  { h with
    fits := h.fits.declare name
    typeDepth := h.typeDepth.trans (ScopeStack.depth_insert ..).symm }

theorem redefine (h : c.Along names d b b') {name : String}
    (hname : names.getCurrent? name = some true) (type : Ty) (writable : Bool) :
    c.Along names d (b.define name type writable) (b'.define name type writable) :=
  { h with
    scopes := congrArg (·.insert name ⟨name, type, writable⟩) h.scopes
    fits := h.fits.redefine hname _ }

theorem declareType (h : c.Along names d b b') (name : String) (type : Ty) :
    c.Along names d (b.declareType name type) (b'.declareType name type) :=
  { h with
    types := congrArg (·.declare name type) h.types
    typeDepth := (ScopeStack.depth_insert ..).trans h.typeDepth }

theorem enterClass (h : c.Along names d b b') (name : String) :
    c.Along names.push (d + 1) (b.enterClass name) (b'.enterClass name) :=
  push { h with
    classes := congrArg (name :: ·) h.classes
    classDepth := congrArg (· + 1) h.classDepth }

theorem leaveClass (h : c.Along names d b b') : c.Along names.pop (d - 1) b.leaveClass b'.leaveClass :=
  { h.pop with
    classes := congrArg List.tail h.classes
    classDepth := by rw [← h.classDepth]; exact List.length_tail }

end Sides.Along

variable {r r' : Resolver} {α β : Type} {g : α → β} {P : α → Prop} {m : Binding α} {m' : Binding β}

/-- A name may be declared before anything is bound. -/
theorem Sides.Tracks.declared {name : String} {place : Position} {r₁ : Resolver}
    (hdeclare : Resolve.declare name place r = .ok () r₁) (h : c.Tracks r₁ r' g P m m') :
    c.Tracks r r' g P m m' := by
  obtain ⟨-, rfl⟩ := Resolve.declare_ok hdeclare
  exact h.mono (fun _ _ hb => hb.declare name) fun _ _ hb => hb

/-- Loops are nothing to binding. -/
theorem Sides.Tracks.inLoop (h : c.Tracks r.enterLoop r' g P m m') :
    c.Tracks r r'.leaveLoop g P m m' := h

theorem define_tracks (name : String) (type : Ty) (writable : Bool) :
    c.Tracks r (r.define name) (fun u => u) (fun _ => True) (modify (·.define name type writable))
      (modify (·.define name type writable)) :=
  .changes fun _ _ hb => hb.define name type writable

theorem declareClass_tracks (d : ClassDef Ty) :
    c.Tracks r (r.define d.name) (fun u => u) (fun _ => True) (modify (·.declareClass d))
      (modify (·.declareClass d)) :=
  .changes fun _ _ hb => (hb.declareType d.name _).define d.name _ false

/-- The parameters of a function fill the scope as they did in resolution. -/
theorem defineParams_along : ∀ (ps : List Param) (qs : List (String × Ty)) {r r' : Resolver}
    {d : Nat} {b b' : Binder}, Stmt.resolveParams ps r = .ok () r' →
    qs.map Prod.fst = ps.map (·.name) → c.Along r.scopes d b b' →
    c.Along r'.scopes d (defineParams qs b) (defineParams qs b')
  | [], [], _, _, _, _, _, h, _, hb => by cases h; exact hb
  | p :: ps, q :: qs, _, _, _, _, _, h, hnames, hb => by
    obtain ⟨_, _, hdeclare, h⟩ := ok_of_bind h
    obtain ⟨_, _, hdefine, hps⟩ := ok_of_bind h
    cases hdefine
    obtain ⟨-, rfl⟩ := Resolve.declare_ok hdeclare
    obtain ⟨hname, hnames⟩ := List.cons.inj hnames
    refine defineParams_along ps qs hps hnames ?_
    rw [show p.name = q.1 from hname.symm] at *
    exact (hb.declare q.1).define q.1 q.2 true
  | [], _ :: _, _, _, _, _, _, _, hnames, _ => by cases hnames
  | _ :: _, [], _, _, _, _, _, _, hnames, _ => by cases hnames

namespace Expr

theorem bind_tracks (e : Expr) (h : e.resolve r = .ok () r')
    (hc : c.Covers r'.distances e.ids e.reads) :
    c.Tracks r r' (BoundExpr.relabel c.labels) (BoundExpr.Carries c.belongs) e.bind
      (e.relabel c.labels).bind :=
  tracks_of_finds (e.resolve_finds h) fun _ hfits =>
    e.bind_couples (hc.suits (e.resolve_finds h) hfits)

theorem bindOption_tracks (e : Option Expr) (h : resolveOption e r = .ok () r')
    (hc : c.Covers r'.distances (idsOption e) (readsOption e)) :
    c.Tracks r r' (Option.map (BoundExpr.relabel c.labels)) (fun b => ∀ e ∈ b, e.Carries c.belongs)
      (bindOption e) (bindOption (e.map (relabel c.labels))) :=
  tracks_of_finds (resolveOption_finds e h) fun _ hfits =>
    bindOption_couples e (hc.suits (resolveOption_finds e h) hfits)

end Expr

/-! ### Statements -/

/-- A name that is defined is finished. -/
theorem Resolver.getCurrent?_define (r : Resolver) (name : String) :
    (r.define name).scopes.getCurrent? name = some true :=
  (ScopeStack.getCurrent?_insert ..).trans (if_pos rfl)

namespace Stmt

/-- A function leaves the scopes around it as they are. -/
theorem resolveFn_scopes {f : FnDecl Stmt} (h : resolveFn f r = .ok () r') :
    r'.scopes = r.scopes := by
  obtain ⟨_, params, _, body, _, _⟩ := f
  obtain ⟨_, _, hget, h⟩ := ok_of_bind h
  cases hget
  obtain ⟨r₁, hbody, rfl⟩ := between_ok h
  obtain ⟨_, _, hparams, hbody⟩ := ok_of_bind hbody
  exact ScopeStack.pop_eq_of_tail
    ((resolveParams_keeps params hparams).append (resolveAll_keeps body hbody)).outer

/-- A class body is bound along its resolution if its methods are. -/
theorem classBody_tracks {fields : List FieldDecl} {methods : List (MethodDecl Stmt)} {r₁ : Resolver}
    (members : List (Member Ty)) (hfinds : r.Finds r₁ (readsFields fields))
    (hc : c.Covers r₁.distances (idsFields fields) (readsFields fields))
    (hmethods : c.Tracks r₁ r' (BoundStmt.relabelFns c.labels) (BoundStmt.FnsCarry c.belongs)
      (bindMethods methods) (bindMethods (relabelMethods c.labels methods))) :
    c.Tracks r r'
      (Prod.map (List.map (BoundField.relabel c.labels)) (BoundStmt.relabelFns c.labels))
      (fun p => (∀ d ∈ p.1, d.Carries c.belongs) ∧ BoundStmt.FnsCarry c.belongs p.2)
      (do
        let fields ← bindFields fields members
        let methods ← bindMethods methods
        return (fields, methods))
      (do
        let fields ← bindFields (fields.map (FieldDecl.relabel c.labels)) members
        let methods ← bindMethods (relabelMethods c.labels methods)
        return (fields, methods)) := by
  refine .bind (tracks_of_finds hfinds fun base hfits =>
    bindFields_couples fields members (hc.suits hfinds hfits)) fun fs hfs => ?_
  exact .bind hmethods fun ms hms => .result rfl ⟨hfs, hms⟩

theorem relabelOption_returns (f : Relabeling) : ∀ s : Option BoundStmt,
    (BoundStmt.relabelOption f s).toList.map (·.returns) = s.toList.map (·.returns)
  | none => rfl
  | some s => congrArg ([·]) (BoundStmt.returns_relabel f s)

mutual

/-- Binding a statement is coupled with binding it under new labels, along its resolution. -/
theorem bind_tracks : ∀ (s : Stmt) {r r' : Resolver}, s.resolve r = .ok () r' →
    c.Covers r'.distances s.ids s.reads →
    c.Tracks r r' (BoundStmt.relabel c.labels) (BoundStmt.Carries c.belongs) s.bind
      (s.relabel c.labels).bind
  | .expr span e, _, _, h, hc => .bind (e.bind_tracks h hc) fun _ hb => .result rfl hb
  | .block span body, _, _, h, hc => by
    obtain ⟨r₁, hbody, rfl⟩ := between_ok h
    refine .bind ((bindAll_tracks body hbody hc).between (fun _ _ hb => hb.push)
      fun _ _ hb => hb.pop) fun b hb => ?_
    rw [BoundStmt.map_returns_relabelAll]
    exact .result rfl hb
  | .varDecl span name isConst type value, _, _, h, hc => by
    obtain ⟨_, _, hdeclare, h⟩ := ok_of_bind h
    obtain ⟨_, _, hvalue, hdefine⟩ := ok_of_bind h
    cases hdefine
    refine .declared hdeclare ?_
    refine .bind (tracks_of_binds fun _ => typeOrAny_couples type) fun declared _ => ?_
    refine .bind (Expr.bindOption_tracks value hvalue hc) fun v hv => ?_
    rw [variableType_relabel]
    exact .bind (define_tracks name _ _) fun _ _ => .result rfl hv
  | .ifElse span condition onTrue onFalse, _, _, h, hc => by
    obtain ⟨_, _, hcondition, h⟩ := ok_of_bind h
    obtain ⟨_, _, htrue, hfalse⟩ := ok_of_bind h
    have hc₁ := hc.left (resolveOption_keeps onFalse hfalse)
    refine .bind (condition.bind_tracks hcondition (hc₁.left (resolve_keeps onTrue htrue)))
      fun e he => ?_
    refine .bind (bind_tracks onTrue htrue hc₁.right) fun s hs => ?_
    refine .bind (bindOption_tracks onFalse hfalse hc.right) fun t ht => ?_
    rw [BoundStmt.returns_relabel, relabelOption_returns]
    exact .result rfl ⟨he, hs, ht⟩
  | .whileLoop span condition body, _, _, h, hc => by
    obtain ⟨_, _, hcondition, h⟩ := ok_of_bind h
    obtain ⟨r₁, hbody, rfl⟩ := between_ok h
    refine .bind (condition.bind_tracks hcondition (hc.left (resolve_keeps body hbody).inLoop))
      fun e he => ?_
    refine .bind (bind_tracks body hbody hc.right).inLoop fun s hs => ?_
    rw [BoundStmt.returns_relabel]
    exact .result rfl ⟨he, hs⟩
  | .forIn span name iterable _ body, _, _, h, hc => by
    obtain ⟨_, _, hiterable, h⟩ := ok_of_bind h
    obtain ⟨r₁, hbody, rfl⟩ := between_ok h
    refine .bind (iterable.bind_tracks hiterable
      (hc.left (resolveAll_keeps body hbody).defined.inLoop.inScope)) fun e he => ?_
    rw [BoundExpr.type_relabel]
    refine .bind ((bindAll_tracks body hbody hc.right).between
      (fun _ _ hb => hb.push.define name _ true) fun _ _ hb => hb.pop) fun b hb => ?_
    rw [BoundStmt.map_returns_relabelAll]
    exact .result rfl ⟨he, hb⟩
  | .fnDecl f, _, r', h, hc => by
    obtain ⟨_, r₁, hdeclare, h⟩ := ok_of_bind h
    obtain ⟨_, _, hdefine, hfn⟩ := ok_of_bind h
    cases hdefine
    -- The name is finished before the body, and so it may be declared anew behind it.
    have hname : r'.scopes.getCurrent? f.name = some true := by
      rw [resolveFn_scopes hfn]
      exact r₁.getCurrent?_define f.name
    simp only [relabel, bind, relabelFn_name, relabelFn_params, relabelFn_result, relabelFn_span,
      Option.isNone_map]
    refine .declared hdeclare ?_
    refine .bind (tracks_of_binds fun _ => bindSignature_couples f.params f.result)
      fun signature hnames => ?_
    refine .bind (define_tracks f.name _ false) fun _ _ => ?_
    refine .bind (bindFn_tracks f hfn hc signature hnames) fun d hd => ?_
    rw [BoundStmt.relabelFn_signature]
    refine .ite (.bind (.changes fun _ _ hb => hb.redefine hname _ false) fun _ _ => ?_) ?_
    · exact .result rfl hd
    · exact .result rfl hd
  | .ret span value, r, _, h, hc => by
    obtain ⟨_, _, hget, h⟩ := ok_of_bind h
    cases hget
    by_cases hdepth : r.functionDepth = 0
    · rw [if_pos hdepth] at h
      cases h
    · rw [if_neg hdepth] at h
      refine .bind (Expr.bindOption_tracks value h hc) fun v hv => ?_
      cases v with
      | none => exact .result rfl hv
      | some e =>
        refine .result ?_ hv
        simp only [Option.map_some, BoundExpr.type_relabel]
        rfl
  | .jump span isContinue, r, _, h, _ => by
    obtain ⟨_, _, hget, h⟩ := ok_of_bind h
    cases hget
    split at h
    · cases h
    · cases h
      exact .result rfl trivial
  | .classDecl span name superclass mixins fields methods, _, _, h, hc => by
    obtain ⟨_, r₁, hdeclare, h⟩ := ok_of_bind h
    obtain ⟨_, _, hdefine, h⟩ := ok_of_bind h
    cases hdefine
    obtain ⟨r₃, hbody, rfl⟩ := between_ok h
    obtain ⟨_, r₂, hfields, hmethods⟩ := ok_of_bind hbody
    have hfinds := resolveFields_finds fields hfields
    have hkeeps := hfinds.keeps.append (resolveMethods_keeps methods hmethods)
    have hname : r₃.leaveClass.scopes.getCurrent? name = some true := by
      rw [show r₃.leaveClass.scopes = (r₁.define name).scopes from
        ScopeStack.pop_eq_of_tail hkeeps.defined.outer]
      exact r₁.getCurrent?_define name
    refine .declared hdeclare ?_
    refine .bind (.changes fun _ _ hb => hb.declareType name _) fun _ _ => ?_
    refine .bind (tracks_of_binds fun _ => bindSuperclass_couples superclass) fun parent _ => ?_
    refine .bind (tracks_of_binds fun _ => bindMixins_couples mixins) fun mixed _ => ?_
    refine .bind (tracks_of_binds fun _ => fieldMembers_couples fields) fun own _ => ?_
    refine .bind (tracks_of_binds fun _ => methodMembers_couples methods) fun rest _ => ?_
    refine .bind (declareClass_tracks ⟨name, own ++ rest, mixed, parent⟩) fun _ _ => ?_
    have hc : c.Covers r₃.distances _ _ := hc
    have hinside := classBody_tracks (own ++ rest) hfinds
      (hc.left (resolveMethods_keeps methods hmethods)) (bindMethods_tracks methods hmethods hc.right)
    refine .bind (hinside.between
      (fun _ _ hb => (hb.enterClass name).define "this" _ false) fun _ _ hb => hb.leaveClass)
      fun p hp => ?_
    obtain ⟨fs, ms⟩ := p
    simp only [Prod.map_apply, List.length_map, retypeMethods_relabel]
    refine .bind (.changes fun _ _ hb => (hb.declareType name _).redefine hname _ false)
      fun _ _ => ?_
    exact .result rfl hp
  | .typeDecl span name ref, _, _, h, _ => by
    cases h
    refine .bind (.changes fun _ _ hb => hb.declareType name _) fun _ _ => ?_
    refine .bind (tracks_of_binds fun _ => typeOf_couples ref) fun t _ => ?_
    refine .bind (.changes fun _ _ hb => hb.declareType name _) fun _ _ => ?_
    exact .result rfl trivial
termination_by structural s => s

theorem bindAll_tracks : ∀ (ss : List Stmt) {r r' : Resolver}, resolveAll ss r = .ok () r' →
    c.Covers r'.distances (idsAll ss) (readsAll ss) →
    c.Tracks r r' (BoundStmt.relabelAll c.labels) (BoundStmt.AllCarry c.belongs) (bindAll ss)
      (bindAll (relabelAll c.labels ss))
  | [], _, _, h, _ => by cases h; exact .result rfl trivial
  | s :: ss, _, _, h, hc => by
    obtain ⟨_, _, hs, hss⟩ := ok_of_bind h
    refine .bind (bind_tracks s hs (hc.left (resolveAll_keeps ss hss))) fun b hb => ?_
    exact .bind (bindAll_tracks ss hss hc.right) fun bs hbs => .result rfl ⟨hb, hbs⟩
termination_by structural ss => ss

theorem bindOption_tracks : ∀ (s : Option Stmt) {r r' : Resolver},
    resolveOption s r = .ok () r' → c.Covers r'.distances (idsOption s) (readsOption s) →
    c.Tracks r r' (BoundStmt.relabelOption c.labels) (BoundStmt.OptionCarries c.belongs)
      (bindOption s) (bindOption (relabelOption c.labels s))
  | none, _, _, h, _ => by cases h; exact .result rfl trivial
  | some s, _, _, h, hc => .bind (bind_tracks s h hc) fun _ hb => .result rfl hb
termination_by structural s => s

theorem bindFn_tracks : ∀ (f : FnDecl Stmt) {r r' : Resolver}, resolveFn f r = .ok () r' →
    c.Covers r'.distances (idsFn f) (readsFn f) → ∀ signature : Signature Ty,
    signature.params.map Prod.fst = f.params.map (·.name) →
    c.Tracks r r' (BoundStmt.relabelFn c.labels) (BoundStmt.FnCarries c.belongs)
      (bindFn signature f) (bindFn signature (relabelFn c.labels f))
  | ⟨name, params, result, body, _, _⟩, r, _, h, hc, signature, hnames => by
    obtain ⟨_, _, hget, h⟩ := ok_of_bind h
    cases hget
    obtain ⟨r₁, hbody, rfl⟩ := between_ok h
    obtain ⟨_, r₂, hparams, hbody⟩ := ok_of_bind hbody
    have hdepth : r₂.classDepth = r.classDepth := (resolveParams_keeps params hparams).classDepth
    refine .bind ((bindAll_tracks body hbody hc).between (fun _ _ hb => ?_)
      fun _ _ hb => hb.pop) fun b hb => ?_
    · rw [hdepth]
      exact defineParams_along params signature.params hparams hnames hb.push
    · rw [resultType_relabel]
      exact .result rfl hb
termination_by structural f => f

theorem bindMethods_tracks : ∀ (ms : List (MethodDecl Stmt)) {r r' : Resolver},
    resolveMethods ms r = .ok () r' → c.Covers r'.distances (idsMethods ms) (readsMethods ms) →
    c.Tracks r r' (BoundStmt.relabelFns c.labels) (BoundStmt.FnsCarry c.belongs) (bindMethods ms)
      (bindMethods (relabelMethods c.labels ms))
  | [], _, _, h, _ => by cases h; exact .result rfl trivial
  | ⟨modifiers, function⟩ :: ms, _, _, h, hc => by
    obtain ⟨_, _, hfunction, hms⟩ := ok_of_bind h
    simp only [relabelMethods, bindMethods, relabelFn_params, relabelFn_result]
    refine .bind (tracks_of_binds fun _ => bindSignature_couples function.params function.result)
      fun signature hnames => ?_
    refine .bind (bindFn_tracks function hfunction (hc.left (resolveMethods_keeps ms hms))
      signature hnames) fun f hf => ?_
    exact .bind (bindMethods_tracks ms hms hc.right) fun fs hfs => .result rfl ⟨hf, hfs⟩
termination_by structural ms => ms

end

end Stmt

end ScriptCheck
