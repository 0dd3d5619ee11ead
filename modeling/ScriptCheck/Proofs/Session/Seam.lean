import ScriptCheck.Proofs.Lexing.Seam
import ScriptCheck.Proofs.Parsing.Seam
import ScriptCheck.Proofs.Relabel.Tables
import ScriptCheck.Proofs.Session.Distances

/-!
The boundary between two programs is invisible. Two programs that check one after the other also check
as one, with a newline between them: it has the statements of both, those of the second written where
they stand now, and the session behind it is the same.
-/

namespace ScriptCheck

open Relabeling

/-! ### Statements in order -/

namespace Stmt

theorem resolveAll_append (ss ts : List Stmt) :
    resolveAll (ss ++ ts) = (resolveAll ss >>= fun _ => resolveAll ts) := by
  induction ss with
  | nil => rfl
  | cons s ss ih => rw [List.cons_append, resolveAll, resolveAll, ih, bind_assoc]

theorem bindAll_append (ss ts : List Stmt) :
    bindAll (ss ++ ts) = (do return (← bindAll ss) ++ (← bindAll ts)) := by
  induction ss with
  | nil => exact (bind_pure (bindAll ts)).symm
  | cons s ss ih =>
    rw [List.cons_append, bindAll, bindAll, ih]
    simp only [bind_assoc, pure_bind, List.cons_append]

end Stmt

/-! ### Runs that go on -/

/-- A run of resolution that goes on, with the distances of an earlier one, beside one that starts
anew. What is resolved is written later in the first. -/
def Paths.goingOn (n : Nat) {old : Table Nat Nat} {ids : List Nat}
    (hold : ∀ i ∈ ids, old.get? i = none) : Paths :=
  ⟨shiftPlaces n, old.Continues ids, (· ∈ ids), follows_continues (fun _ => rfl) hold⟩

/-- A run of binding that goes on, with the types of an earlier one and more distances, beside one that
starts anew. -/
def Sides.goingOn (f : Relabeling) (hf : ∀ i, f.id i = i) (known known' : Table Nat Nat)
    (hknown : ∀ i d, known.get? i = some d → known'.get? i = some d) (old : Table Nat Ty)
    (ids : List Nat) (hold : ∀ i ∈ ids, old.get? i = none) : Sides where
  labels := f
  known
  known'
  tables := old.Continues ids
  fresh := (· ∈ ids)
  drops := fun _ => False
  follows := follows_continues hf hold
  leads := fun {i d} h => .inl (by rw [hf]; exact hknown i d h)

/-- A program that starts with the ids that another leaves shares none with it. -/
theorem Block.ids_disjoint {s t s' t' : TokenStream} {a b : Block} (ha : Block.parse s = .ok a t)
    (hb : Block.parse s' = .ok b t') (hnextId : s'.nextId = t.nextId) :
    ∀ i ∈ Stmt.idsAll b.body, i ∉ Stmt.idsAll a.body := by
  obtain ⟨hle, hperm⟩ := Block.parse_draws ha
  obtain ⟨-, hperm'⟩ := Block.parse_draws hb
  intro i hi hia
  have hlow := List.mem_range'_1.1 (hperm'.mem_iff.1 hi)
  have hhigh := List.mem_range'_1.1 (hperm.mem_iff.1 hia)
  omega

namespace Settled

variable {r₀ r r' : Resolver} {b₀ b b' : Binder} {body body' : List Stmt}

/-- Nothing is noted under the ids of statements that have not been resolved. -/
theorem distances_none (h : Settled r₀ b₀) (hresolve : Stmt.resolveAll body r₀.start = .ok () r)
    {i : Nat} (hi : i ∉ Stmt.idsAll body) : r.distances.get? i = none := by
  have hkeeps := Stmt.resolveAll_keeps body hresolve
  rw [hkeeps.others i fun hread => hi ((Stmt.readsAll_sublist body).subset hread)]
  show r₀.distances.get? i = none
  rw [h.distances]
  rfl

/-- Resolution may go on behind a program instead of starting anew. -/
theorem resolve_goesOn (h : Settled r₀ b₀) (n : Nat)
    (hresolve : Stmt.resolveAll body r₀.start = .ok () r)
    (hresolve' : Stmt.resolveAll body' r.close.start = .ok () r')
    (hids : ∀ i ∈ Stmt.idsAll body', i ∉ Stmt.idsAll body) :
    ∃ d, Stmt.resolveAll (body ++ Stmt.relabelAll (shiftPlaces n) body') r₀.start =
        .ok () { r' with distances := d } ∧
      r.distances.Continues (Stmt.idsAll body') r'.distances d := by
  have hold : ∀ i ∈ Stmt.idsAll body', r.distances.get? i = none :=
    fun i hi => h.distances_none hresolve (hids i hi)
  have hkeeps := Stmt.resolveAll_keeps body hresolve
  have hopened : r.scopes.truncate = r.scopes := by
    rw [ScopeStack.truncate, ← h.resolved hresolve]
  have hstart : (Paths.goingOn n hold).Related r.close.start r := by
    refine ⟨?_, .start _ _⟩
    obtain ⟨scopes, distances, functionDepth, loopDepth, classDepth⟩ := r
    simp only [Resolver.start, Resolver.close, hopened, Resolver.mk.injEq, true_and]
    exact ⟨hkeeps.functionDepth, hkeeps.loopDepth, hkeeps.classDepth⟩
  have hcouples : (Paths.goingOn n hold).Resolves _ _ := Stmt.resolveAll_couples body'
    fun x hx => (Stmt.readsAll_sublist body').subset (List.mem_map_of_mem hx)
  obtain ⟨r'', hresolve'', hr, -⟩ := (hcouples hstart).of_ok hresolve'
  refine ⟨r''.distances, ?_, hr.distances⟩
  rw [Stmt.resolveAll_append, bind_of_ok hresolve, ← hr.same]
  exact hresolve''

section

variable {t t' : TokenStream} {p : Block} {bound : List BoundStmt} {d : Table Nat Nat}

/-- A program may be bound with more distances known than it needs, and with types noted that stand
under other ids. -/
theorem bind_goesOn (h : Settled r₀ b₀) (f : Relabeling) (hf : ∀ i, f.id i = i)
    (hparse : Block.parse t = .ok p t') (hresolve : Stmt.resolveAll p.body r₀.start = .ok () r)
    (hbind : Stmt.bindAll p.body (b₀.start r.distances) = .ok bound b)
    (hd : ∀ i x, r.distances.get? i = some x → d.get? i = some x) (old : Table Nat Ty)
    (hold : ∀ i ∈ Stmt.idsAll p.body, old.get? i = none) :
    ∃ types,
      Stmt.bindAll (Stmt.relabelAll f p.body) { b₀.start d with boundTypes := old } =
        .ok (BoundStmt.relabelAll f bound) { b with distances := d, boundTypes := types } ∧
      old.Continues (Stmt.idsAll p.body) b.boundTypes types := by
  let c : Sides := .goingOn f hf r.distances d hd old (Stmt.idsAll p.body) hold
  have hcovers := Block.covers_of_parse hparse (c := c) (fun _ hi => hi) rfl
  have hstart : c.Along r₀.start.scopes r₀.start.classDepth (b₀.start r.distances)
      { b₀.start d with boundTypes := old } :=
    { scopes := rfl
      types := rfl
      classes := rfl
      boundTypes := .start _ _
      distances := rfl
      distances' := rfl
      fits := h.fits
      typeDepth := h.typeDepth
      classDepth := rfl }
  obtain ⟨b₁, hb₁, halong, -⟩ := (Stmt.bindAll_tracks p.body hresolve hcovers hstart).of_ok hbind
  refine ⟨b₁.boundTypes, ?_, halong.boundTypes⟩
  have hsame : b₁ = { b with distances := d, boundTypes := b₁.boundTypes } := by
    obtain ⟨scopes, types, distances, boundTypes, classes⟩ := b₁
    cases halong.scopes
    cases halong.types
    cases halong.classes
    cases halong.distances'
    rfl
  rw [← hsame]
  exact hb₁

/-- At the end of a program nothing is open that is closed before the next one. -/
theorem start_close (h : Settled r₀ b₀) (hparse : Block.parse t = .ok p t')
    (hresolve : Stmt.resolveAll p.body r₀.start = .ok () r)
    (hbind : Stmt.bindAll p.body (b₀.start r.distances) = .ok bound b) (d : Table Nat Nat) :
    b.close.start d = { b with distances := d, boundTypes := .empty } := by
  obtain ⟨b', -, halong, -⟩ := (h.bindsAlone hparse hresolve).of_ok hbind
  obtain ⟨-, hscopes, htypes⟩ := halong.close_eq (h.resolved hresolve)
  have hclasses : b.classes = [] := List.eq_nil_of_length_eq_zero
    (halong.classDepth.trans (Stmt.resolveAll_keeps p.body hresolve).classDepth)
  rw [Binder.start, hscopes, htypes, ← hclasses]

end

end Settled

/-! ### Sessions -/

namespace Session

variable {s s₁ s₂ : Session} {file : String}

/-- Closed tokens are what a stream of them shows. -/
theorem tokens_stream (s : Session) (file : String) (ts : List Token) {last : Token}
    (hlast : last.kind = .eof) : (s.stream (ts ++ [last]) file).tokens = ts ++ [last] :=
  TokenStream.tokens_ofTokens file ts hlast

/-- Two programs that are read one after the other are read as one. -/
theorem parse_seam {source source' : String} {tokens tokens' : List Token} {a b : Block}
    {t t' : TokenStream}
    (hlimit : byteLength source.toList + 1 + byteLength source'.toList < Position.limit)
    (htokens : tokenize source file = .ok tokens)
    (hparse : Block.parse (s.stream tokens file) = .ok a t) (htypeNames : s₁.typeNames = t.typeNames)
    (hnextId : s₁.nextId = t.nextId) (htokens' : tokenize source' file = .ok tokens')
    (hparse' : Block.parse (s₁.stream tokens' file) = .ok b t') :
    ∃ both span w, tokenize (source ++ "\n" ++ source') file = .ok both ∧
      Block.parse (s.stream both file) =
        .ok ⟨a.body ++ Stmt.relabelAll (shiftPlaces (byteLength source.toList + 1)) b.body, span⟩ w ∧
      w.typeNames = t'.typeNames ∧ w.nextId = t'.nextId := by
  obtain ⟨ts, last, rfl, hlast, hts⟩ := tokenize_closed htokens
  obtain ⟨us, last', rfl, hlast', -⟩ := tokenize_closed htokens'
  have hboth := tokenize_seam hlimit htokens htokens'
  generalize byteLength source.toList + 1 = n at hboth ⊢
  have hstream := s.tokens_stream file ts hlast
  have hstream' := s₁.tokens_stream file us hlast'
  have hextends : Extends .same ((s₁.stream (us ++ [last']) file).tokens.map
      (Token.relabel (shiftPlaces n))) ts (s.stream (ts ++ [last]) file)
      (s.stream (ts ++ (us ++ [last']).map (Token.relabel (shiftPlaces n))) file) :=
    { ends := ⟨last, hlast, hstream⟩
      notEnd := hts
      goesOn := by
        have hsame : ts.map (Token.relabel .same) = ts :=
          List.map_id'' (f := Token.relabel .same) (fun _ => rfl) ts
        rw [hstream', hsame, List.map_append, ← List.append_assoc]
        exact s.tokens_stream file _ hlast'
      previousEnd := rfl
      typeNames := rfl
      nextId := rfl
      file := rfl }
  have hend : (s₁.stream (us ++ [last']) file).kind ≠ .eof →
      (s₁.stream (us ++ [last']) file).upcoming ≠ [] := by
    intro hkind hnil
    rw [TokenStream.tokens, hnil] at hstream'
    have hcurrent := congrArg List.getLast? hstream'
    rw [List.getLast?_concat, List.getLast?_singleton] at hcurrent
    exact hkind (by rw [TokenStream.kind, Option.some.inj hcurrent, hlast'])
  obtain ⟨span, w, hw, hnames, hids⟩ :=
    Block.parse_seam hextends hend rfl hparse htypeNames hnextId hparse'
  rw [← Stmt.relabelAll_eq_map] at hw
  exact ⟨_, span, w, hboth, hw, hnames, hids⟩

/-- Programs that pass one after the other pass as one, and leave the same session. -/
theorem Passes.seam {source source' : String} {p q : CheckedProgram}
    (hs : Settled s.resolver s.binder)
    (hlimit : byteLength source.toList + 1 + byteLength source'.toList < Position.limit)
    (hp : s.Passes source file p s₁) (hq : s₁.Passes source' file q s₂) :
    ∃ both, s.Passes (source ++ "\n" ++ source') file both s₂ ∧
      both.statements = p.statements ++
        BoundStmt.relabelAll (shiftPlaces (byteLength source.toList + 1)) q.statements ∧
      p.distances.IsUnion q.distances both.distances ∧
      p.boundTypes.IsUnion q.boundTypes both.boundTypes := by
  have hs₁ := settled_of_passes hs hp
  cases hp with
  | @intro tokens block t r bound b htokens hparse hresolve hbind hcontracts =>
  cases hq with
  | @intro tokens' block' t' r' bound' b' htokens' hparse' hresolve' hbind' hcontracts' =>
  have hids := Block.ids_disjoint hparse hparse' rfl
  obtain ⟨both, span, w, hboth, hw, hnames, hnextId⟩ :=
    parse_seam hlimit htokens hparse rfl rfl htokens' hparse'
  generalize byteLength source.toList + 1 = n at hw ⊢
  obtain ⟨d, hd, hdistances⟩ := hs.resolve_goesOn n hresolve hresolve' hids
  have hunion := hdistances.isUnion fun i hi => hs.distances_none hresolve (hids i hi)
  -- the first program is bound with the distances of both
  obtain ⟨types, hfirst, htypes⟩ := hs.bind_goesOn .same (fun _ => rfl) hparse hresolve hbind
    (fun _ _ => hunion.left) .empty fun _ _ => rfl
  obtain rfl : types = b.boundTypes := htypes.eq
  rw [Stmt.relabelAll_same, BoundStmt.relabelAll_same] at hfirst
  -- the second finds what the first leaves, and the types of the first noted
  have hfresh : ∀ i ∈ Stmt.idsAll block'.body, b.boundTypes.get? i = none :=
    fun i hi => htypes.within i (hids i hi)
  obtain ⟨types', hsecond, htypes'⟩ := hs₁.bind_goesOn (shiftPlaces n) (fun _ => rfl) hparse' hresolve'
    hbind' (fun _ _ => hunion.right) b.boundTypes hfresh
  have hstart := congrArg (fun b' : Binder => { b' with boundTypes := b.boundTypes })
    (hs.start_close hparse hresolve hbind d)
  have hbinds : Stmt.bindAll (block.body ++ Stmt.relabelAll (shiftPlaces n) block'.body)
      (s.binder.start d) = .ok (bound ++ BoundStmt.relabelAll (shiftPlaces n) bound')
        { b' with distances := d, boundTypes := types' } := by
    rw [Stmt.bindAll_append]
    refine (bind_of_ok hfirst).trans ?_
    refine (bind_of_ok ?_).trans rfl
    exact (congrArg _ hstart.symm).trans hsecond
  have hkeeps : checkContracts (bound ++ BoundStmt.relabelAll (shiftPlaces n) bound') = .ok () := by
    have hmirrors := BoundStmt.checkAll_mirrors (shiftPlaces n) bound' none
    rw [show BoundStmt.checkAll none bound' = .ok () from hcontracts'] at hmirrors
    rw [checkContracts, BoundStmt.checkAll_append,
      show BoundStmt.checkAll none bound = .ok () from hcontracts]
    exact hmirrors
  have hpasses := Passes.intro hboth hw hd hbinds hkeeps
  rw [hnames, hnextId] at hpasses
  exact ⟨_, hpasses, rfl, hunion, htypes'.isUnion hfresh⟩

/-- If two sources check one after the other, they check as one source with a newline between them. Its
statements are those of both, with the second ones written behind the first source; its distances and
types are those of both, under the same ids; and the session behind it is the same, with all the names,
values, types, type names and ids. -/
theorem check_seam (hs : s.Reachable) {source source' : String} {p q : CheckedProgram}
    (hlimit : byteLength source.toList + 1 + byteLength source'.toList < Position.limit)
    (hp : s.check source file = (.ok p, s₁)) (hq : s₁.check source' file = (.ok q, s₂)) :
    ∃ both, s.check (source ++ "\n" ++ source') file = (.ok both, s₂) ∧
      both.statements = p.statements ++
        BoundStmt.relabelAll (shiftPlaces (byteLength source.toList + 1)) q.statements ∧
      p.distances.IsUnion q.distances both.distances ∧
      p.boundTypes.IsUnion q.boundTypes both.boundTypes := by
  obtain ⟨both, hpasses, hboth⟩ :=
    Passes.seam hs.settled hlimit (passes_of_check hp) (passes_of_check hq)
  exact ⟨both, check_of_passes hpasses, hboth⟩

/-- The second source starts with a type that the first declares. -/
theorem check_seam_class :
    ∃ p q s₁ s₂ both, (new .record).check "class P \x7b int x = 1; \x7d" "main" = (.ok p, s₁) ∧
      s₁.check "P p = new P(); let y = p.x;" "main" = (.ok q, s₂) ∧
      (new .record).check "class P \x7b int x = 1; \x7d\nP p = new P(); let y = p.x;" "main" =
        (.ok both, s₂) ∧
      both.statements = p.statements ++ BoundStmt.relabelAll (shiftPlaces 23) q.statements := by
  have hok : ((new .record).check "class P \x7b int x = 1; \x7d" "main").1.isOk = true := by
    decide +kernel
  have hok' : (((new .record).check "class P \x7b int x = 1; \x7d" "main").2.check
      "P p = new P(); let y = p.x;" "main").1.isOk = true := by decide +kernel
  obtain ⟨p, s₁, hp⟩ := exists_program hok
  rw [hp] at hok'
  obtain ⟨q, s₂, hq⟩ := exists_program hok'
  obtain ⟨both, hcheck, hstatements, -⟩ := check_seam (.new .record) (by decide) hp hq
  exact ⟨p, q, s₁, s₂, both, hp, hq, hcheck, hstatements⟩

end Session

end ScriptCheck
