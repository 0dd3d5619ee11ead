import ScriptCheck.Proofs.Binding.Statements
import ScriptCheck.Proofs.Parsing.FreshIds
import ScriptCheck.Proofs.Session.Outcome

/-!
Sessions between two checks. Only global scopes are open, no distance is left over, and the global values
are those that resolution knows. A new session is like that, and a check leaves the session like that
whether its program passes or fails.
-/

namespace ScriptCheck

open Sides

/-- A run of binding beside one that knows some of its distances only. -/
def Sides.forgetting (known known' : Table Nat Nat)
    (h : ∀ i d, known'.get? i = some d → known.get? i = some d) : Sides where
  labels := .same
  known
  known'
  tables := fun _ _ => True
  fresh := fun _ => True
  drops := (· = .stuck)
  follows := fun _ _ _ _ _ _ => trivial
  leads := fun {i d} hknown => by
    cases hknown' : known'.get? i with
    | none => exact .inr ⟨hknown', rfl⟩
    | some d' =>
      have hd := h i d' hknown'
      rw [hknown] at hd
      exact .inl (hknown'.trans hd.symm)

/-- A program that was read may be bound with the distances of its reads. -/
theorem Block.covers_of_parse {s t : TokenStream} {block : Block} (h : Block.parse s = .ok block t)
    {c : Sides} {found : Table Nat Nat} (hfresh : ∀ i ∈ Stmt.idsAll block.body, c.fresh i)
    (hknown : c.known = found) :
    c.Covers found (Stmt.idsAll block.body) (Stmt.readsAll block.body) := by
  obtain ⟨-, hperm⟩ := Block.parse_draws h
  have hnodup : (Stmt.idsAll block.body).Nodup := hperm.nodup_iff.2 List.nodup_range'
  exact ⟨hfresh, (Stmt.readsAll_sublist block.body).nodup hnodup, fun i _ => by rw [hknown]⟩

/-- Nothing is open and nothing left over, and the global values fit the global names. -/
structure Settled (r : Resolver) (b : Binder) : Prop where
  opened : r.scopes.opened = []
  distances : r.distances = .empty
  fits : ScopesFit r.scopes b.scopes
  typeDepth : b.types.scopes.depth = r.scopes.depth

namespace Settled

variable {r r' : Resolver} {b b' : Binder}

/-- Two runs of binding start alike, and so they go along with the resolution of the program. -/
theorem binds (h : Settled r b) {c : Sides} {body : List Stmt}
    (hresolve : Stmt.resolveAll body r.start = .ok () r')
    (hcovers : c.Covers r'.distances (Stmt.idsAll body) (Stmt.readsAll body))
    (hscopes : b'.scopes = b.scopes) (htypes : b'.types = b.types)
    (htables : c.tables .empty .empty) :
    Agree c.blame (c.Along r'.scopes r'.classDepth) (BoundStmt.relabelAll c.labels)
      (BoundStmt.AllCarry c.belongs) (Stmt.bindAll body (b.start c.known))
      (Stmt.bindAll (Stmt.relabelAll c.labels body) (b'.start c.known')) :=
  Stmt.bindAll_tracks body hresolve hcovers
    { scopes := hscopes
      types := htypes
      classes := rfl
      boundTypes := htables
      distances := rfl
      distances' := rfl
      fits := h.fits
      typeDepth := h.typeDepth
      classDepth := rfl }

/-- A run of binding goes along with the resolution of its program. -/
theorem bindsAlone (h : Settled r b) {t t' : TokenStream} {block : Block}
    (hparse : Block.parse t = .ok block t')
    (hresolve : Stmt.resolveAll block.body r.start = .ok () r') :
    let c : Sides := .forgetting r'.distances r'.distances fun _ _ h => h
    Agree c.blame (c.Along r'.scopes r'.classDepth) (BoundStmt.relabelAll c.labels)
      (BoundStmt.AllCarry c.belongs) (Stmt.bindAll block.body (b.start r'.distances))
      (Stmt.bindAll (Stmt.relabelAll c.labels block.body) (b.start r'.distances)) :=
  h.binds hresolve (Block.covers_of_parse hparse (fun _ _ => trivial) rfl) rfl rfl trivial

/-- Behind a program only the global scope of names is open. -/
theorem resolved (h : Settled r b) {body : List Stmt}
    (hresolve : Stmt.resolveAll body r.start = .ok () r') : r'.scopes.opened = [] := by
  have houter : r'.scopes.scopes.tail = r.scopes.scopes.tail :=
    (Stmt.resolveAll_keeps body hresolve).outer
  have hlength := congrArg List.length houter
  simp only [ScopeStack.scopes, h.opened, List.length_tail, List.length_append, List.length_cons,
    List.length_nil] at hlength
  exact List.eq_nil_of_length_eq_zero (by omega)

end Settled

/-- Where only the global scope is open, closing changes no scope. -/
theorem ScopeStack.truncate_of_depth {α : Type} {s : ScopeStack α} (h : s.depth = 1) :
    s.truncate = s := by
  have hopened : s.opened = [] := List.eq_nil_of_length_eq_zero (Nat.succ.inj h)
  rw [truncate, ← hopened]

theorem ScopesFit.depth_eq {names : ScopeStack Bool} {values : ScopeStack Variable}
    (h : ScopesFit names values) : values.depth = names.depth := by
  have hlength := h.length_eq
  rw [ScopeStack.length_scopes, ScopeStack.length_scopes] at hlength
  exact hlength.symm

namespace Sides.Along

variable {c : Sides} {r : Resolver} {b b' : Binder}

/-- Closing changes no scope behind a program. -/
theorem close_eq (h : c.Along r.scopes r.classDepth b b') (hopened : r.scopes.opened = []) :
    r.close.scopes = r.scopes ∧ b.close.scopes = b.scopes ∧ b.close.types = b.types := by
  have hdepth : r.scopes.depth = 1 := by rw [ScopeStack.depth, hopened]; rfl
  have htypes : b.types.scopes.truncate = b.types.scopes :=
    ScopeStack.truncate_of_depth (h.typeDepth.trans hdepth)
  exact ⟨ScopeStack.truncate_of_depth hdepth,
    ScopeStack.truncate_of_depth (h.fits.depth_eq.trans hdepth), congrArg Registry.mk htypes⟩

/-- Behind a program all is settled. -/
theorem settled (h : c.Along r.scopes r.classDepth b b') (hopened : r.scopes.opened = []) :
    Settled r.close b.close := by
  obtain ⟨hr, hb, ht⟩ := h.close_eq hopened
  refine ⟨rfl, rfl, ?_, ?_⟩
  · rw [hr, hb]
    exact h.fits
  · rw [hr, ht]
    exact h.typeDepth

end Sides.Along

namespace Session

variable {s after : Session} {source file : String}

/-- A program that passes leaves the session settled. -/
theorem settled_of_passes {program : CheckedProgram} (hs : Settled s.resolver s.binder)
    (h : s.Passes source file program after) : Settled after.resolver after.binder := by
  obtain ⟨htokens, hparse, hresolve, hbind, hcontracts⟩ := h
  rename_i tokens block stream r statements b
  obtain ⟨b', -, halong, -⟩ := (hs.bindsAlone hparse hresolve).of_ok hbind
  have hsettled := halong.settled (hs.resolved hresolve)
  exact ⟨hsettled.opened, hsettled.distances, hsettled.fits, hsettled.typeDepth⟩

/-- Behind a program that fails, the scopes are those from before it. -/
theorem Restored.scopes_eq {n : Nat} (h : s.Restored n after) (hs : Settled s.resolver s.binder) :
    after.resolver.scopes = s.resolver.scopes ∧ after.binder.scopes = s.binder.scopes := by
  have hdepth : s.resolver.scopes.depth = 1 := by rw [ScopeStack.depth, hs.opened]; rfl
  exact ⟨h.names.trans (ScopeStack.truncate_of_depth hdepth),
    h.values.trans (ScopeStack.truncate_of_depth (hs.fits.depth_eq.trans hdepth))⟩

/-- A program that fails leaves the session settled. -/
theorem settled_of_restored {n : Nat} (hs : Settled s.resolver s.binder)
    (h : s.Restored n after) : Settled after.resolver after.binder := by
  obtain ⟨hnames, hvalues⟩ := h.scopes_eq hs
  refine ⟨?_, ?_, ?_, ?_⟩
  · rw [hnames]
    exact hs.opened
  · exact h.distances.elim (fun heq => heq) fun heq => heq.trans hs.distances
  · rw [hnames, hvalues]
    exact hs.fits
  · rw [hnames, h.types]
    exact hs.typeDepth

/-- A check leaves the session settled. -/
theorem settled_check (hs : Settled s.resolver s.binder) (source file : String) :
    Settled (s.check source file).2.resolver (s.check source file).2.binder := by
  cases hcheck : s.check source file with
  | mk result after =>
    cases result with
    | ok program => exact settled_of_passes hs (passes_of_check hcheck)
    | error e =>
      obtain ⟨n, -, hrestored⟩ := fails_of_check hcheck
      exact settled_of_restored hs hrestored

/-- The sessions that there can be: a new one, and those that are left by a check or by taking the
recorded diagnostics. -/
inductive Reachable : Session → Prop
  | new (mode : ErrorMode) : Reachable (.new mode)
  | check {s : Session} (h : Reachable s) (source file : String) :
      Reachable (s.check source file).2
  | takeErrors {s : Session} (h : Reachable s) : Reachable s.takeErrors.2

/-- Global names with values may be added. -/
theorem settled_foldl : ∀ (is : List (String × Ty)) {r : Resolver} {b : Binder}, Settled r b →
    Settled (is.foldl (fun r i => r.defineGlobal i.1) r)
      (is.foldl (fun b i => b.defineConst i.1 i.2) b)
  | [], _, _, h => h
  | i :: is, r, b, h => by
    have hglobal : r.scopes.insertGlobal i.1 true = r.scopes.insert i.1 true := by
      simp only [ScopeStack.insert, ScopeStack.insertGlobal, h.opened]
    refine settled_foldl is ⟨h.opened, h.distances, ?_, h.typeDepth⟩
    show ScopesFit (r.scopes.insertGlobal i.1 true) (b.scopes.insert i.1 _)
    rw [hglobal]
    exact h.fits.define i.1 _

/-- The intrinsic names are known to resolution and have values. -/
theorem settled_new (mode : ErrorMode) : Settled (new mode).resolver (new mode).binder :=
  settled_foldl Intrinsic.all ⟨rfl, rfl, .cons .empty .nil, by decide⟩

theorem Reachable.settled (h : s.Reachable) : Settled s.resolver s.binder := by
  induction h with
  | new mode => exact settled_new mode
  | check _ source file ih => exact settled_check ih source file
  | takeErrors _ ih => exact ih

end Session

end ScriptCheck
