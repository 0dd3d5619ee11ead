import ScriptCheck.Proofs.Anchor.Contracts
import ScriptCheck.Proofs.Anchor.Failures
import ScriptCheck.Proofs.Expr.Rendering
import ScriptCheck.Proofs.Parsing.Anchored
import ScriptCheck.Proofs.Relabel.Composed
import ScriptCheck.Proofs.Session.Failing
import ScriptCheck.Proofs.Session.Seam

/-!
Layout does not matter. Two sources with the same kinds and values of tokens are two layouts of one list
of tokens, each of which stands at a place of its own that says which token it is. Checking that list
and then moving everything to where it is written in a source is checking the source. So both sources
give the same program, or they fail for the same cause at tokens of the same index.
-/

namespace ScriptCheck

namespace Session

variable {s : Session} {source file : String} {tokens : List Token}

/-! ### Behind the tokens -/

/-- Takes tokens through the stages behind the lexer. -/
def checkTokens (s : Session) (tokens : List Token) (file : String) : Except Failure CheckedProgram :=
  match Block.parse (s.stream tokens file) with
  | .error e _ => .error e
  | .ok block _ =>
    match Stmt.resolveAll block.body s.resolver.start with
    | .error d _ => .error (.rejected d)
    | .ok _ r =>
      match Stmt.bindAll block.body (s.binder.start r.distances) with
      | .error e _ => .error e
      | .ok statements b =>
        match checkContracts statements with
        | .error d => .error (.rejected d)
        | .ok _ => .ok ⟨statements, r.distances, b.boundTypes⟩

theorem check_of_tokens (htokens : tokenize source file = .ok tokens) :
    (s.check source file).1 = s.checkTokens tokens file := by
  obtain ⟨program, after, hpasses⟩ | ⟨e, n, hfails⟩ := s.passes_or_fails source file
  · rw [check_of_passes hpasses]
    obtain ⟨htokens', hparse, hresolve, hbind, hcontracts⟩ := hpasses
    cases htokens.symm.trans htokens'
    simp only [checkTokens, hparse, hresolve, hbind, hcontracts]
  · obtain ⟨after, hcheck, -⟩ := check_of_fails hfails
    rw [hcheck]
    cases hfails with
    | unread htokens' => cases htokens.symm.trans htokens'
    | unparsed htokens' hparse =>
      cases htokens.symm.trans htokens'
      simp only [checkTokens, hparse]
    | unresolved htokens' hparse hresolve =>
      cases htokens.symm.trans htokens'
      simp only [checkTokens, hparse, hresolve]
    | unbound htokens' hparse hresolve hbind =>
      cases htokens.symm.trans htokens'
      simp only [checkTokens, hparse, hresolve, hbind]
    | broken htokens' hparse hresolve hbind hcontracts =>
      cases htokens.symm.trans htokens'
      simp only [checkTokens, hparse, hresolve, hbind, hcontracts]

end Session

/-! ### Other places -/

section Moved

variable {f : Relabeling} (hid : ∀ i, f.id i = i)

include hid

theorem Table.relabel_of_sameIds {α : Type} (t : Table Nat α) : t.relabel f = t := by
  simp only [Table.relabel, hid, List.map_id']

/-- Two runs of resolution with the same ids. -/
def Paths.moved : Paths := ⟨f, fun t t' => t' = t, fun _ => True, fun _ _ i a h _ => by rw [h, hid i]⟩

/-- Two runs of binding with the same ids. -/
def Sides.moved (known : Table Nat Nat) : Sides where
  labels := f
  known
  known' := known
  tables := fun t t' => t' = t
  fresh := fun _ => True
  drops := fun _ => False
  follows := fun _ _ i a h _ => by rw [h, hid i]
  leads := fun {i _} h => .inl (by rw [hid i, h])

end Moved

namespace Session

variable {s : Session} {file : String} {tokens : List Token} {f : Relabeling}

theorem stream_relabel (hid : ∀ i, f.id i = i) (hstart : f.place ⟨0, file⟩ = ⟨0, file⟩) :
    s.stream (tokens.map (Token.relabel f)) file = (s.stream tokens file).relabel f := by
  have hend : Token.relabel f (.endOf ⟨⟨0, file⟩, ⟨0, file⟩⟩) = .endOf ⟨⟨0, file⟩, ⟨0, file⟩⟩ := by
    simp only [Token.relabel, Token.endOf, Span.relabel, hstart]
  have hclosed (ts : List Token) :
      (if (ts.map (Token.relabel f)).getLast?.map Token.kind = some .eof then
          ts.map (Token.relabel f)
        else ts.map (Token.relabel f) ++ [.endOf ⟨⟨0, file⟩, ⟨0, file⟩⟩]) =
      (if ts.getLast?.map Token.kind = some .eof then ts
        else ts ++ [.endOf ⟨⟨0, file⟩, ⟨0, file⟩⟩]).map (Token.relabel f) := by
    rw [List.getLast?_map, Option.map_map, show Token.kind ∘ Token.relabel f = Token.kind from rfl]
    split
    · rfl
    · rw [List.map_append, List.map_singleton, hend]
  simp only [stream, TokenStream.ofTokens, TokenStream.relabel, hclosed, hid, hstart, List.map_tail]
  generalize (if tokens.getLast?.map Token.kind = some .eof then tokens
    else tokens ++ [.endOf ⟨⟨0, file⟩, ⟨0, file⟩⟩]) = closed
  cases closed with
  | nil => simp only [List.map_nil, List.headD_nil, hend]
  | cons t ts => rfl

theorem parse_moved (s : Session) (tokens : List Token) (hid : ∀ i, f.id i = i)
    (hstart : f.place ⟨0, file⟩ = ⟨0, file⟩) :
    Block.parse (s.stream (tokens.map (Token.relabel f)) file) =
      relabelOutcome f (Block.relabel f) (Block.parse (s.stream tokens file)) := by
  have hlockstep := Block.parseFrom_lockstep (c := ⟨f, True, True⟩) trivial ⟨0, file⟩
  have hrelabeled := hlockstep.relabeled (fun i => by simp only [hid]) trivial (s.stream tokens file)
  simp only [hstart] at hrelabeled
  rw [stream_relabel hid hstart]
  exact hrelabeled

theorem resolve_moved (hid : ∀ i, f.id i = i) (block : Block) :
    Agree f.blame (Paths.moved hid).Related (fun u => u) (fun _ => True)
      (Stmt.resolveAll block.body s.resolver.start)
      (Stmt.resolveAll (block.relabel f).body s.resolver.start) := by
  have hcouples : (Paths.moved hid).Resolves _ _ :=
    Stmt.resolveAll_couples block.body fun _ _ => trivial
  have hsame : (Paths.moved hid).Related s.resolver.start s.resolver.start := ⟨rfl, rfl⟩
  rw [Stmt.relabelAll_eq_map] at hcouples
  exact hcouples hsame

theorem bind_moved (hs : Settled s.resolver s.binder) (hid : ∀ i, f.id i = i) {block : Block}
    {stream : TokenStream} {r : Resolver}
    (hparse : Block.parse (s.stream tokens file) = .ok block stream)
    (hresolve : Stmt.resolveAll block.body s.resolver.start = .ok () r) :
    Agree f.failureBlame ((Sides.moved hid r.distances).Along r.scopes r.classDepth)
      (BoundStmt.relabelAll f) (BoundStmt.AllCarry (Sides.moved hid r.distances).belongs)
      (Stmt.bindAll block.body (s.binder.start r.distances))
      (Stmt.bindAll (block.relabel f).body (s.binder.start r.distances)) := by
  have hcovers := Block.covers_of_parse hparse (c := .moved hid r.distances) (fun _ _ => trivial) rfl
  have hagree := hs.binds hresolve hcovers rfl rfl rfl
  rw [Stmt.relabelAll_eq_map] at hagree
  exact hagree

/-- What checking has found out, or why it failed, at other places. -/
def relabelResult (f : Relabeling) : Except Failure CheckedProgram → Except Failure CheckedProgram
  | .ok program => .ok (program.relabel f)
  | .error e => .error (e.relabel f)

/-- Tokens at other places give the same program at other places, or the same failure. -/
theorem checkTokens_relabel (hs : Settled s.resolver s.binder) (hid : ∀ i, f.id i = i)
    (hstart : f.place ⟨0, file⟩ = ⟨0, file⟩) (tokens : List Token) :
    s.checkTokens (tokens.map (Token.relabel f)) file =
      relabelResult f (s.checkTokens tokens file) := by
  have hparse' := parse_moved s tokens hid hstart
  cases hparse : Block.parse (s.stream tokens file) with
  | error e t =>
    rw [hparse, relabelOutcome] at hparse'
    simp only [checkTokens, hparse, hparse', relabelResult]
  | ok block t =>
    rw [hparse, relabelOutcome] at hparse'
    cases hresolve : Stmt.resolveAll block.body s.resolver.start with
    | error d r =>
      obtain ⟨-, hnever | ⟨r', hresolve'⟩⟩ := (resolve_moved hid block).of_error hresolve
      · exact hnever.elim
      · simp only [checkTokens, hparse, hparse', hresolve, hresolve', relabelResult]
        rfl
    | ok _ r =>
      obtain ⟨r', hresolve', hr, -⟩ := (resolve_moved hid block).of_ok hresolve
      have hdistances : r'.distances = r.distances := hr.distances
      cases hbind : Stmt.bindAll block.body (s.binder.start r.distances) with
      | error e b =>
        obtain ⟨-, hnever | ⟨b', hbind'⟩⟩ := (bind_moved hs hid hparse hresolve).of_error hbind
        · exact hnever.elim
        · simp only [checkTokens, hparse, hparse', hresolve, hresolve', hdistances, hbind, hbind',
            relabelResult]
          rfl
      | ok statements b =>
        obtain ⟨b', hbind', hb, -⟩ := (bind_moved hs hid hparse hresolve).of_ok hbind
        have htypes : b'.boundTypes = b.boundTypes := hb.boundTypes
        have hmirrors := BoundStmt.checkAll_mirrors f statements none
        simp only [checkTokens, hparse, hparse', hresolve, hresolve', hdistances, hbind, hbind',
          checkContracts]
        cases hcontracts : BoundStmt.checkAll none statements with
        | error d =>
          rw [hcontracts] at hmirrors
          rw [hmirrors.2]
          rfl
        | ok _ =>
          rw [hcontracts] at hmirrors
          rw [show BoundStmt.checkAll none _ = .ok () from hmirrors, relabelResult,
            CheckedProgram.relabel, Table.relabel_of_sameIds hid, Table.relabel_of_sameIds hid, htypes]

/-! ### Where failures point -/

/-- Binding does not come to an end on the source. -/
def BindingHangs (s : Session) (source file : String) : Prop :=
  ∃ tokens block stream r b, tokenize source file = .ok tokens ∧
    Block.parse (s.stream tokens file) = .ok block stream ∧
    Stmt.resolveAll block.body s.resolver.start = .ok () r ∧
    Stmt.bindAll block.body (s.binder.start r.distances) = .error .stuck b

/-- Tokens that fail do so where one of them starts, or binding does not come to an end. -/
theorem checkTokens_error {ts : List Token} {last : Token} (hlast : last.kind = .eof) {e : Failure}
    (h : s.checkTokens (ts ++ [last]) file = .error e) :
    (∃ d, e = .rejected d ∧ ∃ t ∈ ts ++ [last], d.position = t.span.start) ∨
      e = .stuck ∧ ∃ block stream r b, Block.parse (s.stream (ts ++ [last]) file) = .ok block stream ∧
        Stmt.resolveAll block.body s.resolver.start = .ok () r ∧
        Stmt.bindAll block.body (s.binder.start r.distances) = .error .stuck b := by
  let P : Position → Prop := fun p => ∃ t ∈ ts ++ [last], p = t.span.start
  have hstands : (s.stream (ts ++ [last]) file).Stands P := by
    refine ⟨?_, ?_⟩ <;> rw [tokens_stream s file ts hlast]
    · rw [List.getLast?_concat]
      rintro t ⟨⟩
      exact hlast
    · exact fun t ht => ⟨t, ht, rfl⟩
  have hread := Block.parse_getsOn (K := fun _ => True) hstands trivial (Nat.lt_succ_self _)
  unfold checkTokens at h
  split at h
  next e' t hparse =>
    rw [hparse] at hread
    cases h
    exact .inl hread
  next block t hparse =>
    rw [hparse] at hread
    have hbody : Stmt.AllAnchored P block.body := hread.1
    split at h
    next d r hresolve =>
      cases h
      exact .inl ⟨d, rfl, (Stmt.resolveAll_at block.body hbody _).2 d r hresolve⟩
    next r hresolve =>
      split at h
      next e' b hbind =>
        cases h
        have hpoints := (Stmt.bindAll_at block.body hbody _).2 e b hbind
        cases e with
        | rejected d => exact .inl ⟨d, rfl, hpoints⟩
        | stuck => exact .inr ⟨rfl, block, t, r, b, hparse, hresolve, hbind⟩
      next statements b hbind =>
        split at h
        next d hcontracts =>
          cases h
          exact .inl ⟨d, rfl,
            checkContracts_at ((Stmt.bindAll_at block.body hbody _).1 statements b hbind) hcontracts⟩
        next => cases h

end Session

/-! ### Layouts -/

/-- The tokens of lexemes, each at a place of its own. -/
def numbered (file : String) (ls : List Lexeme) : List Token :=
  ls.mapIdx fun i l => ⟨l.1, l.2, ⟨⟨2 * i + 1, file⟩, ⟨2 * i + 2, file⟩⟩⟩

/-- Moves numbered tokens to where given tokens stand. -/
def layout (file : String) (ts : List Token) : Relabeling where
  place
    | ⟨0, _⟩ => ⟨0, file⟩
    | ⟨n + 1, _⟩ =>
      match ts[n / 2]? with
      | some t => if n % 2 = 0 then t.span.start else t.span.stop
      | none => .nowhere
  id := fun i => i

section

variable {file : String} {ts : List Token} {i : Nat} {t : Token}

theorem layout_start (file : String) (h : ts[i]? = some t) :
    (layout file ts).place ⟨2 * i + 1, file⟩ = t.span.start := by
  simp [layout, h]

theorem layout_stop (file : String) (h : ts[i]? = some t) :
    (layout file ts).place ⟨2 * i + 2, file⟩ = t.span.stop := by
  have hhalf : (2 * i + 1) / 2 = i := by omega
  have hodd : (2 * i + 1) % 2 ≠ 0 := by omega
  simp only [layout, hhalf, h, if_neg hodd]

/-- Any tokens are a layout of numbered ones. -/
theorem numbered_layout (file : String) (ts : List Token) :
    (numbered file (ts.map Token.lexeme)).map (Token.relabel (layout file ts)) = ts := by
  refine List.ext_getElem? fun i => ?_
  simp only [numbered, List.getElem?_map, List.getElem?_mapIdx]
  cases h : ts[i]? with
  | none => rfl
  | some t =>
    simp only [Option.map_some, Token.relabel, Token.lexeme, Span.relabel,
      layout_start file h, layout_stop file h]

theorem start_of_mem_numbered {ls : List Lexeme} (h : t ∈ numbered file ls) :
    ∃ i, i < ls.length ∧ t.span.start = ⟨2 * i + 1, file⟩ := by
  obtain ⟨i, hi, rfl⟩ := List.mem_mapIdx.1 h
  exact ⟨i, hi, rfl⟩

end

/-- Every place is forgotten. -/
def Relabeling.unplaced : Relabeling := ⟨fun _ => .nowhere, fun i => i⟩

theorem BoundStmt.unplaced_layout (file : String) (ts : List Token) (ss : List BoundStmt) :
    relabelAll .unplaced (relabelAll (layout file ts) ss) = relabelAll .unplaced ss :=
  relabelAll_relabelAll .unplaced (layout file ts) ss

namespace Session

variable {s : Session} {a b source file : String} {ts us : List Token}

/-- A source is checked by checking its numbered tokens. -/
theorem check_numbered (hs : Settled s.resolver s.binder) (h : tokenize source file = .ok ts) :
    (s.check source file).1 = relabelResult (layout file ts)
      (s.checkTokens (numbered file (ts.map Token.lexeme)) file) := by
  rw [check_of_tokens h, ← checkTokens_relabel hs (fun _ => rfl) rfl, numbered_layout]

theorem BindingHangs.check (h : s.BindingHangs source file) :
    (s.check source file).1 = .error .stuck := by
  obtain ⟨tokens, block, stream, r, b, htokens, hparse, hresolve, hbind⟩ := h
  obtain ⟨after, hcheck, -⟩ := check_of_fails (.unbound htokens hparse hresolve hbind)
  rw [hcheck]

/-- Numbered tokens that are rejected point at one of them. -/
theorem rejected_numbered (htokens : tokenize source file = .ok ts) {d : Diagnostic}
    (h : s.checkTokens (numbered file (ts.map Token.lexeme)) file = .error (.rejected d)) :
    ∃ i, i < ts.length ∧ d.position = ⟨2 * i + 1, file⟩ := by
  obtain ⟨us, last, rfl, hlast, -⟩ := tokenize_closed htokens
  rw [List.map_append, List.map_singleton, numbered, List.mapIdx_concat] at h
  obtain ⟨d', hd, t, ht, hposition⟩ | ⟨hnever, -⟩ := checkTokens_error (by exact hlast) h
  · cases hd
    rw [← List.mapIdx_concat, ← List.map_singleton, ← List.map_append] at ht
    obtain ⟨i, hi, hstart⟩ := start_of_mem_numbered ht
    exact ⟨i, by rwa [List.length_map] at hi, hposition.trans hstart⟩
  · cases hnever

theorem bindingHangs_of_stuck (htokens : tokenize source file = .ok ts)
    (h : (s.check source file).1 = .error .stuck) : s.BindingHangs source file := by
  obtain ⟨us, last, rfl, hlast, -⟩ := tokenize_closed htokens
  rw [check_of_tokens htokens] at h
  obtain ⟨d, hd, -⟩ | ⟨-, block, stream, r, b, hparse, hresolve, hbind⟩ := checkTokens_error hlast h
  · cases hd
  · exact ⟨_, block, stream, r, b, htokens, hparse, hresolve, hbind⟩

end Session

open Session

/-- Two sources whose tokens have the same kinds and values check alike. Both check, with the same
distances and types and with statements that differ in places only; or both fail, for the same cause and
each where its token of the same index starts; or binding does not come to an end on either. -/
theorem checkSource_layout {a b file : String} {ts us : List Token}
    (ha : tokenize a file = .ok ts) (hb : tokenize b file = .ok us)
    (hlexemes : ts.map Token.lexeme = us.map Token.lexeme) :
    (∃ p q, checkSource a file = .ok p ∧ checkSource b file = .ok q ∧
      BoundStmt.relabelAll .unplaced p.statements = BoundStmt.relabelAll .unplaced q.statements ∧
      p.distances = q.distances ∧ p.boundTypes = q.boundTypes) ∨
    (∃ (cause : Cause) (i : Nat) (t u : Token), ts[i]? = some t ∧ us[i]? = some u ∧
      checkSource a file = .error (.of cause t.span.start) ∧
      checkSource b file = .error (.of cause u.span.start)) ∨
    ((new .record).BindingHangs a file ∧ (new .record).BindingHangs b file) := by
  have hs := settled_new .record
  have hcheck : checkSource a file = relabelResult (layout file ts) _ := check_numbered hs ha
  have hcheck' : checkSource b file = relabelResult (layout file us) _ := check_numbered hs hb
  rw [← hlexemes] at hcheck'
  cases hrun : (new .record).checkTokens (numbered file (ts.map Token.lexeme)) file with
  | ok p =>
    rw [hrun] at hcheck hcheck'
    refine .inl ⟨_, _, hcheck, hcheck', ?_, ?_, ?_⟩
    · simp only [CheckedProgram.relabel, BoundStmt.unplaced_layout]
    · simp only [CheckedProgram.relabel, Table.relabel_of_sameIds (f := layout file _) fun _ => rfl]
    · simp only [CheckedProgram.relabel, Table.relabel_of_sameIds (f := layout file _) fun _ => rfl]
  | error e =>
    rw [hrun] at hcheck hcheck'
    refine .inr ?_
    cases e with
    | stuck => exact .inr ⟨bindingHangs_of_stuck ha hcheck, bindingHangs_of_stuck hb hcheck'⟩
    | rejected d =>
      obtain ⟨i, hi, hposition⟩ := rejected_numbered ha hrun
      have hlength : ts.length = us.length := by
        simpa only [List.length_map] using congrArg List.length hlexemes
      have ht : ts[i]? = some ts[i] := List.getElem?_eq_getElem hi
      have hu : us[i]? = some us[i] := List.getElem?_eq_getElem (hlength ▸ hi)
      refine .inl ⟨d.cause, i, ts[i], us[i], ht, hu, ?_, ?_⟩
      · rw [hcheck, ← layout_start file ht, ← hposition]
        rfl
      · rw [hcheck', ← layout_start file hu, ← hposition]
        rfl

/-- A program in one line and in several, with a comment. -/
theorem checkSource_layout_lines :
    ∃ p q, checkSource "fn f(int a) \x7b return a + 1; \x7d let b = f(2);" "main" = .ok p ∧
      checkSource "fn f(int a) \x7b\n  return a+1; // one more\n\x7d\nlet b = f(2);" "main" = .ok q ∧
      BoundStmt.relabelAll .unplaced p.statements = BoundStmt.relabelAll .unplaced q.statements ∧
      p.distances = q.distances ∧ p.boundTypes = q.boundTypes := by
  have hok : (checkSource "fn f(int a) \x7b return a + 1; \x7d let b = f(2);" "main").isOk = true := by
    decide +kernel
  have hlexemes : (match tokenize "fn f(int a) \x7b return a + 1; \x7d let b = f(2);" "main",
      tokenize "fn f(int a) \x7b\n  return a+1; // one more\n\x7d\nlet b = f(2);" "main" with
    | .ok ts, .ok us => decide (ts.map Token.lexeme = us.map Token.lexeme)
    | _, _ => false) = true := by decide +kernel
  split at hlexemes
  next ts us ha hb =>
    obtain hboth | ⟨cause, i, t, u, -, -, hfails, -⟩ | ⟨hhangs, -⟩ :=
      checkSource_layout ha hb (of_decide_eq_true hlexemes)
    · exact hboth
    · rw [hfails] at hok
      cases hok
    · rw [show checkSource _ _ = .error .stuck from hhangs.check] at hok
      cases hok
  next => cases hlexemes

end ScriptCheck
