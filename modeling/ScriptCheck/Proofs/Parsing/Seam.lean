import ScriptCheck.Proofs.Parsing.Extension
import ScriptCheck.Proofs.Parsing.FirstToken
import ScriptCheck.Proofs.Parsing.Relabeled
import ScriptCheck.Proofs.Relabel.Same

/-!
Programs one behind the other. The tokens of a program whose end is replaced by the tokens of another are
read as one program: the statements of the first, and behind them those of the second where they are
written now. What begins a statement cannot go on with the statement before it, and what is asked about
the token read last is asked only behind the first token of the second program.
-/

namespace ScriptCheck

open Parse

variable {s s' t t' u : TokenStream} {n index : Nat}

/-- What starts a statement does not go on with a program before it. -/
theorem Stmt.startsProgram_of_parse {a : Stmt} (h : Stmt.parse s = .ok a t) :
    StartsProgram s.kind := by
  have hfails {k : TokenKind} (hk : k = .closeBracket ∨ k = .assignment ∨ k = .kwElse) :
      s.kind ≠ k := by
    intro hs
    have hplain : Stmt.parse s = parsePlain s := by
      rw [Stmt.parse, bind_of_ok (remaining_run s), parseWithin, parseStep, bind_of_ok (kind_run s), hs]
      rcases hk with rfl | rfl | rfl <;> rfl
    have hdeclares : startsDeclaration s = false := by
      unfold startsDeclaration
      rw [hs]
      rcases hk with rfl | rfl | rfl <;> rfl
    have hprimary (self : Power → Parse Expr) :
        Expr.parsePrimary self s = .error s.unexpectedToken s := by
      rw [Expr.parsePrimary, bind_of_ok (kind_run s), hs]
      rcases hk with rfl | rfl | rfl <;> rfl
    have hexpr : Expr.parse .lowest s = .error s.unexpectedToken s := by
      rw [Expr.parse, bind_of_ok (remaining_run s), Expr.parseWithin, Expr.parseStep,
        bind_of_error (hprimary _)]
    rw [hplain, parsePlain_run, hdeclares, if_neg Bool.false_ne_true, parseExpr,
      bind_of_error hexpr] at h
    cases h
  exact ⟨hfails (.inl rfl), hfails (.inr (.inl rfl)), hfails (.inr (.inr rfl))⟩

/-- So does what starts a program. -/
theorem Stmt.startsProgram_of_items {body : List Stmt}
    (h : itemsUntil .eof (fun _ => Stmt.parse) n index s = .ok body t) : StartsProgram s.kind := by
  rcases itemsUntil_cases h with ⟨hk, -⟩ | ⟨k, a, u, bs, -, -, -, ha, -⟩
  · rw [hk]
    exact ⟨nofun, nofun, nofun⟩
  · exact Stmt.startsProgram_of_parse ha

/-- Statements are read in the same way wherever the token before them ended. -/
theorem Stmt.items_fromFirstToken {body : List Stmt} (hs : s.kind ≠ .eof → s.upcoming ≠ [])
    (p : Position) (h : itemsUntil .eof (fun _ => Stmt.parse) n index s = .ok body t) :
    ∃ u, itemsUntil .eof (fun _ => Stmt.parse) n index { s with previousEnd := p } = .ok body u ∧
      u.typeNames = t.typeNames ∧ u.nextId = t.nextId := by
  rcases itemsUntil_cases h with ⟨hk, rfl, rfl, hn⟩ | ⟨k, a, u, bs, rfl, rfl, hk, ha, hrest⟩
  · obtain ⟨k, rfl⟩ : ∃ k, n = k + 1 := ⟨n - 1, by omega⟩
    exact ⟨{ t with previousEnd := p }, itemsUntil_close hk, rfl, rfl⟩
  · have ha' := Stmt.parse_fromFirstToken p (hs hk) ha
    exact ⟨t, itemsUntil_item hk ha' hrest, rfl, rfl⟩

/-- Statements are read in the same way where everything is written later. -/
theorem Stmt.items_shifted {body : List Stmt} (k : Nat)
    (h : manyUntil .eof (fun _ => Stmt.parse) s = .ok body t) :
    manyUntil .eof (fun _ => Stmt.parse) (s.relabel (.shiftPlaces k)) =
      .ok (body.map (Stmt.relabel (.shiftPlaces k))) (t.relabel (.shiftPlaces k)) := by
  have hsteps : Lockstep ⟨.shiftPlaces k, True, True⟩ .part (List.map (Stmt.relabel (.shiftPlaces k)))
      (manyUntil .eof fun _ => Stmt.parse) (manyUntil .eof fun _ => Stmt.parse) :=
    .manyUntil fun _ => (Stmt.parse_lockstep trivial).part
  rw [hsteps.relabeled (fun _ => rfl) trivial s, h]
  rfl

namespace Block

theorem parse_ok {block : Block} (h : Block.parse s = .ok block t) :
    manyUntil .eof (fun _ => Stmt.parse) s = .ok block.body t := by
  have hfrom : parseFrom ⟨0, s.file⟩ s = .ok block t := h
  obtain ⟨body, u, hbody, hspan⟩ := ok_of_bind hfrom
  cases hspan
  exact hbody

theorem parse_run {body : List Stmt} (h : manyUntil .eof (fun _ => Stmt.parse) s = .ok body t) :
    Block.parse s = .ok ⟨body, t.spanFrom ⟨0, s.file⟩⟩ t := bind_of_ok h

/-- If the tokens of another program stand in place of the end, where they are written later, the
statements of both are read. The second program has to know the type names and to draw the ids that
the first leaves. -/
theorem parse_seam {k : Nat} {vs : List Token} {a b : Block}
    (hs : Extends .same (t.tokens.map (Token.relabel (.shiftPlaces k))) vs s s')
    (hend : t.kind ≠ .eof → t.upcoming ≠ []) (hfile : t.file = s.file)
    (ha : Block.parse s = .ok a u) (htypeNames : t.typeNames = u.typeNames)
    (hnextId : t.nextId = u.nextId) (hb : Block.parse t = .ok b t') :
    ∃ span w,
      Block.parse s' = .ok ⟨a.body ++ b.body.map (Stmt.relabel (.shiftPlaces k)), span⟩ w ∧
        w.typeNames = t'.typeNames ∧ w.nextId = t'.nextId := by
  have hitems := parse_ok ha
  have hlater := Stmt.items_shifted k (parse_ok hb)
  have hnext := Stmt.startsProgram_of_items hlater
  obtain ⟨v, hv, hmore⟩ := Stmt.itemsUntil_extended (fun _ => rfl) hnext hs hitems
  have hfile' : u.file = s.file := by
    have houtcome := parse_outcome s
    rw [ha] at houtcome
    exact houtcome.2.1
  -- the first program leaves the stream at the start of the second, but behind another token
  have hstart : v = { t.relabel (.shiftPlaces k) with previousEnd := v.previousEnd } := by
    obtain ⟨hcurrent, hupcoming⟩ := List.cons.inj hv.goesOn
    have hnames := hv.typeNames.trans htypeNames.symm
    have hid : v.nextId = t.nextId := hv.nextId.trans hnextId.symm
    have hvfile : v.file = t.file := (hv.file.trans hfile').trans hfile.symm
    obtain ⟨file, current, upcoming, previousEnd, typeNames, nextId⟩ := v
    cases hcurrent
    cases hupcoming
    cases hnames
    cases hid
    cases hvfile
    rfl
  have hend' : (t.relabel (.shiftPlaces k)).kind ≠ .eof → (t.relabel (.shiftPlaces k)).upcoming ≠ [] :=
    fun hk hnil => hend hk (List.map_eq_nil_iff.1 hnil)
  obtain ⟨w, hw, htypes, hids⟩ := Stmt.items_fromFirstToken hend' v.previousEnd hlater
  rw [← hstart] at hw
  have hboth := hmore hw
  rw [← Stmt.relabelAll_eq_map, Stmt.relabelAll_same] at hboth
  have hfuel : (t.relabel (.shiftPlaces k)).remaining + 1 + a.body.length ≤ s'.remaining + 1 := by
    obtain ⟨last, -, hlast⟩ := hs.ends
    have hfewer := (itemsUntil_more hitems).1
    have hlength := congrArg List.length hlast
    have hlength' := congrArg List.length hs.goesOn
    simp only [TokenStream.tokens, List.length_cons, List.length_append, List.length_map,
      List.length_nil] at hlength hlength'
    simp only [TokenStream.remaining, TokenStream.relabel, List.length_map] at hfewer ⊢
    omega
  exact ⟨_, w, parse_run ((itemsUntil_more hboth).2 _ _ hfuel), htypes, hids⟩

end Block

end ScriptCheck
