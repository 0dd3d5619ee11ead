import ScriptCheck.Proofs.Expr.Leading
import ScriptCheck.Proofs.Parsing.SameTurns

/-!
Programs before other programs. What is read up to the end of a stream is read in the same way when
other tokens follow instead of the end, if these can start a program: they do not go on with the
statement before them.

A part of a statement that has come to the end of the first stream says nothing about the second,
which goes on there. But nothing that is read at the end moves away from it, and no statement is
closed there, so that such a part is never a part of a statement that has been read.
-/

namespace ScriptCheck

open Parse

/-- The stream stands on its last token, which marks its end. -/
def TokenStream.AtEnd (s : TokenStream) : Prop := s.kind = .eof ∧ s.upcoming = []

/-- A token of this kind does not go on with a program before it. -/
structure StartsProgram (k : TokenKind) : Prop where
  ne_closeBracket : k ≠ .closeBracket
  ne_assignment : k ≠ .assignment
  ne_else : k ≠ .kwElse

/-- The first stream ends behind the tokens `ts`, with the token that marks the end. In the second,
the tokens `later` follow these. -/
structure Extends (f : Relabeling) (later ts : List Token) (s s' : TokenStream) : Prop where
  ends : ∃ last, last.kind = .eof ∧ s.tokens = ts ++ [last]
  notEnd : ∀ t ∈ ts, t.kind ≠ .eof
  goesOn : s'.tokens = ts.map (Token.relabel f) ++ later
  previousEnd : s'.previousEnd = f.place s.previousEnd
  typeNames : s'.typeNames = s.typeNames
  nextId : s'.nextId = f.id s.nextId
  file : s'.file = s.file

theorem TokenStream.next_of_tokens {s : TokenStream} {t u : Token} {us : List Token}
    (h : s.tokens = t :: u :: us) :
    s.next = { s with current := u, upcoming := us, previousEnd := t.span.stop } := by
  obtain ⟨rfl, hup⟩ := List.cons.inj h
  rw [next, hup]

theorem TokenStream.peek_one {s : TokenStream} {t u : Token} {us : List Token}
    (h : s.tokens = t :: u :: us) : s.peek 1 = u := by
  have hup : s.upcoming = u :: us := (List.cons.inj h).2
  rw [peek, hup]; rfl

theorem TokenStream.peek_two {s : TokenStream} {t u v : Token} {us : List Token}
    (h : s.tokens = t :: u :: v :: us) : s.peek 2 = v := by
  have hup : s.upcoming = u :: v :: us := (List.cons.inj h).2
  rw [peek, hup]; rfl

theorem TokenStream.AtEnd.next {s : TokenStream} (h : s.AtEnd) : s.next = s := by
  rw [TokenStream.next, h.2]

namespace Extends

variable {f : Relabeling} {later ts : List Token} {t : Token} {s s' : TokenStream}

theorem atEnd (h : Extends f later [] s s') : s.AtEnd := by
  obtain ⟨last, hlast, hs⟩ := h.ends
  exact ⟨by rw [TokenStream.kind_of_tokens hs, hlast], (List.cons.inj hs).2⟩

theorem current (h : Extends f later (t :: ts) s s') : s.current = t ∧ s'.current = t.relabel f := by
  obtain ⟨last, -, hs⟩ := h.ends
  exact ⟨TokenStream.current_of_tokens hs, TokenStream.current_of_tokens h.goesOn⟩

theorem kind (h : Extends f later (t :: ts) s s') : s'.kind = s.kind := by
  rw [TokenStream.kind, TokenStream.kind, h.current.1, h.current.2]; rfl

/-- Both streams are left behind the same token. -/
theorem next (h : Extends f later (t :: ts) s s') (hlater : later ≠ []) :
    Extends f later ts s.next s'.next := by
  obtain ⟨last, hlast, hs⟩ := h.ends
  have hs' := h.goesOn
  obtain ⟨u, us, hu⟩ : ∃ u us, ts ++ [last] = u :: us := List.exists_cons_of_ne_nil (by simp)
  obtain ⟨v, vs, hv⟩ : ∃ v vs, ts.map (Token.relabel f) ++ later = v :: vs :=
    List.exists_cons_of_ne_nil (by simp [hlater])
  rw [List.cons_append, hu] at hs
  rw [List.map_cons, List.cons_append, hv] at hs'
  have hnext := TokenStream.next_of_tokens hs
  have hnext' := TokenStream.next_of_tokens hs'
  refine ⟨⟨last, hlast, ?_⟩, fun u hu => h.notEnd u (List.mem_cons_of_mem _ hu), ?_, ?_, ?_, ?_, ?_⟩
  · rw [hnext, hu]; rfl
  · rw [hnext', hv]; rfl
  · rw [hnext, hnext']; rfl
  · rw [hnext, hnext']; exact h.typeNames
  · rw [hnext, hnext']; exact h.nextId
  · rw [hnext, hnext']; exact h.file

theorem remaining_le (h : Extends f later ts s s') (hlater : later ≠ []) :
    s.remaining ≤ s'.remaining := by
  obtain ⟨last, -, hs⟩ := h.ends
  have hlen := congrArg List.length hs
  have hlen' := congrArg List.length h.goesOn
  have hpos := List.length_pos_iff.2 hlater
  simp only [TokenStream.tokens, List.length_cons, List.length_append, List.length_map,
    List.length_nil] at hlen hlen'
  simp only [TokenStream.remaining]
  omega

/-- Looking one token ahead shows tokens that look alike. -/
theorem looksAlike {next : Token} {rest : List Token} (h : Extends f (next :: rest) (t :: ts) s s')
    (hnext : StartsProgram next.kind) : LooksAlike (s.peek 1).kind (s'.peek 1).kind := by
  obtain ⟨last, hlast, hs⟩ := h.ends
  have hs' := h.goesOn
  cases ts with
  | nil =>
    rw [TokenStream.peek_one hs, TokenStream.peek_one hs', hlast]
    exact ⟨⟨nofun, fun h => absurd h hnext.ne_closeBracket⟩,
      ⟨nofun, fun h => absurd h hnext.ne_assignment⟩⟩
  | cons u us =>
    rw [TokenStream.peek_one hs, TokenStream.peek_one hs']
    exact ⟨Iff.rfl, Iff.rfl⟩

/-- Looking two tokens ahead, the same brackets are closed. -/
theorem closes_iff {next u : Token} {rest : List Token}
    (h : Extends f (next :: rest) (t :: u :: ts) s s') (hnext : StartsProgram next.kind) :
    (s'.peek 2).kind = .closeBracket ↔ (s.peek 2).kind = .closeBracket := by
  obtain ⟨last, hlast, hs⟩ := h.ends
  have hs' := h.goesOn
  cases ts with
  | nil =>
    rw [TokenStream.peek_two hs, TokenStream.peek_two hs', hlast]
    exact ⟨fun h => absurd h hnext.ne_closeBracket, nofun⟩
  | cons v vs => rw [TokenStream.peek_two hs, TokenStream.peek_two hs']; rfl

/-- Where two tokens are left, declarations are told from expressions in the same way. -/
theorem startsDeclaration {next u : Token} {rest : List Token}
    (h : Extends f (next :: rest) (t :: u :: ts) s s') (hnext : StartsProgram next.kind) :
    Stmt.startsDeclaration s' = Stmt.startsDeclaration s := by
  have hpeek : (s'.peek 1).kind = (s.peek 1).kind := by
    obtain ⟨last, -, hs⟩ := h.ends
    rw [TokenStream.peek_one hs, TokenStream.peek_one h.goesOn]; rfl
  have hvalue : s'.current.value = s.current.value := by rw [h.current.1, h.current.2]; rfl
  unfold Stmt.startsDeclaration TokenStream.isTypeName
  rw [h.kind, h.typeNames, hvalue, hpeek, decide_eq_decide.2 (h.closes_iff hnext)]

/-- An `else` comes next in both streams or in none. -/
theorem else_iff {next : Token} {rest : List Token} (h : Extends f (next :: rest) ts s s')
    (hnext : StartsProgram next.kind) : s'.kind = .kwElse ↔ s.kind = .kwElse := by
  cases ts with
  | nil =>
    rw [h.atEnd.1, TokenStream.kind_of_tokens h.goesOn]
    exact ⟨fun hk => absurd hk hnext.ne_else, nofun⟩
  | cons u us => rw [h.kind]

end Extends

section

variable {c : Terms} {α β : Type} {e : Extent} {g : α → β} {m : Parse α} {m' : Parse β}

/-- Nothing that is read at the end moves away from it, and no statement is closed there. -/
theorem Lockstep.atEnd (h : Lockstep c e g m m') {s t : TokenStream} {a : α} (hs : s.AtEnd)
    (hrun : m s = .ok a t) : t.AtEnd ∧ e ≠ .whole := by
  induction h generalizing s t with
  | pure a => cases hrun; exact ⟨hs, nofun⟩
  | @bind _ _ _ _ e e' _ _ m _ k _ _ _ ihm ihk =>
    cases hm : m s with
    | ok b u =>
      rw [bind_of_ok hm] at hrun
      obtain ⟨hu, he⟩ := ihm hs hm
      obtain ⟨ht, he'⟩ := ihk b hu hrun
      refine ⟨ht, ?_⟩
      cases e' with
      | still => exact he
      | part => exact he'
      | whole => exact he'
    | error d u => rw [bind_of_error hm] at hrun; cases hrun
  | part _ ih => exact ⟨(ih hs hrun).1, nofun⟩
  | current => cases hrun; exact ⟨hs, nofun⟩
  | kind => cases hrun; exact ⟨hs, nofun⟩
  | position => cases hrun; exact ⟨hs, nofun⟩
  | advance =>
    rw [advance_run, hs.next] at hrun
    cases hrun
    exact ⟨hs, nofun⟩
  | freshId _ => cases hrun; exact ⟨hs, nofun⟩
  | register name =>
    rw [register_run] at hrun
    cases hrun
    refine ⟨?_, nofun⟩
    unfold TokenStream.register
    split <;> exact hs
  | spanFrom start => cases hrun; exact ⟨hs, nofun⟩
  | unexpectedToken => cases hrun
  | unexpected message => cases hrun
  | reject _ place => cases hrun
  | close hk =>
    rw [expect_fails (by rw [hs.1]; exact hk.symm)] at hrun
    cases hrun
  | stuck => cases hrun
  | outOfFuel _ => cases hrun
  | fuel _ ih =>
    rw [bind_of_ok (remaining_run s)] at hrun
    exact ih s.remaining s.remaining (Nat.le_refl _) (fun _ => rfl) hs hrun
  | lookahead _ _ ih =>
    rw [bind_of_ok (lookahead_run 1 s)] at hrun
    exact ih _ _ ⟨Iff.rfl, Iff.rfl⟩ hs hrun
  | @orElse _ _ _ _ _ _ m _ _ _ _ _ _ _ _ ihm _ _ =>
    cases hm : m s with
    | ok b u => exact absurd rfl (ihm hs hm).2
    | error d u => rw [bind_of_error hm] at hrun; cases hrun
  | plain _ _ ihd ihe =>
    rw [Stmt.parsePlain_run] at hrun
    split at hrun
    · exact ihd hs hrun
    · exact ihe hs hrun

/-- A declaration that starts with its type starts with a name. -/
theorem Stmt.kind_of_startsDeclaration {s : TokenStream} (h : startsDeclaration s = true) :
    s.kind = .identifier ∨ s.kind = .kwNull ∨ s.kind = .kwUndefined := by
  by_cases hname : (s.kind = .identifier || s.kind = .kwNull || s.kind = .kwUndefined) = true
  · simpa [or_assoc] using hname
  · simp [startsDeclaration, hname] at h

/-- An expression that is a single name, and not followed by anything, is no statement. -/
theorem Stmt.parseExpr_last {s : TokenStream} {t last : Token} (hs : s.tokens = [t, last])
    (ht : t.kind = .identifier ∨ t.kind = .kwNull ∨ t.kind = .kwUndefined)
    (hlast : last.kind = .eof) (a : Stmt) (u : TokenStream) : parseExpr s ≠ .ok a u := by
  have hc := TokenStream.current_of_tokens hs
  have hatom : ∃ e, Expr.parseAtom s = .ok e { s with nextId := s.nextId + 1 }.next := by
    rw [Expr.parseAtom, bind_of_ok (freshId_run s), bind_of_ok (current_run _), hc]
    rcases ht with ht | ht | ht <;> rw [ht] <;> exact ⟨_, rfl⟩
  obtain ⟨e, he⟩ := hatom
  have hkind : Expr.isAtom t.kind := by rcases ht with ht | ht | ht <;> rw [ht] <;> rfl
  have hnone : Expr.power? last.kind = none := by rw [hlast]; rfl
  have hlead : Expr.Leads s.remaining .lowest s e [last] := Expr.leads_of_atom hs hkind he rfl
  obtain ⟨e', s', hparse, -, hs'⟩ := hlead.ends (Expr.bounded_of_none hnone)
  have hrun : Expr.parse .lowest s = .ok e' s' := by
    rw [Expr.parse, bind_of_ok (remaining_run s), hparse]
  have hend : s'.kind ≠ .semicolon := by rw [TokenStream.kind_of_tokens hs', hlast]; decide
  rw [parseExpr, bind_of_ok hrun, bind_of_error (discard_of_error (expect_fails hend))]
  nofun

/-- A statement without a keyword is read as a declaration from both streams, or as an expression from
both. -/
theorem Extends.plain {f : Relabeling} {next : Token} {rest ts : List Token} {s s' t : TokenStream}
    {a : Stmt} (h : Extends f (next :: rest) ts s s') (hts : ts ≠ [])
    (hnext : StartsProgram next.kind) (hrun : Stmt.parsePlain s = .ok a t) :
    (Stmt.parseTyped s = .ok a t ∧ Stmt.parsePlain s' = Stmt.parseTyped s') ∨
      (Stmt.parseExpr s = .ok a t ∧ Stmt.parsePlain s' = Stmt.parseExpr s') := by
  rw [Stmt.parsePlain_run] at hrun ⊢
  match ts, hts, h with
  | u :: v :: us, _, h =>
    rw [h.startsDeclaration hnext]
    by_cases hd : Stmt.startsDeclaration s = true
    · rw [if_pos hd] at hrun ⊢
      exact .inl ⟨hrun, rfl⟩
    · rw [if_neg hd] at hrun ⊢
      exact .inr ⟨hrun, rfl⟩
  | [u], _, h =>
    -- one token is left, and with it alone no declaration starts
    obtain ⟨last, hlast, htokens⟩ := h.ends
    have hd : Stmt.startsDeclaration s = false := by
      simp [Stmt.startsDeclaration, TokenStream.peek_one htokens, hlast]
    rw [hd] at hrun
    by_cases hd' : Stmt.startsDeclaration s' = true
    · have hkind := Stmt.kind_of_startsDeclaration hd'
      rw [h.kind, TokenStream.kind_of_tokens htokens] at hkind
      exact absurd hrun (Stmt.parseExpr_last htokens hkind hlast _ _)
    · rw [if_neg hd']
      exact .inr ⟨hrun, rfl⟩

/-- How the second run of a step ends, if the first ends in `t`: it comes to the same place, unless a
part of a statement has come to the end of the first stream. -/
def Lands (f : Relabeling) (later : List Token) (e : Extent) (ts : List Token) (t : TokenStream)
    (run : EStateM.Result Failure TokenStream β) (b : β) : Prop :=
  (e = .part ∧ t.AtEnd) ∨
    ∃ ts' t', run = .ok b t' ∧ Extends f later ts' t t' ∧ (e = .still → ts' = ts) ∧
      (e = .part → ts' ≠ [])

section

variable {f : Relabeling} {next : Token} {rest ts : List Token} {s s' t t' : TokenStream} {b : β}

theorem Lands.still (hrun : m' s' = .ok b t') (h : Extends f (next :: rest) ts t t') :
    Lands f (next :: rest) .still ts t (m' s') b :=
  .inr ⟨ts, t', hrun, h, fun _ => rfl, nofun⟩

/-- A part of a statement that has been read up to the end says nothing more. -/
theorem Lands.part {us : List Token} (hrun : m' s' = .ok b t')
    (h : Extends f (next :: rest) ts t t') : Lands f (next :: rest) .part us t (m' s') b := by
  cases ts with
  | nil => exact .inl ⟨rfl, h.atEnd⟩
  | cons u us => exact .inr ⟨u :: us, t', hrun, h, nofun, fun _ => List.cons_ne_nil u us⟩

theorem Lands.whole {us : List Token} (hrun : m' s' = .ok b t')
    (h : Extends f (next :: rest) ts t t') : Lands f (next :: rest) .whole us t (m' s') b :=
  .inr ⟨ts, t', hrun, h, nofun, nofun⟩

/-- Where a step that reads tokens lands does not depend on the tokens left before it. -/
theorem Lands.read {us : List Token} (h : Lands f (next :: rest) e us t (m' s') b)
    (he : e ≠ .still) : Lands f (next :: rest) e ts t (m' s') b :=
  h.imp_right fun ⟨us', t', hrun, ht, _, hpart⟩ =>
    ⟨us', t', hrun, ht, fun hstill => absurd hstill he, hpart⟩

/-- Behind a step that reads no token, the place is the one from before it. -/
theorem Lands.behind {us : List Token} (h : Lands f (next :: rest) .still us t (m' s') b)
    (hstill : e = .still → us = ts) (hpart : e = .part → us ≠ []) :
    Lands f (next :: rest) e ts t (m' s') b := by
  rcases h with ⟨he, -⟩ | ⟨us', t', hrun, ht, hus, -⟩
  · cases he
  · obtain rfl := hus rfl
    exact .inr ⟨us', t', hrun, ht, hstill, hpart⟩

end

/-- Steps in lockstep come to the same place, also when other tokens follow. -/
theorem Lockstep.extended (hid : ∀ i, c.labels.id (i + 1) = c.labels.id i + 1)
    (hfuel : ¬ c.sameFuel) {next : Token} {rest : List Token} (hnext : StartsProgram next.kind)
    (h : Lockstep c e g m m') {ts : List Token} {s s' t : TokenStream} {a : α}
    (hs : Extends c.labels (next :: rest) ts s s') (hts : ts ≠ [] ∨ e = .still)
    (hrun : m s = .ok a t) : Lands c.labels (next :: rest) e ts t (m' s') (g a) := by
  induction h generalizing ts s s' t with
  | pure a => cases hrun; exact .still rfl hs
  | @bind _ _ _ _ e e' g h m m' k k' _ hk ihm ihk =>
    cases hm : m s with
    | error d u => rw [bind_of_error hm] at hrun; cases hrun
    | ok b u =>
      rw [bind_of_ok hm] at hrun
      have hstart : ts ≠ [] ∨ e = .still := hts.imp_right fun he => by
        cases e' with
        | still => exact he
        | part => cases he
        | whole => cases he
      rcases ihm hs hstart hm with ⟨rfl, hu⟩ | ⟨ts', u', hm', hu, hstill, hpart⟩
      · obtain ⟨ht, hne⟩ := (hk b).atEnd hu hrun
        cases e' with
        | still => exact .inl ⟨rfl, ht⟩
        | part => exact .inl ⟨rfl, ht⟩
        | whole => exact absurd rfl hne
      · rw [bind_of_ok hm']
        cases e' with
        | still => exact (ihk b hu (.inr rfl) hrun).behind hstill hpart
        | _ =>
          by_cases hts' : ts' = []
          · -- the first run is at the end, behind a whole statement
            subst hts'
            obtain ⟨ht, hne⟩ := (hk b).atEnd hu.atEnd hrun
            first | exact .inl ⟨rfl, ht⟩ | exact absurd rfl hne
          · exact (ihk b hu (.inl hts') hrun).read nofun
  | part _ ih =>
    rcases ih hs (.inl (hts.resolve_right nofun)) hrun with ⟨-, ht⟩ | ⟨ts', t', hm', ht, -, -⟩
    · exact .inl ⟨rfl, ht⟩
    · exact .part hm' ht
  | current =>
    obtain ⟨u, us, rfl⟩ := List.exists_cons_of_ne_nil (hts.resolve_right nofun)
    cases hrun
    exact .part (by rw [current_run, hs.current.1, hs.current.2]) hs
  | kind =>
    obtain ⟨u, us, rfl⟩ := List.exists_cons_of_ne_nil (hts.resolve_right nofun)
    cases hrun
    exact .part (by rw [kind_run, hs.kind]) hs
  | position =>
    obtain ⟨u, us, rfl⟩ := List.exists_cons_of_ne_nil (hts.resolve_right nofun)
    cases hrun
    refine .part ?_ hs
    rw [position_run, TokenStream.position, TokenStream.position, hs.current.1, hs.current.2]
    rfl
  | advance =>
    obtain ⟨u, us, rfl⟩ := List.exists_cons_of_ne_nil (hts.resolve_right nofun)
    cases hrun
    exact .part (by rw [advance_run, hs.current.1, hs.current.2]) (hs.next (List.cons_ne_nil _ _))
  | freshId _ =>
    cases hrun
    have hnew : Extends c.labels (next :: rest) ts { s with nextId := s.nextId + 1 }
        { s' with nextId := s'.nextId + 1 } :=
      { hs with nextId := by rw [hs.nextId]; exact (hid s.nextId).symm }
    exact .still (by rw [freshId_run, hs.nextId]) hnew
  | register name =>
    rw [register_run] at hrun
    cases hrun
    refine .still (register_run name s') ?_
    unfold TokenStream.register
    rw [hs.typeNames]
    split
    · exact hs
    · exact { hs with typeNames := rfl }
  | spanFrom start =>
    cases hrun
    refine .still ?_ hs
    rw [spanFrom_run, TokenStream.spanFrom, hs.previousEnd]; rfl
  | unexpectedToken => cases hrun
  | unexpected message => cases hrun
  | reject _ place => cases hrun
  | @close k hk =>
    obtain ⟨u, us, rfl⟩ := List.exists_cons_of_ne_nil (hts.resolve_right nofun)
    by_cases hu : s.kind = k
    · rw [expect_run hu] at hrun
      cases hrun
      refine .whole ?_ (hs.next (List.cons_ne_nil _ _))
      rw [expect_run (by rw [hs.kind, hu]), hs.current.1, hs.current.2]
    · rw [expect_fails hu] at hrun; cases hrun
  | stuck => cases hrun
  | outOfFuel _ => cases hrun
  | fuel _ ih =>
    rw [bind_of_ok (remaining_run s)] at hrun
    rw [bind_of_ok (remaining_run s')]
    exact ih _ _ (hs.remaining_le (List.cons_ne_nil _ _)) (fun hf => absurd hf hfuel) hs hts hrun
  | lookahead he _ ih =>
    obtain ⟨u, us, rfl⟩ := List.exists_cons_of_ne_nil (hts.resolve_right he)
    rw [bind_of_ok (lookahead_run 1 s)] at hrun
    rw [bind_of_ok (lookahead_run 1 s')]
    exact ih _ _ (hs.looksAlike hnext) hs hts hrun
  | @orElse _ _ _ _ g h m m' x y x' y' _ _ _ ihm ihx ihy =>
    cases hm : m s with
    | error d u => rw [bind_of_error hm] at hrun; cases hrun
    | ok b u =>
      rw [bind_of_ok hm, bind_of_ok (kind_run u)] at hrun
      rcases ihm hs (.inl (hts.resolve_right nofun)) hm with ⟨he, -⟩ | ⟨ts', u', hm', hu, -, -⟩
      · cases he
      · rw [bind_of_ok hm', bind_of_ok (kind_run u')]
        by_cases hk : u.kind = .kwElse
        · have hts' : ts' ≠ [] := by
            rintro rfl
            rw [hu.atEnd.1] at hk
            cases hk
          rw [if_pos hk] at hrun
          rw [if_pos ((hu.else_iff hnext).2 hk)]
          exact (ihx b hu (.inl hts') hrun).read nofun
        · rw [if_neg hk] at hrun
          rw [if_neg fun hk' => hk ((hu.else_iff hnext).1 hk')]
          exact (ihy b hu (.inr rfl) hrun).behind nofun nofun
  | plain _ _ ihd ihe =>
    have hts := hts.resolve_right nofun
    rcases hs.plain hts hnext hrun with ⟨hrun, heq⟩ | ⟨hrun, heq⟩
    · rw [heq]
      exact ihd hs (.inl hts) hrun
    · rw [heq]
      exact ihe hs (.inl hts) hrun

end

/-! ### Programs -/

/-- A list is cut where its items are. -/
theorem itemsUntil_cases {α : Type} {close : TokenKind} {m : Parse α} {n index : Nat}
    {s t : TokenStream} {as : List α} (h : itemsUntil close (fun _ => m) n index s = .ok as t) :
    (s.kind = close ∧ as = [] ∧ t = s ∧ 0 < n) ∨
      ∃ k a u bs, n = k + 1 ∧ as = a :: bs ∧ s.kind ≠ close ∧ m s = .ok a u ∧
        itemsUntil close (fun _ => m) k (index + 1) u = .ok bs t := by
  cases n with
  | zero => cases h
  | succ k =>
    by_cases hk : s.kind = close
    · rw [itemsUntil_close hk] at h
      cases h
      exact .inl ⟨hk, rfl, rfl, Nat.succ_pos k⟩
    · rw [itemsUntil, bind_of_ok (kind_run s), if_neg hk] at h
      cases hm : m s with
      | error e u => rw [bind_of_error hm] at h; cases h
      | ok a u =>
        rw [bind_of_ok hm] at h
        cases hrest : itemsUntil close (fun _ => m) k (index + 1) u with
        | error e v => rw [bind_of_error hrest] at h; cases h
        | ok bs v =>
          rw [bind_of_ok hrest] at h
          cases h
          exact .inr ⟨k, a, u, bs, rfl, rfl, hk, rfl, hrest⟩

/-- More fuel reads the same items, and each takes one unit of it. -/
theorem itemsUntil_more {α : Type} {close : TokenKind} {m : Parse α} {n index : Nat}
    {s t : TokenStream} {as : List α} (h : itemsUntil close (fun _ => m) n index s = .ok as t) :
    as.length < n ∧ ∀ n' index', n ≤ n' → itemsUntil close (fun _ => m) n' index' s = .ok as t := by
  induction n generalizing index s as with
  | zero => cases h
  | succ n ih =>
    rcases itemsUntil_cases h with ⟨hk, rfl, rfl, -⟩ | ⟨k, a, u, bs, hn, rfl, hk, hm, hrest⟩
    · refine ⟨Nat.succ_pos n, fun n' index' hle => ?_⟩
      obtain ⟨n', rfl⟩ : ∃ k, n' = k + 1 := ⟨n' - 1, by omega⟩
      exact itemsUntil_close hk
    · obtain rfl : n = k := by omega
      obtain ⟨hlen, hmore⟩ := ih hrest
      refine ⟨by rw [List.length_cons]; omega, fun n' index' hle => ?_⟩
      obtain ⟨n', rfl⟩ : ∃ k, n' = k + 1 := ⟨n' - 1, by omega⟩
      exact itemsUntil_item hk hm (hmore n' (index' + 1) (by omega))

/-- The statements of a program are read in the same way when those of another follow. -/
theorem Stmt.itemsUntil_extended {f : Relabeling} (hid : ∀ i, f.id (i + 1) = f.id i + 1)
    {next : Token} {rest : List Token} (hnext : StartsProgram next.kind) {n index : Nat}
    {ts : List Token} {s s' t : TokenStream} {body : List Stmt}
    (hs : Extends f (next :: rest) ts s s')
    (h : itemsUntil .eof (fun _ => Stmt.parse) n index s = .ok body t) :
    ∃ t', Extends f (next :: rest) [] t t' ∧ ∀ {n' index' : Nat} {others : List Stmt} {u : TokenStream},
      itemsUntil .eof (fun _ => Stmt.parse) n' index' t' = .ok others u →
      itemsUntil .eof (fun _ => Stmt.parse) (n' + body.length) index' s' =
        .ok (body.map (Stmt.relabel f) ++ others) u := by
  induction n generalizing index ts s s' body with
  | zero => cases h
  | succ n ih =>
    rcases itemsUntil_cases h with ⟨hk, rfl, rfl, -⟩ | ⟨k, a, u, bs, hn, rfl, hk, hm, hrest⟩
    · cases ts with
      | nil => exact ⟨s', hs, fun h => h⟩
      | cons v vs =>
        rw [TokenStream.kind, hs.current.1] at hk
        exact absurd hk (hs.notEnd v (List.mem_cons_self ..))
    · obtain rfl : n = k := by omega
      cases ts with
      | nil => exact absurd hs.atEnd.1 hk
      | cons v vs =>
        have hstep : Lockstep ⟨f, False, True⟩ .whole (Stmt.relabel f) Stmt.parse Stmt.parse :=
          Stmt.parse_lockstep trivial
        rcases hstep.extended hid id hnext hs (.inl (List.cons_ne_nil v vs)) hm with
          ⟨he, -⟩ | ⟨ts', u', hm', hu, -, -⟩
        · cases he
        · obtain ⟨t', ht, hmore⟩ := ih hu hrest
          refine ⟨t', ht, fun {n' index' others w} hothers => ?_⟩
          have hitems := (itemsUntil_more (hmore hothers)).2 (n' + bs.length) (index' + 1)
            (Nat.le_refl _)
          exact itemsUntil_item (by rw [hs.kind]; exact hk) hm' hitems

end ScriptCheck
