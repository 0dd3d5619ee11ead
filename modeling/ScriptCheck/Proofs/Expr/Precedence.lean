import ScriptCheck.Proofs.Expr.Leading
import ScriptCheck.Proofs.Integer

/-!
Reading realises the precedence table: the rendering of an expression, followed by a token that
continues no expression, reads back as that expression up to labels and is used up exactly.

The induction is on the expression and generalises over the power it is read at and over the token
behind it. Each construct has a lemma that its tokens lead to it if those of its parts do.
-/

namespace ScriptCheck.Expr

open Parse

variable (quoted : String → Span → Bool)

/-! ### Atoms -/

section

variable {quoted} {e : Expr} {fuel : Nat} {p : Power} {s : TokenStream} {next t : Token}
  {ts rest : List Token}

/-- Reading a number gives the literal that its digits stand for. -/
theorem number_run {n : Nat} (hn : n < integerLimit)
    (hv : s.current.value = String.ofList (natText n)) :
    Parse.number s = .ok (.int n) s.next := by
  have hpoint : s.current.value.toList.contains '.' = false := by
    rw [hv, String.toList_ofList, natText_contains_point]
  have hvalue : Literal.ofNumber? s.current.value = some (.int n) := by
    simp only [Literal.ofNumber?, hpoint, Bool.false_eq_true, if_false]
    rw [hv, integer?_natText hn]
    rfl
  rw [Parse.number, bind_of_ok (current_run s), hvalue]
  rfl

theorem renders_literal (node : Node) {value : Literal} (h : isWritableLiteral value) :
    (Expr.literal node value).Renders quoted := by
  intro fuel p ts rest next s hts _ _ hs _
  obtain ⟨t, ts', rfl, hk, hv, hnil⟩ := map_lexeme_cons hts
  obtain rfl := List.map_eq_nil_iff.1 hnil
  have hc := TokenStream.current_of_tokens hs
  have hatom : isAtom t.kind ∧ parseAtom s = .ok (.literal ⟨s.nextId, t.span⟩ value)
      { s with nextId := s.nextId + 1 }.next := by
    rw [parseAtom, bind_of_ok (freshId_run s), bind_of_ok (current_run _), hc, hk]
    cases value with
    | int n =>
      simp only [isWritableLiteral, Bool.and_eq_true, decide_eq_true_eq] at h
      obtain ⟨n, rfl⟩ := Int.eq_ofNat_of_zero_le h.1
      have hrun := number_run (s := { s with nextId := s.nextId + 1 }) (Int.ofNat_lt.1 h.2)
        (by rw [hc, hv]; rfl)
      refine ⟨rfl, ?_⟩
      show (Parse.number >>= _) _ = _
      rw [← hc, bind_of_ok hrun]; rfl
    | float x => cases h
    | text text =>
      have hv : t.value = text := hv
      exact ⟨rfl, by rw [← hv, ← hc]; rfl⟩
    | bool b => cases b <;> exact ⟨rfl, by rw [← hc]; rfl⟩
  exact leads_of_atom hs hatom.1 hatom.2 rfl

theorem renders_keyword (node : Node) (word : Keyword) :
    (Expr.keyword node word).Renders quoted := by
  intro fuel p ts rest next s hts _ _ hs _
  obtain ⟨t, ts', rfl, hk, -, hnil⟩ := map_lexeme_cons hts
  obtain rfl := List.map_eq_nil_iff.1 hnil
  have hc := TokenStream.current_of_tokens hs
  have hatom : isAtom t.kind ∧ parseAtom s = .ok (.keyword ⟨s.nextId, t.span⟩ word)
      { s with nextId := s.nextId + 1 }.next := by
    rw [parseAtom, bind_of_ok (freshId_run s), bind_of_ok (current_run _), hc, hk]
    cases word <;> exact ⟨rfl, by rw [← hc]; rfl⟩
  exact leads_of_atom hs hatom.1 hatom.2 rfl

theorem renders_symbol (node : Node) (name : String) : (Expr.symbol node name).Renders quoted := by
  intro fuel p ts rest next s hts _ _ hs _
  obtain ⟨t, ts', rfl, hk, hv, hnil⟩ := map_lexeme_cons hts
  obtain rfl := List.map_eq_nil_iff.1 hnil
  have hc := TokenStream.current_of_tokens hs
  have hname : t.value = name := by rw [hv, symbolLexeme]; split <;> rfl
  have hatom : isAtom t.kind ∧ parseAtom s = .ok (.symbol ⟨s.nextId, t.span⟩ name)
      { s with nextId := s.nextId + 1 }.next := by
    rw [parseAtom, bind_of_ok (freshId_run s), bind_of_ok (current_run _), hc, hk, symbolLexeme,
      ← hname, ← hc]
    split <;> exact ⟨rfl, rfl⟩
  exact leads_of_atom hs hatom.1 hatom.2 rfl

end

/-! ### Operators -/

section

variable {quoted} {e left right : Expr} {fuel : Nat} {p : Power} {s : TokenStream}
  {next t operator : Token} {ts rest : List Token} {node : Node}

/-- An operator is a token of its own lexeme. -/
theorem map_operator_cons {ls : List Lexeme} (h : ts.map Token.lexeme = operator.lexeme :: ls) :
    ∃ o ts', ts = o :: ts' ∧ o.relabel .erasing = operator.relabel .erasing ∧
      ts'.map Token.lexeme = ls := by
  obtain ⟨o, ts', rfl, hk, hv, hls⟩ := map_lexeme_cons h
  refine ⟨o, ts', rfl, ?_, hls⟩
  rw [Token.relabel, Token.relabel, hk, hv]; rfl

theorem parsePrimary_of_isUnaryOperator {self : Power → Parse Expr} (h : isUnaryOperator s.kind) :
    parsePrimary self s = parseUnary self s := by
  rw [parsePrimary, bind_of_ok (kind_run s)]
  simp only [isUnaryOperator, Bool.or_eq_true, decide_eq_true_eq] at h
  rcases h with ((h | h) | h) | h <;> rw [h]

theorem renders_binary (hop : isBinaryOperator operator.kind) (hl : left.Renders quoted)
    (hlw : left.isWritable) (hr : right.Renders quoted) (hrw : right.isWritable) :
    (Expr.binary node operator left right).Renders quoted := by
  intro fuel p ts rest next s hts hlen hp hs hnext
  obtain ⟨q, hq, hrank, h3, -, hstep⟩ := exists_power_of_isBinaryOperator hop
  obtain ⟨ls, ts', rfl, hls, hts'⟩ := List.map_eq_append_iff.1 hts
  obtain ⟨o, rs, rfl, ho, hrs⟩ := map_operator_cons hts'
  have hok : o.kind = operator.kind := Token.kind_eq_of_erased ho
  simp only [List.length_append, List.length_cons] at hlen
  simp only [reach, edge] at hp hnext
  -- the left operand leads to itself and on to the operator
  have hlead : Leads fuel p s left (o :: (rs ++ next :: rest)) := by
    refine hl.operand hlw hls (by omega) (fun hc => ?_) (by rw [hs]; simp) (fun hc => ?_)
    all_goals simp only [decide_eq_false_iff_not, Nat.not_lt] at hc
    · have := left.tightness_le_reach
      omega
    · exact bounded_of_rank (by rw [hok]; exact le_edge (by omega) hc)
  refine hlead.operator (q := q) (by rw [hok]; exact hq) (by omega) (by simp) ?_
  intro left' s₁ hleft hs₁
  have hs₂ : s₁.next.tokens = rs ++ next :: rest := TokenStream.tokens_next hs₁ (by simp)
  obtain ⟨fuel, rfl⟩ : ∃ k, fuel = k + 1 := ⟨fuel - 1, by omega⟩
  -- the right operand ends before what follows
  have hright : Leads fuel q s₁.next right (next :: rest) := by
    refine hr.operand hrw hrs (by omega) (fun hc => ?_) hs₂ (fun hc => ?_)
    all_goals simp only [decide_eq_false_iff_not, Nat.not_le] at hc
    · have := right.tightness_le_reach
      omega
    · exact hnext.mono (le_edge (by omega) (by omega))
  obtain ⟨right', s₃, hrun, hlike, hs₃⟩ := hright.ends (by rw [hrank]; exact hnext)
  refine ⟨.binary ⟨s₃.nextId, left'.span.join right'.span⟩ s₁.current left' right',
    { s₃ with nextId := s₃.nextId + 1 }, ?_, ?_, hs₃⟩
  · rw [hstep, parseBinary, bind_of_ok (advance_run s₁), bind_of_ok hrun,
      bind_of_ok (freshId_run s₃)]
    rfl
  · simp only [Like, relabel] at *
    rw [TokenStream.current_of_tokens hs₁, ho, hleft, hlike]; rfl

theorem renders_assign {target value : Expr} (hop : isAssignment operator.kind)
    (ht : target.Renders quoted) (htw : target.isWritable) (hv : value.Renders quoted)
    (hvw : value.isWritable) : (Expr.assign node operator target value).Renders quoted := by
  intro fuel p ts rest next s hts hlen hp hs hnext
  have hq : power? operator.kind = some .assignment := of_decide_eq_true hop
  obtain ⟨ls, ts', rfl, hls, hts'⟩ := List.map_eq_append_iff.1 hts
  obtain ⟨o, rs, rfl, ho, hrs⟩ := map_operator_cons hts'
  have hok : o.kind = operator.kind := Token.kind_eq_of_erased ho
  have hrank : operatorRank o.kind = Power.assignment.rank := by rw [hok, operatorRank, hq]; rfl
  simp only [List.length_append, List.length_cons] at hlen
  simp only [reach, edge] at hp hnext
  have hlead : Leads fuel p s target (o :: (rs ++ next :: rest)) := by
    refine ht.operand htw hls (by omega) (fun hc => ?_) (by rw [hs]; simp) (fun hc => ?_)
    all_goals simp only [decide_eq_false_iff_not, Nat.not_le] at hc
    · have := target.tightness_le_reach
      omega
    · have hedge : Power.assignment.rank + 1 ≤ target.edge := le_edge (Nat.le_refl 3) hc
      exact bounded_of_rank (by omega)
  refine hlead.operator (by rw [hok]; exact hq) hp (by simp) ?_
  intro target' s₁ htarget hs₁
  have hs₂ : s₁.next.tokens = rs ++ next :: rest := TokenStream.tokens_next hs₁ (by simp)
  obtain ⟨fuel, rfl⟩ : ∃ k, fuel = k + 1 := ⟨fuel - 1, by omega⟩
  -- no operator is loose enough to be left alone by the value and yet to be taken
  have hvalue : Leads fuel .comma s₁.next value (next :: rest) := by
    have hone : Power.comma.rank < value.reach := two_le_reach hvw
    refine hv hrs (by omega) hone hs₂ (fun q hq => ?_)
    have := hnext q hq
    revert this hq
    cases next.kind <;> simp [power?] <;> rintro rfl <;> simp [Power.rank]
  obtain ⟨value', s₃, hrun, hlike, hs₃⟩ := hvalue.ends hnext
  refine ⟨.assign ⟨s₃.nextId, target'.span.join value'.span⟩ s₁.current target' value',
    { s₃ with nextId := s₃.nextId + 1 }, ?_, ?_, hs₃⟩
  · show parseAssign (parseWithin (fuel + 1)) target' s₁ = _
    rw [parseAssign, bind_of_ok (advance_run s₁), bind_of_ok hrun, bind_of_ok (freshId_run s₃)]
    rfl
  · simp only [Like, relabel] at *
    rw [TokenStream.current_of_tokens hs₁, ho, htarget, hlike]; rfl

theorem renders_unary {operand : Expr} (hop : isUnaryOperator operator.kind)
    (h : operand.Renders quoted) (hw : operand.isWritable) :
    (Expr.unary node operator operand).Renders quoted := by
  intro fuel p ts rest next s hts hlen hp hs hnext
  obtain ⟨o, us, rfl, ho, hus⟩ := map_operator_cons hts
  have hok : o.kind = operator.kind := Token.kind_eq_of_erased ho
  simp only [List.length_cons] at hlen
  simp only [edge] at hnext
  have hs₁ : s.next.tokens = us ++ next :: rest := TokenStream.tokens_next hs (by simp)
  obtain ⟨fuel, rfl⟩ : ∃ k, fuel = k + 1 := ⟨fuel - 1, by omega⟩
  have hlead : Leads fuel .unary s.next operand (next :: rest) := by
    refine h.operand hw hus (by omega) (fun hc => ?_) hs₁ (fun hc => ?_)
    all_goals simp only [decide_eq_false_iff_not, Nat.not_lt] at hc
    · exact unary_lt_reach hw hc
    · exact hnext.mono (le_edge (by decide) hc)
  obtain ⟨operand', s₂, hrun, hlike, hs₂⟩ := hlead.ends hnext
  have hunary : parsePrimary (parseWithin (fuel + 1)) s =
      .ok (.unary ⟨s₂.nextId, s.current.span.join operand'.span⟩ s.current operand')
        { s₂ with nextId := s₂.nextId + 1 } := by
    rw [parsePrimary_of_isUnaryOperator (by rw [TokenStream.kind_of_tokens hs, hok, hop]),
      parseUnary, bind_of_ok (advance_run s), bind_of_ok hrun, bind_of_ok (freshId_run s₂)]
    rfl
  refine leads_of_primary hunary ?_ hs₂
  simp only [Like, relabel] at *
  rw [TokenStream.current_of_tokens hs, ho, hlike]; rfl

end

/-! ### Arrays, objects, calls and accesses -/

section

variable {quoted} {e : Expr} {fuel : Nat} {p : Power} {s : TokenStream} {next o c : Token}
  {ts rest : List Token} {node : Node} {es : List Expr} {entries : List (Entry Expr)}

theorem isWritable_of_mem : ∀ {es : List Expr}, allWritable es → ∀ e ∈ es, e.isWritable
  | e :: es, h, x, hx => by
    simp only [allWritable, Bool.and_eq_true] at h
    rcases List.mem_cons.1 hx with rfl | hx
    · exact h.1
    · exact isWritable_of_mem h.2 x hx

theorem entryWritable_of_mem :
    ∀ {es : List (Entry Expr)}, entriesWritable es →
      ∀ e ∈ es, keyWritable e.key ∧ e.value.isWritable
  | ⟨key, value⟩ :: es, h, x, hx => by
    simp only [entriesWritable, Bool.and_eq_true] at h
    rcases List.mem_cons.1 hx with rfl | hx
    · exact h.1
    · exact entryWritable_of_mem h.2 x hx

/-- An expression is read as an item of a list. -/
theorem Renders.itemReads {close : TokenKind} (h : e.Renders quoted) (he : e.isWritable)
    (hclose : close = .closeParen ∨ close = .closeBracket) :
    ItemReads close (fun _ => parseWithin fuel .comma) fuel (render quoted) (relabel .erasing) e := by
  intro index ts rest next s hts hlen hs hnext
  have hnone : power? next.kind = none := by
    rcases hclose with rfl | rfl <;> rcases hnext with hk | hk <;> rw [hk] <;> rfl
  obtain ⟨e', s', hrun, hlike, hs'⟩ := h.reads he hts hlen (Nat.le_refl _) hs hnone
  refine ⟨e', s', hrun, hlike, hs', ?_⟩
  obtain ⟨fuel, rfl⟩ : ∃ k, fuel = k + 1 := ⟨fuel - 1, by omega⟩
  have hkind := kind_of_ok hrun
  rcases hclose with rfl | rfl
  · exact hkind.2.1
  · exact hkind.2.2

/-- Expressions with commas between them are read up to the closing token. -/
theorem commaUntil_expressions {close : TokenKind} (fuel : Nat) (hw : allWritable es)
    (h : ∀ e ∈ es, e.Renders quoted) (hclose : close = .closeParen ∨ close = .closeBracket)
    (hts : ts.map Token.lexeme = renderAll quoted es) (hlen : ts.length < fuel)
    (hc : c.kind = close) (hs : s.tokens = ts ++ c :: rest) :
    ∃ es' s', commaUntil close (fun _ => parseWithin fuel .comma) s = .ok es' s' ∧
      relabelAll .erasing es' = relabelAll .erasing es ∧ s'.tokens = c :: rest := by
  have hcomma : close ≠ .comma := by rcases hclose with rfl | rfl <;> decide
  have hitems : ∀ e ∈ es, ItemReads close (fun _ => parseWithin fuel .comma) fuel (render quoted)
      (relabel .erasing) e :=
    fun e he => (h e he).itemReads (isWritable_of_mem hw e he) hclose
  rw [renderAll_eq_separate] at hts
  simp only [relabelAll_eq_map]
  exact commaUntil_reads hcomma (render_ne_nil quoted) hitems hts hlen hc hs

/-- Lexemes between two others. -/
theorem map_lexeme_between {l r : Lexeme} {ls : List Lexeme}
    (h : ts.map Token.lexeme = l :: ls ++ [r]) :
    ∃ o us c, ts = o :: us ++ [c] ∧ o.kind = l.1 ∧ c.kind = r.1 ∧ us.map Token.lexeme = ls := by
  obtain ⟨o, ts₁, rfl, ho, -, hts₁⟩ := map_lexeme_cons h
  obtain ⟨us, tail, rfl, hus, htail⟩ := List.map_eq_append_iff.1 hts₁
  obtain ⟨c, tail', rfl, hc, -, hnil⟩ := map_lexeme_cons htail
  obtain rfl := List.map_eq_nil_iff.1 hnil
  exact ⟨o, us, c, rfl, ho, hc, hus⟩

theorem renders_array (hw : allWritable es) (h : ∀ e ∈ es, e.Renders quoted) :
    (Expr.array node es).Renders quoted := by
  intro fuel p ts rest next s hts hlen _ hs _
  obtain ⟨o, us, c, rfl, ho, hc, hus⟩ := map_lexeme_between hts
  simp only [List.length_append, List.length_cons, List.length_nil] at hlen
  have hs : s.tokens = o :: (us ++ c :: next :: rest) := by rw [hs]; simp
  have hs₁ := TokenStream.tokens_next hs (by simp)
  obtain ⟨es', s₂, hrun, hlike, hs₂⟩ :=
    commaUntil_expressions fuel hw h (.inr rfl) hus (by omega) hc hs₁
  have hclose : s₂.kind = .closeBracket := by rw [TokenStream.kind_of_tokens hs₂, hc]
  have hprimary : parsePrimary (parseWithin fuel) s =
      .ok (.array ⟨s₂.next.nextId, s₂.next.spanFrom s.current.span.start⟩ es')
        { s₂.next with nextId := s₂.next.nextId + 1 } := by
    rw [parsePrimary, bind_of_ok (kind_run s), TokenStream.kind_of_tokens hs, ho]
    show parseArray (parseWithin fuel) s = _
    rw [parseArray, bind_of_ok (advance_run s), bind_of_ok hrun,
      bind_of_ok (discard_of_ok (expect_run hclose)), bind_of_ok (spanFrom_run _ _),
      bind_of_ok (freshId_run _)]
    rfl
  refine leads_of_primary hprimary ?_ (TokenStream.tokens_next hs₂ (by simp))
  simp only [Like, relabel]
  rw [hlike]; rfl

/-- The key of an entry is read up to the colon. -/
theorem parseKey_reads {key : Key Expr} (hw : keyWritable key)
    (h : ∀ e, key = .computed e → e.Renders quoted)
    (hts : ts.map Token.lexeme = renderKey quoted key) (hlen : ts.length < fuel)
    (hs : s.tokens = ts ++ next :: rest) :
    ∃ key' s', parseKey (parseWithin fuel) s = .ok key' s' ∧
      relabelKey .erasing key' = relabelKey .erasing key ∧ s'.tokens = next :: rest ∧
      s.kind ≠ .closeCurly := by
  cases key with
  | name text span =>
    obtain ⟨t, ts', rfl, hk, hv, hnil⟩ := map_lexeme_cons hts
    obtain rfl := List.map_eq_nil_iff.1 hnil
    have hkind : s.kind = .text ∨ s.kind = .identifier := by
      rw [TokenStream.kind_of_tokens hs, hk]
      cases quoted text span <;> simp
    refine ⟨.name s.current.value s.current.span, s.next, ?_, ?_,
      TokenStream.tokens_next hs (by simp), ?_⟩
    · rw [parseKey, bind_of_ok (kind_run s)]
      rcases hkind with hk | hk <;> rw [hk] <;> rfl
    · rw [TokenStream.current_of_tokens hs, hv]; rfl
    · rcases hkind with hk | hk <;> rw [hk] <;> decide
  | computed e =>
    obtain ⟨o, us, c, rfl, ho, hc, hus⟩ := map_lexeme_between hts
    simp only [List.length_append, List.length_cons, List.length_nil] at hlen
    have hs : s.tokens = o :: (us ++ c :: next :: rest) := by rw [hs]; simp
    have hs₁ := TokenStream.tokens_next hs (by simp)
    have hkind : s.kind = .openBracket := by rw [TokenStream.kind_of_tokens hs, ho]
    have hnone : power? c.kind = none := by rw [hc]; rfl
    obtain ⟨e', s₂, hrun, hlike, hs₂⟩ :=
      (h e rfl).reads (p := .lowest) hw hus (by omega : us.length < fuel) (by decide) hs₁ hnone
    have hclose : s₂.kind = .closeBracket := by rw [TokenStream.kind_of_tokens hs₂, hc]
    refine ⟨.computed e', s₂.next, ?_, ?_, TokenStream.tokens_next hs₂ (by simp), ?_⟩
    · rw [parseKey, bind_of_ok (kind_run s), hkind]
      show (discard advance >>= _) s = _
      rw [bind_of_ok (discard_of_ok (advance_run s)), bind_of_ok hrun,
        bind_of_ok (discard_of_ok (expect_run hclose))]
      rfl
    · simp only [relabelKey]
      rw [hlike]
    · rw [hkind]; decide

/-- An entry is read as an item of a list. -/
theorem parseEntry_itemReads {entry : Entry Expr}
    (hw : keyWritable entry.key ∧ entry.value.isWritable)
    (hkey : ∀ e, entry.key = .computed e → e.Renders quoted) (hvalue : entry.value.Renders quoted) :
    ItemReads .closeCurly (fun _ => parseEntry (parseWithin fuel)) fuel (renderEntry quoted)
      (relabelEntry .erasing) entry := by
  intro index ts rest next s hts hlen hs hnext
  obtain ⟨ks, ts', rfl, hks, hts'⟩ := List.map_eq_append_iff.1 hts
  obtain ⟨k, vs, rfl, hk, -, hvs⟩ := map_lexeme_cons hts'
  simp only [List.length_append, List.length_cons] at hlen
  have hs : s.tokens = ks ++ k :: (vs ++ next :: rest) := by rw [hs]; simp
  obtain ⟨key', s₁, hrun₁, hlike₁, hs₁, hne⟩ :=
    parseKey_reads hw.1 hkey hks (by omega : ks.length < fuel) hs
  have hcolon : s₁.kind = .colon := by rw [TokenStream.kind_of_tokens hs₁, hk]
  have hs₂ := TokenStream.tokens_next hs₁ (by simp)
  have hnone : power? next.kind = none := by rcases hnext with h | h <;> rw [h] <;> rfl
  obtain ⟨value', s₃, hrun₃, hlike₃, hs₃⟩ :=
    hvalue.reads hw.2 hvs (by omega : vs.length < fuel) (Nat.le_refl _) hs₂ hnone
  refine ⟨⟨key', value'⟩, s₃, ?_, ?_, hs₃, hne⟩
  · show parseEntry (parseWithin fuel) s = _
    rw [parseEntry, bind_of_ok hrun₁, bind_of_ok (discard_of_ok (expect_run hcolon)),
      bind_of_ok hrun₃]
    rfl
  · simp only [relabelEntry]
    rw [hlike₁, hlike₃]

theorem renders_object (hw : entriesWritable entries)
    (h : ∀ x ∈ entries, (∀ e, x.key = .computed e → e.Renders quoted) ∧ x.value.Renders quoted) :
    (Expr.object node entries).Renders quoted := by
  intro fuel p ts rest next s hts hlen _ hs _
  obtain ⟨o, us, c, rfl, ho, hc, hus⟩ := map_lexeme_between hts
  simp only [List.length_append, List.length_cons, List.length_nil] at hlen
  have hs : s.tokens = o :: (us ++ c :: next :: rest) := by rw [hs]; simp
  have hs₁ := TokenStream.tokens_next hs (by simp)
  have hitems : ∀ x ∈ entries, ItemReads .closeCurly (fun _ => parseEntry (parseWithin fuel)) fuel
      (renderEntry quoted) (relabelEntry .erasing) x :=
    fun x hx => parseEntry_itemReads (entryWritable_of_mem hw x hx) (h x hx).1 (h x hx).2
  have hspell : ∀ x, renderEntry quoted x ≠ [] := fun x => by simp [renderEntry]
  rw [renderEntries_eq_separate] at hus
  obtain ⟨es', s₂, hrun, hlike, hs₂⟩ :=
    commaUntil_reads (by decide) hspell hitems hus (by omega) hc hs₁
  have hclose : s₂.kind = .closeCurly := by rw [TokenStream.kind_of_tokens hs₂, hc]
  have hprimary : parsePrimary (parseWithin fuel) s =
      .ok (.object ⟨s₂.next.nextId, s₂.next.spanFrom s.current.span.start⟩ es')
        { s₂.next with nextId := s₂.next.nextId + 1 } := by
    rw [parsePrimary, bind_of_ok (kind_run s), TokenStream.kind_of_tokens hs, ho]
    show parseObject (parseWithin fuel) s = _
    rw [parseObject, bind_of_ok (advance_run s), bind_of_ok hrun,
      bind_of_ok (discard_of_ok (expect_run hclose)), bind_of_ok (spanFrom_run _ _),
      bind_of_ok (freshId_run _)]
    rfl
  refine leads_of_primary hprimary ?_ (TokenStream.tokens_next hs₂ (by simp))
  simp only [Like, relabel, relabelEntries_eq_map]
  rw [hlike]; rfl

/-- Arguments between parentheses are read as a whole. -/
theorem parseArgs_reads {ts : List Token} (fuel : Nat) (hw : allWritable es)
    (h : ∀ e ∈ es, e.Renders quoted)
    (hts : ts.map Token.lexeme = (.openParen, "(") :: renderAll quoted es ++ [(.closeParen, ")")])
    (hlen : ts.length ≤ fuel) (hs : s.tokens = ts ++ next :: rest) :
    ∃ es' s', parseArgs (parseWithin fuel) s = .ok es' s' ∧
      relabelAll .erasing es' = relabelAll .erasing es ∧ s'.tokens = next :: rest := by
  obtain ⟨o, us, c, rfl, ho, hc, hus⟩ := map_lexeme_between hts
  simp only [List.length_append, List.length_cons, List.length_nil] at hlen
  have hs : s.tokens = o :: (us ++ c :: next :: rest) := by rw [hs]; simp
  have hs₁ := TokenStream.tokens_next hs (by simp)
  obtain ⟨es', s₂, hrun, hlike, hs₂⟩ :=
    commaUntil_expressions fuel hw h (.inl rfl) hus (by omega) hc hs₁
  have hopen : s.kind = .openParen := by rw [TokenStream.kind_of_tokens hs, ho]
  have hclose : s₂.kind = .closeParen := by rw [TokenStream.kind_of_tokens hs₂, hc]
  refine ⟨es', s₂.next, ?_, hlike, TokenStream.tokens_next hs₂ (by simp)⟩
  rw [parseArgs, bind_of_ok (discard_of_ok (expect_run hopen)), bind_of_ok hrun,
    bind_of_ok (discard_of_ok (expect_run hclose))]
  rfl

/-- What need not be enclosed before a call leaves every token behind it alone. -/
theorem edge_of_call_le (he : e.isWritable) (h : Power.call.rank ≤ e.tightness) :
    e.edge = Power.primary.rank := by
  cases e with
  | binary node operator left right =>
    simp only [isWritable, Bool.and_eq_true] at he
    have := operatorRank_bounds he.1.1
    simp only [tightness, Power.rank] at h; omega
  | assign => simp [tightness, Power.rank] at h
  | unary => simp [tightness, Power.rank] at h
  | _ => rfl

/-- What stands before a call or an access leads to itself. -/
theorem Renders.receiver (h : e.Renders quoted) (he : e.isWritable)
    (hts : ts.map Token.lexeme = enclose (e.tightness < Power.call.rank) (e.render quoted))
    (hlen : ts.length ≤ fuel) (hp : p.rank < Power.call.rank) (hs : s.tokens = ts ++ next :: rest) :
    Leads fuel p s e (next :: rest) := by
  refine h.operand he hts hlen (fun hc => ?_) hs (fun hc => ?_)
  all_goals simp only [decide_eq_false_iff_not, Nat.not_lt] at hc
  · have := e.tightness_le_reach
    omega
  · intro q hq
    rw [edge_of_call_le he hc]
    cases q <;> decide

theorem renders_call (hf : e.Renders quoted) (hfw : e.isWritable) (hw : allWritable es)
    (h : ∀ e ∈ es, e.Renders quoted) : (Expr.call node e es).Renders quoted := by
  intro fuel p ts rest next s hts hlen hp hs _
  rw [render, List.append_assoc] at hts
  obtain ⟨fs, as, rfl, hfs, has⟩ := List.map_eq_append_iff.1 hts
  obtain ⟨o, us, c, rfl, ho, -, -⟩ := map_lexeme_between has
  simp only [List.length_append, List.length_cons, List.length_nil] at hlen
  have hs : s.tokens = fs ++ o :: (us ++ c :: next :: rest) := by rw [hs]; simp
  have hlead : Leads fuel p s e (o :: (us ++ c :: next :: rest)) :=
    hf.receiver hfw hfs (by omega) hp hs
  refine hlead.operator (q := .call) (by rw [ho]; rfl) hp (by simp; omega) ?_
  intro e' s₁ he hs₁
  have hargs : s₁.tokens = (o :: us ++ [c]) ++ next :: rest := by rw [hs₁]; simp
  obtain ⟨es', s₂, hrun, hlike, hs₂⟩ :=
    parseArgs_reads fuel hw h has (by simp; omega) hargs
  refine ⟨.call ⟨s₂.nextId, s₂.spanFrom e'.span.start⟩ e' es',
    { s₂ with nextId := s₂.nextId + 1 }, ?_, ?_, hs₂⟩
  · show parseCall (parseWithin fuel) e' s₁ = _
    rw [parseCall, bind_of_ok hrun, bind_of_ok (spanFrom_run _ s₂), bind_of_ok (freshId_run s₂)]
    rfl
  · simp only [Like, relabel] at *
    rw [he, hlike]; rfl

theorem renders_construct {className : String} {classNode : Node} (hw : allWritable es)
    (h : ∀ e ∈ es, e.Renders quoted) :
    (Expr.construct node className classNode es).Renders quoted := by
  intro fuel p ts rest next s hts hlen _ hs _
  obtain ⟨k, ts₁, rfl, hk, -, hts₁⟩ := map_lexeme_cons hts
  obtain ⟨c, as, rfl, hc, hcv, has⟩ := map_lexeme_cons hts₁
  simp only [List.length_cons] at hlen
  have hs₁ : s.next.tokens = c :: (as ++ next :: rest) := TokenStream.tokens_next hs (by simp)
  have hname : s.next.kind = .identifier := by rw [TokenStream.kind_of_tokens hs₁, hc]
  have hs₂ : s.next.next.tokens = as ++ next :: rest := TokenStream.tokens_next hs₁ (by simp)
  obtain ⟨es', s₃, hrun, hlike, hs₃⟩ :=
    parseArgs_reads (s := { s.next.next with nextId := s.next.next.nextId + 1 }) fuel hw h has
      (by omega) hs₂
  have hprimary : parsePrimary (parseWithin fuel) s =
      .ok (.construct ⟨s₃.nextId, s₃.spanFrom s.current.span.start⟩ s.next.current.value
        ⟨s.next.next.nextId, s.next.current.span⟩ es') { s₃ with nextId := s₃.nextId + 1 } := by
    rw [parsePrimary, bind_of_ok (kind_run s), TokenStream.kind_of_tokens hs, hk]
    show parseConstruct (parseWithin fuel) s = _
    rw [parseConstruct, bind_of_ok (advance_run s), bind_of_ok (expectOr_run hname),
      bind_of_ok (freshId_run _), bind_of_ok hrun, bind_of_ok (spanFrom_run _ s₃),
      bind_of_ok (freshId_run s₃)]
    rfl
  refine leads_of_primary hprimary ?_ hs₃
  simp only [Like, relabel]
  rw [hlike, TokenStream.current_of_tokens hs₁, hcv]; rfl

theorem renders_access {key : Key Expr} (hr : e.Renders quoted) (hrw : e.isWritable)
    (hw : keyWritable key) (h : ∀ e, key = .computed e → e.Renders quoted) :
    (Expr.access node e key).Renders quoted := by
  intro fuel p ts rest next s hts hlen hp hs _
  rw [render] at hts
  obtain ⟨fs, as, rfl, hfs, has⟩ := List.map_eq_append_iff.1 hts
  simp only [List.length_append] at hlen
  have hp : p.rank < Power.call.rank := hp
  have hmember : p.rank < Power.member.rank := Nat.lt_trans hp (by decide)
  cases key with
  | name text span =>
    obtain ⟨d, as, rfl, hd, -, has⟩ := map_lexeme_cons has
    obtain ⟨t, as, rfl, ht, htv, hnil⟩ := map_lexeme_cons has
    obtain rfl := List.map_eq_nil_iff.1 hnil
    have hs : s.tokens = fs ++ d :: (t :: next :: rest) := by rw [hs]; simp
    have hlead : Leads fuel p s e (d :: (t :: next :: rest)) :=
      hr.receiver hrw hfs (by omega) hp hs
    refine hlead.operator (by rw [hd]; rfl) hmember (by simp) ?_
    intro e' s₁ he hs₁
    have hs₂ := TokenStream.tokens_next hs₁ (by simp)
    have hdot : s₁.kind = .dot := by rw [TokenStream.kind_of_tokens hs₁, hd]
    have hname : s₁.next.kind = .identifier := by rw [TokenStream.kind_of_tokens hs₂, ht]
    refine ⟨.access ⟨s₁.next.next.nextId, s₁.next.next.spanFrom e'.span.start⟩ e'
      (.name s₁.next.current.value s₁.next.current.span),
      { s₁.next.next with nextId := s₁.next.next.nextId + 1 }, ?_, ?_,
      TokenStream.tokens_next hs₂ (by simp)⟩
    · rw [parseOperator, bind_of_ok (kind_run s₁), if_pos hdot, parseMember,
        bind_of_ok (discard_of_ok (advance_run s₁)), bind_of_ok (expectOr_run hname),
        bind_of_ok (spanFrom_run _ _), bind_of_ok (freshId_run _)]
      rfl
    · simp only [Like, relabel, relabelKey] at *
      rw [he, TokenStream.current_of_tokens hs₂, htv]; rfl
  | computed k =>
    obtain ⟨o, us, c, rfl, ho, hc, hus⟩ := map_lexeme_between has
    simp only [List.length_append, List.length_cons, List.length_nil] at hlen
    have hs : s.tokens = fs ++ o :: (us ++ c :: next :: rest) := by rw [hs]; simp
    have hlead : Leads fuel p s e (o :: (us ++ c :: next :: rest)) :=
      hr.receiver hrw hfs (by omega) hp hs
    refine hlead.operator (by rw [ho]; rfl) hmember (by simp; omega) ?_
    intro e' s₁ he hs₁
    have hs₂ := TokenStream.tokens_next hs₁ (by simp)
    have hnone : power? c.kind = none := by rw [hc]; rfl
    have hopen : s₁.kind ≠ .dot := by rw [TokenStream.kind_of_tokens hs₁, ho]; decide
    obtain ⟨k', s₃, hrun, hlike, hs₃⟩ :=
      (h k rfl).reads (p := .lowest) hw hus (by omega : us.length < fuel) (by decide) hs₂ hnone
    have hclose : s₃.kind = .closeBracket := by rw [TokenStream.kind_of_tokens hs₃, hc]
    refine ⟨.access ⟨s₃.next.nextId, s₃.next.spanFrom e'.span.start⟩ e' (.computed k'),
      { s₃.next with nextId := s₃.next.nextId + 1 }, ?_, ?_, TokenStream.tokens_next hs₃ (by simp)⟩
    · rw [parseOperator, bind_of_ok (kind_run s₁), if_neg hopen, parseIndex,
        bind_of_ok (discard_of_ok (advance_run s₁)), bind_of_ok hrun,
        bind_of_ok (discard_of_ok (expect_run hclose)), bind_of_ok (spanFrom_run _ _),
        bind_of_ok (freshId_run _)]
      rfl
    · simp only [Like, relabel, relabelKey] at *
      rw [he, hlike]; rfl

end

/-! ### All expressions -/

mutual

theorem renders : ∀ e : Expr, e.isWritable → e.Renders quoted
  | .literal node _, h => renders_literal node h
  | .keyword node word, _ => renders_keyword node word
  | .symbol node name, _ => renders_symbol node name
  | .array _ es, h => renders_array h (renders_all es h)
  | .object _ es, h => renders_object h (renders_entries es h)
  | .binary _ _ left right, h => by
    simp only [isWritable, Bool.and_eq_true] at h
    exact renders_binary h.1.1 (renders left h.1.2) h.1.2 (renders right h.2) h.2
  | .unary _ _ operand, h => by
    simp only [isWritable, Bool.and_eq_true] at h
    exact renders_unary h.1 (renders operand h.2) h.2
  | .assign _ _ target value, h => by
    simp only [isWritable, Bool.and_eq_true] at h
    exact renders_assign h.1.1 (renders target h.1.2) h.1.2 (renders value h.2) h.2
  | .access _ receiver key, h => by
    simp only [isWritable, Bool.and_eq_true] at h
    exact renders_access (renders receiver h.1) h.1 h.2 (renders_key key h.2)
  | .call _ callee args, h => by
    simp only [isWritable, Bool.and_eq_true] at h
    exact renders_call (renders callee h.1) h.1 h.2 (renders_all args h.2)
  | .construct _ _ _ args, h => renders_construct h (renders_all args h)
termination_by structural e => e

theorem renders_all : ∀ es : List Expr, allWritable es → ∀ e ∈ es, e.Renders quoted
  | [], _, _, he => by cases he
  | e :: es, h, x, hx => by
    simp only [allWritable, Bool.and_eq_true] at h
    rcases List.mem_cons.1 hx with hx | hx
    · rw [hx]; exact renders e h.1
    · exact renders_all es h.2 x hx
termination_by structural es => es

theorem renders_key : ∀ k : Key Expr, keyWritable k → ∀ e, k = .computed e → e.Renders quoted
  | .name _ _, _, _, he => by cases he
  | .computed e, h, _, rfl => renders e h
termination_by structural k => k

theorem renders_entries : ∀ es : List (Entry Expr), entriesWritable es →
    ∀ x ∈ es, (∀ e, x.key = .computed e → e.Renders quoted) ∧ x.value.Renders quoted
  | [], _, _, hx => by cases hx
  | ⟨key, value⟩ :: es, h, x, hx => by
    simp only [entriesWritable, Bool.and_eq_true] at h
    rcases List.mem_cons.1 hx with hx | hx
    · rw [hx]; exact ⟨renders_key key h.1.1, renders value h.1.2⟩
    · exact renders_entries es h.2 x hx
termination_by structural es => es

end

/-- Reading realises the precedence table: the tokens of an expression, with parentheses only where
they are needed and before a token that continues no expression, are read as that expression up to
labels, and reading stops exactly behind them. -/
theorem parse_rendering (e : Expr) (he : e.isWritable) (s : TokenStream) (ts rest : List Token)
    (next : Token) (hts : ts.map Token.lexeme = e.render quoted)
    (hs : s.tokens = ts ++ next :: rest) (hnext : power? next.kind = none) :
    ∃ e' s', parse .lowest s = .ok e' s' ∧ e'.relabel .erasing = e.relabel .erasing ∧
      s'.tokens = next :: rest := by
  have hlen : ts.length < s.remaining + 1 := by
    have h := congrArg List.length hs
    simp only [TokenStream.tokens, List.length_cons, List.length_append] at h
    rw [TokenStream.remaining]; omega
  obtain ⟨e', s', hrun, hlike, hs'⟩ :=
    (renders quoted e he).reads (p := .lowest) he hts hlen (by decide) hs hnext
  exact ⟨e', s', by rw [parse, bind_of_ok (remaining_run s), hrun], hlike, hs'⟩

/-- The tree of `x = -(a + 1) * (b.f = [c])`. -/
def assignedProduct : Expr :=
  let node : Node := ⟨0, .nowhere⟩
  let operator (kind : TokenKind) (value : String) : Token := ⟨kind, value, .nowhere⟩
  let name (text : String) : Expr := .symbol node text
  let sum := .binary node (operator .plus "+") (name "a") (.literal node (.int 1))
  let member := .access node (name "b") (.name "f" .nowhere)
  let store := .assign node (operator .assignment "=") member (.array node [name "c"])
  .assign node (operator .assignment "=") (name "x")
    (.binary node (operator .star "*") (.unary node (operator .dash "-") sum) store)

/-- The tokens of `x = -(a + 1) * (b.f = [c])`. -/
def assignedProductTokens : List Token :=
  let lexemes : List Lexeme :=
    [(.identifier, "x"), (.assignment, "="), (.dash, "-"), (.openParen, "("), (.identifier, "a"),
     (.plus, "+"), (.number, "1"), (.closeParen, ")"), (.star, "*"), (.openParen, "("),
     (.identifier, "b"), (.dot, "."), (.identifier, "f"), (.assignment, "="), (.openBracket, "["),
     (.identifier, "c"), (.closeBracket, "]"), (.closeParen, ")")]
  lexemes.map fun l => ⟨l.1, l.2, .nowhere⟩

theorem parse_rendering_assignedProduct :
    assignedProduct.isWritable ∧
      ∃ e s, parse .lowest (.ofTokens (assignedProductTokens ++ [.endOf .nowhere]) "main") =
          .ok e s ∧ e.relabel .erasing = assignedProduct.relabel .erasing ∧
        s.tokens = [.endOf .nowhere] :=
  ⟨by decide, parse_rendering (fun _ _ => false) assignedProduct (by decide) _
    assignedProductTokens [] (.endOf .nowhere) (by decide) (by decide) rfl⟩

end ScriptCheck.Expr
