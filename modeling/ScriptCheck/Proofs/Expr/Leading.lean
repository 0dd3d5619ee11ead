import ScriptCheck.Proofs.Expr.Rendering
import ScriptCheck.Proofs.Parsing.Steps

/-!
How reading reaches an expression. Reading the tokens of `e` at a power below the tightness of `e`
does not end with `e`: it leads to `e` and goes on with the operators behind it (`Leads`), so that
`e` can become the left operand of what follows. The token behind `e` must not be taken by the
operand that `e` ends with, and `edge` is the tightest operator that is left alone there.
-/

namespace ScriptCheck.Expr

open Parse

/-- Equality up to ids and places. -/
def Like (e e' : Expr) : Prop := e.relabel .erasing = e'.relabel .erasing

/-- Operators up to this rank are not taken by the operand that an expression ends with. -/
def edge : Expr → Nat
  | .binary _ operator _ _ => operatorRank operator.kind
  | .assign _ _ _ _ => Power.comma.rank
  | .unary _ _ _ => Power.unary.rank
  | _ => Power.primary.rank

/-- Below this rank an expression is read as a whole. It ends earlier at the rank of its operator. -/
def reach : Expr → Nat
  | .binary _ operator _ _ => operatorRank operator.kind
  | .assign _ _ _ _ => Power.assignment.rank
  | _ => Power.call.rank

/-- A token binds what stands before it no tighter than the given rank. -/
def Bounded (rank : Nat) (t : Token) : Prop := ∀ q, power? t.kind = some q → q.rank ≤ rank

/-- Reading at a power leads to an expression, behind which the given tokens are left, and goes on
with the operators there. -/
def Leads (fuel : Nat) (p : Power) (s : TokenStream) (e : Expr) (rest : List Token) : Prop :=
  ∃ e' s' n, parseStep (parseWithin fuel) p s = parseOperators (parseWithin fuel) p n e' s' ∧
    e'.Like e ∧ s'.tokens = rest ∧ rest.length ≤ n

theorem Bounded.mono {m n : Nat} {t : Token} (h : Bounded m t) (hmn : m ≤ n) : Bounded n t :=
  fun q hq => Nat.le_trans (h q hq) hmn

theorem bounded_of_none {n : Nat} {t : Token} (h : power? t.kind = none) : Bounded n t := by
  intro q hq
  rw [h] at hq
  cases hq

theorem bounded_of_rank {n : Nat} {t : Token} (h : operatorRank t.kind ≤ n) : Bounded n t := by
  intro q hq
  rw [operatorRank, hq] at h
  exact h

/-! ### Leading to an expression -/

section

variable {fuel : Nat} {p q : Power} {s s' : TokenStream} {e e' : Expr} {t : Token}
  {ts rest : List Token} {self : Power → Parse Expr}

/-- What is read without operators leads to itself. -/
theorem leads_of_primary (h : parsePrimary (parseWithin fuel) s = .ok e' s') (he : e'.Like e)
    (hs : s'.tokens = t :: rest) : Leads fuel p s e (t :: rest) := by
  refine ⟨e', s', s'.remaining + 1, ?_, he, hs, ?_⟩
  · rw [parseStep, bind_of_ok h, bind_of_ok (remaining_run s')]
  · rw [TokenStream.remaining_of_tokens hs]; exact Nat.le_refl _

/-- No operator is taken that does not bind tighter than the power. -/
theorem parseOperators_stop {n : Nat} {left : Expr} (hs : s.tokens = t :: rest)
    (ht : Bounded p.rank t) : parseOperators self p (n + 1) left s = .ok left s := by
  rw [parseOperators, bind_of_ok (kind_run s), TokenStream.kind_of_tokens hs]
  cases hp : power? t.kind with
  | none => rfl
  | some q => simp only [if_pos (ht q hp)]; rfl

/-- Reading ends with the expression it leads to if the token behind it binds no tighter than the
power. -/
theorem Leads.ends (h : Leads fuel p s e (t :: rest)) (ht : Bounded p.rank t) :
    ∃ e' s', parseWithin (fuel + 1) p s = .ok e' s' ∧ e'.Like e ∧ s'.tokens = t :: rest := by
  obtain ⟨e', s', n, hrun, he, hs, hn⟩ := h
  obtain ⟨n, rfl⟩ : ∃ k, n = k + 1 := ⟨n - 1, by simp only [List.length_cons] at hn; omega⟩
  refine ⟨e', s', ?_, he, hs⟩
  rw [parseWithin, hrun, parseOperators_stop hs ht]

/-- An operator that binds tighter than the power makes the expression before it an operand. -/
theorem Leads.operator {left : Expr} (h : Leads fuel p s left (t :: ts))
    (ht : power? t.kind = some q) (hq : p.rank < q.rank) (hlen : rest.length ≤ ts.length)
    (hop : ∀ left' s₁, left'.Like left → s₁.tokens = t :: ts →
      ∃ e' s₂, parseOperator (parseWithin fuel) left' q s₁ = .ok e' s₂ ∧ e'.Like e ∧
        s₂.tokens = rest) :
    Leads fuel p s e rest := by
  obtain ⟨left', s₁, n, hrun, hl, hs₁, hn⟩ := h
  obtain ⟨n, rfl⟩ : ∃ k, n = k + 1 := ⟨n - 1, by simp only [List.length_cons] at hn; omega⟩
  obtain ⟨e', s₂, hstep, he, hs₂⟩ := hop left' s₁ hl hs₁
  refine ⟨e', s₂, n, ?_, he, hs₂, by simp only [List.length_cons] at hn; omega⟩
  have hnot : ¬ q.rank ≤ p.rank := by omega
  rw [hrun, parseOperators, bind_of_ok (kind_run s₁), TokenStream.kind_of_tokens hs₁, ht]
  simp only [if_neg hnot]
  rw [bind_of_ok hstep]

/-- An expression does not start with a comma or with a closing parenthesis or bracket. -/
theorem kind_of_ok (h : parseStep self p s = .ok e s') :
    s.kind ≠ .comma ∧ s.kind ≠ .closeParen ∧ s.kind ≠ .closeBracket := by
  refine ⟨?_, ?_, ?_⟩ <;>
  · intro hk
    have hfail : parsePrimary self s = .error s.unexpectedToken s := by
      rw [parsePrimary, bind_of_ok (kind_run s), hk]; rfl
    rw [parseStep, bind_of_error hfail] at h
    cases h

/-- The tokens that are expressions by themselves. -/
def isAtom : TokenKind → Bool
  | .number | .text | .kwTrue | .kwFalse | .kwNull | .kwUndefined | .identifier | .kwThis => true
  | _ => false

theorem parsePrimary_of_isAtom {self : Power → Parse Expr} (h : isAtom s.kind) :
    parsePrimary self s = parseAtom s := by
  rw [parsePrimary, bind_of_ok (kind_run s)]
  revert h
  cases s.kind <;> intro h <;> first | rfl | cases h

/-- A token that is an expression by itself leads to that expression. -/
theorem leads_of_atom {t' : Token} (hs : s.tokens = t :: t' :: rest) (ht : isAtom t.kind)
    (hatom : parseAtom s = .ok e' { s with nextId := s.nextId + 1 }.next) (he : e'.Like e) :
    Leads fuel p s e (t' :: rest) := by
  have hprimary : parsePrimary (parseWithin fuel) s = parseAtom s :=
    parsePrimary_of_isAtom (by rw [TokenStream.kind_of_tokens hs, ht])
  have hnext : { s with nextId := s.nextId + 1 }.next.tokens = t' :: rest :=
    TokenStream.tokens_next (s := { s with nextId := s.nextId + 1 }) hs (by simp)
  exact leads_of_primary (hprimary.trans hatom) he hnext

end

variable (quoted : String → Span → Bool)

/-- The tokens of an expression lead to it, at every power within its reach and before every token
that its last operand leaves alone. -/
def Renders (e : Expr) : Prop :=
  ∀ ⦃fuel : Nat⦄ ⦃p : Power⦄ ⦃ts rest : List Token⦄ ⦃next : Token⦄ ⦃s : TokenStream⦄,
    ts.map Token.lexeme = e.render quoted → ts.length ≤ fuel → p.rank < e.reach →
    s.tokens = ts ++ next :: rest → Bounded e.edge next → Leads fuel p s e (next :: rest)

section

variable {quoted} {e : Expr} {fuel : Nat} {p : Power} {s : TokenStream} {next t : Token}
  {ts rest : List Token}

/-- The operators of the table that take two operands, with what is done at them. -/
theorem exists_power_of_isBinaryOperator {kind : TokenKind} (h : isBinaryOperator kind) :
    ∃ q, power? kind = some q ∧ q.rank = operatorRank kind ∧ 3 ≤ q.rank ∧ q.rank ≤ 7 ∧
      ∀ (self : Power → Parse Expr) left, parseOperator self left q = parseBinary self left q := by
  unfold isBinaryOperator at h
  split at h <;> rename_i hq
  case h_6 => cases h
  all_goals exact ⟨_, hq, by rw [operatorRank, hq]; rfl, by decide, by decide, fun _ _ => rfl⟩

theorem operatorRank_bounds {kind : TokenKind} (h : isBinaryOperator kind) :
    3 ≤ operatorRank kind ∧ operatorRank kind ≤ 7 := by
  obtain ⟨q, -, hq, h3, h7, -⟩ := exists_power_of_isBinaryOperator h
  omega

theorem tightness_le_reach (e : Expr) : e.tightness ≤ e.reach := by
  cases e <;> simp [tightness, reach, Power.rank]

theorem le_edge {n : Nat} (h3 : 3 ≤ n) (hn : n ≤ e.tightness) : n ≤ e.edge := by
  cases e <;> simp only [tightness, edge, Power.rank] at * <;> omega

theorem two_le_reach (h : e.isWritable) : 2 ≤ e.reach := by
  cases e with
  | binary node operator left right =>
    simp only [isWritable, Bool.and_eq_true] at h
    have := operatorRank_bounds h.1.1
    simp only [reach]; omega
  | _ => simp [reach, Power.rank]

/-- What need not be enclosed behind a unary operator is read as a whole there. -/
theorem unary_lt_reach (h : e.isWritable) (he : Power.unary.rank ≤ e.tightness) :
    Power.unary.rank < e.reach := by
  cases e with
  | binary node operator left right =>
    simp only [isWritable, Bool.and_eq_true] at h
    have := operatorRank_bounds h.1.1
    simp only [tightness, Power.rank] at he; omega
  | assign => simp [tightness, Power.rank] at he
  | _ => simp [reach, Power.rank]

theorem render_ne_nil (quoted : String → Span → Bool) (e : Expr) : e.render quoted ≠ [] := by
  cases e with
  | access node receiver key => cases key <;> simp [render, renderAccess]
  | _ => simp [render]

/-- An expression between tokens that do not continue it is read as it is. -/
theorem Renders.reads (h : e.Renders quoted) (he : e.isWritable)
    (hts : ts.map Token.lexeme = e.render quoted) (hlen : ts.length < fuel)
    (hp : p.rank ≤ Power.comma.rank) (hs : s.tokens = ts ++ next :: rest)
    (hnext : power? next.kind = none) :
    ∃ e' s', parseWithin fuel p s = .ok e' s' ∧ e'.Like e ∧ s'.tokens = next :: rest := by
  obtain ⟨fuel, rfl⟩ : ∃ k, fuel = k + 1 := ⟨fuel - 1, by omega⟩
  have hrank : p.rank < e.reach := Nat.lt_of_le_of_lt hp (two_le_reach he)
  have hlead := h hts (Nat.le_of_lt_succ hlen) hrank hs (bounded_of_none hnext)
  exact hlead.ends (bounded_of_none hnext)

/-- Tokens behind a token whose lexeme is known. -/
theorem map_lexeme_cons {l : Lexeme} {ls : List Lexeme} (h : ts.map Token.lexeme = l :: ls) :
    ∃ t ts', ts = t :: ts' ∧ t.kind = l.1 ∧ t.value = l.2 ∧ ts'.map Token.lexeme = ls := by
  obtain ⟨t, ts', rfl, rfl, hls⟩ := List.map_eq_cons_iff.1 h
  exact ⟨t, ts', rfl, rfl, rfl, hls⟩

/-- A parenthesis is read as what stands inside it. -/
theorem parsePrimary_group {o c : Token} (h : e.Renders quoted) (he : e.isWritable)
    (hts : ts.map Token.lexeme = e.render quoted) (hlen : ts.length < fuel)
    (ho : o.kind = .openParen) (hc : c.kind = .closeParen)
    (hs : s.tokens = o :: (ts ++ c :: next :: rest)) :
    ∃ e' s', parsePrimary (parseWithin fuel) s = .ok e' s' ∧ e'.Like e ∧
      s'.tokens = next :: rest := by
  have hnext : s.next.tokens = ts ++ c :: next :: rest := TokenStream.tokens_next hs (by simp)
  have hc' : power? c.kind = none := by rw [hc]; rfl
  obtain ⟨e', s₁, hrun, hlike, hs₁⟩ :=
    h.reads (p := .lowest) he hts hlen (by decide) hnext hc'
  have hk₁ : s₁.kind = .closeParen := by rw [TokenStream.kind_of_tokens hs₁, hc]
  refine ⟨e', s₁.next, ?_, hlike, TokenStream.tokens_next hs₁ (by simp)⟩
  rw [parsePrimary, bind_of_ok (kind_run s), TokenStream.kind_of_tokens hs, ho]
  show parseGroup (parseWithin fuel) s = _
  rw [parseGroup, bind_of_ok (discard_of_ok (advance_run s)), bind_of_ok hrun,
    bind_of_ok (discard_of_ok (expect_run hk₁))]
  rfl

/-- The tokens of an operand lead to it, whether or not it stands in parentheses. -/
theorem Renders.operand {condition : Bool} (h : e.Renders quoted) (he : e.isWritable)
    (hts : ts.map Token.lexeme = enclose condition (e.render quoted)) (hlen : ts.length ≤ fuel)
    (hp : condition = false → p.rank < e.reach) (hs : s.tokens = ts ++ next :: rest)
    (hnext : condition = false → Bounded e.edge next) : Leads fuel p s e (next :: rest) := by
  cases condition with
  | false => exact h hts hlen (hp rfl) hs (hnext rfl)
  | true =>
    obtain ⟨o, ts₁, rfl, ho, -, hts₁⟩ := map_lexeme_cons hts
    obtain ⟨inner, tail, rfl, hinner, htail⟩ := List.map_eq_append_iff.1 hts₁
    obtain ⟨c, tail', rfl, hc, -, hnil⟩ := map_lexeme_cons htail
    obtain rfl := List.map_eq_nil_iff.1 hnil
    have hlt : inner.length < fuel := by
      simp only [List.length_cons, List.length_append] at hlen; omega
    have hall : s.tokens = o :: (inner ++ c :: next :: rest) := by rw [hs]; simp
    obtain ⟨e', s', hrun, hlike, hs'⟩ := parsePrimary_group h he hinner hlt ho hc hall
    exact leads_of_primary hrun hlike hs'

end

/-! ### Lists -/

/-- The tokens of an item of a list are read as that item, up to what `erase` takes away. -/
def ItemReads {α γ : Type} (close : TokenKind) (item : Nat → Parse α) (limit : Nat)
    (spell : α → List Lexeme) (erase : α → γ) (x : α) : Prop :=
  ∀ (index : Nat) {ts rest : List Token} {next : Token} {s : TokenStream},
    ts.map Token.lexeme = spell x → ts.length < limit → s.tokens = ts ++ next :: rest →
    next.kind = .comma ∨ next.kind = close →
    ∃ x' s', item index s = .ok x' s' ∧ erase x' = erase x ∧ s'.tokens = next :: rest ∧
      s.kind ≠ close

section

variable {α γ : Type} {close : TokenKind} {item : Nat → Parse α} {limit : Nat}
  {spell : α → List Lexeme} {erase : α → γ}

/-- An item is read together with the comma behind it. -/
theorem ItemReads.withComma {x : α} {ts us : List Token} {k : Token} {s : TokenStream}
    (h : ItemReads close item limit spell erase x) (index : Nat) (hclose : close ≠ .comma)
    (hts : ts.map Token.lexeme = spell x) (hlen : ts.length < limit) (hk : k.kind = .comma)
    (hs : s.tokens = ts ++ k :: us) (hus : us ≠ []) :
    ∃ x' s', (do let a ← item index; Parse.comma close; return a : Parse α) s = .ok x' s' ∧
      erase x' = erase x ∧ s'.tokens = us ∧ s.kind ≠ close := by
  obtain ⟨x', s₁, hrun, hx, hs₁, hne⟩ := h index hts hlen hs (.inl hk)
  have hk₁ : s₁.kind = .comma := by rw [TokenStream.kind_of_tokens hs₁, hk]
  refine ⟨x', s₁.next, ?_, hx, TokenStream.tokens_next hs₁ hus, hne⟩
  have hcomma : Parse.comma close s₁ = .ok () s₁.next := by
    rw [Parse.comma, bind_of_ok (kind_run s₁), if_neg (by rw [hk₁]; exact hclose.symm)]
    exact discard_of_ok (expect_run hk₁)
  rw [bind_of_ok hrun, bind_of_ok hcomma]; rfl

/-- The last item is read and the closing token is left. -/
theorem ItemReads.beforeClose {x : α} {ts rest : List Token} {c : Token} {s : TokenStream}
    (h : ItemReads close item limit spell erase x) (index : Nat)
    (hts : ts.map Token.lexeme = spell x) (hlen : ts.length < limit)
    (hc : c.kind = close) (hs : s.tokens = ts ++ c :: rest) :
    ∃ x' s', (do let a ← item index; Parse.comma close; return a : Parse α) s = .ok x' s' ∧
      erase x' = erase x ∧ s'.tokens = c :: rest ∧ s.kind ≠ close := by
  obtain ⟨x', s₁, hrun, hx, hs₁, hne⟩ := h index hts hlen hs (.inr hc)
  have hk₁ : s₁.kind = close := by rw [TokenStream.kind_of_tokens hs₁, hc]
  refine ⟨x', s₁, ?_, hx, hs₁, hne⟩
  have hcomma : Parse.comma close s₁ = .ok () s₁ := by
    rw [Parse.comma, bind_of_ok (kind_run s₁), if_pos hk₁]; rfl
  rw [bind_of_ok hrun, bind_of_ok hcomma]; rfl

/-- A list of items with commas between them is read item by item. -/
theorem itemsUntil_reads {xs : List α} (n index : Nat) {ts rest : List Token} {c : Token}
    {s : TokenStream} (hclose : close ≠ .comma) (hspell : ∀ x, spell x ≠ [])
    (hxs : ∀ x ∈ xs, ItemReads close item limit spell erase x)
    (hts : ts.map Token.lexeme = separate (xs.map spell)) (hlen : ts.length < limit)
    (hc : c.kind = close) (hs : s.tokens = ts ++ c :: rest) (hn : ts.length < n) :
    ∃ xs' s', itemsUntil close (fun index => do let a ← item index; Parse.comma close; return a)
      n index s = .ok xs' s' ∧ xs'.map erase = xs.map erase ∧ s'.tokens = c :: rest := by
  induction xs generalizing n index ts s with
  | nil =>
    obtain rfl := List.map_eq_nil_iff.1 hts
    obtain ⟨n, rfl⟩ : ∃ k, n = k + 1 := ⟨n - 1, by omega⟩
    have hk : s.kind = close := by rw [TokenStream.kind_of_tokens hs, hc]
    exact ⟨[], s, itemsUntil_close hk, rfl, hs⟩
  | cons x xs ih =>
    have hx := hxs x (List.mem_cons_self ..)
    have hrest : ∀ z ∈ xs, ItemReads close item limit spell erase z :=
      fun z hz => hxs z (List.mem_cons_of_mem _ hz)
    obtain ⟨n, rfl⟩ : ∃ k, n = k + 1 := ⟨n - 1, by omega⟩
    obtain ⟨t₁, t₂, rfl, ht₁, ht₂⟩ := List.map_eq_append_iff.1 hts
    have hpos : 0 < t₁.length := by
      rw [← List.length_map Token.lexeme, ht₁]; exact List.length_pos_iff.2 (hspell x)
    simp only [List.length_append] at hlen hn
    cases xs with
    | nil =>
      obtain rfl := List.map_eq_nil_iff.1 ht₂
      rw [List.append_nil] at hs
      obtain ⟨x', s₁, hrun, hx', hs₁, hne⟩ := hx.beforeClose index ht₁ (by omega) hc hs
      obtain ⟨xs', s₂, hmore, hxs', hs₂⟩ :=
        ih n (index + 1) hrest List.map_nil (by rw [List.length_nil]; omega) hs₁
          (by rw [List.length_nil]; omega)
      refine ⟨x' :: xs', s₂, itemsUntil_item hne hrun hmore, ?_, hs₂⟩
      rw [List.map_cons, List.map_cons, hx', hxs']
    | cons y ys =>
      obtain ⟨k, us, rfl, hk, -, hus⟩ := map_lexeme_cons ht₂
      simp only [List.length_cons] at hlen hn
      have hs' : s.tokens = t₁ ++ k :: (us ++ c :: rest) := by rw [hs]; simp
      obtain ⟨x', s₁, hrun, hx', hs₁, hne⟩ :=
        hx.withComma index hclose ht₁ (by omega) hk hs' (by simp)
      obtain ⟨xs', s₂, hmore, hxs', hs₂⟩ := ih n (index + 1) hrest hus (by omega) hs₁ (by omega)
      refine ⟨x' :: xs', s₂, itemsUntil_item hne hrun hmore, ?_, hs₂⟩
      rw [List.map_cons, List.map_cons, hx', hxs']

/-- The same for the whole list. -/
theorem commaUntil_reads {xs : List α} {ts rest : List Token} {c : Token} {s : TokenStream}
    (hclose : close ≠ .comma) (hspell : ∀ x, spell x ≠ [])
    (hxs : ∀ x ∈ xs, ItemReads close item limit spell erase x)
    (hts : ts.map Token.lexeme = separate (xs.map spell)) (hlen : ts.length < limit)
    (hc : c.kind = close) (hs : s.tokens = ts ++ c :: rest) :
    ∃ xs' s', commaUntil close item s = .ok xs' s' ∧ xs'.map erase = xs.map erase ∧
      s'.tokens = c :: rest := by
  have hn : ts.length < s.remaining + 1 := by
    have h := congrArg List.length hs
    simp only [TokenStream.tokens, List.length_cons, List.length_append] at h
    rw [TokenStream.remaining]; omega
  obtain ⟨xs', s', hrun, hxs', hs'⟩ :=
    itemsUntil_reads (s.remaining + 1) 0 hclose hspell hxs hts hlen hc hs hn
  refine ⟨xs', s', ?_, hxs', hs'⟩
  rw [commaUntil, manyUntil, bind_of_ok (remaining_run s), hrun]

end

end ScriptCheck.Expr
