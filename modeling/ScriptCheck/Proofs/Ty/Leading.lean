import ScriptCheck.Proofs.Expr.Precedence
import ScriptCheck.Proofs.Ty.Spelling

/-!
How reading reaches a type. As with expressions, the tokens of a type lead to it and reading goes on
with the operators behind it, so that a member of a union becomes the left operand of what follows.
Members are collected one after the other: behind each of them stands a reference whose members are
those read so far. Items of a list are read together with the comma behind them.
-/

namespace ScriptCheck

open Parse

namespace TypeRef

/-! ### What is read -/

/-- What a reference stands for where nothing has been declared. -/
def DenotedBy (t : Ty) (r : TypeRef) : Prop := r.toTy .intrinsic = .ok t

/-- A reference stands for a type, and it is written as a union or an intersection only if that is
what the type is. -/
structure Means (t : Ty) (r : TypeRef) : Prop where
  toTy : DenotedBy t r
  union : t.isUnion = false → Compound.union.members r = [r]
  intersection : t.isUnion = false → t.isIntersection = false → Compound.intersection.members r = [r]

/-! ### Operators -/

/-- A token behind a type: it does not open arguments, and it binds what stands before it no tighter
than the given rank. -/
structure Bounded (rank : Nat) (t : Token) : Prop where
  notLess : t.kind ≠ .less
  bound : ∀ q, power? t.kind = some q → q.rank ≤ rank

theorem Bounded.mono {m n : Nat} {t : Token} (h : Bounded m t) (hmn : m ≤ n) : Bounded n t :=
  ⟨h.notLess, fun q hq => Nat.le_trans (h.bound q hq) hmn⟩

/-- Reading at a power leads to a reference, behind which the given tokens are left, and goes on with
the operators there. -/
def Leads (fuel : Nat) (p : Power) (s : TokenStream) (Q : TypeRef → Prop) (rest : List Token) :
    Prop :=
  ∃ r s' n, parseStep (parseWithin fuel) p s = parseOperators (parseWithin fuel) p n r s' ∧ Q r ∧
    s'.tokens = rest ∧ rest.length ≤ n

section

variable {fuel : Nat} {p q : Power} {s s' : TokenStream} {r : TypeRef} {t next : Token}
  {ts rest : List Token} {self : Power → Parse TypeRef} {Q R : TypeRef → Prop}

/-- What is read without operators leads to itself. -/
theorem leads_of_primary (h : parsePrimary (parseWithin fuel) s = .ok r s') (hr : Q r)
    (hs : s'.tokens = t :: rest) : Leads fuel p s Q (t :: rest) := by
  refine ⟨r, s', s'.remaining + 1, ?_, hr, hs, ?_⟩
  · rw [parseStep, bind_of_ok h, bind_of_ok (remaining_run s')]
  · rw [TokenStream.remaining_of_tokens hs]
    exact Nat.le_refl _

theorem Leads.imp (h : Leads fuel p s Q rest) (hQR : ∀ r, Q r → R r) : Leads fuel p s R rest := by
  obtain ⟨r, s', n, hrun, hr, hs⟩ := h
  exact ⟨r, s', n, hrun, hQR r hr, hs⟩

/-- No operator is taken that does not bind tighter than the power. -/
theorem parseOperators_stop {n : Nat} (hs : s.tokens = t :: rest) (ht : Bounded p.rank t) :
    parseOperators self p (n + 1) r s = .ok r s := by
  rw [parseOperators, bind_of_ok (kind_run s), TokenStream.kind_of_tokens hs]
  cases hp : power? t.kind with
  | none => rfl
  | some q =>
    simp only [if_pos (ht.bound q hp)]
    rfl

/-- Reading ends with the reference it leads to if the token behind it binds no tighter than the
power. -/
theorem Leads.ends (h : Leads fuel p s Q (t :: rest)) (ht : Bounded p.rank t) :
    ∃ r s', parseWithin (fuel + 1) p s = .ok r s' ∧ Q r ∧ s'.tokens = t :: rest := by
  obtain ⟨r, s', n, hrun, hr, hs, hn⟩ := h
  obtain ⟨n, rfl⟩ : ∃ k, n = k + 1 := ⟨n - 1, by simp only [List.length_cons] at hn; omega⟩
  refine ⟨r, s', ?_, hr, hs⟩
  rw [parseWithin, hrun, parseOperators_stop hs ht]

/-- An operator that binds tighter than the power makes the reference before it an operand. -/
theorem Leads.operator (h : Leads fuel p s Q (t :: ts)) (ht : power? t.kind = some q)
    (hbracket : t.kind ≠ .openBracket) (hq : p.rank < q.rank) (hlen : rest.length ≤ ts.length)
    (hop : ∀ left s₁, Q left → s₁.tokens = t :: ts →
      ∃ r s₂, parseOperator (parseWithin fuel) left q s₁ = .ok r s₂ ∧ R r ∧ s₂.tokens = rest) :
    Leads fuel p s R rest := by
  obtain ⟨left, s₁, n, hrun, hl, hs₁, hn⟩ := h
  obtain ⟨n, rfl⟩ : ∃ k, n = k + 1 := ⟨n - 1, by simp only [List.length_cons] at hn; omega⟩
  obtain ⟨r, s₂, hstep, hr, hs₂⟩ := hop left s₁ hl hs₁
  refine ⟨r, s₂, n, ?_, hr, hs₂, by simp only [List.length_cons] at hn; omega⟩
  have hnot : ¬ q.rank ≤ p.rank := by omega
  rw [hrun, parseOperators, bind_of_ok (kind_run s₁), TokenStream.kind_of_tokens hs₁, ht]
  simp only [if_neg hnot, hbracket, decide_false, Bool.false_and, Bool.false_eq_true, if_false]
  rw [bind_of_ok (lookahead_run 1 s₁), bind_of_ok hstep]

/-- A type starts with a name, a literal or an opening bracket. -/
theorem kind_of_ok (h : parseStep self p s = .ok r s') :
    s.kind ≠ .comma ∧ s.kind ≠ .greater ∧ s.kind ≠ .closeParen ∧ s.kind ≠ .closeCurly := by
  refine ⟨?_, ?_, ?_, ?_⟩ <;>
  · intro hk
    have hfail : parsePrimary self s = .error (s.unexpected "expected a type") s := by
      rw [parsePrimary, bind_of_ok (kind_run s), hk]
      rfl
    rw [parseStep, bind_of_error hfail] at h
    cases h

end

end TypeRef

namespace Ty

/-! ### Types inside others -/

/-- Below this rank a type is read as a whole. -/
def reach : Ty → Nat
  | .union _ => Power.logical.rank
  | .intersection _ => Power.relational.rank
  | _ => Power.call.rank

theorem lowest_lt_reach (t : Ty) : Power.lowest.rank < t.reach := by
  cases t <;> simp [reach, Power.rank]

/-- Operators up to this rank are not taken by what a type ends with. -/
def edge : Ty → Nat
  | .union _ => Power.logical.rank
  | .intersection _ => Power.relational.rank
  | .function _ => Power.lowest.rank
  | _ => Power.primary.rank

/-- The tokens of a type lead to a reference that stands for it, at every power within its reach and
before every token that what it ends with leaves alone. -/
def Renders (t : Ty) : Prop :=
  ∀ ⦃fuel : Nat⦄ ⦃p : Power⦄ ⦃ts rest : List Token⦄ ⦃next : Token⦄ ⦃s : TokenStream⦄,
    ts.map Token.lexeme = t.lexemes → ts.length ≤ fuel → p.rank < t.reach →
    s.tokens = ts ++ next :: rest → TypeRef.Bounded t.edge next →
    TypeRef.Leads fuel p s (TypeRef.Means t) (next :: rest)

end Ty

namespace TypeRef

open Ty (Renders)

/-- A token behind a type inside another: it continues no type. -/
def IsStop (k : TokenKind) : Prop := k ≠ .less ∧ power? k = none

/-- The tokens of something are read as it, before a token that continues no type; they do not start
with a token that could stand behind an item of a list. -/
def Parses {α : Type} (limit : Nat) (ls : List Lexeme) (Q : α → Prop) (m : Parse α) : Prop :=
  ∀ ⦃ts rest : List Token⦄ ⦃next : Token⦄ ⦃s : TokenStream⦄, ts.map Token.lexeme = ls →
    ts.length < limit → s.tokens = ts ++ next :: rest → IsStop next.kind →
    ∃ a s', m s = .ok a s' ∧ Q a ∧ s'.tokens = next :: rest ∧
      s.kind ≠ .comma ∧ s.kind ≠ .greater ∧ s.kind ≠ .closeParen ∧ s.kind ≠ .closeCurly

theorem Bounded.of_isStop {n : Nat} {t : Token} (h : IsStop t.kind) : Bounded n t := by
  refine ⟨h.1, fun q hq => ?_⟩
  rw [h.2] at hq
  cases hq

/-- A type between tokens that do not continue it is read as it is. -/
theorem parses_of_renders {t : Ty} (h : t.Renders) (fuel : Nat) :
    Parses fuel t.lexemes (DenotedBy t) (parseWithin fuel .lowest) := by
  intro ts rest next s hts hlen hs hnext
  obtain ⟨fuel, rfl⟩ : ∃ k, fuel = k + 1 := ⟨fuel - 1, by omega⟩
  obtain ⟨r, s', hrun, hr, hs'⟩ :=
    (h hts (Nat.le_of_lt_succ hlen) t.lowest_lt_reach hs (.of_isStop hnext)).ends (.of_isStop hnext)
  exact ⟨r, s', hrun, hr.toTy, hs', kind_of_ok hrun⟩

/-! ### Lists -/

section

variable {α β : Type} {close : TokenKind} {limit : Nat} {ls : List Lexeme} {Q : α → Prop}
  {item : Parse α}

/-- The tokens of an item of a list are read as it, together with the comma behind it. -/
def Takes (close : TokenKind) (limit : Nat) (ls : List Lexeme) (Q : α → Prop) (m : Parse α) : Prop :=
  ∀ ⦃ts rest : List Token⦄ ⦃next : Token⦄ ⦃s : TokenStream⦄, ts.map Token.lexeme = ls →
    ts.length < limit → s.tokens = ts ++ next :: rest →
    (next.kind = .comma → rest ≠ [] →
      ∃ a s', m s = .ok a s' ∧ Q a ∧ s'.tokens = rest ∧ s.kind ≠ .comma ∧ s.kind ≠ close) ∧
    (next.kind = close →
      ∃ a s', m s = .ok a s' ∧ Q a ∧ s'.tokens = next :: rest ∧ s.kind ≠ .comma ∧ s.kind ≠ close)

/-- Only streams that start with the first lexeme matter. -/
theorem Takes.congr {l : Lexeme} {m m' : Parse α} (h : Takes close limit (l :: ls) Q m)
    (hm : ∀ s, s.kind = l.1 → m' s = m s) : Takes close limit (l :: ls) Q m' := by
  intro ts rest next s hts hlen hs
  have hk : s.kind = l.1 := by
    obtain ⟨t, ts', rfl, hk, -, -⟩ := Expr.map_lexeme_cons hts
    rw [TokenStream.kind_of_tokens hs, hk]
  rw [hm s hk]
  exact h hts hlen hs

/-- Items with commas between them are read one after the other. -/
theorem itemsUntil_takes {item : Nat → Parse α} {R : β → α → Prop} {xs : List β}
    {lss : List (List Lexeme)}
    (h : List.Forall₂ (fun x ls => ∀ index, Takes close limit ls (R x) (item index)) xs lss)
    (n index : Nat) {ts rest : List Token} {c : Token} {s : TokenStream}
    (hts : ts.map Token.lexeme = separatedBy (.comma, ",") lss) (hlen : ts.length < limit)
    (hc : c.kind = close) (hs : s.tokens = ts ++ c :: rest) (hn : ts.length < n) :
    ∃ ys s', itemsUntil close item n index s = .ok ys s' ∧ List.Forall₂ R xs ys ∧
      s'.tokens = c :: rest := by
  induction h generalizing n index ts s with
  | nil =>
    obtain rfl := List.map_eq_nil_iff.1 hts
    obtain ⟨n, rfl⟩ : ∃ k, n = k + 1 := ⟨n - 1, by omega⟩
    have hk : s.kind = close := by rw [TokenStream.kind_of_tokens hs, hc]
    exact ⟨[], s, itemsUntil_close hk, .nil, hs⟩
  | @cons x ls xs lss hx hxs ih =>
    obtain ⟨us, vs, rfl, hus, hvs⟩ := List.map_eq_append_iff.1 hts
    obtain ⟨n, rfl⟩ : ∃ k, n = k + 1 := ⟨n - 1, by omega⟩
    simp only [List.length_append] at hlen hn
    -- the tokens of an item are not empty, since it does not start with what is behind it
    have hpos {next : Token} {tail : List Token} (hs : s.tokens = us ++ next :: tail)
        (hcomma : s.kind ≠ .comma) (hclose : s.kind ≠ close)
        (hnext : next.kind = .comma ∨ next.kind = close) : 0 < us.length := by
      rcases us with _ | ⟨u, us⟩
      · rw [TokenStream.kind_of_tokens hs] at hcomma hclose
        exact (hnext.elim hcomma hclose).elim
      · simp
    cases hxs with
    | nil =>
      obtain rfl := List.map_eq_nil_iff.1 hvs
      rw [List.append_nil] at hs
      obtain ⟨y, s₁, hrun, hy, hs₁, hcomma, hclose⟩ := (hx index hus (by omega) hs).2 hc
      have hlength := hpos hs hcomma hclose (.inr hc)
      obtain ⟨n, rfl⟩ : ∃ k, n = k + 1 := ⟨n - 1, by omega⟩
      have hk : s₁.kind = close := by rw [TokenStream.kind_of_tokens hs₁, hc]
      exact ⟨[y], s₁, itemsUntil_item hclose hrun (itemsUntil_close hk), .cons hy .nil, hs₁⟩
    | cons hx' hxs' =>
      obtain ⟨k, ws, rfl, hk, -, hws⟩ := Expr.map_lexeme_cons hvs
      simp only [List.length_cons] at hlen hn
      rw [List.append_assoc, List.cons_append] at hs
      obtain ⟨y, s₁, hrun, hy, hs₁, hcomma, hclose⟩ :=
        (hx index hus (by omega) hs).1 hk (by simp)
      have hlength := hpos hs hcomma hclose (.inl hk)
      obtain ⟨ys, s₂, hmore, hys, hs₂⟩ := ih n (index + 1) hws (by omega) hs₁ (by omega)
      exact ⟨y :: ys, s₂, itemsUntil_item hclose hrun hmore, .cons hy hys, hs₂⟩

/-- The same for a whole list. -/
theorem manyUntil_takes {item : Nat → Parse α} {R : β → α → Prop} {xs : List β}
    {lss : List (List Lexeme)}
    (h : List.Forall₂ (fun x ls => ∀ index, Takes close limit ls (R x) (item index)) xs lss)
    {ts rest : List Token} {c : Token} {s : TokenStream}
    (hts : ts.map Token.lexeme = separatedBy (.comma, ",") lss) (hlen : ts.length < limit)
    (hc : c.kind = close) (hs : s.tokens = ts ++ c :: rest) :
    ∃ ys s', manyUntil close item s = .ok ys s' ∧ List.Forall₂ R xs ys ∧ s'.tokens = c :: rest := by
  have hn : ts.length < s.remaining + 1 := by
    have hlength := congrArg List.length hs
    simp only [TokenStream.tokens, List.length_cons, List.length_append] at hlength
    rw [TokenStream.remaining]
    omega
  obtain ⟨ys, s', hrun, hys, hs'⟩ := itemsUntil_takes h (s.remaining + 1) 0 hts hlen hc hs hn
  exact ⟨ys, s', by rw [manyUntil, bind_of_ok (remaining_run s), hrun], hys, hs'⟩

/-- An item of a list, with a step behind it that reads a comma if one stands there. -/
theorem Parses.takes {γ : Type} {f : α → γ} {R : γ → Prop} {separator : Parse Unit}
    (h : Parses limit ls Q item) (hf : ∀ a, Q a → R (f a))
    (hclose : close = .greater ∨ close = .closeParen ∨ close = .closeCurly)
    (hcomma : ∀ s, s.kind = .comma → separator s = .ok () s.next)
    (hend : ∀ s, s.kind = close → separator s = .ok () s) :
    Takes close limit ls R (do let a ← item; separator; return f a) := by
  have hends : IsStop close := by rcases hclose with rfl | rfl | rfl <;> exact ⟨by decide, rfl⟩
  intro ts rest next s hts hlen hs
  have hread (hnext : IsStop next.kind) : ∃ a s₁, item s = .ok a s₁ ∧ Q a ∧
      s₁.tokens = next :: rest ∧ s.kind ≠ .comma ∧ s.kind ≠ close := by
    obtain ⟨a, s₁, hrun, ha, hs₁, hstart, hkinds⟩ := h hts hlen hs hnext
    refine ⟨a, s₁, hrun, ha, hs₁, hstart, ?_⟩
    rcases hclose with rfl | rfl | rfl
    · exact hkinds.1
    · exact hkinds.2.1
    · exact hkinds.2.2
  refine ⟨fun hnext hrest => ?_, fun hnext => ?_⟩
  · obtain ⟨a, s₁, hrun, ha, hs₁, hstart⟩ := hread (hnext ▸ ⟨by decide, rfl⟩)
    have hk : s₁.kind = .comma := by rw [TokenStream.kind_of_tokens hs₁, hnext]
    refine ⟨f a, s₁.next, ?_, hf a ha, TokenStream.tokens_next hs₁ hrest, hstart⟩
    rw [bind_of_ok hrun, bind_of_ok (hcomma s₁ hk)]
    rfl
  · obtain ⟨a, s₁, hrun, ha, hs₁, hstart⟩ := hread (hnext ▸ hends)
    have hk : s₁.kind = close := by rw [TokenStream.kind_of_tokens hs₁, hnext]
    refine ⟨f a, s₁, ?_, hf a ha, hs₁, hstart⟩
    rw [bind_of_ok hrun, bind_of_ok (hend s₁ hk)]
    rfl

/-- The item of a list whose commas stand between the items. -/
theorem Parses.withComma (h : Parses limit ls Q item)
    (hclose : close = .greater ∨ close = .closeParen) :
    Takes close limit ls Q (do let a ← item; Parse.comma close; return a) := by
  refine h.takes (fun _ ha => ha) (hclose.imp_right .inl) (fun s hs => ?_) (fun s hs => ?_)
  · have hne : ¬ s.kind = close := by
      rw [hs]
      rcases hclose with rfl | rfl <;> decide
    rw [Parse.comma, bind_of_ok (kind_run s), if_neg hne]
    exact discard_of_ok (expect_run hs)
  · rw [Parse.comma, bind_of_ok (kind_run s), if_pos hs]
    rfl

/-- An entry of an interface, which may have a comma behind it. -/
theorem Parses.withSeparator {γ : Type} {f : α → γ} {R : γ → Prop} (h : Parses limit ls Q item)
    (hf : ∀ a, Q a → R (f a)) :
    Takes .closeCurly limit ls R (do let a ← item; skipSeparator; return f a) := by
  refine h.takes hf (.inr (.inr rfl)) (fun s hs => ?_) (fun s hs => ?_)
  · rw [skipSeparator, bind_of_ok (kind_run s), hs]
    rfl
  · rw [skipSeparator, bind_of_ok (kind_run s), hs]
    rfl

end

end TypeRef

end ScriptCheck
