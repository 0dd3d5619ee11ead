import ScriptCheck.Proofs.Parsing.FreshIds
import ScriptCheck.Proofs.Parts

/-!
What reading puts into a program. The id of an expression is drawn behind those of its parts and so is
the greatest of them; a literal that is read is never NaN, since a floating-point literal has a point;
and unions and intersections are read with at least two members. The invariant that carries the first of
these is that all ids of what was read lie below the next id.
-/

namespace ScriptCheck

/-! ### Numbers -/

theorem Binary64.carry_ne_nan (negative : Bool) (significand : Nat) (exponent : Int) :
    carry negative significand exponent ≠ .nan := by
  unfold carry
  generalize (if significand = powTwo 53 then (powTwo 52, exponent + 1) else (significand, exponent)) = r
  obtain ⟨m, q⟩ := r
  simp only
  split <;> nofun

theorem Binary64.ofRatio_ne_nan (negative : Bool) (num den : Nat) :
    ofRatio negative num den ≠ .nan := by
  unfold ofRatio
  split
  · exact nofun
  · exact carry_ne_nan _ _ _

theorem Decimal.nearest_ne_nan (negative : Bool) (d : Decimal) : d.nearest negative ≠ .nan := by
  unfold nearest
  simp only
  split
  · exact nofun
  · split
    · exact nofun
    · exact Binary64.ofRatio_ne_nan _ _ _

/-- A number with a point in it is not the word for NaN. -/
theorem float?_ne_nan {text : String} (h : '.' ∈ text.toList) : float? text ≠ some .nan := by
  have hbody : '.' ∈ (readSign text.toList).2 := by
    cases hcs : text.toList with
    | nil => rw [hcs] at h; exact h
    | cons c cs =>
      rw [hcs] at h
      simp only [readSign]
      split
      · rename_i hc
        subst hc
        simpa using h
      · split
        · rename_i hc
          subst hc
          simpa using h
        · exact h
  unfold float?
  dsimp only
  split
  · intro hnone
    cases hnone
  · split
    · rename_i hword
      have hmem : '.' ∈ ((readSign text.toList).2.map Char.toLower) :=
        List.mem_map.2 ⟨'.', hbody, by decide⟩
      have hnan : (readSign text.toList).2.map Char.toLower = "nan".toList := by
        rw [← hword, String.toList_ofList]
      rw [hnan] at hmem
      exact absurd hmem (by decide)
    · intro hsome
      obtain ⟨d, -, hd⟩ := Option.map_eq_some_iff.1 hsome
      exact Decimal.nearest_ne_nan _ d hd

theorem Literal.ofNumber?_ne_nan {text : String} {value : Literal}
    (h : ofNumber? text = some value) : value ≠ .float .nan := by
  unfold ofNumber? at h
  split at h
  · rename_i hpoint
    obtain ⟨x, hx, rfl⟩ := Option.map_eq_some_iff.1 h
    rintro ⟨⟩
    exact float?_ne_nan (by simpa using hpoint) hx
  · obtain ⟨n, -, rfl⟩ := Option.map_eq_some_iff.1 h
    nofun

/-! ### Steps -/

open Parse

/-- From a stream whose next id is at least the given one, a step that succeeds comes to a stream of which
this holds too, and to a result that has a property relative to the next id there. -/
def Ensures {α : Type} (n : Nat) (m : Parse α) (Q : Nat → α → Prop) : Prop :=
  ∀ ⦃s t : TokenStream⦄ ⦃a : α⦄, n ≤ s.nextId → m s = .ok a t → n ≤ t.nextId ∧ Q t.nextId a

namespace Ensures

variable {α β γ : Type} {n : Nat} {m : Parse α} {k : α → Parse β} {Q : Nat → α → Prop}
  {R : Nat → β → Prop}

theorem pure {a : α} (h : ∀ n', n ≤ n' → Q n' a) : Ensures n (Pure.pure a) Q := by
  intro s t b hn hrun
  cases hrun
  exact ⟨hn, h _ hn⟩

theorem fails {e : TokenStream → Failure} (h : ∀ s, m s = .error (e s) s) : Ensures n m Q := by
  intro s t a _ hrun
  rw [h] at hrun
  cases hrun

theorem bind (hm : Ensures n m Q) (hk : ∀ a n', n ≤ n' → Q n' a → Ensures n' (k a) R) :
    Ensures n (m >>= k) R := by
  intro s t b hn hrun
  obtain ⟨a, u, hm', hk'⟩ := ok_of_bind hrun
  obtain ⟨hu, ha⟩ := hm hn hm'
  obtain ⟨ht, hb⟩ := hk a _ hu ha (Nat.le_refl _) hk'
  exact ⟨Nat.le_trans hu ht, hb⟩

/-- A step that draws nothing leaves the next id as it is. -/
theorem past {e : Extent} {g : α → γ} {m' : Parse γ} (hm : Lockstep .silent e g m m')
    (hk : ∀ a, Ensures n (k a) R) : Ensures n (m >>= k) R := by
  intro s t b hn hrun
  obtain ⟨a, u, hm', hk'⟩ := ok_of_bind hrun
  have houtcome := hm.outcome s
  rw [hm'] at houtcome
  have heq : u.nextId = s.nextId := houtcome.2.2 id
  exact hk a (heq ▸ hn) hk'

theorem freshId : Ensures n freshId fun n' i => n ≤ i ∧ i < n' := by
  intro s t i hn hrun
  cases hrun
  exact ⟨Nat.le_succ_of_le hn, hn, Nat.lt_succ_self _⟩

theorem number : Ensures n number fun _ value => value ≠ .float .nan := by
  refine past .current fun t => ?_
  cases hvalue : Literal.ofNumber? t.value with
  | some value =>
    exact past (.discarded .advance) fun _ => .pure fun _ _ => Literal.ofNumber?_ne_nan hvalue
  | none => exact .fails fun _ => rfl

theorem afterRemaining {k : Nat → Parse β} (hk : ∀ i, Ensures n (k i) R) :
    Ensures n (remaining >>= k) R := fun s _ _ hn hrun => hk s.remaining hn hrun

theorem afterLookahead {k : TokenKind → Parse β} (hk : ∀ t, Ensures n (k t) R) :
    Ensures n (lookahead 1 >>= k) R := fun s _ _ hn hrun => hk (s.peek 1).kind hn hrun

theorem ite {c : Prop} [Decidable c] {x y : Parse α} (hx : Ensures n x Q) (hy : Ensures n y Q) :
    Ensures n (if c then x else y) Q := by
  by_cases hc : c
  · rw [if_pos hc]; exact hx
  · rw [if_neg hc]; exact hy

/-- A property of every item, if it stays true when more ids are drawn. -/
theorem manyUntil {close : TokenKind} {item : Nat → Parse α}
    (hmono : ∀ {i j : Nat} {a : α}, i ≤ j → Q i a → Q j a)
    (hitem : ∀ n index, Ensures n (item index) Q) :
    Ensures n (Parse.manyUntil close item) fun n' as => ∀ a ∈ as, Q n' a := by
  have hitems : ∀ fuel index n,
      Ensures n (itemsUntil close item fuel index) fun n' as => ∀ a ∈ as, Q n' a := by
    intro fuel
    induction fuel with
    | zero => exact fun _ _ => .fails fun _ => rfl
    | succ fuel ih =>
      intro index n
      refine past .kind fun _ => ite (.pure fun _ _ => nofun) ?_
      refine bind (hitem n index) fun a n₁ _ ha => bind (ih (index + 1) n₁) fun rest n₂ hn₂ hrest => ?_
      refine .pure fun n₃ hn₃ => List.forall_mem_cons.2 ⟨hmono (Nat.le_trans hn₂ hn₃) ha, ?_⟩
      exact fun b hb => hmono hn₃ (hrest b hb)
  exact afterRemaining fun _ => hitems _ _ n

theorem commaUntil {close : TokenKind} {item : Nat → Parse α}
    (hmono : ∀ {i j : Nat} {a : α}, i ≤ j → Q i a → Q j a)
    (hitem : ∀ n index, Ensures n (item index) Q) :
    Ensures n (Parse.commaUntil close item) fun n' as => ∀ a ∈ as, Q n' a := by
  refine manyUntil hmono fun n index => bind (hitem n index) fun a n₁ _ ha => ?_
  exact past (.comma close) fun _ => .pure fun n₂ hn₂ => hmono hn₂ ha

end Ensures

open Ensures (past)

/-! ### References -/

namespace TypeRef

variable {P : Ty → Prop} {self : Power → Parse TypeRef} {n : Nat}

/-- A step that reads a reference reads one that is sound. -/
abbrev Soundly (P : Ty → Prop) (n : Nat) (m : Parse TypeRef) : Prop :=
  Ensures n m fun _ ref => ref.Sound P

theorem parseNamed_sound (hself : ∀ n p, Soundly P n (self p)) : Soundly P n (parseNamed self) := by
  have hargs : ∀ n, Ensures n (parseArgs self) fun _ args => ∀ r ∈ args, r.Sound P := by
    intro n
    refine past .kind fun _ => .ite ?_ (.pure fun _ _ => nofun)
    refine past (.discarded .advance) fun _ => ?_
    refine .bind (.commaUntil (fun _ h => h) fun n _ => hself n _) fun args n₁ _ hargs => ?_
    exact past (.discarded (.expected .greater)) fun _ => .pure fun _ _ => hargs
  refine past .advance fun t => .bind (hargs n) fun args n₁ _ hargs => ?_
  exact past (.spanFrom _) fun span => .pure fun _ _ => .named hargs

theorem parseLiteral_sound (hP : ∀ value, value ≠ .float .nan → P (.literal value)) :
    Soundly P n parseLiteral := by
  refine past .current fun t => ?_
  split
  · exact .bind .number fun value _ _ hvalue => .pure fun _ _ => .literal (hP value hvalue)
  all_goals
    exact past (.discarded .advance) fun _ => .pure fun _ _ => .literal (hP _ nofun)

theorem parseEntry_sound (hself : ∀ n p, Soundly P n (self p)) :
    Ensures n (parseEntry self) fun _ entry =>
      (∀ p ∈ entry.getLeft?, p.type.Sound P) ∧ ∀ x ∈ entry.getRight?, x.type.Sound P := by
  have hseparator : Lockstep .silent .part (fun u => u) skipSeparator skipSeparator :=
    skipSeparator_lockstep
  refine past .kind fun _ => .ite ?_ ?_
  · have hindex : Ensures n (parseIndex self) fun _ x => x.type.Sound P := by
      refine past (.discarded .advance) fun _ => past .advance fun key => ?_
      refine past (.discarded (.expected .closeBracket)) fun _ => ?_
      refine past (.discarded (.expected .colon)) fun _ => ?_
      exact .bind (hself n _) fun type _ _ htype => .pure fun _ _ => htype
    refine .bind hindex fun x n₁ _ hx => past hseparator fun _ => .pure fun _ _ => ⟨nofun, ?_⟩
    exact fun y hy => Option.some.inj hy ▸ hx
  · have hproperty : Ensures n (parseProperty self) fun _ p => p.type.Sound P := by
      refine past parseConst_lockstep fun isConst => past (.expectedOr .identifier _) fun name => ?_
      refine past (.discarded (.expected .colon)) fun _ => ?_
      exact .bind (hself n _) fun type _ _ htype => .pure fun _ _ => htype
    refine .bind hproperty fun p n₁ _ hp => past hseparator fun _ => .pure fun _ _ => ⟨?_, nofun⟩
    exact fun q hq => Option.some.inj hq ▸ hp

theorem parseInterface_sound (hself : ∀ n p, Soundly P n (self p)) :
    Soundly P n (parseInterface self) := by
  refine past (.expected .openCurly) fun first => ?_
  refine .bind (.manyUntil (fun _ h => h) fun n _ => parseEntry_sound hself)
    fun entries n₁ _ hentries => ?_
  refine past (.discarded (.expected .closeCurly)) fun _ => past (.spanFrom _) fun span => ?_
  refine .pure fun _ _ => .interface (fun p hp => ?_) fun x hx => ?_
  · obtain ⟨entry, hentry, hleft⟩ := List.mem_filterMap.1 hp
    exact (hentries entry hentry).1 p hleft
  · obtain ⟨entry, hentry, hright⟩ := List.mem_filterMap.1 hx
    exact (hentries entry hentry).2 x hright

theorem parseFunction_sound (hself : ∀ n p, Soundly P n (self p)) :
    Soundly P n (parseFunction self) := by
  have hparam : ∀ n index, Ensures n (parseParam self index) fun _ p => p.type.Sound P := by
    intro n index
    refine .bind (hself n _) fun type n₁ _ htype => past .kind fun _ => .ite ?_ ?_
    · exact past .advance fun name => .pure fun _ _ => htype
    · exact .pure fun _ _ => htype
  refine past (.expected .openParen) fun first => ?_
  refine .bind (.commaUntil (fun _ h => h) hparam) fun params n₁ _ hparams => ?_
  refine past (.discarded (.expected .closeParen)) fun _ => ?_
  refine past (.discarded (.expectedOr .colonColon _)) fun _ => ?_
  refine .bind (hself n₁ _) fun result _ _ hresult => past (.spanFrom _) fun span => ?_
  exact .pure fun _ _ => .function hparams hresult

theorem parsePrimary_sound (hP : ∀ value, value ≠ .float .nan → P (.literal value))
    (hself : ∀ n p, Soundly P n (self p)) : Soundly P n (parsePrimary self) := by
  refine past .kind fun k => ?_
  cases k
  case identifier | kwNull | kwUndefined => exact parseNamed_sound hself
  case openCurly => exact parseInterface_sound hself
  case openParen => exact parseFunction_sound hself
  case number | text | kwTrue | kwFalse => exact parseLiteral_sound hP
  all_goals exact .fails (unexpected_run _)

theorem Compound.sound_members (c : Compound) {r : TypeRef} (h : r.Sound P) : ∀ t ∈ c.members r, t.Sound P := by
  unfold members
  split
  · cases h with
    | union _ parts => exact parts
  · cases h with
    | intersection _ parts => exact parts
  · exact List.forall_mem_singleton.2 h

theorem Compound.sound_join (c : Compound) {left right : TypeRef} (hleft : left.Sound P)
    (hright : right.Sound P) : (c.join left right).Sound P := by
  have hne : c.members left ++ [right] ≠ [] := by simp
  have hall := List.forall_mem_append.2 ⟨c.sound_members hleft, List.forall_mem_singleton.2 hright⟩
  cases c with
  | union => exact .union (absurd · hne) hall
  | intersection => exact .intersection (absurd · hne) hall

theorem parseOperator_sound (hself : ∀ n p, Soundly P n (self p)) {left : TypeRef}
    (hleft : left.Sound P) (p : Power) : Soundly P n (parseOperator self left p) := by
  refine past .kind fun k => ?_
  split
  · refine past (.discarded .advance) fun _ => .bind (hself n _) fun right _ _ hright => ?_
    exact .pure fun _ _ => Compound.sound_join _ hleft hright
  · refine past (.discarded .advance) fun _ => .bind (hself n _) fun right _ _ hright => ?_
    exact .pure fun _ _ => Compound.sound_join _ hleft hright
  · refine past (.discarded (.expected .openBracket)) fun _ => ?_
    refine past (.discarded (.expected .closeBracket)) fun _ => past (.spanFrom _) fun span => ?_
    exact .pure fun _ _ => .array hleft

theorem parseOperators_sound (hself : ∀ n p, Soundly P n (self p)) {p : Power} :
    ∀ (fuel n : Nat) {left : TypeRef}, left.Sound P → Soundly P n (parseOperators self p fuel left)
  | 0, _, _, _ => .fails fun _ => rfl
  | fuel + 1, n, left, hleft => by
    have hdone : Soundly P n (Pure.pure left) := .pure fun _ _ => hleft
    have hmore : ∀ q, Soundly P n (do
        let joined ← parseOperator self left q
        parseOperators self p fuel joined) := fun q =>
      .bind (parseOperator_sound hself hleft q) fun joined n₁ _ hjoined =>
        parseOperators_sound hself fuel n₁ hjoined
    refine past .kind fun k => ?_
    split
    · exact hdone
    · refine .ite hdone ?_
      by_cases hbracket : k = .openBracket
      · simp only [hbracket, decide_true, Bool.true_and]
        exact .afterLookahead fun k' => .ite hdone (hmore _)
      · simp only [hbracket, decide_false, Bool.false_and]
        exact hmore _

theorem parseWithin_sound (hP : ∀ value, value ≠ .float .nan → P (.literal value)) :
    ∀ (fuel n : Nat) (p : Power), Soundly P n (parseWithin fuel p)
  | 0, _, _ => .fails fun _ => rfl
  | fuel + 1, n, p => by
    refine .bind (parsePrimary_sound hP (parseWithin_sound hP fuel)) fun left n₁ _ hleft => ?_
    exact .afterRemaining fun _ => parseOperators_sound (parseWithin_sound hP fuel) _ n₁ hleft

/-- A reference that is read writes out ordinary literals, and no union or intersection of nothing. -/
theorem parse_sound (hP : ∀ value, value ≠ .float .nan → P (.literal value)) (n : Nat) (p : Power) :
    Soundly P n (parse p) := .afterRemaining fun _ => parseWithin_sound hP _ n p

end TypeRef

/-! ### Expressions -/

namespace Expr

namespace Sound

variable {n n' : Nat} {e : Expr}

theorem mono (hn : n ≤ n') (h : e.Sound n) : e.Sound n' :=
  ⟨fun i hi => Nat.lt_of_lt_of_le (h.below i hi) hn, h.parts⟩

/-- An expression is put together from sound parts, with an id that was drawn behind theirs. -/
theorem of_parts {ids : List Nat} {subterms : List Expr} (hids : e.ids = ids ++ [e.id])
    (hsubterms : e.subterms = e :: subterms) (hbelow : ∀ i ∈ ids, i < n) (hid : n ≤ e.id ∧ e.id < n')
    (hliteral : e.IsOrdinary) (hparts : ∀ x ∈ subterms, x.Rises ∧ x.IsOrdinary) : e.Sound n' := by
  refine ⟨fun i hi => ?_, ?_⟩
  · rw [hids] at hi
    rcases List.mem_append.1 hi with hi | hi
    · exact Nat.lt_trans (Nat.lt_of_lt_of_le (hbelow i hi) hid.1) hid.2
    · exact List.mem_singleton.1 hi ▸ hid.2
  · rw [hsubterms]
    refine List.forall_mem_cons.2 ⟨⟨⟨ids, hids, fun i hi => ?_⟩, hliteral⟩, hparts⟩
    exact Nat.lt_of_lt_of_le (hbelow i hi) hid.1

end Sound

/-- Expressions in a list are sound. -/
def AllSound (n : Nat) (es : List Expr) : Prop := ∀ e ∈ es, e.Sound n

/-- The expressions of a key are sound. -/
def KeySound (n : Nat) : Key Expr → Prop
  | .name _ _ => True
  | .computed e => e.Sound n

/-- The expressions of an entry are sound. -/
def EntrySound (n : Nat) (e : Entry Expr) : Prop := KeySound n e.key ∧ e.value.Sound n

variable {n n' : Nat} {self : Power → Parse Expr} {p : Power} {left : Expr}

theorem AllSound.below {es : List Expr} (h : AllSound n es) : ∀ i ∈ idsAll es, i < n := by
  intro i hi
  rw [idsAll_eq_flatMap] at hi
  obtain ⟨e, he, hi⟩ := List.mem_flatMap.1 hi
  exact (h e he).below i hi

theorem AllSound.parts {es : List Expr} (h : AllSound n es) :
    ∀ x ∈ subtermsAll es, x.Rises ∧ x.IsOrdinary := by
  intro x hx
  rw [subtermsAll_eq_flatMap] at hx
  obtain ⟨e, he, hx⟩ := List.mem_flatMap.1 hx
  exact (h e he).parts x hx

theorem KeySound.mono (hn : n ≤ n') : ∀ {k : Key Expr}, KeySound n k → KeySound n' k
  | .name _ _, _ => trivial
  | .computed _, h => Sound.mono hn h

theorem KeySound.below : ∀ {k : Key Expr}, KeySound n k → ∀ i ∈ idsKey k, i < n
  | .name _ _, _ => nofun
  | .computed _, h => Sound.below h

theorem KeySound.parts : ∀ {k : Key Expr}, KeySound n k → ∀ x ∈ subtermsKey k, x.Rises ∧ x.IsOrdinary
  | .name _ _, _ => nofun
  | .computed _, h => Sound.parts h

theorem parseAtom_sound : Ensures n parseAtom fun n' e => e.Sound n' := by
  have hatom : ∀ {i m : Nat} {e : Expr}, n ≤ i ∧ i < m → e.ids = [e.id] → e.subterms = [e] →
      e.id = i → e.IsOrdinary → ∀ m', m ≤ m' → e.Sound m' := by
    intro i m e hi hids hsubterms hid hliteral m' hm'
    subst hid
    rw [← List.nil_append [e.id]] at hids
    refine .of_parts (n := n) hids hsubterms nofun ⟨hi.1, ?_⟩ hliteral nofun
    exact Nat.lt_of_lt_of_le hi.2 hm'
  refine .bind .freshId fun i m _ hi => past .current fun t => ?_
  dsimp only
  split
  case h_1 =>
    refine .bind .number fun value m₁ hm₁ hvalue => .pure fun m' hm' => ?_
    exact hatom (e := .literal _ value) hi rfl rfl rfl hvalue m' (Nat.le_trans hm₁ hm')
  case h_2 | h_3 | h_4 =>
    exact past (.discarded .advance) fun _ => .pure (hatom hi rfl rfl rfl nofun)
  case h_9 => exact .fails unexpectedToken_run
  all_goals exact past (.discarded .advance) fun _ => .pure (hatom hi rfl rfl rfl trivial)

theorem parseUnary_sound (hself : ∀ n p, Ensures n (self p) fun n' e => e.Sound n') :
    Ensures n (parseUnary self) fun n' e => e.Sound n' := by
  refine past .advance fun operator => .bind (hself n _) fun operand n₁ _ hoperand => ?_
  refine .bind .freshId fun i n₂ _ hi => .pure fun n₃ hn₃ => ?_
  exact .of_parts (n := n₁) rfl rfl hoperand.below ⟨hi.1, Nat.lt_of_lt_of_le hi.2 hn₃⟩ trivial
    hoperand.parts

theorem parseGroup_sound (hself : ∀ n p, Ensures n (self p) fun n' e => e.Sound n') :
    Ensures n (parseGroup self) fun n' e => e.Sound n' := by
  refine past (.discarded .advance) fun _ => .bind (hself n _) fun e n₁ _ he => ?_
  exact past (.discarded (.expected .closeParen)) fun _ => .pure fun _ hn => he.mono hn

theorem parseArgs_sound (hself : ∀ n p, Ensures n (self p) fun n' e => e.Sound n') :
    Ensures n (parseArgs self) AllSound := by
  refine past (.discarded (.expected .openParen)) fun _ => ?_
  refine .bind (.commaUntil (fun hn h => h.mono hn) fun n _ => hself n _) fun args n₁ _ hargs => ?_
  refine past (.discarded (.expected .closeParen)) fun _ => .pure fun _ hn => ?_
  exact fun e he => (hargs e he).mono hn

theorem parseArray_sound (hself : ∀ n p, Ensures n (self p) fun n' e => e.Sound n') :
    Ensures n (parseArray self) fun n' e => e.Sound n' := by
  refine past .advance fun first => ?_
  refine .bind (.commaUntil (fun hn h => h.mono hn) fun n _ => hself n _) fun elements n₁ _ h => ?_
  have helements : AllSound n₁ elements := h
  refine past (.discarded (.expected .closeBracket)) fun _ => past (.spanFrom _) fun span => ?_
  refine .bind .freshId fun i n₂ _ hi => .pure fun n₃ hn₃ => ?_
  exact .of_parts (n := n₁) rfl rfl helements.below ⟨hi.1, Nat.lt_of_lt_of_le hi.2 hn₃⟩ trivial
    helements.parts

theorem parseKey_sound (hself : ∀ n p, Ensures n (self p) fun n' e => e.Sound n') :
    Ensures n (parseKey self) KeySound := by
  refine past .kind fun k => ?_
  split
  · exact past .advance fun t => .pure fun _ _ => trivial
  · exact past .advance fun t => .pure fun _ _ => trivial
  · refine past (.discarded .advance) fun _ => .bind (hself n _) fun key n₁ _ hkey => ?_
    exact past (.discarded (.expected .closeBracket)) fun _ => .pure fun _ hn => hkey.mono hn
  · exact .fails (unexpected_run _)

theorem parseEntry_sound (hself : ∀ n p, Ensures n (self p) fun n' e => e.Sound n') :
    Ensures n (parseEntry self) EntrySound := by
  refine .bind (parseKey_sound hself) fun key n₁ _ hkey => ?_
  refine past (.discarded (.expected .colon)) fun _ => .bind (hself n₁ _) fun value n₂ hn₂ hvalue => ?_
  exact .pure fun _ hn₃ => ⟨hkey.mono (Nat.le_trans hn₂ hn₃), hvalue.mono hn₃⟩

theorem parseObject_sound (hself : ∀ n p, Ensures n (self p) fun n' e => e.Sound n') :
    Ensures n (parseObject self) fun n' e => e.Sound n' := by
  refine past .advance fun first => ?_
  refine .bind (.commaUntil (fun hn h => ⟨h.1.mono hn, h.2.mono hn⟩) fun n _ => parseEntry_sound hself)
    fun entries n₁ _ hentries => ?_
  refine past (.discarded (.expected .closeCurly)) fun _ => past (.spanFrom _) fun span => ?_
  refine .bind .freshId fun i n₂ _ hi => .pure fun n₃ hn₃ => ?_
  refine .of_parts (n := n₁) rfl rfl ?_ ⟨hi.1, Nat.lt_of_lt_of_le hi.2 hn₃⟩ trivial ?_
  · intro j hj
    rw [idsEntries_eq_flatMap] at hj
    obtain ⟨entry, hentry, hj⟩ := List.mem_flatMap.1 hj
    rcases List.mem_append.1 hj with hj | hj
    · exact (hentries entry hentry).1.below j hj
    · exact (hentries entry hentry).2.below j hj
  · intro x hx
    rw [subtermsEntries_eq_flatMap] at hx
    obtain ⟨entry, hentry, hx⟩ := List.mem_flatMap.1 hx
    rcases List.mem_append.1 hx with hx | hx
    · exact (hentries entry hentry).1.parts x hx
    · exact (hentries entry hentry).2.parts x hx

theorem parseConstruct_sound (hself : ∀ n p, Ensures n (self p) fun n' e => e.Sound n') :
    Ensures n (parseConstruct self) fun n' e => e.Sound n' := by
  refine past .advance fun first => past (.expectedOr .identifier _) fun name => ?_
  refine .bind .freshId fun classId n₁ _ hclass => .bind (parseArgs_sound hself) fun args n₂ hn₂ hargs => ?_
  refine past (.spanFrom _) fun span => .bind .freshId fun i n₃ _ hi => .pure fun n₄ hn₄ => ?_
  have hbelow : ∀ j ∈ classId :: idsAll args, j < n₂ :=
    List.forall_mem_cons.2 ⟨Nat.lt_of_lt_of_le hclass.2 hn₂, hargs.below⟩
  exact .of_parts rfl rfl hbelow ⟨hi.1, Nat.lt_of_lt_of_le hi.2 hn₄⟩ trivial hargs.parts

theorem parsePrimary_sound (hself : ∀ n p, Ensures n (self p) fun n' e => e.Sound n') :
    Ensures n (parsePrimary self) fun n' e => e.Sound n' := by
  refine past .kind fun k => ?_
  cases k
  case number | identifier | text | kwTrue | kwFalse | kwNull | kwUndefined | kwThis =>
    exact parseAtom_sound
  case dash | bang | plusPlus | minusMinus => exact parseUnary_sound hself
  case openParen => exact parseGroup_sound hself
  case openBracket => exact parseArray_sound hself
  case openCurly => exact parseObject_sound hself
  case kwNew => exact parseConstruct_sound hself
  all_goals exact .fails unexpectedToken_run

/-- What an operator adds to the expression before it, if its parts have the given ids and subterms. -/
theorem Sound.joined {e right : Expr} (hids : e.ids = left.ids ++ right.ids ++ [e.id])
    (hsubterms : e.subterms = e :: (left.subterms ++ right.subterms)) (hleft : left.Sound n)
    (hright : right.Sound n) (hid : n ≤ e.id ∧ e.id < n') (hliteral : e.IsOrdinary) : e.Sound n' :=
  .of_parts (n := n) hids hsubterms (List.forall_mem_append.2 ⟨hleft.below, hright.below⟩) hid hliteral
    (List.forall_mem_append.2 ⟨hleft.parts, hright.parts⟩)

theorem parseOperator_sound (hself : ∀ n p, Ensures n (self p) fun n' e => e.Sound n')
    (hleft : left.Sound n) : Ensures n (parseOperator self left p) fun n' e => e.Sound n' := by
  have hassign : Ensures n (parseAssign self left) fun n' e => e.Sound n' := by
    refine past .advance fun operator => .bind (hself n _) fun value n₁ hn₁ hvalue => ?_
    refine .bind .freshId fun i n₂ _ hi => .pure fun n₃ hn₃ => ?_
    exact .joined rfl rfl (hleft.mono hn₁) hvalue ⟨hi.1, Nat.lt_of_lt_of_le hi.2 hn₃⟩ trivial
  have hcall : Ensures n (parseCall self left) fun n' e => e.Sound n' := by
    refine .bind (parseArgs_sound hself) fun args n₁ hn₁ hargs => past (.spanFrom _) fun span => ?_
    refine .bind .freshId fun i n₂ _ hi => .pure fun n₃ hn₃ => ?_
    have hcallee := hleft.mono hn₁
    exact .of_parts (n := n₁) rfl rfl (List.forall_mem_append.2 ⟨hcallee.below, hargs.below⟩)
      ⟨hi.1, Nat.lt_of_lt_of_le hi.2 hn₃⟩ trivial (List.forall_mem_append.2 ⟨hcallee.parts, hargs.parts⟩)
  have haccess : ∀ {key : Key Expr} {i n₁ n₂ n₃ : Nat} {span : Span}, n ≤ n₁ → KeySound n₁ key →
      n₁ ≤ i ∧ i < n₂ → n₂ ≤ n₃ → (Expr.access ⟨i, span⟩ left key).Sound n₃ := by
    intro key i n₁ n₂ n₃ span hn₁ hkey hi hn₃
    have hreceiver := hleft.mono hn₁
    exact .of_parts (n := n₁) rfl rfl (List.forall_mem_append.2 ⟨hreceiver.below, hkey.below⟩)
      ⟨hi.1, Nat.lt_of_lt_of_le hi.2 hn₃⟩ trivial (List.forall_mem_append.2 ⟨hreceiver.parts, hkey.parts⟩)
  have hmember : Ensures n (parseMember left) fun n' e => e.Sound n' := by
    refine past (.discarded .advance) fun _ => past (.expectedOr .identifier _) fun name => ?_
    refine past (.spanFrom _) fun span => .bind .freshId fun i n₁ _ hi => ?_
    exact .pure fun n₂ hn₂ => haccess (Nat.le_refl n) trivial hi hn₂
  have hindex : Ensures n (parseIndex self left) fun n' e => e.Sound n' := by
    refine past (.discarded .advance) fun _ => .bind (hself n _) fun key n₁ hn₁ hkey => ?_
    refine past (.discarded (.expected .closeBracket)) fun _ => past (.spanFrom _) fun span => ?_
    exact .bind .freshId fun i n₂ _ hi => .pure fun n₃ hn₃ => haccess hn₁ hkey hi hn₃
  have hbinary : Ensures n (parseBinary self left p) fun n' e => e.Sound n' := by
    refine past .advance fun operator => .bind (hself n _) fun right n₁ hn₁ hright => ?_
    refine .bind .freshId fun i n₂ _ hi => .pure fun n₃ hn₃ => ?_
    exact .joined rfl rfl (hleft.mono hn₁) hright ⟨hi.1, Nat.lt_of_lt_of_le hi.2 hn₃⟩ trivial
  cases p
  case assignment => exact hassign
  case call => exact hcall
  case member => exact past .kind fun _ => .ite hmember hindex
  all_goals exact hbinary

theorem parseOperators_sound (hself : ∀ n p, Ensures n (self p) fun n' e => e.Sound n') :
    ∀ (fuel n : Nat) {left : Expr}, left.Sound n →
      Ensures n (parseOperators self p fuel left) fun n' e => e.Sound n'
  | 0, _, _, _ => .fails fun _ => rfl
  | fuel + 1, n, left, hleft => by
    have hdone : Ensures n (Pure.pure left) fun n' e => e.Sound n' := .pure fun _ hn => hleft.mono hn
    refine past .kind fun k => ?_
    split
    · exact hdone
    · refine .ite hdone (.bind (parseOperator_sound hself hleft) fun joined n₁ _ hjoined => ?_)
      exact parseOperators_sound hself fuel n₁ hjoined

theorem parseWithin_sound :
    ∀ (fuel n : Nat) (p : Power), Ensures n (parseWithin fuel p) fun n' e => e.Sound n'
  | 0, _, _ => .fails fun _ => rfl
  | fuel + 1, n, p => by
    refine .bind (parsePrimary_sound (parseWithin_sound fuel)) fun left n₁ _ hleft => ?_
    exact .afterRemaining fun _ => parseOperators_sound (parseWithin_sound fuel) _ n₁ hleft

/-- An expression that is read is sound. -/
theorem parse_sound (n : Nat) (p : Power) : Ensures n (parse p) fun n' e => e.Sound n' :=
  .afterRemaining fun _ => parseWithin_sound _ n p

end Expr

/-! ### Statements -/

namespace Stmt

variable {P : Ty → Prop} {self : Parse Stmt} {n : Nat}

/-- A step that reads a statement reads well. -/
abbrev ReadsWell (P : Ty → Prop) (n : Nat) (m : Parse Stmt) : Prop :=
  Ensures n m fun _ s => WellRead P s.roots s.refs

theorem parseInitializer_wellRead :
    Ensures n parseInitializer fun _ value => WellRead P value.toList [] := by
  refine past .kind fun _ => .ite ?_ (.pure fun _ _ => .nil)
  refine past (.discarded .advance) fun _ => .bind (Expr.parse_sound n _) fun e _ _ he => ?_
  exact .pure fun _ _ => .cons he .nil

theorem parseBlockOf_wellRead (hself : ∀ n, ReadsWell P n self) :
    Ensures n (parseBlockOf self) fun _ b => WellRead P (rootsAll b.body) (refsAll b.body) := by
  refine past (.expected .openCurly) fun first => ?_
  refine .bind (.manyUntil (fun _ h => h) fun n _ => hself n) fun body _ _ hbody => ?_
  refine past (.discarded (.expected .closeCurly)) fun _ => past (.spanFrom _) fun span => ?_
  refine .pure fun _ _ => ?_
  rw [rootsAll_eq_flatMap, refsAll_eq_flatMap]
  exact .flatMap hbody

theorem parseIf_wellRead (hself : ∀ n, ReadsWell P n self) : ReadsWell P n (parseIf self) := by
  refine past .advance fun first => .bind (Expr.parse_sound n _) fun condition n₁ _ hcondition => ?_
  refine .bind (hself n₁) fun onTrue n₂ _ htrue => past .kind fun _ => .ite ?_ ?_
  · refine past (.discarded .advance) fun _ => .bind (hself n₂) fun onFalse _ _ hfalse => ?_
    exact past (.spanFrom _) fun span => .pure fun _ _ => .cons hcondition (htrue.append hfalse)
  · exact past (.spanFrom _) fun span => .pure fun _ _ => .cons hcondition (htrue.append .nil)

theorem parseWhile_wellRead (hself : ∀ n, ReadsWell P n self) : ReadsWell P n (parseWhile self) := by
  refine past .advance fun first => .bind (Expr.parse_sound n _) fun condition n₁ _ hcondition => ?_
  refine .bind (hself n₁) fun body _ _ hbody => ?_
  exact past (.spanFrom _) fun span => .pure fun _ _ => .cons hcondition hbody

theorem parseFor_wellRead (hself : ∀ n, ReadsWell P n self) : ReadsWell P n (parseFor self) := by
  refine past .advance fun first => past (.expectedOr .identifier _) fun name => ?_
  refine past (.discarded (.expected .kwIn)) fun _ => ?_
  refine .bind (Expr.parse_sound n _) fun iterable n₁ _ hiterable => ?_
  refine .bind (parseBlockOf_wellRead hself) fun body _ _ hbody => ?_
  exact past (.spanFrom _) fun span => .pure fun _ _ => .cons hiterable hbody

theorem parseReturn_wellRead : ReadsWell P n parseReturn := by
  refine past .advance fun first => past .kind fun _ => .ite ?_ ?_
  · refine past (.discarded (.expected .semicolon)) fun _ => past (.spanFrom _) fun span => ?_
    exact .pure fun _ _ => .nil
  · refine .bind (Expr.parse_sound n _) fun value _ _ hvalue => ?_
    refine past (.discarded (.expected .semicolon)) fun _ => past (.spanFrom _) fun span => ?_
    exact .pure fun _ _ => .cons hvalue .nil

theorem parseVariable_wellRead (start : Position) (isConst : Bool) {type : Option TypeRef}
    (htype : ∀ r ∈ type, r.Sound P) : ReadsWell P n (parseVariable start isConst type) := by
  refine past (.expectedOr .identifier _) fun name => ?_
  refine .bind (parseInitializer_wellRead (P := P)) fun value _ _ hvalue => ?_
  refine past (requireValue_lockstep isConst type value) fun _ => ?_
  refine past (.discarded (.expected .semicolon)) fun _ => past (.spanFrom _) fun span => ?_
  exact .pure fun _ _ => ⟨hvalue.exprs, fun r hr => htype r (Option.mem_toList.1 hr)⟩

section

variable (hP : ∀ value, value ≠ .float .nan → P (.literal value))
include hP

theorem parseVarDecl_wellRead : ReadsWell P n parseVarDecl := by
  refine past .advance fun first => past .kind fun k => .afterLookahead fun k' => ?_
  refine .ite (parseVariable_wellRead _ _ nofun) ?_
  refine .bind (TypeRef.parse_sound hP n _) fun type _ _ htype => parseVariable_wellRead _ _ ?_
  exact fun r hr => Option.mem_some.1 hr ▸ htype

theorem parseFn_wellRead (hself : ∀ n, ReadsWell P n self) :
    Ensures n (parseFn self) fun _ f => WellRead P (rootsFn f) (refsFn f) := by
  have hparam : ∀ n (_ : Nat), Ensures n parseParam fun _ p => p.type.Sound P := by
    intro n _
    refine past .position fun start => .bind (TypeRef.parse_sound hP n _) fun type _ _ htype => ?_
    refine past (.expectedOr .identifier _) fun name => past (.spanFrom _) fun span => ?_
    exact .pure fun _ _ => htype
  have hresult : ∀ n, Ensures n parseResult fun _ result => ∀ r ∈ result, r.Sound P := by
    intro n
    refine past .kind fun _ => .ite ?_ (.pure fun _ _ => nofun)
    refine past (.discarded .advance) fun _ => .bind (TypeRef.parse_sound hP n _) fun type _ _ htype => ?_
    exact .pure fun _ _ r hr => Option.mem_some.1 hr ▸ htype
  refine past (.expected .kwFn) fun first => past (.expectedOr .identifier _) fun name => ?_
  refine past (.discarded (.expected .openParen)) fun _ => ?_
  refine .bind (.commaUntil (fun _ h => h) hparam) fun params n₁ _ hparams => ?_
  refine past (.discarded (.expected .closeParen)) fun _ => .bind (hresult n₁) fun result _ _ hresult => ?_
  refine .bind (parseBlockOf_wellRead hself) fun body _ _ hbody => past (.spanFrom _) fun span => ?_
  have htypes : WellRead P [] (params.map (·.type) ++ result.toList) := by
    refine ⟨nofun, List.forall_mem_append.2 ⟨?_, fun r hr => hresult r (Option.mem_toList.1 hr)⟩⟩
    intro r hr
    obtain ⟨p, hp, rfl⟩ := List.mem_map.1 hr
    exact hparams p hp
  exact .pure fun _ _ => htypes.append hbody

/-- The outermost expressions of a member of a class. -/
def rootsMember : FieldDecl ⊕ MethodDecl Stmt → List Expr
  | .inl field => field.value.toList
  | .inr method => rootsFn method.function

/-- The references of a member of a class. -/
def refsMember : FieldDecl ⊕ MethodDecl Stmt → List TypeRef
  | .inl field => [field.type]
  | .inr method => refsFn method.function

theorem parseMember_wellRead (hself : ∀ n, ReadsWell P n self) :
    Ensures n (parseMember self) fun _ m => WellRead P (rootsMember m) (refsMember m) := by
  refine past .position fun start => .afterRemaining fun i => ?_
  refine past (parseModifiers_lockstep (i + 1) (i + 1) .none (Nat.le_refl _) fun _ => rfl)
    fun modifiers => past .kind fun _ => .ite ?_ ?_
  · exact .bind (parseFn_wellRead hP hself) fun function _ _ hfunction => .pure fun _ _ => hfunction
  · refine .bind (TypeRef.parse_sound hP n _) fun type _ _ htype => ?_
    refine past (.expectedOr .identifier _) fun name => ?_
    refine .bind (parseInitializer_wellRead (P := P)) fun value _ _ hvalue => ?_
    refine past (.discarded (.expected .semicolon)) fun _ => past (.spanFrom _) fun span => ?_
    exact .pure fun _ _ => ⟨hvalue.exprs, List.forall_mem_singleton.2 htype⟩

theorem parseClass_wellRead (hself : ∀ n, ReadsWell P n self) : ReadsWell P n (parseClass self) := by
  refine past .advance fun first => past (.expectedOr .identifier _) fun name => ?_
  refine past (.register _) fun _ => past parseSuperclass_lockstep fun superclass => ?_
  refine past parseMixins_lockstep fun mixins => past (.discarded (.expected .openCurly)) fun _ => ?_
  refine .bind (.manyUntil (fun _ h => h) fun n _ => parseMember_wellRead hP hself)
    fun members _ _ hmembers => ?_
  refine past (.discarded (.expected .closeCurly)) fun _ => past (.spanFrom _) fun span => ?_
  refine .pure fun _ _ => ?_
  have hfield : ∀ f ∈ members.filterMap Sum.getLeft?, WellRead P f.value.toList [f.type] := by
    intro f hf
    obtain ⟨m, hm, hleft⟩ := List.mem_filterMap.1 hf
    obtain rfl := Sum.getLeft?_eq_some_iff.1 hleft
    exact hmembers _ hm
  have hmethod : ∀ m ∈ members.filterMap Sum.getRight?,
      WellRead P (rootsFn m.function) (refsFn m.function) := by
    intro f hf
    obtain ⟨m, hm, hright⟩ := List.mem_filterMap.1 hf
    obtain rfl := Sum.getRight?_eq_some_iff.1 hright
    exact hmembers _ hm
  have hfields := WellRead.flatMap hfield
  have hmethods := WellRead.flatMap hmethod
  rw [← rootsMethods_eq_flatMap, ← refsMethods_eq_flatMap] at hmethods
  rw [← List.map_eq_flatMap] at hfields
  exact hfields.append hmethods

theorem parseTypes_wellRead : ReadsWell P n parseInterface ∧ ReadsWell P n parseTypeDecl := by
  refine ⟨?_, ?_⟩
  · refine past .advance fun first => past (.expectedOr .identifier _) fun name => ?_
    refine past (.register _) fun _ => ?_
    refine .bind (TypeRef.parseInterface_sound fun n p => TypeRef.parse_sound hP n p)
      fun type _ _ htype => past (.spanFrom _) fun span => ?_
    exact .pure fun _ _ => ⟨nofun, List.forall_mem_singleton.2 htype⟩
  · refine past .advance fun first => past (.expectedOr .identifier _) fun name => ?_
    refine past (.register _) fun _ => past (.discarded (.expected .assignment)) fun _ => ?_
    refine .bind (TypeRef.parse_sound hP n _) fun type _ _ htype => ?_
    refine past (.discarded (.expected .semicolon)) fun _ => past (.spanFrom _) fun span => ?_
    exact .pure fun _ _ => ⟨nofun, List.forall_mem_singleton.2 htype⟩

theorem parsePlain_wellRead : ReadsWell P n parsePlain := by
  have htyped : ReadsWell P n parseTyped := by
    refine past .position fun start => .bind (TypeRef.parse_sound hP n _) fun type _ _ htype => ?_
    exact parseVariable_wellRead _ _ fun r hr => Option.mem_some.1 hr ▸ htype
  have hexpr : ReadsWell P n parseExpr := by
    refine .bind (Expr.parse_sound n _) fun e _ _ he => ?_
    refine past (.discarded (.expected .semicolon)) fun _ => past (.spanFrom _) fun span => ?_
    exact .pure fun _ _ => .cons he .nil
  intro s t a hn hrun
  rw [parsePlain_run] at hrun
  split at hrun
  · exact htyped hn hrun
  · exact hexpr hn hrun

theorem parseStep_wellRead (hself : ∀ n, ReadsWell P n self) : ReadsWell P n (parseStep self) := by
  refine past .kind fun k => ?_
  cases k
  case kwConst | kwLet => exact parseVarDecl_wellRead hP
  case kwIf => exact parseIf_wellRead hself
  case kwWhile => exact parseWhile_wellRead hself
  case kwFor => exact parseFor_wellRead hself
  case openCurly =>
    exact .bind (parseBlockOf_wellRead hself) fun block _ _ hblock => .pure fun _ _ => hblock
  case kwFn =>
    exact .bind (parseFn_wellRead hP hself) fun function _ _ hfunction => .pure fun _ _ => hfunction
  case kwReturn => exact parseReturn_wellRead
  case kwBreak | kwContinue =>
    refine past .advance fun t => past (.discarded (.expected .semicolon)) fun _ => ?_
    exact past (.spanFrom _) fun span => .pure fun _ _ => .nil
  case kwClass => exact parseClass_wellRead hP hself
  case kwInterface => exact (parseTypes_wellRead hP).1
  case kwType => exact (parseTypes_wellRead hP).2
  all_goals exact parsePlain_wellRead hP

theorem parseWithin_wellRead : ∀ fuel n, ReadsWell P n (parseWithin fuel)
  | 0, _ => .fails fun _ => rfl
  | fuel + 1, _ => parseStep_wellRead hP (parseWithin_wellRead fuel)

end

end Stmt

/-- The expressions of a program that is read rise to their ids, and its literals and references are
ordinary. -/
theorem Block.parse_wellRead {P : Ty → Prop} (hP : ∀ value, value ≠ .float .nan → P (.literal value))
    {s t : TokenStream} {block : Block} (h : Block.parse s = .ok block t) :
    WellRead P (Stmt.rootsAll block.body) (Stmt.refsAll block.body) := by
  have hfrom : Ensures 0 (parseFrom ⟨0, s.file⟩) fun _ b =>
      WellRead P (Stmt.rootsAll b.body) (Stmt.refsAll b.body) := by
    refine .bind (.manyUntil (fun _ h => h) fun n _ =>
      .afterRemaining fun _ => Stmt.parseWithin_wellRead hP _ n) fun body _ _ hbody => ?_
    refine past (.spanFrom _) fun span => .pure fun _ _ => ?_
    rw [Stmt.rootsAll_eq_flatMap, Stmt.refsAll_eq_flatMap]
    exact .flatMap hbody
  exact (hfrom (Nat.zero_le _) h).2

end ScriptCheck
