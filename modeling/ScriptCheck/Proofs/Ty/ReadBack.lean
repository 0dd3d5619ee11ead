import Mathlib.Data.Sum.Basic
import ScriptCheck.Proofs.Ty.Members

/-!
Types read back. The written form of a printable type is scanned as the lexemes of the type, these are
read as a reference up to the end, and the reference stands for the type. The induction is on the type
and generalises over the power it is read at and over the token behind it; each construct has a lemma
that its tokens lead to it if those of its parts do.
-/

namespace ScriptCheck

open Parse

namespace Ty

open TypeRef

/-! ### Names and literals -/

section

variable {self : Power → Parse TypeRef} {s s' : TokenStream}

/-- A name is read together with its arguments. -/
theorem parsePrimary_named {args : List TypeRef}
    (h : s.kind = .identifier ∨ s.kind = .kwNull ∨ s.kind = .kwUndefined)
    (hargs : parseArgs self s.next = .ok args s') : parsePrimary self s =
      .ok (.named s.current.value args (s'.spanFrom s.current.span.start)) s' := by
  have hnamed : parsePrimary self s = parseNamed self s := by
    rw [parsePrimary, bind_of_ok (kind_run s)]
    rcases h with h | h | h <;> rw [h]
  rw [hnamed, parseNamed, bind_of_ok (advance_run s), bind_of_ok hargs, bind_of_ok (spanFrom_run _ _)]
  rfl

/-- Without an angle bracket there are no arguments. -/
theorem parseArgs_none (h : s.kind ≠ .less) : parseArgs self s = .ok [] s := by
  rw [parseArgs, bind_of_ok (kind_run s), if_neg h]
  rfl

end

/-- An intrinsic name stands for itself. -/
theorem resolve_intrinsic {name : String} (h : name ∈ intrinsicTypeNames) (harray : name ≠ "Array")
    (span : Span) : Registry.intrinsic.resolve name [] span = .ok (.named name []) := by
  simp only [intrinsicTypeNames, List.mem_cons, List.not_mem_nil, or_false] at h
  rcases h with rfl | rfl | rfl | rfl | rfl | rfl | rfl | rfl | rfl | rfl
  all_goals first | exact absurd rfl harray | rfl

theorem renders_named {name : String} (h : name ∈ intrinsicTypeNames) (harray : name ≠ "Array") :
    (named name []).Renders := by
  intro fuel p ts rest next s hts _ _ hs hnext
  obtain ⟨t, ts', rfl, hk, hv, hnil⟩ := Expr.map_lexeme_cons hts
  obtain rfl := List.map_eq_nil_iff.1 hnil
  have hs₁ : s.next.tokens = next :: rest := TokenStream.tokens_next hs (by simp)
  have hnames : ∀ name ∈ intrinsicTypeNames, (wordLexeme name).1 = .identifier ∨
      (wordLexeme name).1 = .kwNull ∨ (wordLexeme name).1 = .kwUndefined := by decide
  have hless : s.next.kind ≠ .less := by
    rw [TokenStream.kind_of_tokens hs₁]
    exact hnext.notLess
  have hkind : s.kind = (wordLexeme name).1 := by rw [TokenStream.kind_of_tokens hs, hk]
  have hargs : parseArgs (parseWithin fuel) s.next = .ok [] s.next := parseArgs_none hless
  have hrun := parsePrimary_named (hkind ▸ hnames name h) hargs
  rw [TokenStream.current_of_tokens hs, hv] at hrun
  refine leads_of_primary hrun ⟨?_, fun _ => rfl, fun _ _ => rfl⟩ hs₁
  exact resolve_intrinsic h harray _

/-- A literal is read from its lexeme. -/
theorem parseLiteral_run {value : Literal} {s : TokenStream} (h : value.Printable)
    (hs : s.current.lexeme = Expr.literalLexeme value) :
    parseLiteral s = .ok (.literal value s.current.span) s.next := by
  have hk : s.current.kind = (Expr.literalLexeme value).1 := congrArg Prod.fst hs
  have hv : s.current.value = (Expr.literalLexeme value).2 := congrArg Prod.snd hs
  rw [parseLiteral, bind_of_ok (current_run s), hk]
  cases value with
  | int n =>
    obtain ⟨n, rfl⟩ := Int.eq_ofNat_of_zero_le h.1
    have hnumber := Expr.number_run (Int.ofNat_lt.1 h.2) hv
    show (Parse.number >>= _) _ = _
    rw [bind_of_ok hnumber]
    rfl
  | float _ => exact h.elim
  | text text =>
    have hv : s.current.value = text := hv
    rw [← hv]
    rfl
  | bool b => cases b <;> rfl

theorem renders_literal {value : Literal} (h : value.Printable) : (literal value).Renders := by
  intro fuel p ts rest next s hts _ _ hs _
  obtain ⟨t, ts', rfl, hlexeme, hnil⟩ := List.map_eq_cons_iff.1 hts
  obtain rfl := List.map_eq_nil_iff.1 hnil
  have hc := TokenStream.current_of_tokens hs
  have hk : s.kind = (Expr.literalLexeme value).1 :=
    (TokenStream.kind_of_tokens hs).trans (congrArg Prod.fst hlexeme)
  have hliteral := parseLiteral_run h (hc ▸ hlexeme)
  have hrun : parsePrimary (parseWithin fuel) s = .ok (.literal value s.current.span) s.next := by
    rw [parsePrimary, bind_of_ok (kind_run s), hk]
    cases value with
    | bool b => cases b <;> exact hliteral
    | _ => exact hliteral
  exact leads_of_primary hrun ⟨rfl, fun _ => rfl, fun _ _ => rfl⟩ (TokenStream.tokens_next hs (by simp))

/-! ### Arrays -/

theorem renders_array {t : Ty} (h : t.Renders) : (array (some t)).Renders := by
  intro fuel p ts rest next s hts hlen _ hs _
  obtain ⟨name, ts₁, rfl, hname, hvalue, hts₁⟩ := Expr.map_lexeme_cons hts
  obtain ⟨o, us, c, rfl, ho, hc, hus⟩ := Expr.map_lexeme_between hts₁
  simp only [List.length_append, List.length_cons, List.length_nil] at hlen
  have hs : s.tokens = name :: o :: (us ++ c :: next :: rest) := by rw [hs]; simp
  have hs₁ := TokenStream.tokens_next hs (by simp)
  have hs₂ := TokenStream.tokens_next hs₁ (by simp)
  have hone : us.map Token.lexeme = separatedBy (.comma, ",") [t.lexemes] := by
    rw [hus, separatedBy, List.flatMap_nil, List.append_nil]
    rfl
  have hitem (_ : Nat) := (parses_of_renders h fuel).withComma (.inl rfl)
  obtain ⟨rs, s₃, hargs, hrs, hs₃⟩ :=
    manyUntil_takes (R := DenotedBy) (.cons hitem .nil) hone (by omega) hc hs₂
  have hclose : s₃.kind = .greater := by rw [TokenStream.kind_of_tokens hs₃, hc]
  have hless : s.next.kind = .less := by rw [TokenStream.kind_of_tokens hs₁, ho]
  have hread : parseArgs (parseWithin fuel) s.next = .ok rs s₃.next := by
    rw [parseArgs, bind_of_ok (kind_run _), if_pos hless, bind_of_ok (discard_of_ok (advance_run _)),
      commaUntil, bind_of_ok hargs, bind_of_ok (discard_of_ok (expect_run hclose))]
    rfl
  have hkind : s.kind = .identifier := (TokenStream.kind_of_tokens hs).trans hname
  have hrun := parsePrimary_named (.inl hkind) hread
  rw [TokenStream.current_of_tokens hs, hvalue] at hrun
  refine leads_of_primary hrun ⟨?_, fun _ => rfl, fun _ _ => rfl⟩ (TokenStream.tokens_next hs₃ (by simp))
  rw [DenotedBy, toTy, allToTy_of_denotedBy hrs]
  rfl

/-! ### Functions -/

theorem kind_wordLexeme {name : String} (h : isIdentifier name = true) :
    (wordLexeme name).1 = .identifier := by
  rw [isIdentifier, Bool.and_eq_true, Option.isNone_iff_eq_none] at h
  rw [wordLexeme, h.2]
  rfl

/-- A parameter is read as a type and its name. -/
theorem parses_param {name : String} {t : Ty} (hname : isIdentifier name = true) (h : t.Renders)
    (fuel index : Nat) : Parses fuel (t.lexemes ++ [wordLexeme name]) (ParamDenotedBy (name, t))
      (parseParam (parseWithin fuel) index) := by
  intro ts rest next s hts hlen hs _
  obtain ⟨us, ws, rfl, hus, hws⟩ := List.map_eq_append_iff.1 hts
  obtain ⟨w, ws', rfl, hw, hvalue, hnil⟩ := Expr.map_lexeme_cons hws
  obtain rfl := List.map_eq_nil_iff.1 hnil
  simp only [List.length_append, List.length_singleton] at hlen
  have hs : s.tokens = us ++ w :: next :: rest := by rw [hs]; simp
  have hidentifier : w.kind = .identifier := hw.trans (kind_wordLexeme hname)
  obtain ⟨r, s₁, hrun, hr, hs₁, hkinds⟩ :=
    parses_of_renders h fuel hus (by omega) hs (hidentifier ▸ ⟨by decide, rfl⟩)
  have hk : s₁.kind = .identifier := by rw [TokenStream.kind_of_tokens hs₁, hidentifier]
  refine ⟨⟨s₁.current.value, r⟩, s₁.next, ?_, ⟨?_, hr⟩, TokenStream.tokens_next hs₁ (by simp), hkinds⟩
  · rw [parseParam, bind_of_ok hrun, bind_of_ok (kind_run s₁), if_pos hk, bind_of_ok (advance_run s₁)]
    rfl
  · rw [TokenStream.current_of_tokens hs₁, hvalue]
    rfl

theorem renders_function {params : List (String × Ty)} {result : Ty}
    (hparams : List.Forall₂ (fun param ls => ∀ fuel index,
      Parses fuel ls (ParamDenotedBy param) (parseParam (parseWithin fuel) index))
      params (paramLexemes params))
    (hresult : result.Renders) : (function ⟨params, result⟩).Renders := by
  intro fuel p ts rest next s hts hlen _ hs hnext
  obtain ⟨o, ts₁, rfl, ho, -, hts₁⟩ := Expr.map_lexeme_cons hts
  obtain ⟨us, ts₂, rfl, hus, hts₂⟩ := List.map_eq_append_iff.1 hts₁
  obtain ⟨c, ts₃, rfl, hc, -, hts₃⟩ := Expr.map_lexeme_cons hts₂
  obtain ⟨d, vs, rfl, hd, -, hvs⟩ := Expr.map_lexeme_cons hts₃
  simp only [List.length_append, List.length_cons] at hlen
  have hs : s.tokens = o :: (us ++ c :: d :: (vs ++ next :: rest)) := by rw [hs]; simp
  have hs₁ := TokenStream.tokens_next hs (by simp)
  have hitems := hparams.imp fun param ls h index => (h fuel index).withComma (.inr rfl)
  obtain ⟨rs, s₂, hlist, hrs, hs₂⟩ := manyUntil_takes hitems hus (by omega) hc hs₁
  have hs₃ := TokenStream.tokens_next hs₂ (by simp)
  have hs₄ := TokenStream.tokens_next hs₃ (by simp)
  -- the result takes all operators, so that nothing but a token without power may stand behind it
  obtain ⟨fuel, rfl⟩ : ∃ k, fuel = k + 1 := ⟨fuel - 1, by omega⟩
  have hlead : Leads fuel .lowest s₂.next.next (Means result) (next :: rest) :=
    hresult hvs (by omega) result.lowest_lt_reach hs₄ (hnext.mono (Nat.zero_le _))
  obtain ⟨r, s₅, hbody, hr, hs₅⟩ := hlead.ends hnext
  have hopen : s.kind = .openParen := by rw [TokenStream.kind_of_tokens hs, ho]
  have hclose : s₂.kind = .closeParen := by rw [TokenStream.kind_of_tokens hs₂, hc]
  have hcolons : s₂.next.kind = .colonColon := by rw [TokenStream.kind_of_tokens hs₃, hd]
  have hrun : parsePrimary (parseWithin (fuel + 1)) s =
      .ok (.function rs r (s₅.spanFrom s.current.span.start)) s₅ := by
    rw [parsePrimary, bind_of_ok (kind_run s), hopen]
    show parseFunction _ s = _
    rw [parseFunction, bind_of_ok (expect_run hopen), commaUntil, bind_of_ok hlist,
      bind_of_ok (discard_of_ok (expect_run hclose)),
      bind_of_ok (discard_of_ok (expectOr_run hcolons)), bind_of_ok hbody,
      bind_of_ok (spanFrom_run _ _)]
    rfl
  refine leads_of_primary hrun ⟨?_, fun _ => rfl, fun _ _ => rfl⟩ hs₅
  have hresult : r.toTy .intrinsic = .ok result := hr.toTy
  rw [DenotedBy, toTy, paramsToTy_of_denotedBy hrs, hresult]
  rfl

/-! ### Interfaces -/

/-- The type of an entry stands behind a colon. -/
theorem parse_entryType {t : Ty} (h : t.Renders) (fuel : Nat) {o next : Token}
    {us rest : List Token} {s : TokenStream} (ho : o.kind = .colon)
    (hus : us.map Token.lexeme = t.lexemes) (hlen : us.length < fuel)
    (hs : s.tokens = o :: (us ++ next :: rest)) (hnext : IsStop next.kind) :
    ∃ r s', expect .colon s = .ok o s.next ∧ parseWithin fuel .lowest s.next = .ok r s' ∧
      DenotedBy t r ∧ s'.tokens = next :: rest := by
  have hs₁ := TokenStream.tokens_next hs (by simp)
  have hcolon : s.kind = .colon := by rw [TokenStream.kind_of_tokens hs, ho]
  obtain ⟨r, s₂, hrun, hr, hs₂, -⟩ := parses_of_renders h fuel hus hlen hs₁ hnext
  refine ⟨r, s₂, ?_, hrun, hr, hs₂⟩
  rw [expect_run hcolon, TokenStream.current_of_tokens hs]

theorem parseConst_run {s : TokenStream} (h : s.kind = .kwConst) :
    parseConst s = .ok true s.next := by
  rw [parseConst, bind_of_ok (kind_run s), if_pos h]
  rfl

theorem parseConst_none {s : TokenStream} (h : s.kind ≠ .kwConst) : parseConst s = .ok false s := by
  rw [parseConst, bind_of_ok (kind_run s), if_neg h]
  rfl

theorem parses_property {name : String} {t : Ty} (hname : isIdentifier name = true)
    (h : t.Renders) (writable : Bool) (fuel : Nat) :
    Parses fuel ((if writable then [] else [wordLexeme "const"]) ++
        wordLexeme name :: (.colon, ":") :: t.lexemes)
      (PropertyDenotedBy ⟨name, t, writable⟩) (parseProperty (parseWithin fuel)) := by
  intro ts rest next s hts hlen hs hnext
  obtain ⟨ks, ts₁, rfl, hks, hts₁⟩ := List.map_eq_append_iff.1 hts
  obtain ⟨w, ts₂, rfl, hw, hvalue, hts₂⟩ := Expr.map_lexeme_cons hts₁
  obtain ⟨o, us, rfl, ho, -, hus⟩ := Expr.map_lexeme_cons hts₂
  simp only [List.length_append, List.length_cons] at hlen
  have hs : s.tokens = ks ++ w :: o :: (us ++ next :: rest) := by rw [hs]; simp
  have hidentifier : w.kind = .identifier := hw.trans (kind_wordLexeme hname)
  -- the mark of a property that cannot be written to is read first, if it is there
  obtain ⟨s₁, hconst, hs₁, hstart⟩ : ∃ s₁, parseConst s = .ok (!writable) s₁ ∧
      s₁.tokens = w :: o :: (us ++ next :: rest) ∧ (s.kind = .identifier ∨ s.kind = .kwConst) := by
    cases writable with
    | true =>
      obtain rfl := List.map_eq_nil_iff.1 hks
      have hk : s.kind = .identifier := by rw [TokenStream.kind_of_tokens hs, hidentifier]
      exact ⟨s, parseConst_none (by rw [hk]; decide), hs, .inl hk⟩
    | false =>
      obtain ⟨k, ks', rfl, hkind, -, hnil⟩ := Expr.map_lexeme_cons hks
      obtain rfl := List.map_eq_nil_iff.1 hnil
      have hk : s.kind = .kwConst := by rw [TokenStream.kind_of_tokens hs, hkind]; rfl
      exact ⟨s.next, parseConst_run hk, TokenStream.tokens_next hs (by simp), .inr hk⟩
  have hs₂ := TokenStream.tokens_next hs₁ (by simp)
  obtain ⟨r, s₃, hcolon, hrun, hr, hs₃⟩ := parse_entryType h fuel ho hus (by omega) hs₂ hnext
  have hk : s₁.kind = .identifier := by rw [TokenStream.kind_of_tokens hs₁, hidentifier]
  refine ⟨⟨s₁.current.value, r, !!writable⟩, s₃, ?_, ⟨?_, Bool.not_not _, hr⟩, hs₃, ?_⟩
  · rw [parseProperty, bind_of_ok hconst, bind_of_ok (expectOr_run hk),
      bind_of_ok (discard_of_ok hcolon), bind_of_ok hrun]
    rfl
  · rw [TokenStream.current_of_tokens hs₁, hvalue]
    rfl
  · rcases hstart with hstart | hstart <;> rw [hstart] <;> decide

theorem parses_index {t : Ty} (h : t.Renders) (key : IndexKey) (fuel : Nat) :
    Parses fuel ((.openBracket, "[") :: wordLexeme key.display :: (.closeBracket, "]") ::
        (.colon, ":") :: t.lexemes)
      (IndexDenotedBy (key, t)) (parseIndex (parseWithin fuel)) := by
  intro ts rest next s hts hlen hs hnext
  obtain ⟨b, ts₁, rfl, hb, -, hts₁⟩ := Expr.map_lexeme_cons hts
  obtain ⟨w, ts₂, rfl, -, hvalue, hts₂⟩ := Expr.map_lexeme_cons hts₁
  obtain ⟨c, ts₃, rfl, hc, -, hts₃⟩ := Expr.map_lexeme_cons hts₂
  obtain ⟨o, us, rfl, ho, -, hus⟩ := Expr.map_lexeme_cons hts₃
  simp only [List.length_cons] at hlen
  have hs₁ := TokenStream.tokens_next hs (by simp)
  have hs₂ := TokenStream.tokens_next hs₁ (by simp)
  have hs₃ := TokenStream.tokens_next hs₂ (by simp)
  obtain ⟨r, s₄, hcolon, hrun, hr, hs₄⟩ := parse_entryType h fuel ho hus (by omega) hs₃ hnext
  have hclose : s.next.next.kind = .closeBracket := by rw [TokenStream.kind_of_tokens hs₂, hc]
  refine ⟨⟨s.next.current.value, s.next.current.span, r⟩, s₄, ?_, ⟨?_, hr⟩, hs₄, ?_⟩
  · rw [parseIndex, bind_of_ok (discard_of_ok (advance_run s)), bind_of_ok (advance_run s.next),
      bind_of_ok (discard_of_ok (expect_run hclose)), bind_of_ok (discard_of_ok hcolon),
      bind_of_ok hrun]
    rfl
  · rw [TokenStream.current_of_tokens hs₁, hvalue]
    rfl
  · rw [TokenStream.kind_of_tokens hs, hb]
    decide

/-- What an entry of an interface stands for. -/
abbrev EntryDenotedBy : Property Ty ⊕ (IndexKey × Ty) → PropertyRef TypeRef ⊕ IndexRef TypeRef → Prop :=
  Sum.LiftRel PropertyDenotedBy IndexDenotedBy

theorem takes_property {name : String} {t : Ty} (hname : isIdentifier name = true) (h : t.Renders)
    (writable : Bool) (fuel : Nat) :
    Takes .closeCurly fuel ((if writable then [] else [wordLexeme "const"]) ++
        wordLexeme name :: (.colon, ":") :: t.lexemes)
      (EntryDenotedBy (.inl ⟨name, t, writable⟩)) (parseEntry (parseWithin fuel)) := by
  have htakes := (parses_property hname h writable fuel).withSeparator (f := Sum.inl)
    (R := EntryDenotedBy (.inl ⟨name, t, writable⟩)) fun _ ha => .inl ha
  have hentry (s : TokenStream) (hs : s.kind ≠ .openBracket) : parseEntry (parseWithin fuel) s =
      (do let a ← parseProperty (parseWithin fuel); skipSeparator; return .inl a : Parse _) s := by
    rw [parseEntry, bind_of_ok (kind_run s), if_neg hs]
  cases writable with
  | true => exact htakes.congr fun s hs => hentry s (by rw [hs, kind_wordLexeme hname]; decide)
  | false => exact htakes.congr fun s hs => hentry s (by rw [hs]; decide)

theorem takes_index {t : Ty} (h : t.Renders) (key : IndexKey) (fuel : Nat) :
    Takes .closeCurly fuel ((.openBracket, "[") :: wordLexeme key.display :: (.closeBracket, "]") ::
        (.colon, ":") :: t.lexemes)
      (EntryDenotedBy (.inr (key, t))) (parseEntry (parseWithin fuel)) := by
  have htakes := (parses_index h key fuel).withSeparator (f := Sum.inr)
    (R := EntryDenotedBy (.inr (key, t))) fun _ ha => .inr ha
  refine htakes.congr fun s hs => ?_
  rw [parseEntry, bind_of_ok (kind_run s), if_pos hs]

/-- Properties and index signatures are told apart as they are read. -/
theorem entries_denotedBy {props : List (Property Ty)} {index : List (IndexKey × Ty)}
    {rs : List (PropertyRef TypeRef ⊕ IndexRef TypeRef)}
    (h : List.Forall₂ EntryDenotedBy (props.map .inl ++ index.map .inr) rs) :
    List.Forall₂ PropertyDenotedBy props (rs.filterMap Sum.getLeft?) ∧
      List.Forall₂ IndexDenotedBy index (rs.filterMap Sum.getRight?) := by
  induction props generalizing rs with
  | nil =>
    induction index generalizing rs with
    | nil =>
      cases h
      exact ⟨.nil, .nil⟩
    | cons i index ih =>
      cases h with
      | cons hr hrs =>
        cases hr with
        | inr hr => exact ⟨(ih hrs).1, .cons hr (ih hrs).2⟩
  | cons p props ih =>
    cases h with
    | cons hr hrs =>
      cases hr with
      | inl hr => exact ⟨.cons hr (ih hrs).1, (ih hrs).2⟩

theorem renders_interface {props : List (Property Ty)} {index : List (IndexKey × Ty)}
    (hprops : List.Forall₂ (fun p ls => ∀ fuel, Takes .closeCurly fuel ls
      (EntryDenotedBy (.inl p)) (parseEntry (parseWithin fuel))) props (propLexemes props))
    (hindex : List.Forall₂ (fun i ls => ∀ fuel, Takes .closeCurly fuel ls
      (EntryDenotedBy (.inr i)) (parseEntry (parseWithin fuel))) index (indexLexemes index)) :
    (interface ⟨none, props, index⟩).Renders := by
  intro fuel p ts rest next s hts hlen _ hs _
  obtain ⟨o, us, c, rfl, ho, hc, hus⟩ := Expr.map_lexeme_between hts
  simp only [List.length_append, List.length_cons, List.length_nil] at hlen
  have hs : s.tokens = o :: (us ++ c :: next :: rest) := by rw [hs]; simp
  have hs₁ := TokenStream.tokens_next hs (by simp)
  have hentries : List.Forall₂ (fun x ls => ∀ _ : Nat, Takes .closeCurly fuel ls (EntryDenotedBy x)
      (parseEntry (parseWithin fuel))) (props.map .inl ++ index.map .inr)
      (propLexemes props ++ indexLexemes index) :=
    List.rel_append (List.forall₂_map_left_iff.2 (hprops.imp fun _ _ h _ => h fuel))
      (List.forall₂_map_left_iff.2 (hindex.imp fun _ _ h _ => h fuel))
  obtain ⟨rs, s₂, hlist, hrs, hs₂⟩ := manyUntil_takes hentries hus (by omega) hc hs₁
  have hopen : s.kind = .openCurly := by rw [TokenStream.kind_of_tokens hs, ho]
  have hclose : s₂.kind = .closeCurly := by rw [TokenStream.kind_of_tokens hs₂, hc]
  have hrun : parsePrimary (parseWithin fuel) s =
      .ok (.interface (rs.filterMap Sum.getLeft?) (rs.filterMap Sum.getRight?)
        (s₂.next.spanFrom s.current.span.start)) s₂.next := by
    rw [parsePrimary, bind_of_ok (kind_run s), hopen]
    show parseInterface _ s = _
    rw [parseInterface, bind_of_ok (expect_run hopen), bind_of_ok hlist,
      bind_of_ok (discard_of_ok (expect_run hclose)), bind_of_ok (spanFrom_run _ _)]
    rfl
  refine leads_of_primary hrun ⟨?_, fun _ => rfl, fun _ _ => rfl⟩
    (TokenStream.tokens_next hs₂ (by simp))
  obtain ⟨hleft, hright⟩ := entries_denotedBy hrs
  rw [DenotedBy, toTy, propsToTy_of_denotedBy hleft, indexToTy_of_denotedBy hright]
  rfl

/-! ### All types -/

mutual

/-- The tokens of every printable type lead to it. -/
theorem renders : ∀ t : Ty, t.Printable → t.Renders
  | .named _ [], h => renders_named h.1 h.2.1
  | .union members, h => renders_union h (allRender members h.2.2.1)
  | .array (some t), h => renders_array (renders t h)
  | .interface ⟨none, props, index⟩, h =>
    renders_interface (propsTake props h.2.1) (indexTake index h.2.2)
  | .function ⟨params, result⟩, h => renders_function (paramsRead params h.1) (renders result h.2)
  | .literal _, h => renders_literal h
  | .intersection members, h => renders_intersection h (allRender members h.2.2.1)
termination_by structural t => t

theorem allRender : ∀ ts : List Ty, AllPrintable ts → ∀ t ∈ ts, t.Renders
  | [], _ => nofun
  | t :: ts, h => List.forall_mem_cons.2 ⟨renders t h.1, allRender ts h.2⟩
termination_by structural ts => ts

theorem propsTake : ∀ ps : List (Property Ty), PropsPrintable ps →
    List.Forall₂ (fun p ls => ∀ fuel, Takes .closeCurly fuel ls (EntryDenotedBy (.inl p))
      (parseEntry (parseWithin fuel))) ps (propLexemes ps)
  | [], _ => .nil
  | ⟨_, type, writable⟩ :: ps, h =>
    .cons (takes_property h.1 (renders type h.2.1) writable) (propsTake ps h.2.2)
termination_by structural ps => ps

theorem indexTake : ∀ is : List (IndexKey × Ty), IndexPrintable is →
    List.Forall₂ (fun i ls => ∀ fuel, Takes .closeCurly fuel ls (EntryDenotedBy (.inr i))
      (parseEntry (parseWithin fuel))) is (indexLexemes is)
  | [], _ => .nil
  | (key, type) :: is, h => .cons (takes_index (renders type h.1) key) (indexTake is h.2)
termination_by structural is => is

theorem paramsRead : ∀ ps : List (String × Ty), ParamsPrintable ps →
    List.Forall₂ (fun p ls => ∀ fuel index, Parses fuel ls (ParamDenotedBy p)
      (parseParam (parseWithin fuel) index)) ps (paramLexemes ps)
  | [], _ => .nil
  | (_, type) :: ps, h => .cons (parses_param h.1 (renders type h.2.1)) (paramsRead ps h.2.2)
termination_by structural ps => ps

end

/-- A printable type is read back from its written form: the form is scanned, it is read as one type up
to its end, and what is read stands for the type. -/
theorem display_readBack (t : Ty) (h : t.Printable) (file : String) :
    ∃ tokens r s, tokenize t.display file = .ok tokens ∧
      TypeRef.parse .lowest (.ofTokens tokens file) = .ok r s ∧ s.kind = .eof ∧
      r.toTy .intrinsic = .ok t := by
  obtain ⟨ts, last, htokens, hts, hlast⟩ := tokenize_display h file
  have hs := TokenStream.tokens_ofTokens file ts hlast
  have hremaining : (TokenStream.ofTokens (ts ++ [last]) file).remaining = ts.length := by
    have hlength := congrArg List.length hs
    simpa [TokenStream.tokens, TokenStream.remaining] using hlength
  have hend : IsStop last.kind := hlast ▸ ⟨by decide, rfl⟩
  obtain ⟨r, s', hrun, hr, hs', -⟩ :=
    parses_of_renders (renders t h) (ts.length + 1) hts (Nat.lt_succ_self _) hs hend
  refine ⟨ts ++ [last], r, s', htokens, ?_, ?_, hr⟩
  · rw [TypeRef.parse, bind_of_ok (remaining_run _), hremaining, hrun]
  · rw [TokenStream.kind_of_tokens hs', hlast]

/-- A type in which every construct stands inside another, with a text that has to be escaped. -/
def nested : Ty :=
  .interface ⟨none,
    [⟨"call", .fn [("x", .int), ("next", .fn [] .void)] (.union [.array (some .string), .null]),
        false⟩,
      ⟨"tag", .union [.intersection [.interface ⟨none, [], []⟩, .any], .literal (.text "a\n\"b\""),
        .literal (.int 7)], true⟩],
    [(.string, .literal (.bool true))]⟩

theorem nested_readBack :
    nested.Printable ∧ nested.display =
        "\x7b const call: (int x, () :: void next) :: Array<string> | null, " ++
          "tag: \x7b\x7d & any | \"a\\n\\\"b\\\"\" | 7, [string]: true \x7d" ∧
      ∃ tokens r s, tokenize nested.display "main" = .ok tokens ∧
        TypeRef.parse .lowest (.ofTokens tokens "main") = .ok r s ∧ s.kind = .eof ∧
        r.toTy .intrinsic = .ok nested := by
  have hname (name : String) (h : name ∈ intrinsicTypeNames ∧ name ≠ "Array") :
      (singular name).Printable := ⟨h.1, h.2, rfl⟩
  have hresult : (union [.array (some .string), .null]).Printable := by
    refine ⟨by decide, by simp [null, singular], ⟨?_, ?_, trivial⟩,
      by simp [null, singular, isUnion, isFunction]⟩
    · exact hname "string" (by decide)
    · exact hname "null" (by decide)
  have hboth : (intersection [.interface ⟨none, [], []⟩, .any]).Printable := by
    refine ⟨by decide, by simp [any, singular], ⟨⟨rfl, trivial, trivial⟩, ?_, trivial⟩,
      by simp [any, singular, isIntersection, isUnion, isFunction]⟩
    exact hname "any" (by decide)
  have htext : (Literal.text "a\n\"b\"").Printable := by
    have hall : "a\n\"b\"".toList.all isPlain = true := by decide
    exact List.all_eq_true.1 hall
  have htag : (union [.intersection [.interface ⟨none, [], []⟩, .any], .literal (.text "a\n\"b\""),
      .literal (.int 7)]).Printable :=
    ⟨by decide, by simp, ⟨hboth, htext, ⟨by decide, by decide⟩, trivial⟩,
      by simp [isUnion, isFunction]⟩
  have hprintable : nested.Printable := by
    refine ⟨rfl, ⟨by decide, ⟨⟨by decide, ?_, by decide, ⟨trivial, ?_⟩, trivial⟩, hresult⟩,
      by decide, htag, trivial⟩, trivial, trivial⟩
    · exact hname "int" (by decide)
    · exact hname "void" (by decide)
  exact ⟨hprintable, by decide +kernel, display_readBack nested hprintable "main"⟩

end Ty

end ScriptCheck
