import ScriptCheck.Proofs.Parsing.Anchored
import ScriptCheck.Proofs.Parsing.Seam

/-!
Reading never turns back, and it comes to an end. From every place in every list of tokens, whichever
names are types, a reading step leaves the stream where it was or further on, also if it fails; a type,
an expression and a statement that are read have taken a token. So the fuel of a step always suffices,
with more of it nothing changes, and a program that is read leaves the stream at a mark of its end.
-/

namespace ScriptCheck

open Parse

/-! ### Never back -/

/-- The stream that a step leaves, also if it fails. -/
def streamBehind {α : Type} : EStateM.Result Failure TokenStream α → TokenStream
  | .ok _ t => t
  | .error _ t => t

theorem TokenStream.tokens_next_suffix (s : TokenStream) : s.next.tokens <:+ s.tokens := by
  obtain ⟨file, current, upcoming, previousEnd, typeNames, nextId⟩ := s
  cases upcoming with
  | nil => exact List.suffix_rfl
  | cons t ts => exact List.suffix_cons current (t :: ts)

/-- What is left of the tokens is steady. -/
theorem steady_tokens (c : Terms) : Steady c fun s t => t.tokens <:+ s.tokens where
  refl _ := List.suffix_rfl
  trans hst htu := htu.trans hst
  next s := s.tokens_next_suffix
  register s name := ⟨[], s.tokens_register name⟩
  freshId _ _ := List.suffix_rfl

/-- No step puts back a token that it has taken. -/
theorem Lockstep.forward {c : Terms} {α β : Type} {e : Extent} {g : α → β} {m : Parse α}
    {m' : Parse β} (h : Lockstep c e g m m') (s : TokenStream) :
    (streamBehind (m s)).tokens <:+ s.tokens := by
  have hkeeps := h.keeps (steady_tokens c) s
  generalize m s = run at hkeeps ⊢
  cases run with
  | ok a t => exact hkeeps
  | error e t => exact hkeeps.1

/-! ### Enough fuel -/

theorem TokenStream.relabel_same (s : TokenStream) : s.relabel .same = s := by
  have hupcoming : s.upcoming.map (Token.relabel .same) = s.upcoming := List.map_id'' (fun _ => rfl) _
  rw [relabel, hupcoming]
  rfl

/-- With more fuel a step does what it has done with enough. -/
theorem Lockstep.eq_of_unstuck {α : Type} {e : Extent} {g : α → α} {m m' : Parse α}
    (h : Lockstep ⟨.same, False, True⟩ e g m m') (hg : ∀ a, g a = a) {s : TokenStream}
    (hs : Unstuck (m s)) : m' s = m s := by
  have hrun := h.relabeled_of_fuel (fun _ => rfl) s (.inr hs)
  rw [s.relabel_same] at hrun
  rw [hrun]
  cases m s with
  | ok a t => rw [relabelOutcome, hg, t.relabel_same]
  | error e t =>
    rw [relabelOutcome, t.relabel_same]
    cases e <;> rfl

theorem GetsOn.unstuck {α : Type} {P : Position → Prop} {k : Nat} {Q : α → Prop} {s : TokenStream} :
    ∀ {r : EStateM.Result Failure TokenStream α}, GetsOn P k Q s r → Unstuck r
  | .ok _ _, _ => trivial
  | .error _ _, ⟨_, he, _⟩ => by
    rw [he]
    nofun

/-! ### Closed streams -/

/-- Every place in a list of tokens is before the end that the list has or gets. -/
theorem TokenStream.stands_of_suffix {tokens : List Token} {file : String} {s : TokenStream}
    (hs : s.tokens <:+ (ofTokens tokens file).tokens) : s.Stands fun _ => True := by
  obtain ⟨ts, last, hlast, htokens⟩ : ∃ ts last, last.kind = .eof ∧
      (ofTokens tokens file).tokens = ts ++ [last] := by
    by_cases hclosed : tokens.getLast?.map Token.kind = some .eof
    · obtain ⟨last, hlast, hkind⟩ := Option.map_eq_some_iff.1 hclosed
      obtain ⟨ts, rfl⟩ := List.getLast?_eq_some_iff.1 hlast
      exact ⟨ts, last, hkind, tokens_ofTokens file ts hkind⟩
    · refine ⟨tokens, Token.endOf ⟨⟨0, file⟩, ⟨0, file⟩⟩, rfl, ?_⟩
      simp only [ofTokens, TokenStream.tokens, if_neg hclosed]
      cases tokens <;> rfl
  rw [htokens] at hs
  obtain ⟨before, hbefore⟩ := hs
  have hlast? : s.tokens.getLast? = some last := by
    have hboth := congrArg List.getLast? hbefore
    rwa [List.getLast?_append, List.getLast?_concat, TokenStream.tokens, List.getLast?_cons,
      Option.some_or, ← List.getLast?_cons] at hboth
  refine ⟨fun t ht => ?_, fun _ _ => trivial⟩
  rw [hlast?] at ht
  cases ht
  exact hlast

/-! ### Reading steps -/

/-- The steps that read single tokens. -/
inductive Token.Reading : {α : Type} → Parse α → Prop
  | next : Reading advance
  | expected (wanted : TokenKind) : Reading (expect wanted)
  | expectedOr (wanted : TokenKind) (message : String) : Reading (expectOr wanted message)
  | comma (close : TokenKind) : Reading (comma close)
  | number : Reading number

/-- The steps that read types. -/
inductive TypeRef.Reading : {α : Type} → Parse α → Prop
  | args : Reading (parseArgs parse)
  | named : Reading (parseNamed parse)
  | literal : Reading parseLiteral
  | index : Reading (parseIndex parse)
  | const : Reading parseConst
  | property : Reading (parseProperty parse)
  | separator : Reading skipSeparator
  | entry : Reading (parseEntry parse)
  | interface : Reading (parseInterface parse)
  | param (index : Nat) : Reading (parseParam parse index)
  | function : Reading (parseFunction parse)
  | primary : Reading (parsePrimary parse)
  | operator (left : TypeRef) (power : Power) : Reading (parseOperator parse left power)
  | operators (left : TypeRef) (power : Power) :
      Reading do parseOperators parse power ((← remaining) + 1) left
  | type (power : Power) : Reading (parse power)

/-- The steps that read expressions. -/
inductive Expr.Reading : {α : Type} → Parse α → Prop
  | atom : Reading parseAtom
  | unary : Reading (parseUnary parse)
  | group : Reading (parseGroup parse)
  | args : Reading (parseArgs parse)
  | array : Reading (parseArray parse)
  | key : Reading (parseKey parse)
  | entry : Reading (parseEntry parse)
  | object : Reading (parseObject parse)
  | construct : Reading (parseConstruct parse)
  | primary : Reading (parsePrimary parse)
  | binary (left : Expr) (power : Power) : Reading (parseBinary parse left power)
  | assign (target : Expr) : Reading (parseAssign parse target)
  | call (callee : Expr) : Reading (parseCall parse callee)
  | member (object : Expr) : Reading (parseMember object)
  | index (object : Expr) : Reading (parseIndex parse object)
  | operator (left : Expr) (power : Power) : Reading (parseOperator parse left power)
  | operators (left : Expr) (power : Power) :
      Reading do parseOperators parse power ((← remaining) + 1) left
  | expr (power : Power) : Reading (parse power)

/-- The steps that read statements and programs. -/
inductive Stmt.Reading : {α : Type} → Parse α → Prop
  | initializer : Reading parseInitializer
  | requirement (isConst : Bool) (type : Option TypeRef) (value : Option Expr) :
      Reading (requireValue isConst type value)
  | var (start : Position) (isConst : Bool) (type : Option TypeRef) :
      Reading (parseVariable start isConst type)
  | varDecl : Reading parseVarDecl
  | block : Reading parseBlock
  | blockStmt : Reading (parseBlockStmt parse)
  | ifElse : Reading (parseIf parse)
  | whileLoop : Reading (parseWhile parse)
  | forIn : Reading (parseFor parse)
  | param : Reading parseParam
  | result : Reading parseResult
  | fn : Reading (parseFn parse)
  | ret : Reading parseReturn
  | jump : Reading parseJump
  | names : Reading do parseNames ((← remaining) + 1)
  | superclass : Reading parseSuperclass
  | mixins : Reading parseMixins
  | modifiers (m : Modifiers) : Reading do parseModifiers ((← remaining) + 1) m
  | member : Reading (parseMember parse)
  | classDecl : Reading (parseClass parse)
  | interface : Reading parseInterface
  | typeDecl : Reading parseTypeDecl
  | typed : Reading parseTyped
  | expr : Reading parseExpr
  | plain : Reading parsePlain
  | stmt : Reading parse
  | program : Reading Block.parse

/-- The steps that read from a stream. -/
inductive Reading {α : Type} (m : Parse α) : Prop
  | tokens : Token.Reading m → Reading m
  | types : TypeRef.Reading m → Reading m
  | exprs : Expr.Reading m → Reading m
  | stmts : Stmt.Reading m → Reading m

/-- A step that never turns back, and whose fuel suffices on streams that have an end. -/
structure Onward {α : Type} (m : Parse α) : Prop where
  forward : ∀ s, (streamBehind (m s)).tokens <:+ s.tokens
  unstuck : ∀ s, s.Stands (fun _ => True) → Unstuck (m s)

section

variable {α : Type} {m : Parse α}

theorem Onward.of_reads {β : Type} {e : Extent} {g : α → β} {m' : Parse β} {k : Nat} {Q : α → Prop}
    (hlockstep : Lockstep ⟨.same, True, True⟩ e g m m')
    (hreads : ∀ n, Reads (fun _ => True) (fun _ => True) (n + 1) k Q m) : Onward m :=
  ⟨hlockstep.forward, fun s hs => (hreads s.remaining hs trivial (Nat.lt_succ_self _)).unstuck⟩

/-- A step that takes the token it starts at goes on even where this is the last one. -/
theorem Onward.of_opens {β : Type} {e : Extent} {g : α → β} {m' : Parse β} {Q : α → Prop}
    (hlockstep : Lockstep ⟨.same, True, True⟩ e g m m')
    (hopens : ∀ n, Opens (fun _ => True) (fun _ => True) n Q m) : Onward m :=
  .of_reads hlockstep fun n => (hopens (n + 1)).stayed

/-- A loop takes its fuel from the stream that it starts on. -/
theorem Onward.of_fuel {β : Type} {e : Extent} {g : α → β} {loop : Nat → Parse α}
    {loop' : Nat → Parse β} {k : Nat} {Q : α → Prop}
    (hlockstep : ∀ r, Lockstep ⟨.same, True, True⟩ e g (loop r) (loop' r))
    (hreads : ∀ r, Reads (fun _ => True) (fun _ => True) (r + 1) k Q (loop r)) :
    Onward (remaining >>= loop) := by
  have hboth : Lockstep ⟨.same, True, True⟩ e g (remaining >>= loop) (remaining >>= loop') :=
    .fuel fun r r' _ heq => by
      obtain rfl : r = r' := heq trivial
      exact hlockstep r
  exact .of_reads hboth fun _ => .afterRemaining fun r _ => hreads r

theorem Token.Reading.onward (h : Token.Reading m) : Onward m := by
  cases h with
  | next => exact .of_opens .advance fun _ => .advance
  | expected wanted =>
    exact .of_reads (.expected wanted) fun _ => .afterKind fun _ _ =>
      .ite (fun _ => Reads.advance) fun _ => .unexpectedToken
  | expectedOr wanted message =>
    exact .of_reads (.expectedOr wanted message) fun _ => .afterKind fun _ _ =>
      .ite (fun _ => Reads.advance) fun _ => .unexpected message
  | comma close => exact .of_reads (.comma close) fun _ => .comma close
  | number => exact .of_opens .number fun _ => .number

theorem TypeRef.Reading.onward (h : TypeRef.Reading m) : Onward m := by
  have hself {n : Nat} (p : Power) :
      Reads (fun _ => True) (fun _ => True) n 1 (Anchored fun _ => True) (parse p) := parse_getsOn p
  cases h with
  | args => exact .of_reads (parseArgs_lockstep parse_lockstep) fun _ => parseArgs_getsOn hself
  | named => exact .of_opens (parseNamed_lockstep parse_lockstep) fun _ => parseNamed_opens hself
  | literal => exact .of_opens parseLiteral_lockstep fun _ => parseLiteral_opens
  | index => exact .of_opens (parseIndex_lockstep parse_lockstep) fun _ => parseIndex_opens hself
  | const => exact .of_reads parseConst_lockstep fun _ => parseConst_getsOn
  | property =>
    exact .of_reads (parseProperty_lockstep parse_lockstep) fun _ => parseProperty_getsOn hself
  | separator => exact .of_reads skipSeparator_lockstep fun _ => skipSeparator_getsOn
  | entry => exact .of_reads (parseEntry_lockstep parse_lockstep) fun _ => parseEntry_getsOn hself
  | interface =>
    exact .of_reads (parseInterface_lockstep parse_lockstep) fun _ => parseInterface_getsOn hself
  | param index =>
    exact .of_reads (parseParam_lockstep parse_lockstep index) fun _ => parseParam_getsOn hself index
  | function =>
    exact .of_reads (parseFunction_lockstep parse_lockstep) fun _ => parseFunction_getsOn hself
  | primary => exact .of_reads (parsePrimary_lockstep parse_lockstep) fun _ => parsePrimary_getsOn hself
  | operator left power =>
    exact .of_reads (parseOperator_lockstep parse_lockstep) fun _ =>
      parseOperator_getsOn hself left.anchored_everywhere power
  | operators left power =>
    exact .of_fuel
      (fun r => parseOperators_lockstep parse_lockstep (r + 1) (r + 1) left (Nat.le_refl _) fun _ => rfl)
      fun r => parseOperators_getsOn hself power (r + 1) (r + 1) left (Nat.le_refl _) (Nat.le_refl _)
        left.anchored_everywhere
  | type power => exact .of_reads (parse_lockstep power) fun _ => hself power

theorem Expr.Reading.onward (h : Expr.Reading m) : Onward m := by
  have hself {n : Nat} (p : Power) :
      Reads (fun _ => True) (fun _ => True) n 1 (Anchored fun _ => True) (parse p) := parse_getsOn p
  have hlockstep (p : Power) : Lockstep ⟨.same, True, True⟩ .part _ (parse p) (parse p) :=
    parse_lockstep trivial p
  cases h with
  | atom => exact .of_opens (parseAtom_lockstep trivial) fun _ => parseAtom_opens
  | unary => exact .of_opens (parseUnary_lockstep trivial hlockstep) fun _ => parseUnary_opens hself
  | group => exact .of_opens (parseGroup_lockstep hlockstep) fun _ => parseGroup_opens hself
  | args => exact .of_reads (parseArgs_lockstep hlockstep) fun _ => parseArgs_getsOn hself
  | array => exact .of_opens (parseArray_lockstep trivial hlockstep) fun _ => parseArray_opens hself
  | key => exact .of_reads (parseKey_lockstep hlockstep) fun _ => parseKey_getsOn hself
  | entry => exact .of_reads (parseEntry_lockstep hlockstep) fun _ => parseEntry_getsOn hself
  | object => exact .of_opens (parseObject_lockstep trivial hlockstep) fun _ => parseObject_opens hself
  | construct =>
    exact .of_opens (parseConstruct_lockstep trivial hlockstep) fun _ => parseConstruct_opens hself
  | primary =>
    exact .of_reads (parsePrimary_lockstep trivial hlockstep) fun _ => parsePrimary_getsOn hself
  | binary left power =>
    exact .of_opens (parseBinary_lockstep trivial hlockstep) fun _ =>
      parseBinary_opens hself left.anchored_everywhere power
  | assign target =>
    exact .of_opens (parseAssign_lockstep trivial hlockstep) fun _ =>
      parseAssign_opens hself target.anchored_everywhere
  | call callee =>
    exact .of_reads (parseCall_lockstep trivial hlockstep) fun _ =>
      parseCall_getsOn hself callee.anchored_everywhere
  | member object =>
    exact .of_opens (parseMember_lockstep trivial) fun _ =>
      parseMember_opens object.anchored_everywhere
  | index object =>
    exact .of_opens (parseIndex_lockstep trivial hlockstep) fun _ =>
      parseIndex_opens hself object.anchored_everywhere
  | operator left power =>
    exact .of_opens (parseOperator_lockstep trivial hlockstep) fun _ =>
      parseOperator_opens hself left.anchored_everywhere power
  | operators left power =>
    exact .of_fuel
      (fun r => parseOperators_lockstep trivial hlockstep (r + 1) (r + 1) left (Nat.le_refl _)
        fun _ => rfl)
      fun r => parseOperators_getsOn hself power (r + 1) (r + 1) left (Nat.le_refl _) (Nat.le_refl _)
        left.anchored_everywhere
  | expr power => exact .of_reads (hlockstep power) fun _ => hself power

theorem Stmt.Reading.onward (h : Stmt.Reading m) : Onward m := by
  have hself {n : Nat} : Reads (fun _ => True) (fun _ => True) n 1 (Anchored fun _ => True) parse :=
    parse_getsOn
  have hlockstep : Lockstep ⟨.same, True, True⟩ .whole _ parse parse := parse_lockstep trivial
  cases h with
  | initializer => exact .of_reads (parseInitializer_lockstep trivial) fun _ => parseInitializer_getsOn
  | requirement isConst type value =>
    exact .of_reads (requireValue_lockstep isConst type value) fun _ =>
      requireValue_getsOn isConst type value
  | var start isConst type =>
    exact .of_reads (parseVariable_lockstep trivial start isConst type) fun _ =>
      parseVariable_getsOn trivial isConst fun t _ => t.anchored_everywhere
  | varDecl => exact .of_opens (parseVarDecl_lockstep trivial) fun _ => parseVarDecl_opens
  | block => exact .of_reads (parseBlockOf_lockstep hlockstep) fun _ => parseBlockOf_getsOn hself
  | blockStmt =>
    exact .of_reads (parseBlockStmt_lockstep hlockstep) fun _ => parseBlockStmt_getsOn hself
  | ifElse => exact .of_opens (parseIf_lockstep trivial hlockstep) fun _ => parseIf_opens hself
  | whileLoop => exact .of_opens (parseWhile_lockstep trivial hlockstep) fun _ => parseWhile_opens hself
  | forIn => exact .of_opens (parseFor_lockstep trivial hlockstep) fun _ => parseFor_opens hself
  | param => exact .of_reads parseParam_lockstep fun _ => parseParam_getsOn
  | result => exact .of_reads parseResult_lockstep fun _ => parseResult_getsOn
  | fn => exact .of_reads (parseFn_lockstep hlockstep) fun _ => parseFn_getsOn hself
  | ret => exact .of_opens (parseReturn_lockstep trivial) fun _ => parseReturn_opens
  | jump => exact .of_opens parseJump_lockstep fun _ => parseJump_opens
  | names =>
    exact .of_fuel (fun r => parseNames_lockstep (r + 1) (r + 1) (Nat.le_refl _) fun _ => rfl)
      fun r => parseNames_getsOn (r + 1) (r + 1) (Nat.le_refl _)
  | superclass => exact .of_reads parseSuperclass_lockstep fun _ => parseSuperclass_getsOn
  | mixins => exact .of_reads parseMixins_lockstep fun _ => parseMixins_getsOn
  | modifiers before =>
    exact .of_fuel
      (fun r => parseModifiers_lockstep (r + 1) (r + 1) before (Nat.le_refl _) fun _ => rfl)
      fun r => parseModifiers_getsOn (r + 1) (r + 1) before (Nat.le_refl _)
  | member => exact .of_reads (parseMember_lockstep trivial hlockstep) fun _ => parseMember_getsOn hself
  | classDecl => exact .of_opens (parseClass_lockstep trivial hlockstep) fun _ => parseClass_opens hself
  | interface => exact .of_opens parseInterface_lockstep fun _ => parseInterface_opens
  | typeDecl => exact .of_opens parseTypeDecl_lockstep fun _ => parseTypeDecl_opens
  | typed => exact .of_reads (parseTyped_lockstep trivial) fun _ => parseTyped_getsOn
  | expr => exact .of_reads (parseExpr_lockstep trivial) fun _ => parseExpr_getsOn
  | plain =>
    exact .of_reads (.plain (parseTyped_lockstep trivial) (parseExpr_lockstep trivial)) fun _ =>
      parsePlain_getsOn
  | stmt => exact .of_reads hlockstep fun _ => hself
  | program =>
    refine ⟨fun s => ?_, fun s hs => (Block.parse_getsOn (K := fun _ => True) hs trivial
      (Nat.lt_succ_self _)).unstuck⟩
    exact (Block.parseFrom_lockstep (c := ⟨.same, True, True⟩) trivial ⟨0, s.file⟩).forward s

theorem Reading.onward (h : Reading m) : Onward m := by
  cases h with
  | tokens h => exact h.onward
  | types h => exact h.onward
  | exprs h => exact h.onward
  | stmts h => exact h.onward

end

/-! ### More fuel -/

section

variable {s : TokenStream} (hs : s.Stands fun _ => True) {fuel : Nat} (hfuel : s.remaining < fuel)

include hs hfuel

theorem TypeRef.parseWithin_of_fuel (power : Power) : parseWithin fuel power s = parse power s := by
  have hrun := parseWithin_getsOn (s.remaining + 1) power hs trivial (Nat.lt_succ_self _)
  exact (parseWithin_lockstep _ fuel power hfuel False.elim).eq_of_unstuck relabel_same hrun.unstuck

theorem Expr.parseWithin_of_fuel (power : Power) : parseWithin fuel power s = parse power s := by
  have hrun := parseWithin_getsOn (s.remaining + 1) power hs trivial (Nat.lt_succ_self _)
  exact (parseWithin_lockstep trivial _ fuel power hfuel False.elim).eq_of_unstuck relabel_same hrun.unstuck

theorem Stmt.parseWithin_of_fuel : parseWithin fuel s = parse s := by
  have hrun := parseWithin_getsOn (s.remaining + 1) hs trivial (Nat.lt_succ_self _)
  exact (parseWithin_lockstep trivial _ fuel hfuel False.elim).eq_of_unstuck relabel_same hrun.unstuck

end

/-! ### Programs -/

/-- A list that is read ends at its closing token. -/
theorem itemsUntil_kind {α : Type} {close : TokenKind} {m : Parse α} {n index : Nat}
    {s t : TokenStream} {as : List α} (h : itemsUntil close (fun _ => m) n index s = .ok as t) :
    t.kind = close := by
  induction n generalizing index s as with
  | zero => cases h
  | succ n ih =>
    rcases itemsUntil_cases h with ⟨hk, -, rfl, -⟩ | ⟨k, a, u, bs, hn, -, -, -, hrest⟩
    · exact hk
    · obtain rfl : n = k := by omega
      exact ih hrest

/-- Wherever the stream stands in a list of tokens and whichever names are types, no step turns back
and none is ever stuck; types, expressions and statements that are read take a token; more fuel than
there are tokens makes no difference; and a program that is read ends at a mark of an end. -/
theorem reading_advances (tokens : List Token) (file : String) {s : TokenStream}
    (hs : s.tokens <:+ (TokenStream.ofTokens tokens file).tokens) :
    (∀ {α : Type} {m : Parse α}, Reading m →
      (streamBehind (m s)).tokens <:+ s.tokens ∧ Unstuck (m s)) ∧
    (∀ power type t, TypeRef.parse power s = .ok type t → t.remaining < s.remaining) ∧
    (∀ power e t, Expr.parse power s = .ok e t → t.remaining < s.remaining) ∧
    (∀ stmt t, Stmt.parse s = .ok stmt t → t.remaining < s.remaining) ∧
    (∀ fuel, s.remaining < fuel →
      (∀ power, TypeRef.parseWithin fuel power s = TypeRef.parse power s) ∧
      (∀ power, Expr.parseWithin fuel power s = Expr.parse power s) ∧
      Stmt.parseWithin fuel s = Stmt.parse s) ∧
    ∀ block t, Block.parse s = .ok block t → t.kind = .eof := by
  have hstands := TokenStream.stands_of_suffix hs
  have htakes {α : Type} {Q : α → Prop} {m : Parse α} {a : α} {t : TokenStream}
      (hreads : Reads (fun _ => True) (fun _ => True) (s.remaining + 1) 1 Q m)
      (hrun : m s = .ok a t) : t.remaining < s.remaining := by
    have hgetsOn := hreads hstands trivial (Nat.lt_succ_self _)
    rw [hrun] at hgetsOn
    exact hgetsOn.2.2
  refine ⟨fun h => ⟨h.onward.forward s, h.onward.unstuck s hstands⟩, ?_, ?_, ?_, ?_, ?_⟩
  · exact fun power _ _ hrun => htakes (TypeRef.parse_getsOn power) hrun
  · exact fun power _ _ hrun => htakes (Expr.parse_getsOn power) hrun
  · exact fun _ _ hrun => htakes Stmt.parse_getsOn hrun
  · exact fun fuel hfuel => ⟨TypeRef.parseWithin_of_fuel hstands hfuel,
      Expr.parseWithin_of_fuel hstands hfuel, Stmt.parseWithin_of_fuel hstands hfuel⟩
  · exact fun _ _ hrun => itemsUntil_kind (Block.parse_ok hrun)

/-- Tokens with a mark of an end in their midst. -/
def cutShort : List Token :=
  [⟨.kwBreak, "break", ⟨.nowhere, .nowhere⟩⟩, ⟨.semicolon, ";", ⟨.nowhere, .nowhere⟩⟩,
    .endOf ⟨.nowhere, .nowhere⟩, ⟨.kwThis, "this", ⟨.nowhere, .nowhere⟩⟩]

/-- A program ends at the mark in the midst of tokens; a step that takes the mark goes on behind it. -/
theorem reading_advances_cutShort : ∃ s block t,
    s.tokens <:+ (TokenStream.ofTokens cutShort "main").tokens ∧ s.typeNames = ["break"] ∧
      Block.parse s = .ok block t ∧ t.kind = .eof ∧ t.remaining = 2 ∧
      Stmt.parseWithin 1000 s = Stmt.parse s ∧ Unstuck (Expr.parseUnary Expr.parse t) := by
  have hs : TokenStream.tokens { TokenStream.ofTokens cutShort "main" with typeNames := ["break"] } <:+
      (TokenStream.ofTokens cutShort "main").tokens := List.suffix_rfl
  have hall := reading_advances cutShort "main" hs
  have hbehind := (hall.1 (.stmts .program)).1.trans hs
  refine ⟨_, _, _, hs, rfl, rfl, hall.2.2.2.2.2 _ _ rfl, rfl, (hall.2.2.2.2.1 1000 (by decide)).2.2, ?_⟩
  exact ((reading_advances cutShort "main" hbehind).1 (.exprs .unary)).2

end ScriptCheck
