import Mathlib.Data.List.Perm.Basic
import ScriptCheck.Number.Reading
import ScriptCheck.Proofs.Lexing.Faithful
import ScriptCheck.Stmt

/-!
The pieces of a syntax tree and their places in the text. A piece is a statement, an expression, a type
reference, a parameter or a field; it is placed well if its span is one of the text, if what stands inside
of it lies there without overlaps, and if names and whole numbers are written at their spans. Pieces that
lie apart from each other between two offsets form a row; rows are put side by side, and a span that
holds a row makes a row of one piece.
-/

namespace ScriptCheck

/-- A part of a syntax tree that has a span. -/
inductive Piece where
  | stmt (statement : Stmt)
  | expr (expression : Expr)
  | type (reference : TypeRef)
  | param (parameter : Param)
  | field (declaration : FieldDecl)

/-! ### The tree -/

/-- The pieces of a key. -/
def Key.pieces : Key Expr → List Piece
  | .name _ _ => []
  | .computed key => [.expr key]

/-- The pieces of an entry of an object. -/
def Entry.pieces (e : Entry Expr) : List Piece := e.key.pieces ++ [.expr e.value]

/-- The pieces that an expression is made of. The class of a construction is a name. -/
def Expr.pieces : Expr → List Piece
  | .literal _ _ | .keyword _ _ | .symbol _ _ => []
  | .array _ elements => elements.map .expr
  | .object _ entries => entries.flatMap Entry.pieces
  | .binary _ _ left right => [.expr left, .expr right]
  | .unary _ _ operand => [.expr operand]
  | .assign _ _ target value => [.expr target, .expr value]
  | .access _ receiver key => .expr receiver :: key.pieces
  | .call _ callee args => .expr callee :: args.map .expr
  | .construct _ className classNode args => .expr (.symbol classNode className) :: args.map .expr

/-- The pieces that a type reference is made of. -/
def TypeRef.pieces : TypeRef → List Piece
  | .named _ args _ => args.map .type
  | .array element _ => [.type element]
  | .union members _ | .intersection members _ => members.map .type
  | .interface props index _ => props.map (.type ·.type) ++ index.map (.type ·.type)
  | .function params result _ => params.map (.type ·.type) ++ [.type result]
  | .literal _ _ => []

/-- The pieces that a function is made of. Its body is a block. -/
def FnDecl.pieces (f : FnDecl Stmt) : List Piece :=
  f.params.map .param ++ (f.result.toList.map .type ++ [.stmt (.block f.bodySpan f.body)])

/-- The pieces that a statement is made of. A method is a function. -/
def Stmt.pieces : Stmt → List Piece
  | .expr _ e => [.expr e]
  | .block _ body => body.map .stmt
  | .varDecl _ _ _ type value => type.toList.map .type ++ value.toList.map .expr
  | .ifElse _ condition onTrue onFalse => .expr condition :: .stmt onTrue :: onFalse.toList.map .stmt
  | .whileLoop _ condition body => [.expr condition, .stmt body]
  | .forIn _ _ iterable bodySpan body => [.expr iterable, .stmt (.block bodySpan body)]
  | .fnDecl function => function.pieces
  | .ret _ value => value.toList.map .expr
  | .jump _ _ => []
  | .classDecl _ _ _ _ fields methods => fields.map .field ++ methods.map (.stmt <| .fnDecl ·.function)
  | .typeDecl _ _ type => [.type type]

namespace Piece

/-- Where a piece is written. -/
def span : Piece → Span
  | .stmt s => s.span
  | .expr e => e.span
  | .type r => r.span
  | .param p => p.span
  | .field f => f.span

/-- The pieces that a piece is made of. -/
def children : Piece → List Piece
  | .stmt s => s.pieces
  | .expr e => e.pieces
  | .type r => r.pieces
  | .param p => [.type p.type]
  | .field f => .type f.type :: f.value.toList.map .expr

/-- The tree of a piece contains it and the children of every piece it contains. -/
inductive Contains (root : Piece) : Piece → Prop
  | root : Contains root root
  | child {x c : Piece} (hx : Contains root x) (hc : c ∈ x.children) : Contains root c

end Piece

/-- A program as a piece, which is a block of statements. -/
def Block.piece (b : Block) : Piece := .stmt (.block b.span b.body)

/-! ### Places -/

/-- A span of a file that lies between two offsets. -/
structure Span.Between (file : String) (lo hi : Nat) (s : Span) : Prop where
  startFile : s.start.file = file
  stopFile : s.stop.file = file
  after : lo ≤ s.start.offset
  ordered : s.start.offset ≤ s.stop.offset
  before : s.stop.offset ≤ hi

theorem Span.Between.mono {file : String} {lo lo' hi hi' : Nat} {s : Span} (h : s.Between file lo hi)
    (hlo : lo' ≤ lo) (hhi : hi ≤ hi') : s.Between file lo' hi' :=
  ⟨h.startFile, h.stopFile, Nat.le_trans hlo h.after, h.ordered, Nat.le_trans h.before hhi⟩

namespace Piece

/-- Two pieces of which one ends before the other starts. -/
def Apart (x y : Piece) : Prop :=
  x.span.stop.offset ≤ y.span.start.offset ∨ y.span.stop.offset ≤ x.span.start.offset

theorem Apart.symm {x y : Piece} (h : x.Apart y) : y.Apart x := Or.symm h

/-- A text stands at a span. -/
def Holds (source : List Char) (span : Span) (text : List Char) : Prop :=
  ∃ rest, IsSlice source span.start.offset span.stop.offset text rest

/-- The digits of a whole number stand at a span. -/
def HoldsDigits (source : List Char) (span : Span) (value : Int) : Prop :=
  ∃ digits, Holds source span digits ∧ digits ≠ [] ∧ (∀ c ∈ digits, isDigit c = true) ∧
    value = ofDigits digits

/-- A name is written at its span, and a whole number in digits at its own. -/
def Spelled (source : List Char) : Piece → Prop
  | .expr (.symbol node name) => Holds source node.span name.toList
  | .expr (.literal node (.int value)) => HoldsDigits source node.span value
  | .type (.literal (.int value) span) => HoldsDigits source span value
  | _ => True

/-- A piece has a span of the file, in which its children lie apart from each other, and is spelled
there. -/
structure IsPlaced (source : List Char) (file : String) (x : Piece) : Prop where
  startFile : x.span.start.file = file
  stopFile : x.span.stop.file = file
  ordered : x.span.start.offset ≤ x.span.stop.offset
  inside : ∀ c ∈ x.children, x.span.start.offset ≤ c.span.start.offset ∧
    c.span.stop.offset ≤ x.span.stop.offset
  apart : x.children.Pairwise Apart
  spelled : x.Spelled source

/-- All pieces of a tree are placed well. -/
inductive Laid (source : List Char) (file : String) : Piece → Prop
  | mk {x : Piece} (here : x.IsPlaced source file) (children : ∀ c ∈ x.children, Laid source file c) :
      Laid source file x

theorem Laid.here {source : List Char} {file : String} {x : Piece} (h : x.Laid source file) :
    x.IsPlaced source file := by
  cases h
  assumption

theorem Laid.children {source : List Char} {file : String} {x : Piece} (h : x.Laid source file) :
    ∀ c ∈ x.children, c.Laid source file := by
  cases h
  assumption

theorem Contains.laid {source : List Char} {file : String} {root x : Piece} (hx : root.Contains x)
    (h : root.Laid source file) : x.Laid source file := by
  induction hx with
  | root => exact h
  | child _ hc ih => exact ih.children _ hc

end Piece

/-! ### Rows -/

/-- Pieces between two offsets that lie apart from each other and are placed well, with all that is in
them. -/
structure Row (source : List Char) (file : String) (lo hi : Nat) (xs : List Piece) : Prop where
  between : ∀ x ∈ xs, x.span.Between file lo hi
  apart : xs.Pairwise Piece.Apart
  laid : ∀ x ∈ xs, x.Laid source file

namespace Row

variable {source : List Char} {file : String} {lo lo' mid mid' hi hi' : Nat} {x l r : Piece}
  {xs ys : List Piece}

theorem nil : Row source file lo hi [] := ⟨nofun, .nil, nofun⟩

theorem mono (h : Row source file lo hi xs) (hlo : lo' ≤ lo) (hhi : hi ≤ hi') :
    Row source file lo' hi' xs :=
  ⟨fun x hx => (h.between x hx).mono hlo hhi, h.apart, h.laid⟩

/-- A row does not depend on the order in which its pieces are named. -/
theorem perm (h : Row source file lo hi xs) (hperm : xs.Perm ys) : Row source file lo hi ys :=
  ⟨fun x hx => h.between x (hperm.mem_iff.2 hx), (hperm.pairwise_iff fun h => h.symm).1 h.apart,
    fun x hx => h.laid x (hperm.mem_iff.2 hx)⟩

/-- A row behind a row. -/
theorem append (hxs : Row source file lo mid xs) (hys : Row source file mid' hi ys)
    (hmid : mid ≤ mid') (hlo : lo ≤ mid') (hhi : mid ≤ hi) : Row source file lo hi (xs ++ ys) := by
  refine ⟨List.forall_mem_append.2 ⟨?_, ?_⟩, List.pairwise_append.2 ⟨hxs.apart, hys.apart, ?_⟩,
    List.forall_mem_append.2 ⟨hxs.laid, hys.laid⟩⟩
  · exact fun x hx => (hxs.between x hx).mono (Nat.le_refl _) hhi
  · exact fun y hy => (hys.between y hy).mono hlo (Nat.le_refl _)
  · intro x hx y hy
    have := (hxs.between x hx).before
    have := (hys.between y hy).after
    exact .inl (by omega)

theorem le (h : Row source file lo hi [x]) : lo ≤ hi := by
  have hx := h.between x List.mem_cons_self
  exact Nat.le_trans hx.after (Nat.le_trans hx.ordered hx.before)

/-- What a piece of a row is made of is a row inside of it. -/
theorem children (h : Row source file lo hi [x]) :
    Row source file x.span.start.offset x.span.stop.offset x.children := by
  have hx := h.laid x List.mem_cons_self
  refine ⟨fun c hc => ?_, hx.here.apart, hx.children⟩
  have hplaced := (hx.children c hc).here
  obtain ⟨hafter, hbefore⟩ := hx.here.inside c hc
  exact ⟨hplaced.startFile, hplaced.stopFile, hafter, hplaced.ordered, hbefore⟩

/-- A piece lies in its own span. -/
theorem self (h : Row source file lo hi [x]) :
    Row source file x.span.start.offset x.span.stop.offset [x] := by
  have hx := h.between x List.mem_cons_self
  refine ⟨List.forall_mem_singleton.2 ?_, h.apart, h.laid⟩
  exact ⟨hx.startFile, hx.stopFile, Nat.le_refl _, hx.ordered, Nat.le_refl _⟩

/-- A span that holds a row is the place of a piece. -/
theorem enclosed (hx : x.span.Between file lo hi) (h : Row source file lo' hi' x.children)
    (hlo : x.span.start.offset ≤ lo') (hhi : hi' ≤ x.span.stop.offset) (hspelled : x.Spelled source) :
    Row source file lo hi [x] := by
  refine ⟨List.forall_mem_singleton.2 hx, List.pairwise_singleton .., List.forall_mem_singleton.2 ?_⟩
  refine .mk ⟨hx.startFile, hx.stopFile, hx.ordered, fun c hc => ?_, h.apart, hspelled⟩ h.laid
  have hc := h.between c hc
  have := hc.after
  have := hc.before
  exact ⟨by omega, by omega⟩

/-- A piece from a position up to an offset. -/
theorem spanned {start : Position} (hspan : x.span = ⟨start, ⟨hi, file⟩⟩) (hfile : start.file = file)
    (hstart : lo ≤ start.offset) (hstop : start.offset ≤ hi) (h : Row source file lo' hi' x.children)
    (hlo : start.offset ≤ lo') (hhi : hi' ≤ hi) (hspelled : x.Spelled source) :
    Row source file lo hi [x] := by
  refine enclosed ?_ h ?_ ?_ hspelled
  · rw [hspan]
    exact ⟨hfile, rfl, hstart, hstop, Nat.le_refl _⟩
  · rwa [hspan]
  · rwa [hspan]

/-- A piece from the start of its first child up to an offset. -/
theorem extended (hl : Row source file lo mid [l]) (h : Row source file mid' hi' xs) (hmid : mid ≤ mid')
    (hhi : hi' ≤ hi) (hle : mid ≤ hi) (hspan : x.span = ⟨l.span.start, ⟨hi, file⟩⟩)
    (hchildren : x.children = l :: xs) (hspelled : x.Spelled source) : Row source file lo hi [x] := by
  have hx := hl.between l List.mem_cons_self
  have := hx.ordered
  have := hx.before
  have hrow := (hl.self.mono (Nat.le_refl _) hx.before).append (h.mono (Nat.le_refl _) hhi) hmid
    (by omega) hle
  exact spanned hspan hx.startFile hx.after (by omega) (hchildren ▸ hrow) (Nat.le_refl _) (Nat.le_refl _)
    hspelled

/-- A piece from the start of one child to the end of another, where pieces of the first take its
place or it stands for itself. -/
theorem joined (hl : Row source file lo mid [l]) (hr : Row source file mid' hi [r]) (hmid : mid ≤ mid')
    (h : Row source file l.span.start.offset l.span.stop.offset xs) (hspan : x.span = l.span.join r.span)
    (hchildren : x.children = xs ++ [r]) (hspelled : x.Spelled source) : Row source file lo hi [x] := by
  have hlx := hl.between l List.mem_cons_self
  have hrx := hr.between r List.mem_cons_self
  have := hlx.ordered
  have := hlx.before
  have := hrx.after
  have := hrx.ordered
  have hrow := h.append hr.self (by omega) (by omega) (by omega)
  refine enclosed ?_ (hchildren ▸ hrow) ?_ ?_ hspelled
  · rw [hspan]
    exact ⟨hlx.startFile, hrx.stopFile, hlx.after, (by simp only [Span.join]; omega), hrx.before⟩
  · rw [hspan]
    exact Nat.le_refl _
  · rw [hspan]
    exact Nat.le_refl _

end Row

/-- The members of a mixed list by kind are the same as those in their order. -/
theorem filterMap_sum_perm {α β γ : Type} (f : α → γ) (g : β → γ) : ∀ es : List (α ⊕ β),
    ((es.filterMap Sum.getLeft?).map f ++ (es.filterMap Sum.getRight?).map g).Perm
      (es.map (Sum.elim f g))
  | [] => .refl _
  | .inl a :: es => (filterMap_sum_perm f g es).cons (f a)
  | .inr b :: es => List.perm_middle.trans ((filterMap_sum_perm f g es).cons (g b))

end ScriptCheck
