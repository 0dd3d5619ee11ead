import ScriptCheck.Proofs.Binding.Places
import ScriptCheck.Proofs.Binding.Steps
import ScriptCheck.Proofs.Parts

/-!
The record that binding keeps. Every expression is noted once, behind its parts, under its id and with the
type of the bound expression that it becomes; the class name behind `new` is noted with the class. The
notes of a run are kept in the order of the ids, so that what was noted under which id can be read off the
two trees side by side.
-/

namespace ScriptCheck

open Binding

/-! ### Expressions and what they become -/

/-- The bound node of an expression, with its type noted under its id. -/
inductive NotedAs (N : Nat → Ty → Prop) : Node → BoundNode → Prop
  | intro {node : Node} {type : Ty} (noted : N node.id type) :
      NotedAs N node ⟨node.id, node.span, type⟩

/-- An expression and the bound expression that it becomes, with its type noted; the class that is
constructed is noted under the id of its name. -/
inductive Recorded (N : Nat → Ty → Prop) : Expr → BoundExpr → Prop
  | literal {node : Node} {n : BoundNode} {value : Literal} (noted : NotedAs N node n) :
      Recorded N (.literal node value) (.literal n value)
  | keyword {node : Node} {n : BoundNode} {word : Keyword} (noted : NotedAs N node n) :
      Recorded N (.keyword node word) (.keyword n word)
  | symbol {node : Node} {n : BoundNode} {name : String} {distance : Nat}
      (noted : NotedAs N node n) : Recorded N (.symbol node name) (.symbol n name distance)
  | array {node : Node} {n : BoundNode} {elements : List Expr} {bound : List BoundExpr}
      (noted : NotedAs N node n) : Recorded N (.array node elements) (.array n bound)
  | object {node : Node} {n : BoundNode} {entries : List (Entry Expr)}
      {bound : List (BoundEntry BoundExpr)} (noted : NotedAs N node n) :
      Recorded N (.object node entries) (.object n bound)
  | binary {node : Node} {n : BoundNode} {operator : Token} {use : BinaryOperator}
      {left right : Expr} {l r : BoundExpr} (noted : NotedAs N node n) :
      Recorded N (.binary node operator left right) (.binary n use l r)
  | unary {node : Node} {n : BoundNode} {operator : Token} {use : UnaryOperator} {operand : Expr}
      {o : BoundExpr} (noted : NotedAs N node n) :
      Recorded N (.unary node operator operand) (.unary n use o)
  | assign {node : Node} {n : BoundNode} {operator : Token} {use : Option BinaryOperator}
      {target value : Expr} {t v : BoundExpr} (noted : NotedAs N node n) :
      Recorded N (.assign node operator target value) (.assign n use t v)
  | access {node : Node} {n : BoundNode} {receiver : Expr} {r : BoundExpr} {key : Key Expr}
      {k : BoundKey BoundExpr} {isExtension : Bool} (noted : NotedAs N node n) :
      Recorded N (.access node receiver key) (.access n r k isExtension)
  | call {node : Node} {n : BoundNode} {callee : Expr} {c : BoundExpr} {args : List Expr}
      {bound : List BoundExpr} (noted : NotedAs N node n) :
      Recorded N (.call node callee args) (.call n c bound)
  | construct {node classNode : Node} {n : BoundNode} {className : String} {c : ClassDef Ty}
      {args : List Expr} {bound : List BoundExpr} (noted : NotedAs N node n)
      (named : N classNode.id (.classType c)) :
      Recorded N (.construct node className classNode args) (.construct n c bound)

variable {N N' : Nat → Ty → Prop} {es es' : List (Nat × Ty)}

theorem NotedAs.mono {node : Node} {n : BoundNode} (hN : ∀ i t, N i t → N' i t)
    (h : NotedAs N node n) : NotedAs N' node n := by
  cases h with
  | intro noted => exact .intro (hN _ _ noted)

namespace Recorded

variable {x : Expr} {y : BoundExpr}

theorem mono (hN : ∀ i t, N i t → N' i t) (h : Recorded N x y) : Recorded N' x y := by
  cases h with
  | literal noted => exact .literal (noted.mono hN)
  | keyword noted => exact .keyword (noted.mono hN)
  | symbol noted => exact .symbol (noted.mono hN)
  | array noted => exact .array (noted.mono hN)
  | object noted => exact .object (noted.mono hN)
  | binary noted => exact .binary (noted.mono hN)
  | unary noted => exact .unary (noted.mono hN)
  | assign noted => exact .assign (noted.mono hN)
  | access noted => exact .access (noted.mono hN)
  | call noted => exact .call (noted.mono hN)
  | construct noted named => exact .construct (noted.mono hN) (hN _ _ named)

/-- The node of an expression is noted. -/
theorem noted (h : Recorded N x y) : NotedAs N x.node y.node := by
  cases h <;> assumption

end Recorded

/-- What is noted under the given ids in their order: the types of the given expressions, and no more. -/
structure Record (es : List (Nat × Ty)) (ids : List Nat) (xs : List Expr) (ys : List BoundExpr) :
    Prop where
  ids : es.map Prod.fst = ids
  recorded : List.Forall₂ (Recorded fun i t => (i, t) ∈ es) xs ys
  only : ∀ e ∈ es, ∃ y ∈ ys, e.2 ∈ y.types

namespace Record

variable {ids ids' : List Nat} {xs xs' : List Expr} {ys ys' : List BoundExpr}

theorem nil : Record [] [] [] [] := ⟨rfl, .nil, nofun⟩

theorem append (h : Record es ids xs ys) (h' : Record es' ids' xs' ys') :
    Record (es ++ es') (ids ++ ids') (xs ++ xs') (ys ++ ys') := by
  refine ⟨by rw [List.map_append, h.ids, h'.ids], List.rel_append ?_ ?_, ?_⟩
  · exact h.recorded.imp fun _ _ h => h.mono fun _ _ hmem => List.mem_append_left _ hmem
  · exact h'.recorded.imp fun _ _ h => h.mono fun _ _ hmem => List.mem_append_right _ hmem
  · intro e he
    rcases List.mem_append.1 he with he | he
    · obtain ⟨y, hy, htype⟩ := h.only e he
      exact ⟨y, List.mem_append_left _ hy, htype⟩
    · obtain ⟨y, hy, htype⟩ := h'.only e he
      exact ⟨y, List.mem_append_right _ hy, htype⟩

/-- Behind what is noted of its parts, an expression is noted itself. What is noted in front of them is
the class that it constructs. -/
theorem whole (front : List (Nat × Ty)) {node : Node} {type : Ty} {x : Expr} {y : BoundExpr}
    (h : Record es ids xs ys) (hfront : ∀ e ∈ front, e.2 ∈ y.types) (htype : y.type = type)
    (hx : ∀ N, (∀ e ∈ front, N e.1 e.2) → NotedAs N node ⟨node.id, node.span, type⟩ →
      Recorded N x y) :
    Record (front ++ es ++ [(node.id, type)]) (front.map Prod.fst ++ ids ++ [node.id]) (x :: xs)
      (y :: ys) := by
  refine ⟨by rw [List.map_append, List.map_append, h.ids]; rfl, .cons ?_ ?_, ?_⟩
  · refine hx _ (fun e he => ?_) (.intro (List.mem_append_right _ List.mem_cons_self))
    exact List.mem_append_left _ (List.mem_append_left _ he)
  · exact h.recorded.imp fun _ _ h => h.mono fun _ _ hmem =>
      List.mem_append_left _ (List.mem_append_right _ hmem)
  · intro e he
    rcases List.mem_append.1 he with he | he
    · rcases List.mem_append.1 he with he | he
      · exact ⟨y, List.mem_cons_self, hfront e he⟩
      · obtain ⟨y', hy', htype'⟩ := h.only e he
        exact ⟨y', List.mem_cons_of_mem _ hy', htype'⟩
    · obtain rfl := List.mem_singleton.1 he
      exact ⟨y, List.mem_cons_self, htype ▸ y.type_mem_types⟩

/-- Behind its parts, an expression is noted itself. -/
theorem node {node : Node} {type : Ty} {x : Expr} {y : BoundExpr} (h : Record es ids xs ys)
    (htype : y.type = type)
    (hx : ∀ N, NotedAs N node ⟨node.id, node.span, type⟩ → Recorded N x y) :
    Record (es ++ [(node.id, type)]) (ids ++ [node.id]) (x :: xs) (y :: ys) :=
  whole [] h nofun htype fun N _ => hx N

end Record

/-! ### Steps -/

/-- The second binder has noted types that the first has not. -/
def Binder.Adds (b b' : Binder) (es : List (Nat × Ty)) : Prop :=
  b'.boundTypes = es.foldl (fun t e => t.insert e.1 e.2) b.boundTypes

theorem Binder.Adds.append {b b₁ b' : Binder} (h : b.Adds b₁ es) (h' : b₁.Adds b' es') :
    b.Adds b' (es ++ es') := by
  unfold Adds at *
  rw [h', h, List.foldl_append]

/-- Behind what was noted before, a step notes more, and this has the given property. -/
def NotesAfter (old : List (Nat × Ty)) {α : Type} (m : Binding α) (Q : List (Nat × Ty) → α → Prop) :
    Prop := ∀ ⦃b b' : Binder⦄ ⦃a : α⦄, m b = .ok a b' → ∃ es, b.Adds b' es ∧ Q (old ++ es) a

namespace NotesAfter

variable {old : List (Nat × Ty)} {α β : Type} {m : Binding α} {k : α → Binding β}
  {Q : List (Nat × Ty) → α → Prop} {R : List (Nat × Ty) → β → Prop}

theorem pure {a : α} (h : Q old a) : NotesAfter old (Pure.pure a) Q := by
  intro b b' a' hrun
  cases hrun
  exact ⟨[], rfl, by rwa [List.append_nil]⟩

theorem fails (e : Failure) : NotesAfter old (throw e : Binding α) Q := by
  intro b b' a hrun
  cases hrun

theorem bind (hm : NotesAfter old m Q) (hk : ∀ a es, Q es a → NotesAfter es (k a) R) :
    NotesAfter old (m >>= k) R := by
  intro b b' c hrun
  obtain ⟨a, b₁, hm', hk'⟩ := ok_of_bind hrun
  obtain ⟨es, hes, ha⟩ := hm hm'
  obtain ⟨es', hes', hc⟩ := hk a _ ha hk'
  exact ⟨es ++ es', hes.append hes', by rwa [← List.append_assoc]⟩

/-- Nothing is noted by a step that only looks. -/
theorem past (hm : Looks m) (hk : ∀ a, NotesAfter old (k a) R) : NotesAfter old (m >>= k) R := by
  intro b b' c hrun
  obtain ⟨a, b₁, hm', hk'⟩ := ok_of_bind hrun
  obtain rfl := hm.ok hm'
  exact hk a hk'

/-- What a step notes does not depend on what was noted before it. -/
theorem frame (hm : NotesAfter [] m Q) (old : List (Nat × Ty)) :
    NotesAfter old m fun es a => ∃ new, es = old ++ new ∧ Q new a := by
  intro b b' a hrun
  obtain ⟨es, hes, ha⟩ := hm hrun
  exact ⟨es, hes, es, rfl, ha⟩

theorem ite {c : Prop} [Decidable c] {x y : Binding α} (hx : NotesAfter old x Q)
    (hy : NotesAfter old y Q) : NotesAfter old (if c then x else y) Q := by
  by_cases hc : c
  · rw [if_pos hc]; exact hx
  · rw [if_neg hc]; exact hy

theorem note (old : List (Nat × Ty)) (id : Nat) (type : Ty) :
    NotesAfter old (Binding.note id type) fun es _ => es = old ++ [(id, type)] := by
  intro b b' a hrun
  cases hrun
  exact ⟨[(id, type)], rfl, rfl⟩

theorem finish (old : List (Nat × Ty)) (node : Node) (type : Ty) :
    NotesAfter old (Binding.finish node type) fun es n =>
      es = old ++ [(node.id, type)] ∧ n = ⟨node.id, node.span, type⟩ := by
  refine .bind (note old node.id type) fun _ es hes => .pure ⟨hes, rfl⟩

end NotesAfter

/-! ### Expressions -/

namespace Expr

mutual

/-- Binding an expression notes the expressions in it, each behind its parts. -/
theorem bind_records : ∀ e : Expr, NotesAfter [] e.bind fun es t => Record es e.ids e.subterms t.subterms
  | .literal node value => by
    refine .bind (.finish [] node _) ?_
    rintro n _ ⟨rfl, rfl⟩
    exact .pure (Record.nil.node rfl fun _ hn => .literal hn)
  | .keyword node word => by
    refine .bind (.finish [] node _) ?_
    rintro n _ ⟨rfl, rfl⟩
    exact .pure (Record.nil.node rfl fun _ hn => .keyword hn)
  | .symbol node name => by
    refine .past (readVariable_looks _ _ _) fun found => .bind (.finish [] node _) ?_
    rintro n _ ⟨rfl, rfl⟩
    exact .pure (Record.nil.node rfl fun _ hn => .symbol hn)
  | .array node elements => by
    refine .bind (bindAll_records elements) fun ts es hts => .bind (.finish es node _) ?_
    rintro n _ ⟨rfl, rfl⟩
    exact .pure (hts.node rfl fun _ hn => .array hn)
  | .object node entries => by
    refine .bind (bindEntries_records entries) fun ts es hts => .bind (.finish es node _) ?_
    rintro n _ ⟨rfl, rfl⟩
    exact .pure (hts.node rfl fun _ hn => .object hn)
  | .binary node operator left right => by
    refine .bind (bind_records left) fun l es hl => .bind ((bind_records right).frame es) ?_
    rintro r _ ⟨es', rfl, hr⟩
    cases BinaryOperator.bind? operator.kind l.type r.type with
    | none => exact .fails _
    | some use =>
      refine .bind (.finish _ node _) ?_
      rintro n _ ⟨rfl, rfl⟩
      exact .pure ((hl.append hr).node rfl fun _ hn => .binary hn)
  | .unary node operator operand => by
    have hrest : ∀ (o : BoundExpr) (es : List (Nat × Ty)),
        Record es operand.ids operand.subterms o.subterms → NotesAfter es
          (match UnaryOperator.bind? operator.kind o.type with
            | some use => do return BoundExpr.unary (← finish node use.result) use o
            | none => throw (operatorFailure operator [o.type]))
          fun es t => Record es (ids (.unary node operator operand))
            (subterms (.unary node operator operand)) t.subterms := by
      intro o es ho
      cases UnaryOperator.bind? operator.kind o.type with
      | none => exact .fails _
      | some use =>
        refine .bind (.finish _ node _) ?_
        rintro n _ ⟨rfl, rfl⟩
        exact .pure (ho.node rfl fun _ hn => .unary hn)
    exact .ite (.bind (bindTarget_records operand) hrest) (.bind (bind_records operand) hrest)
  | .assign node operator target value => by
    refine .bind (bindTarget_records target) fun l es hl => .bind ((bind_records value).frame es) ?_
    rintro v _ ⟨es', rfl, hv⟩
    have hrest : ∀ use : Option BinaryOperator, NotesAfter (es ++ es')
        (do return BoundExpr.assign (← finish node l.type) use l v)
        fun es t => Record es (ids (.assign node operator target value))
          (subterms (.assign node operator target value)) t.subterms := by
      intro use
      refine .bind (.finish _ node _) ?_
      rintro n _ ⟨rfl, rfl⟩
      exact .pure ((hl.append hv).node rfl fun _ hn => .assign hn)
    refine .ite (hrest none) ?_
    cases BinaryOperator.bind? operator.kind l.type v.type with
    | none => exact .fails _
    | some use => exact hrest (some use)
  | .access node receiver key => by
    refine .bind (bind_records receiver) fun r es hr => .bind ((bindKey_records key).frame es) ?_
    rintro k _ ⟨es', rfl, hk⟩
    refine .past (bindSlot_looks _ _ _) fun slot => .bind (.finish _ node _) ?_
    rintro n _ ⟨rfl, rfl⟩
    exact .pure ((hr.append hk).node rfl fun _ hn => .access hn)
  | .call node callee args => by
    refine .bind (bind_records callee) fun c es hc => .bind ((bindAll_records args).frame es) ?_
    rintro as _ ⟨es', rfl, has⟩
    refine .past (callType_looks _ _) fun type => .bind (.finish _ node _) ?_
    rintro n _ ⟨rfl, rfl⟩
    exact .pure ((hc.append has).node rfl fun _ hn => .call hn)
  | .construct node className classNode args => by
    refine .past (readVariable_looks _ _ _) fun found => ?_
    obtain ⟨⟨name, type, writable⟩, distance⟩ := found
    cases type with
    | classType c =>
      refine .bind (.note [] classNode.id _) ?_
      rintro _ _ rfl
      refine .bind ((bindAll_records args).frame _) ?_
      rintro as _ ⟨es, rfl, has⟩
      refine .bind (.finish _ node _) ?_
      rintro n _ ⟨rfl, rfl⟩
      refine .pure (has.whole [(classNode.id, .classType c)] ?_ rfl fun _ hclass hn => ?_)
      · exact fun e he => List.mem_singleton.1 he ▸ List.mem_cons_of_mem _ List.mem_cons_self
      · exact .construct hn (hclass _ List.mem_cons_self)
    | _ => exact .fails _
termination_by structural e => e

theorem bindTarget_records : ∀ e : Expr,
    NotesAfter [] e.bindTarget fun es t => Record es e.ids e.subterms t.subterms
  | .symbol node name => by
    refine .past (readVariable_looks _ _ _) fun found => .ite ?_
      (.bind (.fails _ : NotesAfter _ _ fun _ _ => False) fun _ _ h => h.elim)
    refine .bind (.finish [] node _) ?_
    rintro n _ ⟨rfl, rfl⟩
    exact .pure (Record.nil.node rfl fun _ hn => .symbol hn)
  | .access node receiver key => by
    refine .bind (bind_records receiver) fun r es hr => .bind ((bindKey_records key).frame es) ?_
    rintro k _ ⟨es', rfl, hk⟩
    refine .past (bindSlot_looks _ _ _) fun slot => .ite ?_
      (.bind (.fails _ : NotesAfter _ _ fun _ _ => False) fun _ _ h => h.elim)
    refine .bind (.finish _ node _) ?_
    rintro n _ ⟨rfl, rfl⟩
    exact .pure ((hr.append hk).node rfl fun _ hn => .access hn)
  | .literal _ _ => .fails _
  | .keyword _ _ => .fails _
  | .array _ _ => .fails _
  | .object _ _ => .fails _
  | .binary _ _ _ _ => .fails _
  | .unary _ _ _ => .fails _
  | .assign _ _ _ _ => .fails _
  | .call _ _ _ => .fails _
  | .construct _ _ _ _ => .fails _
termination_by structural e => e

theorem bindAll_records : ∀ xs : List Expr,
    NotesAfter [] (bindAll xs) fun es ts => Record es (idsAll xs) (subtermsAll xs) (BoundExpr.subtermsAll ts)
  | [] => .pure .nil
  | x :: xs => by
    refine .bind (bind_records x) fun t es ht => .bind ((bindAll_records xs).frame es) ?_
    rintro ts _ ⟨es', rfl, hts⟩
    exact .pure (ht.append hts)
termination_by structural xs => xs

theorem bindKey_records : ∀ key : Key Expr,
    NotesAfter [] (bindKey key) fun es k => Record es (idsKey key) (subtermsKey key) (BoundExpr.subtermsKey k)
  | .name _ _ => .pure .nil
  | .computed e => .bind (bind_records e) fun _ _ ht => .pure ht
termination_by structural key => key

theorem bindEntries_records : ∀ xs : List (Entry Expr),
    NotesAfter [] (bindEntries xs) fun es ts =>
      Record es (idsEntries xs) (subtermsEntries xs) (BoundExpr.subtermsEntries ts)
  | [] => .pure .nil
  | ⟨key, value⟩ :: xs => by
    refine .bind (bindKey_records key) fun k es hk => ?_
    have hrest : NotesAfter es
        (do
          let value ← bind value
          let rest ← bindEntries xs
          return (⟨k, value⟩ : BoundEntry BoundExpr) :: rest) fun es ts =>
            Record es (idsEntries (⟨key, value⟩ :: xs)) (subtermsEntries (⟨key, value⟩ :: xs))
              (BoundExpr.subtermsEntries ts) := by
      refine .bind ((bind_records value).frame es) ?_
      rintro v _ ⟨es', rfl, hv⟩
      refine .bind ((bindEntries_records xs).frame _) ?_
      rintro ts _ ⟨es'', rfl, hts⟩
      exact .pure ((hk.append hv).append hts)
    cases k with
    | computed k => exact .past (expectKey_looks k) fun _ => hrest
    | name text => exact hrest
termination_by structural xs => xs

end

theorem bindOption_records : ∀ e : Option Expr,
    NotesAfter [] (bindOption e) fun es t =>
      Record es (idsOption e) (e.toList.flatMap subterms) (t.toList.flatMap BoundExpr.subterms)
  | none => .pure .nil
  | some e => by
    refine .bind (bind_records e) fun t es ht => .pure ?_
    rwa [Option.toList_some, List.flatMap_singleton, Option.toList_some, List.flatMap_singleton]

end Expr

/-! ### Statements -/

/-- From one binder to the other, the given expressions are noted under the given ids. -/
def Records (b b' : Binder) (ids : List Nat) (xs : List Expr) (ys : List BoundExpr) : Prop :=
  ∃ es, b.Adds b' es ∧ Record es ids xs ys

namespace Records

variable {b b₁ b' : Binder} {ids ids' : List Nat} {xs xs' : List Expr} {ys ys' : List BoundExpr}

theorem nil (h : b'.boundTypes = b.boundTypes) : Records b b' [] [] [] := ⟨[], h, .nil⟩

theorem append (h : Records b b₁ ids xs ys) (h' : Records b₁ b' ids' xs' ys') :
    Records b b' (ids ++ ids') (xs ++ xs') (ys ++ ys') := by
  obtain ⟨es, hes, hrecord⟩ := h
  obtain ⟨es', hes', hrecord'⟩ := h'
  exact ⟨es ++ es', hes.append hes', hrecord.append hrecord'⟩

/-- Only what is noted counts. -/
theorem congr {c c' : Binder} (h : Records b b' ids xs ys) (hc : c.boundTypes = b.boundTypes)
    (hc' : c'.boundTypes = b'.boundTypes) : Records c c' ids xs ys := by
  obtain ⟨es, hes, hrecord⟩ := h
  exact ⟨es, by unfold Binder.Adds; rw [hc', hes, hc], hrecord⟩

end Records

/-- All expressions of statements; their places do not matter. -/
def BoundStmt.exprs (ss : List BoundStmt) : List BoundExpr :=
  (rootsAll ss .intrinsic).flatMap (·.expr.subterms)

theorem boundTypes_defineParams (params : List (String × Ty)) (b : Binder) :
    (defineParams params b).boundTypes = b.boundTypes := by
  unfold defineParams
  induction params generalizing b with
  | nil => rfl
  | cons p ps ih => exact ih _

namespace Stmt

open BoundStmt (optional)

theorem bindOption_value {e : Option Expr} {b b' : Binder} {t : Option BoundExpr}
    (h : Expr.bindOption e b = .ok t b') (p : Place) :
    Records b b' (Expr.idsOption e) (e.toList.flatMap Expr.subterms)
      ((optional t p).flatMap (·.expr.subterms)) := by
  obtain ⟨es, hes, hrecord⟩ := Expr.bindOption_records e h
  refine ⟨es, hes, ?_⟩
  rw [BoundStmt.optional, List.flatMap_map]
  exact hrecord

theorem bind_value {e : Expr} {b b' : Binder} {t : BoundExpr} (h : e.bind b = .ok t b') :
    Records b b' e.ids e.subterms t.subterms := e.bind_records h

/-- The initial values of fields are noted; every field has a member that gives its type. -/
theorem bindFields_records (p : Place) : ∀ (fs : List FieldDecl) (ms : List (Member Ty))
    {b b' : Binder} {bound : List BoundField}, bindFields fs ms b = .ok bound b' →
    fs.length ≤ ms.length → Records b b' (idsFields fs)
      ((fs.flatMap (·.value.toList)).flatMap Expr.subterms)
      ((bound.flatMap fun f => optional f.value p).flatMap (·.expr.subterms))
  | [], _, _, _, _, h, _ => by cases h; exact .nil rfl
  | _ :: _, [], _, _, _, _, hlength => absurd hlength (Nat.not_succ_le_zero _)
  | f :: fs, m :: ms, b, b', bound, h, hlength => by
    obtain ⟨value, b₁, hvalue, h₁⟩ := ok_of_bind h
    obtain ⟨rest, _, hrest, h₂⟩ := ok_of_bind h₁
    cases h₂
    rw [idsFields, List.flatMap_cons, List.flatMap_cons, List.flatMap_cons, List.flatMap_append,
      List.flatMap_append]
    exact (bindOption_value hvalue p).append
      (bindFields_records p fs ms hrest (Nat.le_of_succ_le_succ hlength))

mutual

/-- Binding a statement notes the expressions in it. -/
theorem bind_records : ∀ (s : Stmt) {b b' : Binder} {t : BoundStmt}, s.bind b = .ok t b' →
    ∀ p, Records b b' s.ids (s.roots.flatMap Expr.subterms)
      ((t.roots p).flatMap (·.expr.subterms))
  | .expr span e, _, _, _, h, p => by
    cases binds_of_ok h with
    | expr value =>
      rw [ids, roots, BoundStmt.roots, List.flatMap_singleton, List.flatMap_singleton]
      exact bind_value value
  | .block span body, _, _, _, h, p => by
    cases binds_of_ok h with
    | block inside => exact (bindAll_records body inside p.push).congr rfl rfl
  | .varDecl span name isConst type value, _, _, _, h, p => by
    cases binds_of_ok h with
    | varDecl declares initial => exact (bindOption_value initial p).congr rfl rfl
  | .ifElse span condition onTrue onFalse, _, _, _, h, p => by
    cases binds_of_ok h with
    | @ifElse _ _ _ _ _ _ _ _ _ t _ test first second =>
      have hparts := ((bind_value test).append (bind_records onTrue first p)).append
        (bindOption_records onFalse second (t.after p))
      rw [roots, BoundStmt.roots, List.flatMap_cons, List.flatMap_cons, List.flatMap_append,
        List.flatMap_append, ← List.append_assoc, ← List.append_assoc]
      exact hparts
  | .whileLoop span condition body, _, _, _, h, p => by
    cases binds_of_ok h with
    | whileLoop test inside => exact (bind_value test).append (bind_records body inside p)
  | .forIn span name iterable bodySpan body, _, _, _, h, p => by
    cases binds_of_ok h with
    | forIn iterated inside =>
      exact (bind_value iterated).append ((bindAll_records body inside _).congr rfl rfl)
  | .fnDecl f, _, _, _, h, p => by
    cases binds_of_ok h with
    | fnDecl signs inside =>
      refine (bindFn_records f inside _).congr rfl ?_
      split <;> rfl
  | .ret span value, _, _, _, h, p => by
    cases binds_of_ok h with
    | ret result => exact bindOption_value result p
  | .jump span isContinue, _, _, _, h, p => by
    cases binds_of_ok h with
    | jump => exact .nil rfl
  | .classDecl span name superclass mixins fields methods, _, _, _, h, p => by
    cases binds_of_ok h with
    | classDecl starts extended mixes fieldTypes methodTypes initial inside =>
      subst starts
      rw [ids, roots, BoundStmt.roots, List.flatMap_append, List.flatMap_append]
      exact Records.congr
        (.append (bindFields_records _ fields _ initial (fields_le_members fieldTypes _))
          (bindMethods_records methods inside _)) rfl rfl
  | .typeDecl span name ref, _, _, _, h, p => by
    cases binds_of_ok h with
    | typeDecl starts type =>
      subst starts
      exact .nil rfl
termination_by structural s => s

theorem bindAll_records : ∀ (ss : List Stmt) {b b' : Binder} {ts : List BoundStmt},
    bindAll ss b = .ok ts b' → ∀ p, Records b b' (idsAll ss)
      ((rootsAll ss).flatMap Expr.subterms) ((BoundStmt.rootsAll ts p).flatMap (·.expr.subterms))
  | [], _, _, _, h, _ => by cases h; exact .nil rfl
  | s :: ss, _, _, _, h, p => by
    obtain ⟨t, ts, b₁, rfl, ht, hts⟩ := bindAll_cons h
    rw [rootsAll, BoundStmt.rootsAll, List.flatMap_append, List.flatMap_append]
    exact (bind_records s ht p).append (bindAll_records ss hts (t.after p))
termination_by structural ss => ss

theorem bindOption_records : ∀ (s : Option Stmt) {b b' : Binder} {t : Option BoundStmt},
    bindOption s b = .ok t b' → ∀ p, Records b b' (idsOption s)
      ((rootsOption s).flatMap Expr.subterms)
      ((BoundStmt.rootsOption t p).flatMap (·.expr.subterms))
  | none, _, _, _, h, _ => by cases h; exact .nil rfl
  | some s, _, _, _, h, p => by
    obtain ⟨t, rfl, ht⟩ := bindOption_some h
    exact bind_records s ht p
termination_by structural s => s

theorem bindFn_records : ∀ (f : FnDecl Stmt) {signature : Signature Ty} {b b' : Binder}
    {g : BoundFn BoundStmt}, bindFn signature f b = .ok g b' → ∀ p, Records b b' (idsFn f)
      ((rootsFn f).flatMap Expr.subterms) ((BoundStmt.rootsFn g p).flatMap (·.expr.subterms))
  | ⟨name, params, result, body, bodySpan, span⟩, _, b, _, _, h, p => by
    obtain ⟨ts, b₁, hbody, rfl, rfl⟩ := bindFn_ok h
    exact (bindAll_records body hbody _).congr (boundTypes_defineParams _ b.push).symm rfl
termination_by structural f => f

theorem bindMethods_records : ∀ (ms : List (MethodDecl Stmt)) {b b' : Binder}
    {fs : List (BoundFn BoundStmt)}, bindMethods ms b = .ok fs b' → ∀ p, Records b b' (idsMethods ms)
      ((rootsMethods ms).flatMap Expr.subterms)
      ((BoundStmt.rootsFns fs p).flatMap (·.expr.subterms))
  | [], _, _, _, h, _ => by cases h; exact .nil rfl
  | ⟨modifiers, function⟩ :: ms, _, _, _, h, p => by
    obtain ⟨signature, g, gs, b₁, rfl, _, hg, hgs⟩ := bindMethods_cons h
    rw [rootsMethods, BoundStmt.rootsFns, List.flatMap_append, List.flatMap_append]
    exact (bindFn_records function hg p).append (bindMethods_records ms hgs p)
termination_by structural ms => ms

end

end Stmt

end ScriptCheck
