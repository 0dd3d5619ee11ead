import ScriptCheck.Proofs.Parsing.Steps
import ScriptCheck.Proofs.Relabel.Syntax

/-!
Reading steps that take the same turns. Two steps go in lockstep if both are put together from the
same elementary steps, and what one gets from a token the other gets from the relabeled token. How
two such steps run on related streams is shown by induction on how they are put together, once for
every kind of relation and not once for every step.

The second step may have more fuel. What a step can tell about the token it stops before is kept as
its extent: a part of a statement stops where it likes, a whole statement stops behind a token that
closes it, and a step that stands still reads no token at all.
-/

namespace ScriptCheck

open Parse

/-- How far a reading step goes. -/
inductive Extent where
  | still
  | part
  | whole
deriving DecidableEq

/-- The extent of a step and one behind it. -/
def Extent.andThen (first : Extent) : Extent → Extent
  | .still => first
  | later => later

/-- What two kinds of tokens have in common as far as a step looks ahead. -/
structure LooksAlike (k k' : TokenKind) : Prop where
  closeBracket : k = .closeBracket ↔ k' = .closeBracket
  assignment : k = .assignment ↔ k' = .assignment

/-- The terms on which two steps are compared: the labels of the second, whether both have the same
fuel, and whether they may draw ids. -/
structure Terms where
  labels : Relabeling
  sameFuel : Prop
  drawing : Prop

/-- Two steps that take the same turns. The map says how the result of the second comes from that of
the first. -/
inductive Lockstep (c : Terms) :
    {α β : Type} → Extent → (α → β) → Parse α → Parse β → Prop
  | pure {α β : Type} {g : α → β} (a : α) : Lockstep c .still g (pure a) (pure (g a))
  | bind {α α' β β' : Type} {e e' : Extent} {g : α → α'} {h : β → β'} {m : Parse α}
      {m' : Parse α'} {k : α → Parse β} {k' : α' → Parse β'} :
      Lockstep c e g m m' → (∀ a, Lockstep c e' h (k a) (k' (g a))) →
      Lockstep c (e.andThen e') h (m >>= k) (m' >>= k')
  | part {α β : Type} {e : Extent} {g : α → β} {m : Parse α} {m' : Parse β} :
      Lockstep c e g m m' → Lockstep c .part g m m'
  | current : Lockstep c .part (Token.relabel c.labels) current current
  | kind : Lockstep c .part (fun k => k) kind kind
  | position : Lockstep c .part c.labels.place position position
  | advance : Lockstep c .part (Token.relabel c.labels) advance advance
  | freshId (hc : c.drawing) : Lockstep c .still c.labels.id freshId freshId
  | register (name : String) :
      Lockstep c .still (fun u => u) (register name) (register name)
  | spanFrom (start : Position) :
      Lockstep c .still (Span.relabel c.labels) (spanFrom start) (spanFrom (c.labels.place start))
  | unexpectedToken {α β : Type} {g : α → β} {e : Extent} :
      Lockstep c e g unexpectedToken unexpectedToken
  | unexpected {α β : Type} {g : α → β} {e : Extent} (message : String) :
      Lockstep c e g (unexpected message) (unexpected message)
  | reject {α β : Type} {g : α → β} {e : Extent} {cause : Cause}
      (hcause : cause.stage = .syntactic) (place : Position) :
      Lockstep c e g (throw (.of cause place)) (throw (.of cause (c.labels.place place)))
  | close {k : TokenKind} (hk : k ≠ .eof) :
      Lockstep c .whole (Token.relabel c.labels) (expect k) (expect k)
  | stuck {α β : Type} {g : α → β} {e : Extent} : Lockstep c e g (throw .stuck) (throw .stuck)
  | outOfFuel {α β : Type} {g : α → β} {e : Extent} {m' : Parse β} :
      ¬ c.sameFuel → Lockstep c e g (throw .stuck) m'
  | fuel {α β : Type} {g : α → β} {e : Extent} {k : Nat → Parse α} {k' : Nat → Parse β} :
      (∀ n n', n ≤ n' → (c.sameFuel → n = n') → Lockstep c e g (k n) (k' n')) →
      Lockstep c e g (remaining >>= k) (remaining >>= k')
  | lookahead {α β : Type} {g : α → β} {k : TokenKind → Parse α} {k' : TokenKind → Parse β}
      {e : Extent} (he : e ≠ .still) : (∀ t t', LooksAlike t t' → Lockstep c e g (k t) (k' t')) →
      Lockstep c e g (lookahead 1 >>= k) (lookahead 1 >>= k')
  | orElse {α α' β β' : Type} {g : α → α'} {h : β → β'} {m : Parse α} {m' : Parse α'}
      {x y : α → Parse β} {x' y' : α' → Parse β'} :
      Lockstep c .whole g m m' → (∀ a, Lockstep c .whole h (x a) (x' (g a))) →
      (∀ a, Lockstep c .still h (y a) (y' (g a))) →
      Lockstep c .whole h
        (m >>= fun a => Parse.kind >>= fun k => if k = .kwElse then x a else y a)
        (m' >>= fun a => Parse.kind >>= fun k => if k = .kwElse then x' a else y' a)
  | plain : Lockstep c .whole (Stmt.relabel c.labels) Stmt.parseTyped Stmt.parseTyped →
      Lockstep c .whole (Stmt.relabel c.labels) Stmt.parseExpr Stmt.parseExpr →
      Lockstep c .whole (Stmt.relabel c.labels) Stmt.parsePlain Stmt.parsePlain

namespace Lockstep

variable {c : Terms} {α α' β β' : Type} {e : Extent} {g : α → α'} {h : β → β'}
  {m : Parse α} {m' : Parse α'} {k : α → Parse β} {k' : α' → Parse β'}

/-! ### Sequences -/

/-- A part of a statement goes on with another. -/
theorem andPart (hm : Lockstep c e g m m')
    (hk : ∀ a, Lockstep c .part h (k a) (k' (g a))) :
    Lockstep c .part h (m >>= k) (m' >>= k') := .bind hm hk

/-- A statement ends with a whole one or with the token that closes it. -/
theorem andWhole (hm : Lockstep c e g m m')
    (hk : ∀ a, Lockstep c .whole h (k a) (k' (g a))) :
    Lockstep c .whole h (m >>= k) (m' >>= k') := .bind hm hk

/-- What is done behind a step without reading tokens does not change its extent. -/
theorem andStill (hm : Lockstep c e g m m')
    (hk : ∀ a, Lockstep c .still h (k a) (k' (g a))) :
    Lockstep c e h (m >>= k) (m' >>= k') := .bind hm hk

/-- The result of the second step may be written differently. -/
theorem result {a : α} {b : α'} (hb : b = g a) :
    Lockstep c .still g (Pure.pure a) (Pure.pure b) := by
  rw [hb]
  exact .pure a

theorem ite {b : Prop} [Decidable b] {x y : Parse α} {x' y' : Parse α'}
    (hx : Lockstep c e g x x') (hy : Lockstep c e g y y') :
    Lockstep c e g (if b then x else y) (if b then x' else y') := by
  by_cases hb : b
  · rw [if_pos hb, if_pos hb]; exact hx
  · rw [if_neg hb, if_neg hb]; exact hy

theorem discarded (hm : Lockstep c e g m m') :
    Lockstep c e (fun u => u) (discard m) (discard m') := by
  have discard_eq {γ : Type} (x : Parse γ) :
      (discard x : Parse Unit) = x >>= fun _ => Pure.pure () := by
    funext s
    show EStateM.map (Function.const γ ()) x s = EStateM.bind x (fun _ => Pure.pure ()) s
    unfold EStateM.map EStateM.bind
    cases x s <;> rfl
  rw [discard_eq, discard_eq]
  exact hm.andStill fun _ => .pure ()

/-! ### Tokens and lists -/

theorem expected (wanted : TokenKind) :
    Lockstep c .part (Token.relabel c.labels) (expect wanted) (expect wanted) :=
  kind.andPart fun _ => .ite .advance .unexpectedToken

theorem expectedOr (wanted : TokenKind) (message : String) :
    Lockstep c .part (Token.relabel c.labels) (expectOr wanted message) (expectOr wanted message) :=
  kind.andPart fun _ => .ite .advance (.unexpected message)

/-- A second run has at least as much fuel for its items as the first. -/
theorem itemsUntil {close : TokenKind} {item : Nat → Parse α} {item' : Nat → Parse α'}
    (hitem : ∀ index, Lockstep c .part g (item index) (item' index)) :
    ∀ n n' index, n ≤ n' → (c.sameFuel → n = n') →
      Lockstep c .part (List.map g) (itemsUntil close item n index)
        (Parse.itemsUntil close item' n' index)
  | 0, 0, _, _, _ => .stuck
  | 0, n' + 1, _, _, heq => .outOfFuel fun he => by cases heq he
  | n + 1, n' + 1, index, hle, heq => by
    refine kind.andPart fun k => .ite (.part (.pure [])) ?_
    refine (hitem index).andPart fun a => ?_
    refine (itemsUntil hitem n n' (index + 1) (by omega) fun he => by cases heq he; rfl).andPart
      fun rest => ?_
    exact .part (.pure (a :: rest))

theorem manyUntil {close : TokenKind} {item : Nat → Parse α} {item' : Nat → Parse α'}
    (hitem : ∀ index, Lockstep c .part g (item index) (item' index)) :
    Lockstep c .part (List.map g) (Parse.manyUntil close item)
      (Parse.manyUntil close item') :=
  .fuel fun n n' hle heq =>
    itemsUntil hitem (n + 1) (n' + 1) 0 (by omega) fun he => by rw [heq he]

theorem comma (close : TokenKind) :
    Lockstep c .part (fun u => u) (Parse.comma close) (Parse.comma close) :=
  kind.andPart fun _ => .ite (.part (.pure ())) (expected .comma).discarded

theorem commaUntil {close : TokenKind} {item : Nat → Parse α} {item' : Nat → Parse α'}
    (hitem : ∀ index, Lockstep c .part g (item index) (item' index)) :
    Lockstep c .part (List.map g) (Parse.commaUntil close item)
      (Parse.commaUntil close item') := by
  refine manyUntil fun index => ?_
  refine (hitem index).andPart fun a => ?_
  exact (comma close).andPart fun _ => .part (.pure a)

theorem number : Lockstep c .part (fun l => l) number number := by
  refine current.andPart fun t => ?_
  rw [Token.relabel_value]
  cases Literal.ofNumber? t.value with
  | some literal => exact advance.discarded.andPart fun _ => .part (.pure literal)
  | none => exact .reject rfl _

end Lockstep

/-! ### Outcomes -/

/-- A relation between the streams before and behind a step that holds of the elementary steps, and so
of every step. -/
structure Steady (c : Terms) (R : TokenStream → TokenStream → Prop) : Prop where
  refl : ∀ s, R s s
  trans : ∀ {s t u}, R s t → R t u → R s u
  next : ∀ s, R s s.next
  register : ∀ s name, R s (s.register name)
  freshId : c.drawing → ∀ s, R s { s with nextId := s.nextId + 1 }

/-- The outcome of a step keeps a relation to the stream before it, also if the step fails; a diagnostic
comes from the syntax. -/
def Keeps {α : Type} (R : TokenStream → TokenStream → Prop) (s : TokenStream) :
    EStateM.Result Failure TokenStream α → Prop
  | .ok _ t => R s t
  | .error e t => R s t ∧ ∀ d, e = .rejected d → d.cause.stage = .syntactic

theorem Steady.behind {c : Terms} {R : TokenStream → TokenStream → Prop} (hR : Steady c R)
    {s t : TokenStream} (hst : R s t) {α : Type} :
    ∀ {r : EStateM.Result Failure TokenStream α}, Keeps R t r → Keeps R s r
  | .ok _ _, h => hR.trans hst h
  | .error _ _, h => ⟨hR.trans hst h.1, h.2⟩

/-- What the elementary steps keep to is kept by the first of two steps in lockstep. -/
theorem Lockstep.keeps {c : Terms} {R : TokenStream → TokenStream → Prop} (hR : Steady c R)
    {α β : Type} {e : Extent} {g : α → β} {m : Parse α} {m' : Parse β} (h : Lockstep c e g m m')
    (s : TokenStream) : Keeps R s (m s) := by
  have hsyntax {cause : Cause} (hcause : cause.stage = .syntactic) (place : Position) (d : Diagnostic)
      (hd : Failure.of cause place = .rejected d) : d.cause.stage = .syntactic := by
    cases hd
    exact hcause
  induction h generalizing s with
  | pure a => exact hR.refl s
  | @bind _ _ _ _ _ _ _ _ m _ k _ _ _ ihm ihk =>
    have hfirst := ihm s
    cases hm : m s with
    | ok a t =>
      rw [hm] at hfirst
      rw [bind_of_ok hm]
      exact hR.behind hfirst (ihk a t)
    | error e t =>
      rw [hm] at hfirst
      rw [bind_of_error hm]
      exact hfirst
  | part _ ih => exact ih s
  | current => exact hR.refl s
  | kind => exact hR.refl s
  | position => exact hR.refl s
  | advance => exact hR.next s
  | freshId hc => exact hR.freshId hc s
  | register name => exact hR.register s name
  | spanFrom start => exact hR.refl s
  | unexpectedToken => exact ⟨hR.refl s, hsyntax rfl _⟩
  | unexpected message => exact ⟨hR.refl s, hsyntax rfl _⟩
  | reject hcause place => exact ⟨hR.refl s, hsyntax hcause place⟩
  | @close k hk =>
    by_cases hs : s.kind = k
    · rw [expect_run hs]
      exact hR.next s
    · rw [expect_fails hs]
      exact ⟨hR.refl s, hsyntax rfl _⟩
  | stuck => exact ⟨hR.refl s, nofun⟩
  | outOfFuel _ => exact ⟨hR.refl s, nofun⟩
  | fuel _ ih =>
    rw [bind_of_ok (remaining_run s)]
    exact ih _ _ (Nat.le_refl _) (fun _ => rfl) s
  | lookahead _ _ ih =>
    rw [bind_of_ok (lookahead_run 1 s)]
    exact ih _ _ ⟨Iff.rfl, Iff.rfl⟩ s
  | @orElse _ _ _ _ _ _ m _ x y _ _ _ _ _ ihm ihx ihy =>
    have hfirst := ihm s
    cases hm : m s with
    | ok a t =>
      rw [hm] at hfirst
      rw [bind_of_ok hm, bind_of_ok (kind_run t)]
      by_cases hk : t.kind = .kwElse
      · rw [if_pos hk]; exact hR.behind hfirst (ihx a t)
      · rw [if_neg hk]; exact hR.behind hfirst (ihy a t)
    | error e t =>
      rw [hm] at hfirst
      rw [bind_of_error hm]
      exact hfirst
  | plain _ _ ihd ihe =>
    rw [Stmt.parsePlain_run]
    split
    · exact ihd s
    · exact ihe s

/-- What every reading step keeps to: the next id never falls, it stays if no ids may be drawn, the file
stays, and a diagnostic comes from the syntax. -/
def OutcomeFrom (c : Terms) {α : Type} (s : TokenStream) :
    EStateM.Result Failure TokenStream α → Prop
  | .ok _ t => s.nextId ≤ t.nextId ∧ t.file = s.file ∧ (¬ c.drawing → t.nextId = s.nextId)
  | .error e t => s.nextId ≤ t.nextId ∧ ∀ d, e = .rejected d → d.cause.stage = .syntactic

theorem TokenStream.file_next (s : TokenStream) : s.next.file = s.file := by
  unfold next
  split <;> rfl

theorem TokenStream.file_register (s : TokenStream) (name : String) :
    (s.register name).file = s.file := by
  unfold register
  split <;> rfl

@[simp] theorem TokenStream.nextId_next (s : TokenStream) : s.next.nextId = s.nextId := by
  unfold next
  split <;> rfl

@[simp] theorem TokenStream.nextId_register (s : TokenStream) (name : String) :
    (s.register name).nextId = s.nextId := by
  unfold register
  split <;> rfl

/-- Ids and files are steady. -/
theorem steady_ids (c : Terms) : Steady c fun s t =>
    s.nextId ≤ t.nextId ∧ t.file = s.file ∧ (¬ c.drawing → t.nextId = s.nextId) where
  refl _ := ⟨Nat.le_refl _, rfl, fun _ => rfl⟩
  trans hst htu :=
    ⟨Nat.le_trans hst.1 htu.1, htu.2.1.trans hst.2.1, fun hc => (htu.2.2 hc).trans (hst.2.2 hc)⟩
  next s := ⟨Nat.le_of_eq s.nextId_next.symm, s.file_next, fun _ => s.nextId_next⟩
  register s name := ⟨Nat.le_of_eq (s.nextId_register name).symm, s.file_register name,
    fun _ => s.nextId_register name⟩
  freshId hc _ := ⟨Nat.le_succ _, rfl, fun hn => absurd hc hn⟩

/-- The outcome of the first of two steps in lockstep. -/
theorem Lockstep.outcome {c : Terms} {α β : Type} {e : Extent} {g : α → β} {m : Parse α}
    {m' : Parse β} (h : Lockstep c e g m m') (s : TokenStream) : OutcomeFrom c s (m s) := by
  have hkeeps := h.keeps (steady_ids c) s
  generalize m s = run at hkeeps ⊢
  cases run with
  | ok a t => exact hkeeps
  | error e t => exact ⟨hkeeps.1.1, hkeeps.2⟩

end ScriptCheck
