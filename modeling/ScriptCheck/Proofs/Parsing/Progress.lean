import ScriptCheck.Proofs.Anchor.Trees
import ScriptCheck.Proofs.Parsing.Steps

/-!
Reading gets on. On a stream that ends with a mark of its end, no reading step is ever stuck: a type,
an expression or a statement takes at least one token, so that the fuel of every loop suffices. What is
read starts at tokens, and so does every failure.
-/

namespace ScriptCheck

open Parse

/-- The last token of a stream marks its end, and every token starts at one of the places. -/
structure TokenStream.Stands (P : Position → Prop) (s : TokenStream) : Prop where
  closed : ∀ t ∈ s.tokens.getLast?, t.kind = .eof
  starts : ∀ t ∈ s.tokens, P t.span.start

namespace TokenStream.Stands

variable {P : Position → Prop} {s : TokenStream}

theorem position (h : s.Stands P) : P s.position := h.starts _ List.mem_cons_self

/-- Only the tokens of a stream matter. -/
theorem of_tokens {s' : TokenStream} (h : s.Stands P) (htokens : s'.tokens = s.tokens) :
    s'.Stands P := by
  refine ⟨?_, ?_⟩ <;> rw [htokens]
  · exact h.closed
  · exact h.starts

theorem next (h : s.Stands P) : s.next.Stands P := by
  rcases s with ⟨file, current, upcoming, previousEnd, typeNames, nextId⟩
  rcases upcoming with _ | ⟨t, ts⟩
  · exact h
  · refine ⟨fun u hu => h.closed u ?_, fun u hu => h.starts u (List.mem_cons_of_mem _ hu)⟩
    rw [tokens, List.getLast?_cons_cons]
    exact hu

/-- Before its end a stream gets on. -/
theorem remaining_next (h : s.Stands P) (hkind : s.kind ≠ .eof) :
    s.next.remaining + 1 ≤ s.remaining := by
  rcases s with ⟨file, current, upcoming, previousEnd, typeNames, nextId⟩
  rcases upcoming with _ | ⟨t, ts⟩
  · exact absurd (h.closed current rfl) hkind
  · simp [TokenStream.next, remaining]

end TokenStream.Stands

/-- The outcome of a step that gets on: it takes at least `k` tokens, or fails at one. -/
def GetsOn {α : Type} (P : Position → Prop) (k : Nat) (Q : α → Prop) (s : TokenStream) :
    EStateM.Result Failure TokenStream α → Prop
  | .ok a t => Q a ∧ t.Stands P ∧ t.remaining + k ≤ s.remaining
  | .error e _ => ∃ d, e = .rejected d ∧ P d.position

/-- On streams with fewer than `n` tokens behind the current one, whose kind is in `K`, a step takes
at least `k` tokens and gives a result in `Q`, or fails at a token. -/
def Reads {α : Type} (P : Position → Prop) (K : TokenKind → Prop) (n k : Nat) (Q : α → Prop)
    (m : Parse α) : Prop :=
  ∀ ⦃s : TokenStream⦄, s.Stands P → K s.kind → s.remaining < n → GetsOn P k Q s (m s)

namespace Reads

variable {P : Position → Prop} {K K' : TokenKind → Prop} {n n' j k k' : Nat} {α β : Type}
  {Q Q' : α → Prop} {R : β → Prop} {m : Parse α} {f : α → Parse β}

theorem mono (h : Reads P K n k Q m) (hK : ∀ x, K' x → K x) (hn : n' ≤ n) (hk : k' ≤ k)
    (hQ : ∀ a, Q a → Q' a) : Reads P K' n' k' Q' m := by
  intro s hs hkind hlt
  have hrun := h hs (hK _ hkind) (Nat.lt_of_lt_of_le hlt hn)
  generalize m s = run at hrun ⊢
  cases run with
  | error e t => exact hrun
  | ok a t => exact ⟨hQ a hrun.1, hrun.2.1, by have := hrun.2.2; omega⟩

/-- A step may be given less fuel, and need not be known to take tokens. -/
theorem le (h : Reads P (fun _ => True) n k Q m) (hn : n' ≤ n) (hk : k' ≤ k) :
    Reads P K n' k' Q m := h.mono (fun _ _ => trivial) hn hk fun _ hQ => hQ

theorem weaken (h : Reads P K n k Q m) : Reads P K n 0 Q m :=
  h.mono (fun _ h => h) (Nat.le_refl n) (Nat.zero_le k) fun _ h => h

theorem pure {a : α} (h : Q a) : Reads P K n 0 Q (Pure.pure a) := fun _ hs _ _ =>
  ⟨h, hs, Nat.le_refl _⟩

/-- The tokens of two steps add up, and there is less left for the second. -/
theorem bind (hm : Reads P K n j Q m) (hf : ∀ a, Q a → Reads P (fun _ => True) (n - j) k R (f a)) :
    Reads P K n (j + k) R (m >>= f) := by
  intro s hs hkind hlt
  have hrun := hm hs hkind hlt
  cases hms : m s with
  | error e t =>
    rw [hms] at hrun
    rw [bind_of_error hms]
    exact hrun
  | ok a t =>
    rw [hms] at hrun
    rw [bind_of_ok hms]
    obtain ⟨hQ, ht, hle⟩ := hrun
    have hrun := hf a hQ ht trivial (by omega)
    generalize f a t = run at hrun ⊢
    cases run with
    | error e t => exact hrun
    | ok b u => exact ⟨hrun.1, hrun.2.1, by have := hrun.2.2; omega⟩

/-- A step goes on with another. -/
theorem andThen (hm : Reads P K n j Q m) (hf : ∀ a, Q a → Reads P (fun _ => True) n k R (f a)) :
    Reads P K n k R (m >>= f) :=
  (hm.bind fun a hQ => (hf a hQ).le (Nat.sub_le n j) (Nat.le_refl k)).mono (fun _ h => h)
    (Nat.le_refl n) (Nat.le_add_left k j) fun _ h => h

/-- Behind the first token there is less left, and nothing more need be taken. -/
theorem past (hm : Reads P K n 1 Q m)
    (hf : ∀ a, Q a → Reads P (fun _ => True) (n - 1) 0 R (f a)) : Reads P K n 1 R (m >>= f) :=
  hm.bind hf

theorem discarded (hm : Reads P K n k Q m) : Reads P K n k (fun _ : Unit => True) (discard m) := by
  intro s hs hkind hlt
  have hrun := hm hs hkind hlt
  cases hms : m s with
  | error e t =>
    rw [hms] at hrun
    rw [discard_of_error hms]
    exact hrun
  | ok a t =>
    rw [hms] at hrun
    rw [discard_of_ok hms]
    exact ⟨trivial, hrun.2⟩

theorem ite {c : Prop} [Decidable c] {x y : Parse α} (hx : c → Reads P K n k Q x)
    (hy : ¬ c → Reads P K n k Q y) : Reads P K n k Q (if c then x else y) := by
  by_cases hc : c
  · rw [if_pos hc]
    exact hx hc
  · rw [if_neg hc]
    exact hy hc

/-! ### Looking at the stream -/

theorem afterKind {f : TokenKind → Parse β} (hf : ∀ x, K x → Reads P (· = x) n k R (f x)) :
    Reads P K n k R (kind >>= f) := fun s hs hkind hlt => hf s.kind hkind hs rfl hlt

theorem afterCurrent {f : Token → Parse β}
    (hf : ∀ t, K t.kind → P t.span.start → Reads P (· = t.kind) n k R (f t)) :
    Reads P K n k R (current >>= f) := fun s hs hkind hlt =>
  hf s.current hkind hs.position hs rfl hlt

theorem afterPosition {f : Position → Parse β} (hf : ∀ p, P p → Reads P K n k R (f p)) :
    Reads P K n k R (position >>= f) := fun s hs hkind hlt => hf s.position hs.position hs hkind hlt

theorem afterFreshId {f : Nat → Parse β} (hf : ∀ i, Reads P K n k R (f i)) :
    Reads P K n k R (freshId >>= f) := fun s hs hkind hlt =>
  hf s.nextId (s := { s with nextId := s.nextId + 1 }) (hs.of_tokens rfl) hkind hlt

theorem afterLookahead {f : TokenKind → Parse β} (hf : ∀ x, Reads P K n k R (f x)) :
    Reads P K n k R (lookahead 1 >>= f) := fun s hs hkind hlt => hf (s.peek 1).kind hs hkind hlt

/-- Fuel may be taken from the stream. -/
theorem afterRemaining {f : Nat → Parse β} (hf : ∀ r, r < n → Reads P K (r + 1) k R (f r)) :
    Reads P K n k R (remaining >>= f) := fun s hs hkind hlt =>
  hf s.remaining hlt hs hkind (Nat.lt_succ_self _)

theorem spanFrom (start : Position) :
    Reads P K n 0 (fun span => span.start = start) (spanFrom start) := fun _ hs _ _ =>
  ⟨rfl, hs, Nat.le_refl _⟩

theorem register (name : String) : Reads P K n 0 (fun _ => True) (register name) := by
  intro s hs _ _
  rw [register_run]
  have hsame := s.tokens_register name
  exact ⟨trivial, hs.of_tokens hsame, Nat.le_of_eq (congrArg List.length (List.cons.inj hsame).2)⟩

/-! ### Tokens -/

theorem rejects {e : TokenStream → Diagnostic} (h : ∀ s, m s = .error (.rejected (e s)) s)
    (he : ∀ s, s.Stands P → P (e s).position) : Reads P K n k Q m := by
  intro s hs _ _
  rw [h]
  exact ⟨_, rfl, he s hs⟩

theorem unexpectedToken : Reads P K n k Q unexpectedToken :=
  rejects (fun _ => rfl) fun _ hs => hs.position

theorem unexpected (message : String) : Reads P K n k Q (unexpected message) :=
  rejects (fun _ => rfl) fun _ hs => hs.position

theorem advance : Reads P K n 0 (fun t => P t.span.start) advance := by
  intro s hs _ _
  refine ⟨hs.position, hs.next, ?_⟩
  rw [TokenStream.remaining_next]
  exact Nat.sub_le _ _

/-- A token that is not the last one is taken. -/
theorem taken (hK : ∀ x, K x → x ≠ .eof) :
    Reads P K n 1 (fun t => P t.span.start ∧ K t.kind) Parse.advance := fun _ hs hkind _ =>
  ⟨⟨hs.position, hkind⟩, hs.next, hs.remaining_next (hK _ hkind)⟩

theorem expected {wanted : TokenKind} (h : wanted ≠ .eof) :
    Reads P K n 1 (fun t => P t.span.start) (expect wanted) := by
  refine afterKind fun x _ => ite (fun hx => ?_) fun _ => unexpectedToken
  exact (taken (K := (· = x)) (by rintro _ rfl; rwa [hx])).mono (fun _ h => h) (Nat.le_refl n)
    (Nat.le_refl 1) fun _ ht => ht.1

theorem expectedOr {wanted : TokenKind} (h : wanted ≠ .eof) (message : String) :
    Reads P K n 1 (fun t => P t.span.start) (expectOr wanted message) := by
  refine afterKind fun x _ => ite (fun hx => ?_) fun _ => unexpected message
  exact (taken (K := (· = x)) (by rintro _ rfl; rwa [hx])).mono (fun _ h => h) (Nat.le_refl n)
    (Nat.le_refl 1) fun _ ht => ht.1

/-! ### Lists -/

/-- Every item takes a token, so that there is fuel for all of them. -/
theorem itemsUntil {close : TokenKind} {item : Nat → Parse α}
    (hitem : ∀ index, Reads P (fun _ => True) n 1 Q (item index)) :
    ∀ fuel n' index, n' ≤ fuel → n' ≤ n →
      Reads P (fun _ => True) n' 0 (fun as => ∀ a ∈ as, Q a) (itemsUntil close item fuel index)
  | 0, n', _, hfuel, _ => fun _ _ _ hlt => by omega
  | fuel + 1, n', index, hfuel, hle => by
    refine afterKind fun x _ => ite (fun _ => pure nofun) fun _ => ?_
    have hrest (a : α) (ha : Q a) : Reads P (fun _ => True) (n' - 1) 0 (fun as => ∀ a ∈ as, Q a)
        (Parse.itemsUntil close item fuel (index + 1) >>= fun rest => Pure.pure (a :: rest)) :=
      (itemsUntil hitem fuel (n' - 1) (index + 1) (by omega) (by omega)).andThen fun rest hrest =>
        pure (List.forall_mem_cons.2 ⟨ha, hrest⟩)
    exact (((hitem index).le hle (Nat.le_refl 1)).bind hrest).mono (fun _ h => h) (Nat.le_refl n')
      (Nat.zero_le _) fun _ h => h

theorem manyUntil {close : TokenKind} {item : Nat → Parse α}
    (hitem : ∀ index, Reads P (fun _ => True) n 1 Q (item index)) :
    Reads P K n 0 (fun as => ∀ a ∈ as, Q a) (manyUntil close item) :=
  afterRemaining fun r hr =>
    (itemsUntil hitem (r + 1) (r + 1) 0 (Nat.le_refl _) hr).le (Nat.le_refl _) (Nat.le_refl _)

theorem comma (close : TokenKind) : Reads P K n 0 (fun _ => True) (comma close) :=
  afterKind fun _ _ => ite (fun _ => pure trivial) fun _ =>
    (expected (K := fun _ => True) (by decide)).discarded.le (Nat.le_refl n) (Nat.zero_le 1)

theorem commaUntil {close : TokenKind} {item : Nat → Parse α}
    (hitem : ∀ index, Reads P (fun _ => True) n 1 Q (item index)) :
    Reads P K n 0 (fun as => ∀ a ∈ as, Q a) (commaUntil close item) :=
  manyUntil fun index => (hitem index).bind fun _ ha => (comma close).andThen fun _ _ => pure ha

end Reads

/-- A step that takes the token it starts at, whichever that is. Before the end of the stream this gets
on; at the end the stream stays, and the rest of the step has only the fuel that there is. -/
structure Opens {α : Type} (P : Position → Prop) (K : TokenKind → Prop) (n : Nat) (Q : α → Prop)
    (m : Parse α) : Prop where
  taken : (∀ x, K x → x ≠ .eof) → Reads P K (n + 1) 1 Q m
  stayed : Reads P K n 0 Q m

namespace Opens

variable {P : Position → Prop} {K : TokenKind → Prop} {n : Nat} {α β : Type} {Q : α → Prop}
  {R : β → Prop} {m : Parse α}

/-- A step that takes a token wherever it starts. -/
theorem of_reads (h : Reads P K (n + 1) 1 Q m) : Opens P K n Q m :=
  ⟨fun _ => h, h.mono (fun _ h => h) (Nat.le_succ n) (Nat.zero_le 1) fun _ h => h⟩

theorem advance : Opens P K n (fun t => P t.span.start) Parse.advance :=
  ⟨fun hK => (Reads.taken hK).mono (fun _ h => h) (Nat.le_refl _) (Nat.le_refl 1) fun _ ht => ht.1,
    Reads.advance⟩

theorem andThen {f : α → Parse β} (hm : Opens P K n Q m)
    (hf : ∀ a, Q a → Reads P (fun _ => True) n 0 R (f a)) : Opens P K n R (m >>= f) :=
  ⟨fun hK => (hm.taken hK).past hf, hm.stayed.andThen hf⟩

theorem discarded (hm : Opens P K n Q m) : Opens P K n (fun _ : Unit => True) (discard m) :=
  ⟨fun hK => (hm.taken hK).discarded, hm.stayed.discarded⟩

theorem afterKind {f : TokenKind → Parse β} (hf : ∀ x, Opens P (· = x) n R (f x)) :
    Opens P K n R (kind >>= f) :=
  ⟨fun hK => .afterKind fun x hx => (hf x).taken (by rintro _ rfl; exact hK _ hx),
    .afterKind fun x _ => (hf x).stayed⟩

theorem afterCurrent {f : Token → Parse β}
    (hf : ∀ t, P t.span.start → Opens P (· = t.kind) n R (f t)) :
    Opens P K n R (current >>= f) :=
  ⟨fun hK => .afterCurrent fun t ht hstart => (hf t hstart).taken (by rintro _ rfl; exact hK _ ht),
    .afterCurrent fun t _ hstart => (hf t hstart).stayed⟩

theorem afterFreshId {f : Nat → Parse β} (hf : ∀ i, Opens P K n R (f i)) :
    Opens P K n R (freshId >>= f) :=
  ⟨fun hK => .afterFreshId fun i => (hf i).taken hK, .afterFreshId fun i => (hf i).stayed⟩

theorem number : Opens P K n (fun _ => True) number := by
  refine .afterCurrent fun t hstart => ?_
  cases Literal.ofNumber? t.value with
  | some literal => exact advance.discarded.andThen fun _ _ => .pure trivial
  | none => exact .of_reads (.rejects (fun _ => rfl) fun _ _ => hstart)

end Opens

end ScriptCheck
