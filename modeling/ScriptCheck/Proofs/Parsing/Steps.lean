import ScriptCheck.Proofs.Coupling
import ScriptCheck.Stmt.Parser

/-!
Running reading steps. A stream shows the tokens that are left of it, the current one first; the
lemmas here say, for each elementary step, which outcome it has on a stream and which tokens are left
behind it, so that longer steps are run by rewriting.
-/

namespace ScriptCheck

namespace TokenStream

/-- The tokens that are left: the current one and those behind it. -/
def tokens (s : TokenStream) : List Token := s.current :: s.upcoming

theorem current_of_tokens {s : TokenStream} {t : Token} {ts : List Token} (h : s.tokens = t :: ts) :
    s.current = t := (List.cons.inj h).1

theorem kind_of_tokens {s : TokenStream} {t : Token} {ts : List Token} (h : s.tokens = t :: ts) :
    s.kind = t.kind := by rw [kind, current_of_tokens h]

theorem remaining_of_tokens {s : TokenStream} {t : Token} {ts : List Token}
    (h : s.tokens = t :: ts) : s.remaining = ts.length := by
  rw [remaining, (List.cons.inj h).2]

/-- Behind a token that is not the last one the tokens that follow it are left. -/
theorem tokens_next {s : TokenStream} {t : Token} {ts : List Token} (h : s.tokens = t :: ts)
    (hts : ts ≠ []) : s.next.tokens = ts := by
  obtain ⟨u, us, rfl⟩ := List.exists_cons_of_ne_nil hts
  have hu : s.upcoming = u :: us := (List.cons.inj h).2
  rw [next, hu]; rfl

/-- Type names are no tokens. -/
theorem tokens_register (s : TokenStream) (name : String) : (s.register name).tokens = s.tokens := by
  unfold register
  split <;> rfl

/-- Closed tokens are what a stream of them shows. -/
theorem tokens_ofTokens (file : String) (ts : List Token) {last : Token}
    (hlast : last.kind = .eof) : (ofTokens (ts ++ [last]) file).tokens = ts ++ [last] := by
  have hclosed : (ts ++ [last]).getLast?.map Token.kind = some .eof := by
    rw [List.getLast?_concat, Option.map_some, hlast]
  simp only [ofTokens, tokens, if_pos hclosed]
  cases ts <;> rfl

end TokenStream

namespace Parse

variable {α β : Type} {m : Parse α} {s s' : TokenStream} {a : α} {e : Failure}

theorem current_run (s : TokenStream) : current s = .ok s.current s := rfl

theorem kind_run (s : TokenStream) : kind s = .ok s.kind s := rfl

theorem lookahead_run (n : Nat) (s : TokenStream) : lookahead n s = .ok (s.peek n).kind s := rfl

theorem position_run (s : TokenStream) : position s = .ok s.position s := rfl

theorem remaining_run (s : TokenStream) : remaining s = .ok s.remaining s := rfl

theorem advance_run (s : TokenStream) : advance s = .ok s.current s.next := rfl

theorem freshId_run (s : TokenStream) :
    freshId s = .ok s.nextId { s with nextId := s.nextId + 1 } := rfl

theorem register_run (name : String) (s : TokenStream) :
    register name s = .ok () (s.register name) := rfl

theorem spanFrom_run (start : Position) (s : TokenStream) :
    spanFrom start s = .ok (s.spanFrom start) s := rfl

theorem unexpectedToken_run (s : TokenStream) :
    (unexpectedToken : Parse α) s = .error s.unexpectedToken s := rfl

theorem unexpected_run (message : String) (s : TokenStream) :
    (unexpected message : Parse α) s = .error (s.unexpected message) s := rfl

theorem expect_run {k : TokenKind} (h : s.kind = k) : expect k s = .ok s.current s.next := by
  rw [expect, bind_of_ok (kind_run s), if_pos h]; rfl

theorem expect_fails {k : TokenKind} (h : s.kind ≠ k) :
    expect k s = .error s.unexpectedToken s := by
  rw [expect, bind_of_ok (kind_run s), if_neg h]; rfl

theorem expectOr_run {k : TokenKind} {message : String} (h : s.kind = k) :
    expectOr k message s = .ok s.current s.next := by
  rw [expectOr, bind_of_ok (kind_run s), if_pos h]; rfl

/-- A list ends where its closing token stands. -/
theorem itemsUntil_close {close : TokenKind} {item : Nat → Parse α} {fuel index : Nat}
    (h : s.kind = close) : itemsUntil close item (fuel + 1) index s = .ok [] s := by
  rw [itemsUntil, bind_of_ok (kind_run s), if_pos h]; rfl

/-- A list goes on with an item where its closing token does not stand. -/
theorem itemsUntil_item {close : TokenKind} {item : Nat → Parse α} {fuel index : Nat}
    {rest : List α} {t : TokenStream} (h : s.kind ≠ close) (hitem : item index s = .ok a s')
    (hrest : itemsUntil close item fuel (index + 1) s' = .ok rest t) :
    itemsUntil close item (fuel + 1) index s = .ok (a :: rest) t := by
  rw [itemsUntil, bind_of_ok (kind_run s), if_neg h, bind_of_ok hitem, bind_of_ok hrest]; rfl

end Parse

theorem Stmt.parsePlain_run (s : TokenStream) :
    parsePlain s = if startsDeclaration s then parseTyped s else parseExpr s := by
  show (if startsDeclaration s then parseTyped else parseExpr : Parse Stmt) s = _
  split <;> rfl

end ScriptCheck
