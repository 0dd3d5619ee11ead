import ScriptCheck.Proofs.Lexing.Seam
import ScriptCheck.Source.Cursor

/-!
Scanning with a cursor. A cursor that moves by whole characters stands between two parts of its text, and
what it can see is the second one. So a cursor that starts with the text, and is moved behind whatever a rule
takes, reads the tokens of the text.
-/

namespace ScriptCheck

/-! ### Bytes dropped -/

theorem dropBytes_append (before rest : List Char) :
    dropBytes (byteLength before) (before ++ rest) = some rest := by
  induction before with
  | nil => cases rest <;> rfl
  | cons c before ih =>
    obtain ⟨n, hn⟩ := Nat.exists_eq_add_one.2 (Nat.add_pos_left c.utf8Size_pos (byteLength before))
    have hsize : c.utf8Size ≤ n + 1 := by omega
    have hrest : n + 1 - c.utf8Size = byteLength before := by omega
    rw [byteLength, List.cons_append, hn, dropBytes, if_pos hsize, hrest, ih]

/-- The text behind some bytes is what stands behind a part of the text with that many. -/
theorem dropBytes_eq_some_iff {n : Nat} {cs rest : List Char} :
    dropBytes n cs = some rest ↔ ∃ before, cs = before ++ rest ∧ byteLength before = n := by
  constructor
  · intro h
    induction cs generalizing n with
    | nil =>
      cases n with
      | zero =>
        cases h
        exact ⟨[], rfl, rfl⟩
      | succ n => cases h
    | cons c cs ih =>
      cases n with
      | zero =>
        cases h
        exact ⟨[], rfl, rfl⟩
      | succ n =>
        rw [dropBytes] at h
        split at h
        · obtain ⟨before, rfl, hlength⟩ := ih h
          refine ⟨c :: before, rfl, ?_⟩
          rw [byteLength]
          omega
        · cases h
  · rintro ⟨before, rfl, rfl⟩
    exact dropBytes_append before rest

namespace Cursor

variable {c : Cursor} {cs rest : List Char}

/-! ### What a cursor sees -/

/-- The cursor stands between what it has passed and what it sees. -/
theorem remainder?_eq_some_iff :
    c.remainder? = some cs ↔ ∃ before, c.source = before ++ cs ∧ byteLength before = c.offset :=
  dropBytes_eq_some_iff

theorem remainder?_ofSource (source file : String) : (ofSource source file).remainder? = some source.toList :=
  remainder?_eq_some_iff.2 ⟨[], rfl, rfl⟩

/-- A cursor moved by what stands behind it sees the rest. -/
theorem remainder?_advance {taken : List Char} (h : c.remainder? = some (taken ++ rest)) :
    (c.advance (byteLength taken)).remainder? = some rest := by
  obtain ⟨before, hsource, hoffset⟩ := remainder?_eq_some_iff.1 h
  refine remainder?_eq_some_iff.2 ⟨before ++ taken, ?_, ?_⟩
  · rw [List.append_assoc]
    exact hsource
  · rw [byteLength_append, hoffset]
    rfl

theorem remainder?_behind (h : c.remainder? = some cs) {n : Nat} :
    (c.advance (byteLength (cs.take n))).remainder? = some (cs.drop n) :=
  remainder?_advance (by rw [List.take_append_drop]; exact h)

theorem atEnd_iff (h : c.remainder? = some cs) : c.atEnd = true ↔ cs = [] := by
  obtain ⟨before, hsource, hoffset⟩ := remainder?_eq_some_iff.1 h
  rw [atEnd, decide_eq_true_iff, hsource, byteLength_append, ← hoffset]
  have hle := length_le_byteLength cs
  constructor
  · intro hend
    exact List.length_eq_zero_iff.1 (by omega)
  · rintro rfl
    exact Nat.le_refl _

theorem exists_cons_of_atEnd (h : c.remainder? = some cs) (hend : c.atEnd = false) :
    ∃ x rest, cs = x :: rest := by
  refine List.exists_cons_of_ne_nil fun hnil => ?_
  rw [(atEnd_iff h).2 hnil] at hend
  cases hend

theorem current?_eq {x : Char} (h : c.remainder? = some (x :: rest)) : c.current? = some x := by
  rw [current?, h]
  rfl

/-! ### What a cursor reads -/

/-- What is read from a cursor on: nothing but the mark of the end at the end of the text. Before it, the first
rule that matches what the cursor sees makes a token of what it takes, or none, and the cursor is moved behind
that; the reading fails at the cursor if no rule matches, or if what was taken is not well written. -/
inductive Reads : Cursor → Except Diagnostic (List Token) → Prop
  | stop {c : Cursor} (h : c.atEnd = true) : Reads c (.ok [.endOf (c.spanOf 0)])
  | unknown {c : Cursor} {cs : List Char} {x : Char} (hend : c.atEnd = false) (hcs : c.remainder? = some cs)
      (hx : c.current? = some x) (h : LexRule.first? cs = none) :
      Reads c (.error ⟨.unrecognisedToken (String.singleton x), c.position⟩)
  | misspelt {c : Cursor} {cs : List Char} {rule : LexRule} {n : Nat} {d : Diagnostic} (hend : c.atEnd = false)
      (hcs : c.remainder? = some cs) (h : LexRule.first? cs = some (rule, n))
      (hmade : rule.token? c.file c.offset (cs.take n) = .error d) : Reads c (.error d)
  | step {c : Cursor} {cs : List Char} {rule : LexRule} {n : Nat} {made : Option Token}
      {result : Except Diagnostic (List Token)} (hend : c.atEnd = false) (hcs : c.remainder? = some cs)
      (h : LexRule.first? cs = some (rule, n)) (hmade : rule.token? c.file c.offset (cs.take n) = .ok made)
      (hrest : Reads (c.advance (byteLength (cs.take n))) result) :
      Reads c (result.map (made.toList ++ ·))

/-- From a cursor on the tokens of what it sees are read, and nothing else. -/
theorem reads_iff (h : c.remainder? = some cs) {result : Except Diagnostic (List Token)} :
    c.Reads result ↔ result = scan c.file c.offset cs := by
  constructor
  · intro hreads
    induction hreads generalizing cs with
    | stop hend =>
      obtain rfl := (atEnd_iff h).1 hend
      rw [scan]
      rfl
    | unknown hend hcs hx hfirst =>
      obtain rfl := Option.some.inj (h.symm.trans hcs)
      obtain ⟨x, rest, rfl⟩ := exists_cons_of_atEnd h hend
      obtain rfl := Option.some.inj ((current?_eq h).symm.trans hx)
      exact (scan_none _ _ hfirst).symm
    | misspelt hend hcs hfirst hmade =>
      obtain rfl := Option.some.inj (h.symm.trans hcs)
      obtain ⟨x, rest, rfl⟩ := exists_cons_of_atEnd h hend
      rw [scan_cons hfirst, hmade]
      rfl
    | step hend hcs hfirst hmade _ ih =>
      obtain rfl := Option.some.inj (h.symm.trans hcs)
      obtain ⟨x, rest, rfl⟩ := exists_cons_of_atEnd h hend
      rw [scan_made hfirst hmade, ih (remainder?_behind h)]
      rfl
  · rintro rfl
    induction hlength : cs.length using Nat.strongRecOn generalizing c cs with
    | ind length ih =>
      subst hlength
      cases cs with
      | nil =>
        rw [scan]
        exact .stop ((atEnd_iff h).2 rfl)
      | cons x rest =>
        have hend : c.atEnd = false :=
          Bool.eq_false_iff.2 fun hend => List.cons_ne_nil x rest ((atEnd_iff h).1 hend)
        cases hfirst : LexRule.first? (x :: rest) with
        | none =>
          rw [scan_none _ _ hfirst]
          exact .unknown hend h (current?_eq h) hfirst
        | some found =>
          obtain ⟨rule, n⟩ := found
          cases hmade : rule.token? c.file c.offset ((x :: rest).take n) with
          | error d =>
            rw [scan_cons hfirst, hmade]
            exact .misspelt hend h hfirst hmade
          | ok made =>
            have hpos := LexRule.first?_pos hfirst
            have hshorter : ((x :: rest).drop n).length < (x :: rest).length := by
              simp only [List.length_drop, List.length_cons]
              omega
            rw [scan_made hfirst hmade]
            exact .step hend h hfirst hmade (ih _ hshorter (remainder?_behind h) rfl)

/-- The tokens of a source are what is read from the start of its text on. -/
theorem tokenize_reads (source file : String) (result : Except Diagnostic (List Token)) :
    (ofSource source file).Reads result ↔ result = tokenize source file :=
  reads_iff (remainder?_ofSource source file)

end Cursor

end ScriptCheck
