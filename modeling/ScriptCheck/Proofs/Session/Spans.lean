import ScriptCheck.Proofs.Parsing.Spans
import ScriptCheck.Proofs.Session.Inference

/-!
The spans of a program that is read. A stream over the tokens of a source stands before all of them, so
that what is read from it is laid out in the source: every statement, expression, type reference, parameter
and field has a span of the source, lies inside of its parent and apart from its siblings, and names and
whole numbers can be found in the source at their spans.
-/

namespace ScriptCheck

namespace Session

variable {s : Session} {source file : String} {block : Block}

/-- The stream of the tokens of a source stands before all of them. -/
theorem isAt_stream {ts : List Token} (h : Faithful source.toList file 0 ts)
    (hnumerals : ∀ t ∈ ts, t.IsNumeral) : ∃ p, (s.stream ts file).IsAt source.toList file 0 p := by
  obtain ⟨us, hts, hread⟩ := h.closed
  have htokens : (s.stream ts file).tokens = ts := by
    rw [hts]
    exact TokenStream.tokens_ofTokens file us rfl
  have hfile : (s.stream ts file).position.file = file := by
    have hmem : (s.stream ts file).current ∈ (s.stream ts file).tokens := List.mem_cons_self
    rcases List.mem_append.1 (htokens.trans hts ▸ hmem) with hmem | hmem
    · exact (hread _ hmem).startFile
    · rw [TokenStream.position, List.mem_singleton.1 hmem]
      rfl
  refine ⟨(s.stream ts file).position.offset, rfl, ?_, Nat.zero_le _, ?_, htokens.symm ▸ h.ordered⟩
  · exact Position.mk.injEq _ _ _ _ ▸ ⟨rfl, hfile⟩
  · refine ⟨us, _, htokens.trans hts, rfl, rfl, fun t ht => ⟨hread t ht, hnumerals t ?_⟩⟩
    rw [hts]
    exact List.mem_append_left _ ht

/-- A program that is read lies in its source. -/
theorem ReadsAs.row (hlimit : byteLength source.toList < Position.limit)
    (h : s.ReadsAs source file block) :
    Row source.toList file 0 (byteLength source.toList) [block.piece] := by
  obtain ⟨ts, rest, htokens, hparse⟩ := h
  obtain ⟨p, hstream⟩ := isAt_stream (s := s) ((scan_covers htokens).faithful [] rfl hlimit)
    (scan_numerals htokens)
  obtain ⟨e', p', hrest, -, -, hrow⟩ := Block.parseFrom_places (K := Anywhere) hstream trivial hparse
  have hend := Nat.le_trans hrest.le hrest.start_le
  exact hrow.mono (Nat.le_refl 0) hend

/-- Spans are faithful: in the tree of a source whose offsets fit, every statement, expression, type
reference, parameter and field has a span of the source that holds those of its children, which lie apart
from each other; a name is what the source holds at its span, and an integer what the digits there say. -/
theorem spans_faithful (hlimit : byteLength source.toList < Position.limit)
    (h : s.ReadsAs source file block) (x : Piece) (hx : block.piece.Contains x) :
    x.IsPlaced source.toList file ∧ x.span.stop.offset ≤ byteLength source.toList := by
  have hrow := h.row hlimit
  have hlaid := hrow.laid block.piece List.mem_cons_self
  refine ⟨(hx.laid hlaid).here, ?_⟩
  induction hx with
  | root => exact (hrow.between block.piece List.mem_cons_self).before
  | child hx hc ih => exact Nat.le_trans ((hx.laid hlaid).here.inside _ hc).2 ih

/-- Fields come before methods in the tree, whatever their order in the source. -/
theorem spans_faithful_class : ∃ block, (new .record).ReadsAs
    "class A \x7b fn m() \x7b return (1 + 20) * this.n; \x7d int n = 7; \x7d // é" "main" block ∧
    (block.piece.children.flatMap Piece.children).map (·.span.start.offset) = [47, 10] ∧
    ∀ x, block.piece.Contains x →
      x.children.Pairwise Piece.Apart ∧ x.span.start.offset ≤ x.span.stop.offset ∧
        x.span.stop.offset ≤ 65 := by
  let test (b : Block) : Bool :=
    (b.piece.children.flatMap Piece.children).map (·.span.start.offset) == [47, 10]
  obtain ⟨block, hread, htest⟩ : ∃ block, (new .record).ReadsAs
      "class A \x7b fn m() \x7b return (1 + 20) * this.n; \x7d int n = 7; \x7d // é" "main" block ∧
      test block = true := exists_block_where test (by decide +kernel)
  refine ⟨block, hread, eq_of_beq htest, fun x hx => ?_⟩
  obtain ⟨hplaced, hstop⟩ := spans_faithful (by decide) hread x hx
  exact ⟨hplaced.apart, hplaced.ordered, hstop⟩

end Session

end ScriptCheck
