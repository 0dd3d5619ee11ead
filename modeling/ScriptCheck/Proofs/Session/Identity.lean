import ScriptCheck.Proofs.Binding.Record
import ScriptCheck.Proofs.Parsing.Leaves
import ScriptCheck.Proofs.Resolving.Decides
import ScriptCheck.Proofs.Session.Failing
import ScriptCheck.Proofs.Session.History

/-!
Ids identify expressions. The ids of a program that passes are fresh, no two of them are equal, and they
rise from the parts of an expression to the whole. The types of its expressions are noted under exactly
these ids, the distances of its names under the ids of its reads. A session never gives an id back, so
that no two programs of a session share one.
-/

namespace ScriptCheck

/-- A value that stands under a key that no two entries share is found there. -/
theorem Table.seek_of_mem {κ α : Type} [DecidableEq κ] {key : κ} {value : α} {es : List (κ × α)}
    (hkeys : (es.map Prod.fst).Nodup) (h : (key, value) ∈ es) : seek key es = some value := by
  induction es with
  | nil => cases h
  | cons e es ih =>
    rw [List.map_cons, List.nodup_cons] at hkeys
    rcases List.mem_cons.1 h with rfl | h
    · rw [seek, if_pos rfl]
    · have hne : e.1 ≠ key := fun heq => hkeys.1 (heq ▸ List.mem_map_of_mem h)
      rw [seek, if_neg hne, ih hkeys.2 h]

/-- What the tables of a program say about the ids between two numbers that it was read with. -/
structure CheckedProgram.Identifies (program : CheckedProgram) (block : Block) (first next : Nat) :
    Prop where
  distinct : (Stmt.idsAll block.body).Nodup
  drawn : ∀ i ∈ Stmt.idsAll block.body, first ≤ i ∧ i < next
  rising : ∀ e ∈ Stmt.exprs block.body, e.Rises
  keys : program.boundTypes.keys = Stmt.idsAll block.body
  types : List.Forall₂ (Recorded fun id t => program.boundTypes.get? id = some t)
    (Stmt.exprs block.body) (BoundStmt.exprs program.statements)
  reads : program.distances.keys.Perm ((Stmt.readsAll block.body).map Prod.fst)

namespace Block

variable {s t : TokenStream} {block : Block}

theorem mem_ids_of_parse (h : Block.parse s = .ok block t) {i : Nat} :
    i ∈ Stmt.idsAll block.body ↔ s.nextId ≤ i ∧ i < t.nextId := by
  obtain ⟨hle, hperm⟩ := Block.parse_draws h
  rw [hperm.mem_iff, List.nil_append, List.mem_range'_1, Nat.add_sub_cancel' hle]

theorem nodup_ids_of_parse (h : Block.parse s = .ok block t) : (Stmt.idsAll block.body).Nodup :=
  (Block.parse_draws h).2.nodup_iff.2 List.nodup_range'

theorem rises_of_parse (h : Block.parse s = .ok block t) :
    ∀ e ∈ Stmt.exprs block.body, e.Rises := by
  intro x hx
  obtain ⟨e, he, hx⟩ := List.mem_flatMap.1 hx
  have hread : WellRead (fun _ => True) _ _ := Block.parse_wellRead (fun _ _ => trivial) h
  exact (hread.exprs e he x hx).1

end Block

/-- Resolution notes a distance for every read. -/
theorem Settled.keys_distances {r r' : Resolver} {b : Binder} (hs : Settled r b)
    {s t : TokenStream} {block : Block} (hparse : Block.parse s = .ok block t)
    (hresolve : Stmt.resolveAll block.body r.start = .ok () r') :
    r'.distances.keys.Perm ((Stmt.readsAll block.body).map Prod.fst) := by
  obtain ⟨names, hdecides⟩ :=
    Stmt.resolveAll_decides block.body (.ofGlobals r.scopes.globals.entries)
  have hverdict := hdecides (Resolver.fits_start hs.opened)
  rw [hresolve] at hverdict
  cases hverdict with
  | accepted legal passes =>
    obtain ⟨entries, hperm, hnoted⟩ := passes.noted
    have hkeys : (entries.map Prod.fst).Perm ((Stmt.readsAll block.body).map Prod.fst) := by
      rw [← Stmt.siteIds_sitesAll block.body (.ofGlobals r.scopes.globals.entries)]
      exact hperm.map Prod.fst
    have hnodup := hkeys.nodup_iff.2 (Block.distinctReads_of_parse hparse)
    rw [Table.keys, hnoted, show r.start.distances = .empty from hs.distances,
      Table.entries_foldl_insert entries .empty hnodup]
    exact hkeys

/-- Binding a program notes the types of all its expressions under their ids. -/
theorem Stmt.bindAll_notes {b b' : Binder} {distances : Table Nat Nat} {ss : List Stmt}
    {ts : List BoundStmt} (hids : (idsAll ss).Nodup)
    (hbind : bindAll ss (b.start distances) = .ok ts b') (p : Place) :
    Record b'.boundTypes.entries (idsAll ss) (exprs ss)
      ((BoundStmt.rootsAll ts p).flatMap (·.expr.subterms)) := by
  obtain ⟨es, hadds, hrecord⟩ := bindAll_records ss hbind p
  have hnodup : (es.map Prod.fst).Nodup := hrecord.ids.symm ▸ hids
  have hentries : b'.boundTypes.entries = es := by
    rw [show b'.boundTypes = _ from hadds]
    exact Table.entries_foldl_insert es .empty hnodup
  exact hentries.symm ▸ hrecord

namespace Session

variable {s after later : Session} {source file : String}

/-- The sessions that a session can become. -/
inductive Onward (s : Session) : Session → Prop
  | refl : Onward s s
  | check {t : Session} (h : Onward s t) (source file : String) : Onward s (t.check source file).2
  | takeErrors {t : Session} (h : Onward s t) : Onward s t.takeErrors.2

theorem nextId_le_check (s : Session) (source file : String) :
    s.nextId ≤ (s.check source file).2.nextId := by
  cases hcheck : s.check source file with
  | mk result after =>
    cases result with
    | ok program =>
      cases passes_of_check hcheck with
      | intro _ hparse _ _ _ => exact (Block.parse_draws hparse).1
    | error e =>
      obtain ⟨n, hfails, hrestored⟩ := fails_of_check hcheck
      exact hrestored.nextId.symm ▸ hfails.nextId_le

/-- No id is given back, however a session goes on. -/
theorem Onward.nextId_le (h : s.Onward later) : s.nextId ≤ later.nextId := by
  induction h with
  | refl => exact Nat.le_refl _
  | @check t _ source file ih => exact ih.trans (t.nextId_le_check source file)
  | takeErrors _ ih => exact ih

/-- Whatever is read later has other ids. -/
theorem Onward.disjoint {ids : List Nat} (h : s.Onward later) (hids : ∀ i ∈ ids, i < s.nextId)
    {block : Block} (hread : later.ReadsAs source file block) :
    ids.Disjoint (Stmt.idsAll block.body) := by
  obtain ⟨tokens, stream, -, hparse⟩ := hread
  intro i hi hi'
  have hfirst : later.nextId ≤ i := ((Block.mem_ids_of_parse hparse).1 hi').1
  exact absurd (hids i hi) (Nat.not_lt.2 (h.nextId_le.trans hfirst))

/-- In a program that passes, the ids of expressions are distinct, were drawn for it and rise; the types
of all expressions are noted under them, and the distances under those of its reads. No program that is
read later in the session shares an id with it. -/
theorem check_identifies (hs : s.Reachable) {program : CheckedProgram}
    (hcheck : s.check source file = (.ok program, after)) :
    ∃ block, s.ReadsAs source file block ∧
      program.Identifies block s.nextId after.nextId ∧
      ∀ later, after.Onward later → ∀ source' file' block', later.ReadsAs source' file' block' →
        (Stmt.idsAll block.body).Disjoint (Stmt.idsAll block'.body) := by
  cases passes_of_check hcheck with
  | @intro tokens block stream r statements b htokens hparse hresolve hbind _ =>
    have hnodup := Block.nodup_ids_of_parse hparse
    have hdrawn := fun i => (Block.mem_ids_of_parse hparse (i := i)).1
    have hrecord := Stmt.bindAll_notes hnodup hbind .intrinsic
    refine ⟨block, ⟨tokens, stream, htokens, hparse⟩, ?_, fun later hlater _ _ block' hread => ?_⟩
    · have hkeys : (b.boundTypes.entries.map Prod.fst).Nodup := hrecord.ids.symm ▸ hnodup
      exact ⟨hnodup, hdrawn, Block.rises_of_parse hparse, hrecord.ids,
        hrecord.recorded.imp fun _ _ h => h.mono fun _ _ => Table.seek_of_mem hkeys,
        hs.settled.keys_distances hparse hresolve⟩
    · exact hlater.disjoint (fun i hi => (hdrawn i hi).2) hread

/-- A program that constructs a class of the program before it and writes to a computed key. -/
theorem check_identifies_construct : ∃ program after block,
    ((new .record).check "class P \x7b int x = 1; \x7d" "one").2.check
      "let p = new P(); p[\"x\"] = p.x + 2;" "two" = (.ok program, after) ∧
    program.Identifies block
      ((new .record).check "class P \x7b int x = 1; \x7d" "one").2.nextId after.nextId ∧
    Stmt.idsAll block.body = [1, 2, 3, 4, 5, 6, 7, 8, 9, 10] ∧ program.distances.keys = [1, 6, 3] := by
  let test : CheckedProgram → Bool := fun program =>
    program.boundTypes.keys = [1, 2, 3, 4, 5, 6, 7, 8, 9, 10] && program.distances.keys = [1, 6, 3]
  have htest : (((new .record).check "class P \x7b int x = 1; \x7d" "one").2.check
      "let p = new P(); p[\"x\"] = p.x + 2;" "two").1.toOption.any test = true := by
    decide +kernel
  obtain ⟨program, after, hcheck, hprogram⟩ := exists_program_where htest
  obtain ⟨hkeys, hreads⟩ := Bool.and_eq_true_iff.1 hprogram
  have hreachable := (Reachable.new .record).check "class P \x7b int x = 1; \x7d" "one"
  obtain ⟨block, -, hidentifies, -⟩ := check_identifies hreachable hcheck
  have hids := hidentifies.keys.symm.trans (of_decide_eq_true hkeys)
  exact ⟨program, after, block, hcheck, hidentifies, hids, of_decide_eq_true hreads⟩

end Session

end ScriptCheck
