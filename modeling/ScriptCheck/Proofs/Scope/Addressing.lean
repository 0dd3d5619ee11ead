import Mathlib.Data.List.ModifyLast
import ScriptCheck.Proofs.Scopes

/-!
Distances as addresses. Whatever steps lead to a stack of scopes, its scopes are those that the steps
open, fill and close in a row of scopes with the global one at its start. A distance below the depth
addresses a scope of this row, counted from its end, and a larger one addresses nothing; the distance at
which a name is found is the least one that addresses an entry of the name.
-/

namespace ScriptCheck

namespace ScopeStack

variable {α : Type}

/-! ### Steps -/

/-- A change of a stack of scopes. -/
inductive Step (α : Type) where
  | push
  | pop
  | truncate
  | insert (name : String) (value : α)
  | insertGlobal (name : String) (value : α)
  | setCurrent (name : String) (value : α)
  | restore (globals : Table String α)

/-- The stack behind a step. -/
def Step.run (s : ScopeStack α) : Step α → ScopeStack α
  | push => s.push
  | pop => s.pop
  | truncate => s.truncate
  | insert name value => s.insert name value
  | insertGlobal name value => s.insertGlobal name value
  | setCurrent name value => s.setCurrent name value
  | restore globals => .ofGlobals globals

/-- What a scope without entries holds under each name. -/
def vacant : String → Option α := fun _ => none

/-- What a scope holds under each name once a value is written to it. -/
def overwrite (name : String) (value : α) (scope : String → Option α) : String → Option α :=
  fun other => if name = other then some value else scope other

/-- What a step does to a row of scopes, each of which tells what it holds under a name. The row starts
with the global scope, which is never closed, and ends with the innermost one. -/
def Step.onRow (row : List (String → Option α)) : Step α → List (String → Option α)
  | push => row ++ [vacant]
  | pop => if 1 < row.length then row.dropLast else row
  | truncate => row.take 1
  | insert name value => row.modifyLast (overwrite name value)
  | insertGlobal name value => row.modifyHead (overwrite name value)
  | setCurrent name value => row.modifyLast fun scope =>
      if (scope name).isSome then overwrite name value scope else scope
  | restore globals => [globals.get?]

/-- The stack that steps lead to from the one without entries. -/
def reached (steps : List (Step α)) : ScopeStack α := steps.foldl Step.run empty

/-- The row of scopes that steps lead to from a global scope without entries. -/
def rowOf (steps : List (Step α)) : List (String → Option α) := steps.foldl Step.onRow [vacant]

/-- The scopes of a stack as a row. -/
def row (s : ScopeStack α) : List (String → Option α) := (s.scopes.map Table.get?).reverse

theorem row_mk (opened : List (Table String α)) (globals : Table String α) :
    row ⟨opened, globals⟩ = globals.get? :: (opened.map Table.get?).reverse := by
  simp [row, scopes]

/-- The innermost scope ends the row. -/
theorem row_eq_append (s : ScopeStack α) :
    s.row = (s.scopes.tail.map Table.get?).reverse ++ [s.current.get?] := by
  rw [row, scopes_eq_cons, List.map_cons, List.reverse_cons, List.tail_cons]

@[simp] theorem length_row (s : ScopeStack α) : s.row.length = s.depth := by
  simp [row]

theorem get?_insert_eq_overwrite (t : Table String α) (name : String) (value : α) :
    (t.insert name value).get? = overwrite name value t.get? :=
  funext fun other => Table.get?_insert t name other value

theorem row_insert (s : ScopeStack α) (name : String) (value : α) :
    (s.insert name value).row = s.row.modifyLast (overwrite name value) := by
  rw [row_eq_append s, List.modifyLast_concat, row, scopes_insert, List.map_cons, List.reverse_cons,
    get?_insert_eq_overwrite]

/-- A step does to the scopes of a stack what it does to their row. -/
theorem row_run (s : ScopeStack α) (step : Step α) : (step.run s).row = step.onRow s.row := by
  cases step with
  | push =>
    have hempty : (Table.empty : Table String α).get? = vacant := rfl
    rw [Step.run, Step.onRow, row, scopes_push, List.map_cons, List.reverse_cons, hempty, row]
  | pop =>
    obtain ⟨opened, globals⟩ := s
    rw [Step.run, Step.onRow, pop, row_mk, row_mk]
    cases opened with
    | nil => rfl
    | cons scope rest =>
      rw [if_pos (by simp), List.map_cons, List.reverse_cons, ← List.cons_append, List.dropLast_concat,
        List.tail_cons]
  | truncate =>
    obtain ⟨opened, globals⟩ := s
    rw [Step.run, Step.onRow, truncate, row_mk, row_mk]
    rfl
  | insert name value => exact row_insert s name value
  | insertGlobal name value =>
    obtain ⟨opened, globals⟩ := s
    rw [Step.run, Step.onRow, insertGlobal, row_mk, row_mk, List.modifyHead_cons,
      get?_insert_eq_overwrite]
  | setCurrent name value =>
    rw [Step.run, Step.onRow, setCurrent]
    by_cases hheld : (s.current.get? name).isSome
    · have hcontains : s.containsCurrent name = true := hheld
      rw [if_pos hcontains, row_insert, row_eq_append, List.modifyLast_concat, List.modifyLast_concat,
        if_pos hheld]
    · have hcontains : ¬s.containsCurrent name = true := hheld
      rw [if_neg hcontains, row_eq_append, List.modifyLast_concat, if_neg hheld]
  | restore globals => rfl

/-- Steps lead a stack to the scopes of the row that they lead to. -/
theorem row_reached (steps : List (Step α)) : (reached steps).row = rowOf steps :=
  (List.foldl_hom row fun s step => (row_run s step).symm).symm

/-! ### Distances -/

/-- What a distance addresses in the scopes is what it addresses in their row, from its end. -/
theorem bind_scopes (s : ScopeStack α) (d : Nat) (name : String) :
    (s.scopes[d]?).bind (·.get? name) = (s.row.reverse[d]?).bind (· name) := by
  rw [row, List.reverse_reverse, List.getElem?_map, Option.bind_map]
  rfl

theorem lookupAt_eq_ok_iff {s : ScopeStack α} {d : Nat} {name : String} {found : Option α} :
    s.lookupAt d name = .ok found ↔
      d + 1 < distanceLimit ∧ (s.scopes[d]?).bind (·.get? name) = found := by
  by_cases hd : d + 1 < distanceLimit
  · rw [lookupAt, if_pos hd, Except.ok.injEq, and_iff_right hd]
  · simp [lookupAt, hd]

theorem lookupAt_eq_error_iff {s : ScopeStack α} {d : Nat} {name : String} :
    s.lookupAt d name = .error .noSuccessor ↔ distanceLimit ≤ d + 1 := by
  by_cases hd : d + 1 < distanceLimit
  · simp [lookupAt, hd]
  · simp [lookupAt, hd, Nat.not_lt.1 hd]

/-- From the depth on, distances address nothing. -/
theorem bind_scopes_eq_none {s : ScopeStack α} {d : Nat} (h : s.depth ≤ d) (name : String) :
    (s.scopes[d]?).bind (·.get? name) = none := by
  rw [List.getElem?_eq_none (by rwa [length_scopes]), Option.bind_none]

/-- Distances address the scopes of a row, which starts with the global one, and a name is found at the
least distance that addresses an entry of it. Only the largest distance of 64 bits, which has no
successor, cannot be looked at. -/
structure Addresses (s : ScopeStack α) (row : List (String → Option α)) (name : String) : Prop where
  depth_pos : 0 < s.depth
  depth : s.depth = row.length
  inside : ∀ (d : Nat) scope, row.reverse[d]? = some scope → s.lookupAt d name = .ok (scope name)
  outside : ∀ d, s.depth ≤ d → d + 1 < distanceLimit → s.lookupAt d name = .ok none
  overflow : ∀ d, s.lookupAt d name = .error .noSuccessor ↔ distanceLimit ≤ d + 1
  found : ∀ d v, s.lookup name = some (d, v) ↔
    s.lookupAt d name = .ok (some v) ∧ ∀ e < d, s.lookupAt e name = .ok none
  missing : s.lookup name = none ↔ ∀ d, d + 1 < distanceLimit → s.lookupAt d name = .ok none

/-- Distances address the scopes of a stack, if its depth is a word of 64 bits like they are. -/
theorem addresses_row (s : ScopeStack α) (hdepth : s.depth < distanceLimit) (name : String) :
    s.Addresses s.row name := by
  refine ⟨s.depth_pos, s.length_row.symm, fun d scope hscope => ?_, fun d hd hlimit => ?_,
    fun d => lookupAt_eq_error_iff, fun d v => ?_, ?_⟩
  · obtain ⟨hd, -⟩ := List.getElem?_eq_some_iff.1 hscope
    rw [List.length_reverse, length_row] at hd
    refine lookupAt_eq_ok_iff.2 ⟨by omega, ?_⟩
    rw [bind_scopes, hscope, Option.bind_some]
  · exact lookupAt_eq_ok_iff.2 ⟨hlimit, bind_scopes_eq_none hd name⟩
  · rw [lookup_eq_some_iff]
    constructor
    · rintro ⟨hentry, hfirst⟩
      -- An entry lies below the depth, so that its distance has a successor.
      have hd : d < s.depth := by
        by_contra hge
        rw [bind_scopes_eq_none (Nat.not_lt.1 hge)] at hentry
        cases hentry
      exact ⟨lookupAt_eq_ok_iff.2 ⟨by omega, hentry⟩,
        fun e he => lookupAt_eq_ok_iff.2 ⟨by omega, hfirst e he⟩⟩
    · rintro ⟨hentry, hfirst⟩
      exact ⟨(lookupAt_eq_ok_iff.1 hentry).2, fun e he => (lookupAt_eq_ok_iff.1 (hfirst e he)).2⟩
  · rw [lookup, search_eq_none_iff]
    refine ⟨fun h d hd => lookupAt_eq_ok_iff.2 ⟨hd, h d⟩, fun h d => ?_⟩
    rcases Nat.lt_or_ge d s.depth with hd | hd
    · exact (lookupAt_eq_ok_iff.1 (h d (by omega))).2
    · exact bind_scopes_eq_none hd name

/-- In a stack that any steps lead to, distances address the scopes that these steps have opened and not
closed, with what they have written there. -/
theorem reached_addresses (steps : List (Step α)) (hdepth : (reached steps).depth < distanceLimit)
    (name : String) : (reached steps).Addresses (rowOf steps) name := by
  rw [← row_reached]
  exact addresses_row _ hdepth name

/-- A global name, hidden by the scope around the innermost one. -/
theorem reached_addresses_hidden :
    ∃ steps : List (Step Nat), (reached steps).depth < distanceLimit ∧
      (reached steps).Addresses (rowOf steps) "x" ∧
      (reached steps).lookup "x" = some (1, 2) ∧ (reached steps).lookupAt 2 "x" = .ok (some 1) ∧
      (reached steps).lookupAt 3 "x" = .ok none := by
  have haddresses := reached_addresses
    [.insert "x" 1, .push, .insert "x" 2, .push, .push, .insert "x" 3, .pop] (by decide) "x"
  have hinnermost := haddresses.inside 0 _ rfl
  refine ⟨_, by decide, haddresses, (haddresses.found 1 2).2 ⟨haddresses.inside 1 _ rfl, ?_⟩,
    haddresses.inside 2 _ rfl, haddresses.outside 3 (by decide) (by decide)⟩
  intro e he
  obtain rfl := Nat.lt_one_iff.1 he
  exact hinnermost

/-- The largest distance of 64 bits is past the depth of a stack and yet fails. -/
theorem lookupAt_largest :
    (reached ([] : List (Step Nat))).depth ≤ 18446744073709551615 ∧
      18446744073709551615 < distanceLimit ∧
      (reached ([] : List (Step Nat))).lookupAt 18446744073709551615 "x" = .error .noSuccessor :=
  ⟨by decide, by decide, if_neg (by decide)⟩

end ScopeStack

end ScriptCheck
