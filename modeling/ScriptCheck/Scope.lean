import ScriptCheck.Table

/-!
Lexical scopes. A scope stack holds the global scope and the scopes opened inside it; the global
scope is never closed. A name is found in the innermost scope that holds it, and the number of
scopes passed on the way is its distance, which addresses the same scope again later.
-/

namespace ScriptCheck

/-- A stack of scopes: the opened ones, innermost first, above the global one. -/
structure ScopeStack (α : Type) where
  opened : List (Table String α)
  globals : Table String α
deriving DecidableEq

/-- A distance is a 64-bit word and has no successor when it is the largest one, so that the scope
it addresses cannot be computed. -/
inductive DistanceOverflow where
  | noSuccessor
deriving DecidableEq

namespace ScopeStack

variable {α : Type}

/-- Only the global scope, without entries. -/
def empty : ScopeStack α := ⟨[], .empty⟩

/-- All scopes, innermost first. -/
def scopes (s : ScopeStack α) : List (Table String α) := s.opened ++ [s.globals]

/-- The number of scopes, the global one included. -/
def depth (s : ScopeStack α) : Nat := s.opened.length + 1

/-- Opens a scope. -/
def push (s : ScopeStack α) : ScopeStack α := { s with opened := .empty :: s.opened }

/-- Closes the innermost scope, unless it is the global one. -/
def pop (s : ScopeStack α) : ScopeStack α := { s with opened := s.opened.tail }

/-- Closes every scope but the global one. -/
def truncate (s : ScopeStack α) : ScopeStack α := { s with opened := [] }

/-- The innermost scope. -/
def current (s : ScopeStack α) : Table String α := s.opened.headD s.globals

/-- Writes to the innermost scope. -/
def insert (s : ScopeStack α) (name : String) (value : α) : ScopeStack α :=
  match s.opened with
  | [] => { s with globals := s.globals.insert name value }
  | scope :: rest => { s with opened := scope.insert name value :: rest }

/-- Writes to the global scope. -/
def insertGlobal (s : ScopeStack α) (name : String) (value : α) : ScopeStack α :=
  { s with globals := s.globals.insert name value }

/-- The value a name has in the innermost scope. -/
def getCurrent? (s : ScopeStack α) (name : String) : Option α := s.current.get? name

/-- Whether the innermost scope holds a name. -/
def containsCurrent (s : ScopeStack α) (name : String) : Bool := s.current.contains name

/-- Replaces the value of a name that the innermost scope holds; else changes nothing. -/
def setCurrent (s : ScopeStack α) (name : String) (value : α) : ScopeStack α :=
  if s.containsCurrent name then s.insert name value else s

/-- Searches scopes from the first on, of which the first has the given distance. -/
def search (name : String) : Nat → List (Table String α) → Option (Nat × α)
  | _, [] => none
  | distance, scope :: rest =>
    match scope.get? name with
    | some value => some (distance, value)
    | none => search name (distance + 1) rest

/-- The innermost entry of a name, with its distance. -/
def lookup (s : ScopeStack α) (name : String) : Option (Nat × α) := search name 0 s.scopes

/-- One more than the largest distance, which has 64 bits. -/
def distanceLimit : Nat := 18446744073709551616

/-- The entry of a name exactly `distance` scopes out, if there is such a scope and such an entry.
The scope is counted from the global one as depth less `distance + 1`, which asks for a successor
of the distance. -/
def lookupAt (s : ScopeStack α) (distance : Nat) (name : String) :
    Except DistanceOverflow (Option α) :=
  if distance + 1 < distanceLimit then .ok ((s.scopes[distance]?).bind (·.get? name))
  else .error .noSuccessor

/-- Only the given global scope. -/
def ofGlobals (globals : Table String α) : ScopeStack α := ⟨[], globals⟩

/-! ### Depth and innermost scope -/

@[simp] theorem length_scopes (s : ScopeStack α) : s.scopes.length = s.depth := by
  simp [scopes, depth]

theorem depth_pos (s : ScopeStack α) : 0 < s.depth := Nat.succ_pos _

@[simp] theorem scopes_push (s : ScopeStack α) : s.push.scopes = .empty :: s.scopes := rfl

@[simp] theorem depth_push (s : ScopeStack α) : s.push.depth = s.depth + 1 := rfl

/-- Closing the scope opened last gives the stack from before. -/
@[simp] theorem pop_push (s : ScopeStack α) : s.push.pop = s := rfl

@[simp] theorem depth_insert (s : ScopeStack α) (name : String) (value : α) :
    (s.insert name value).depth = s.depth := by
  unfold insert
  split <;> simp_all [depth]

/-- Closing the innermost scope gives the stack that the scopes around it make up. -/
theorem pop_eq_of_tail {s t : ScopeStack α} (h : s.scopes.tail = t.scopes) : s.pop = t := by
  obtain ⟨opened, globals⟩ := s
  obtain ⟨opened', globals'⟩ := t
  cases opened with
  | nil => simp [scopes] at h
  | cons scope rest =>
    obtain ⟨rfl, hglobals⟩ := List.append_inj' h rfl
    cases hglobals
    rfl

/-- The innermost scope holds what was written to it last. -/
theorem getCurrent?_insert (s : ScopeStack α) (name other : String) (value : α) :
    (s.insert name value).getCurrent? other =
      if name = other then some value else s.getCurrent? other := by
  unfold insert getCurrent? current
  split <;> simp_all [Table.get?_insert]

theorem scopes_eq_cons (s : ScopeStack α) : s.scopes = s.current :: s.scopes.tail := by
  unfold scopes current
  cases s.opened <;> rfl

/-- Writing to the innermost scope leaves the scopes around it as they are. -/
theorem scopes_insert (s : ScopeStack α) (name : String) (value : α) :
    (s.insert name value).scopes = s.current.insert name value :: s.scopes.tail := by
  unfold insert scopes current
  split <;> simp_all

theorem scopes_tail_insert (s : ScopeStack α) (name : String) (value : α) :
    (s.insert name value).scopes.tail = s.scopes.tail := by
  rw [scopes_insert, List.tail_cons]

/-- What was written last is found first. -/
theorem lookup_insert (s : ScopeStack α) (name : String) (value : α) :
    (s.insert name value).lookup name = some (0, value) := by
  rw [lookup, scopes_insert, search, Table.get?_insert, if_pos rfl]

end ScopeStack

/-- Runs a step between entering and leaving a scope, which is left also if the step fails. -/
def between {ε σ α : Type} (enter leave : σ → σ) (body : EStateM ε σ α) : EStateM ε σ α :=
  fun s =>
    match body (enter s) with
    | .ok a s' => .ok a (leave s')
    | .error e s' => .error e (leave s')

end ScriptCheck
