/-!
Finite maps as lists of entries. A key stands at most once: writing to a known key replaces its
value in place, writing to a new key appends an entry.
-/

namespace ScriptCheck

/-- A finite map from `κ` to `α` that keeps its keys in the order of their first writing. -/
structure Table (κ α : Type) where
  entries : List (κ × α)
deriving DecidableEq

namespace Table

variable {κ α : Type} [DecidableEq κ]

/-- The map without entries. -/
def empty : Table κ α := ⟨[]⟩

/-- The first value that stands beside `key`. -/
def seek (key : κ) : List (κ × α) → Option α
  | [] => none
  | (k, a) :: rest => if k = key then some a else seek key rest

/-- Replaces the value beside `key`, or appends an entry for it. -/
def put (key : κ) (value : α) : List (κ × α) → List (κ × α)
  | [] => [(key, value)]
  | (k, a) :: rest => if k = key then (k, value) :: rest else (k, a) :: put key value rest

/-- The value of a key. -/
def get? (t : Table κ α) (key : κ) : Option α := seek key t.entries

/-- Whether a key has a value. -/
def contains (t : Table κ α) (key : κ) : Bool := (t.get? key).isSome

/-- Writes the value of a key. -/
def insert (t : Table κ α) (key : κ) (value : α) : Table κ α := ⟨put key value t.entries⟩

/-- The keys, in the order of their first writing. -/
def keys (t : Table κ α) : List κ := t.entries.map Prod.fst

/-- The map that a list of entries writes from left to right. -/
def ofList (entries : List (κ × α)) : Table κ α :=
  entries.foldl (fun t e => t.insert e.1 e.2) empty

@[simp] theorem get?_empty (key : κ) : (empty : Table κ α).get? key = none := rfl

theorem seek_put (key k : κ) (value : α) (es : List (κ × α)) :
    seek k (put key value es) = if key = k then some value else seek k es := by
  induction es with
  | nil => rfl
  | cons e rest ih =>
    obtain ⟨k', a⟩ := e
    by_cases h : k' = key <;> by_cases h' : k' = k <;> simp_all [put, seek]
    intro h''; exact absurd h''.symm h

/-- Reading after writing gives the written value at its key and the old one elsewhere. -/
theorem get?_insert (t : Table κ α) (key k : κ) (value : α) :
    (t.insert key value).get? k = if key = k then some value else t.get? k :=
  seek_put key k value t.entries

end Table

end ScriptCheck
