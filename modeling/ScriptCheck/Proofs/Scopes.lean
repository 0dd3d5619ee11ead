import Mathlib.Data.List.Forall2
import ScriptCheck.Scope

/-!
Scopes before and behind a run. A run keeps scopes if as many are open behind it as before it and those
around the innermost one are what they were; it grows the innermost one by the names that it declares
there. What is declared in a scope that the run opens and closes is gone behind it.
-/

namespace ScriptCheck

theorem Table.put_put {κ α : Type} [DecidableEq κ] (key : κ) (a b : α) (es : List (κ × α)) :
    put key b (put key a es) = put key b es := by
  induction es with
  | nil => simp [put]
  | cons e es ih =>
    obtain ⟨k, c⟩ := e
    by_cases h : k = key
    · simp [put, h]
    · simp [put, h, ih]

theorem Table.insert_insert {κ α : Type} [DecidableEq κ] (t : Table κ α) (key : κ) (a b : α) :
    (t.insert key a).insert key b = t.insert key b := congrArg mk (put_put key a b t.entries)

namespace ScopeStack

variable {α : Type}

/-- As many scopes are open as before, and those around the innermost one are the same. -/
structure Kept (before after : ScopeStack α) : Prop where
  depth : after.depth = before.depth
  outer : after.scopes.tail = before.scopes.tail

/-- The scopes are kept, and the innermost one has gained the given names and nothing else. -/
structure Grown (before : ScopeStack α) (names : List String) (after : ScopeStack α) : Prop
    extends Kept before after where
  gained : ∀ name ∈ names, after.containsCurrent name = true
  others : ∀ name ∉ names, after.getCurrent? name = before.getCurrent? name

variable {before between after : ScopeStack α} {names more : List String}

theorem containsCurrent_insert (s : ScopeStack α) (name other : String) (value : α) :
    (s.insert name value).containsCurrent other =
      (decide (name = other) || s.containsCurrent other) := by
  show ((s.insert name value).getCurrent? other).isSome = _
  rw [getCurrent?_insert]
  by_cases h : name = other
  · simp [h]
  · simp only [h, if_false, decide_false, Bool.false_or]
    rfl

namespace Kept

theorem refl (s : ScopeStack α) : Kept s s := ⟨rfl, rfl⟩

theorem trans (h : Kept before between) (h' : Kept between after) : Kept before after :=
  ⟨h'.depth.trans h.depth, h'.outer.trans h.outer⟩

theorem insert (s : ScopeStack α) (name : String) (value : α) : Kept s (s.insert name value) :=
  ⟨depth_insert s name value, scopes_tail_insert s name value⟩

/-- Closing the scope that was opened gives the scopes from before. -/
theorem pop_eq (h : Kept before.push after) : after.pop = before := pop_eq_of_tail h.outer

end Kept

namespace Grown

theorem refl (s : ScopeStack α) : Grown s [] s := ⟨.refl s, nofun, fun _ _ => rfl⟩

theorem trans (h : Grown before names between) (h' : Grown between more after) :
    Grown before (names ++ more) after := by
  refine ⟨h.toKept.trans h'.toKept, fun name hname => ?_, fun name hname => ?_⟩
  · by_cases hmore : name ∈ more
    · exact h'.gained name hmore
    · have hheld := h.gained name ((List.mem_append.1 hname).resolve_right hmore)
      show (after.getCurrent? name).isSome = true
      rw [h'.others name hmore]
      exact hheld
  · rw [List.mem_append, not_or] at hname
    exact (h'.others name hname.2).trans (h.others name hname.1)

/-- Writing to the innermost scope adds one name. -/
theorem insert (s : ScopeStack α) (name : String) (value : α) :
    Grown s [name] (s.insert name value) := by
  refine ⟨.insert s name value, fun other hother => ?_, fun other hother => ?_⟩
  · obtain rfl := List.mem_singleton.1 hother
    simp [containsCurrent_insert]
  · rw [getCurrent?_insert, if_neg fun heq => hother (List.mem_singleton.2 heq.symm)]

/-- Only which names were gained counts. -/
theorem of_iff (h : Grown before names after) (hnames : ∀ name, name ∈ names ↔ name ∈ more) :
    Grown before more after :=
  ⟨h.toKept, fun name hname => h.gained name ((hnames name).2 hname),
    fun name hname => h.others name fun hmem => hname ((hnames name).1 hmem)⟩

/-- Writing a name again that was gained adds nothing. -/
theorem rewrite (h : Grown before names after) {name : String} (hname : name ∈ names) (value : α) :
    Grown before names (after.insert name value) :=
  (h.trans (insert after name value)).of_iff fun other => by
    rw [List.mem_append, List.mem_singleton]
    exact ⟨fun hmem => hmem.elim id fun heq => heq ▸ hname, .inl⟩

/-- A name that was not gained is seen as before. -/
theorem lookup_eq (h : Grown before names after) {name : String} (hname : name ∉ names) :
    after.lookup name = before.lookup name := by
  have hcurrent : after.current.get? name = before.current.get? name := h.others name hname
  unfold lookup
  rw [after.scopes_eq_cons, before.scopes_eq_cons, h.outer]
  simp only [search, hcurrent]

end Grown

/-! ### Where a name is found -/

/-- A search that starts at distance `n` finds the first entry, where its distance says. -/
theorem search_eq_some_iff {name : String} {d : Nat} {a : α} (ss : List (Table String α)) (n : Nat) :
    search name n ss = some (d, a) ↔
      ∃ k, d = n + k ∧ (ss[k]?).bind (·.get? name) = some a ∧
        ∀ e < k, (ss[e]?).bind (·.get? name) = none := by
  induction ss generalizing n with
  | nil => simp [search]
  | cons scope rest ih =>
    rw [search]
    cases hname : scope.get? name with
    | some value =>
      constructor
      · rintro ⟨⟩
        exact ⟨0, rfl, hname, fun e he => absurd he (Nat.not_lt_zero e)⟩
      · rintro ⟨k, rfl, hget, hfirst⟩
        cases k with
        | zero => exact congrArg (Option.map (Prod.mk n)) (hname.symm.trans hget)
        | succ k => cases hname.symm.trans (hfirst 0 k.succ_pos)
    | none =>
      dsimp only
      rw [ih]
      constructor
      · rintro ⟨k, rfl, hget, hfirst⟩
        refine ⟨k + 1, by omega, hget, fun e he => ?_⟩
        cases e with
        | zero => exact hname
        | succ e => exact hfirst e (Nat.lt_of_succ_lt_succ he)
      · rintro ⟨k, rfl, hget, hfirst⟩
        cases k with
        | zero => cases hname.symm.trans hget
        | succ k => exact ⟨k, by omega, hget, fun e he => hfirst (e + 1) (Nat.succ_lt_succ he)⟩

theorem search_eq_none_iff {name : String} (ss : List (Table String α)) (n : Nat) :
    search name n ss = none ↔ ∀ k : Nat, (ss[k]?).bind (·.get? name) = none := by
  induction ss generalizing n with
  | nil => simp [search]
  | cons scope rest ih =>
    rw [search]
    cases hname : scope.get? name with
    | some value =>
      constructor
      · intro h
        cases h
      · intro h
        cases hname.symm.trans (h 0)
    | none =>
      refine (ih (n + 1)).trans ⟨fun h k => ?_, fun h k => h (k + 1)⟩
      cases k with
      | zero => exact hname
      | succ k => exact h k

/-- A name is found in the innermost scope that holds it. -/
theorem lookup_eq_some_iff (s : ScopeStack α) {name : String} {d : Nat} {a : α} :
    s.lookup name = some (d, a) ↔
      (s.scopes[d]?).bind (·.get? name) = some a ∧
        ∀ e < d, (s.scopes[e]?).bind (·.get? name) = none := by
  rw [lookup, search_eq_some_iff]
  constructor
  · rintro ⟨k, rfl, hfound⟩
    rwa [Nat.zero_add]
  · exact fun hfound => ⟨d, (Nat.zero_add d).symm, hfound⟩

/-! ### What scopes hold -/

/-- Whatever the scopes hold satisfies a condition. -/
def Holds (Q : α → Prop) (s : ScopeStack α) : Prop :=
  ∀ scope ∈ s.scopes, ∀ name a, scope.get? name = some a → Q a

namespace Holds

variable {Q : α → Prop} {s : ScopeStack α}

theorem empty : Holds Q (empty : ScopeStack α) := by
  intro scope hscope name a ha
  obtain rfl := List.mem_singleton.1 hscope
  cases ha

theorem push (h : Holds Q s) : Holds Q s.push := by
  intro scope hscope name a ha
  rcases List.mem_cons.1 hscope with rfl | hscope
  · cases ha
  · exact h scope hscope name a ha

theorem insert (h : Holds Q s) {a : α} (ha : Q a) (name : String) : Holds Q (s.insert name a) := by
  intro scope hscope other c hc
  rw [scopes_insert] at hscope
  rcases List.mem_cons.1 hscope with rfl | hscope
  · rw [Table.get?_insert] at hc
    split at hc
    · cases hc
      exact ha
    · refine h s.current ?_ other c hc
      rw [scopes_eq_cons]
      exact List.mem_cons_self
  · exact h scope (List.mem_of_mem_tail hscope) other c hc

theorem search {name : String} {d : Nat} {a : α} {ss : List (Table String α)}
    (h : ∀ scope ∈ ss, ∀ name a, scope.get? name = some a → Q a) (n : Nat)
    (hfound : ScopeStack.search name n ss = some (d, a)) : Q a := by
  obtain ⟨k, -, hentry, -⟩ := (search_eq_some_iff ss n).1 hfound
  obtain ⟨scope, hscope, ha⟩ := Option.bind_eq_some_iff.1 hentry
  exact h scope (List.mem_of_getElem? hscope) name a ha

theorem lookup (h : Holds Q s) {name : String} {d : Nat} {a : α}
    (hfound : s.lookup name = some (d, a)) : Q a := search h 0 hfound

theorem lookupAt (h : Holds Q s) {name : String} {d : Nat} {a : α}
    (hfound : s.lookupAt d name = .ok (some a)) : Q a := by
  unfold ScopeStack.lookupAt at hfound
  split at hfound
  · obtain ⟨scope, hscope, ha⟩ := Option.bind_eq_some_iff.1 (Except.ok.inj hfound)
    exact h scope (List.mem_of_getElem? hscope) name a ha
  · cases hfound

end Holds

/-! ### Scopes that hold the same names -/

variable {β : Type} {R : Option α → Option β → Prop}

/-- The entries of two stacks are related, level by level and name by name. -/
def Pointwise (R : Option α → Option β → Prop) (s : ScopeStack α) (t : ScopeStack β) : Prop :=
  List.Forall₂ (fun scope scope' => ∀ name, R (scope.get? name) (scope'.get? name)) s.scopes t.scopes

namespace Pointwise

variable {s : ScopeStack α} {t : ScopeStack β}

theorem push (h : Pointwise R s t) (hnone : R none none) : Pointwise R s.push t.push :=
  .cons (fun _ => hnone) h

theorem insert (h : Pointwise R s t) {a : α} {b : β} (hab : R (some a) (some b)) (name : String) :
    Pointwise R (s.insert name a) (t.insert name b) := by
  unfold Pointwise at h ⊢
  rw [s.scopes_eq_cons, t.scopes_eq_cons] at h
  rw [scopes_insert, scopes_insert]
  cases h with
  | cons hcurrent houter =>
    refine .cons (fun other => ?_) houter
    rw [Table.get?_insert, Table.get?_insert]
    by_cases heq : name = other
    · rw [if_pos heq, if_pos heq]
      exact hab
    · rw [if_neg heq, if_neg heq]
      exact hcurrent other

/-- Entries at the same distance are related. -/
theorem at_distance (h : Pointwise R s t) (hnone : R none none) (d : Nat) (name : String) :
    R ((s.scopes[d]?).bind (·.get? name)) ((t.scopes[d]?).bind (·.get? name)) := by
  unfold Pointwise at h
  generalize s.scopes = ss, t.scopes = ts at h ⊢
  induction h generalizing d with
  | nil => exact hnone
  | cons hscope _ ih =>
    cases d with
    | zero => exact hscope name
    | succ d => exact ih d

/-- A name is found in both stacks or in neither, if related entries are both there or both missing. -/
theorem lookup (h : Pointwise R s t) (hnone : R none none)
    (hsome : ∀ a b, R a b → a.isSome = b.isSome) (name : String) :
    R ((s.lookup name).map Prod.snd) ((t.lookup name).map Prod.snd) := by
  unfold Pointwise at h
  unfold ScopeStack.lookup
  generalize s.scopes = ss, t.scopes = ts, 0 = n at h ⊢
  induction h generalizing n with
  | nil => exact hnone
  | @cons scope scope' _ _ hscope _ ih =>
    have hname := hscope name
    have hboth := hsome _ _ hname
    unfold search
    cases ha : scope.get? name with
    | some a =>
      obtain ⟨b, hb⟩ := Option.isSome_iff_exists.1 (hboth.symm.trans (by rw [ha]; rfl))
      rw [hb]
      rwa [ha, hb] at hname
    | none =>
      have hb : scope'.get? name = none := by
        rw [ha] at hboth
        exact Option.not_isSome_iff_eq_none.1 (Bool.eq_false_iff.1 hboth.symm)
      rw [hb]
      exact ih (n + 1)

end Pointwise

/-- Writing a name again makes up for the first writing. -/
theorem insert_insert (s : ScopeStack α) (name : String) (a b : α) :
    (s.insert name a).insert name b = s.insert name b := by
  unfold insert
  cases s.opened with
  | nil => simp only [Table.insert_insert]
  | cons scope rest => simp only [Table.insert_insert]

end ScopeStack

end ScriptCheck
