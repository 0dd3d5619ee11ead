import Mathlib.Data.List.Forall2
import ScriptCheck.Proofs.Binding.Expressions
import ScriptCheck.Proofs.Resolving.Run
import ScriptCheck.Proofs.Scopes

/-!
The scopes of resolution and of binding, level by level. A name that resolution has finished declaring
has a value, and no name has a value that resolution does not know; while a name is being declared it may
have none. Such scopes give a finished name the same distance.
-/

namespace ScriptCheck

/-- The values of a scope fit the names that resolution knows there. -/
structure ScopeFits (names : Table String Bool) (values : Table String Variable) : Prop where
  finished : ∀ name, names.get? name = some true → (values.get? name).isSome
  declared : ∀ name, (values.get? name).isSome → (names.get? name).isSome

namespace ScopeFits

variable {names : Table String Bool} {values : Table String Variable}

theorem empty : ScopeFits .empty .empty := ⟨nofun, nofun⟩

theorem define (h : ScopeFits names values) (name : String) (v : Variable) :
    ScopeFits (names.insert name true) (values.insert name v) := by
  refine ⟨fun other ho => ?_, fun other ho => ?_⟩
  · rw [Table.get?_insert] at ho ⊢
    split
    · rfl
    · rw [if_neg ‹_›] at ho
      exact h.finished other ho
  · rw [Table.get?_insert] at ho ⊢
    split
    · rfl
    · rw [if_neg ‹_›] at ho
      exact h.declared other ho

/-- A name that is being declared needs no value yet. -/
theorem declare (h : ScopeFits names values) (name : String) :
    ScopeFits (names.insert name false) values := by
  refine ⟨fun other ho => ?_, fun other ho => ?_⟩
  · rw [Table.get?_insert] at ho
    split at ho
    · cases ho
    · exact h.finished other ho
  · rw [Table.get?_insert]
    split
    · rfl
    · exact h.declared other ho

/-- A finished name may get another value. -/
theorem redefine (h : ScopeFits names values) {name : String} (hname : names.get? name = some true)
    (v : Variable) : ScopeFits names (values.insert name v) := by
  refine ⟨fun other ho => ?_, fun other ho => ?_⟩
  · rw [Table.get?_insert]
    split
    · rfl
    · exact h.finished other ho
  · rw [Table.get?_insert] at ho
    split at ho
    · rename_i heq
      rw [← heq, hname]
      rfl
    · exact h.declared other ho

end ScopeFits

/-- The values in scope fit the names that resolution knows, level by level. -/
def ScopesFit (names : ScopeStack Bool) (values : ScopeStack Variable) : Prop :=
  List.Forall₂ ScopeFits names.scopes values.scopes

namespace ScopesFit

variable {names : ScopeStack Bool} {values : ScopeStack Variable}

theorem push (h : ScopesFit names values) : ScopesFit names.push values.push := .cons .empty h

theorem pop (h : ScopesFit names values) : ScopesFit names.pop values.pop := by
  obtain ⟨opened, globals⟩ := names
  obtain ⟨opened', globals'⟩ := values
  have hlength : opened.length = opened'.length := by simpa [ScopeStack.scopes] using h.length_eq
  cases opened with
  | nil =>
    obtain rfl : opened' = [] := List.eq_nil_of_length_eq_zero hlength.symm
    exact h
  | cons scope rest =>
    cases opened' with
    | nil => cases hlength
    | cons scope' rest' =>
      cases h with
      | cons _ hrest => exact hrest

/-- The innermost scopes fit, and so do the scopes around them. -/
theorem split (h : ScopesFit names values) :
    ScopeFits names.current values.current ∧
      List.Forall₂ ScopeFits names.scopes.tail values.scopes.tail := by
  unfold ScopesFit at h
  rw [names.scopes_eq_cons, values.scopes_eq_cons] at h
  cases h with
  | cons hcurrent houter => exact ⟨hcurrent, houter⟩

theorem define (h : ScopesFit names values) (name : String) (v : Variable) :
    ScopesFit (names.insert name true) (values.insert name v) := by
  unfold ScopesFit
  rw [ScopeStack.scopes_insert, ScopeStack.scopes_insert]
  exact .cons (h.split.1.define name v) h.split.2

theorem declare (h : ScopesFit names values) (name : String) :
    ScopesFit (names.insert name false) values := by
  unfold ScopesFit
  rw [ScopeStack.scopes_insert, values.scopes_eq_cons]
  exact .cons (h.split.1.declare name) h.split.2

theorem redefine (h : ScopesFit names values) {name : String}
    (hname : names.getCurrent? name = some true) (v : Variable) :
    ScopesFit names (values.insert name v) := by
  unfold ScopesFit
  rw [ScopeStack.scopes_insert, names.scopes_eq_cons]
  exact .cons (h.split.1.redefine hname v) h.split.2

end ScopesFit

/-- Scopes that fit give a finished name the same distance. -/
theorem search_of_fits {name : String} {d : Nat} {ns : List (Table String Bool)}
    {vs : List (Table String Variable)} (h : List.Forall₂ ScopeFits ns vs) :
    ∀ n, ScopeStack.search name n ns = some (d, true) →
      ∃ v, ScopeStack.search name n vs = some (d, v) := by
  induction h with
  | nil => intro n hfound; cases hfound
  | @cons t u ts us hfits _ ih =>
    intro n hfound
    rw [ScopeStack.search] at hfound ⊢
    cases hname : t.get? name with
    | some ready =>
      rw [hname] at hfound
      cases hfound
      obtain ⟨v, hv⟩ := Option.isSome_iff_exists.1 (hfits.finished name hname)
      rw [hv]
      exact ⟨v, rfl⟩
    | none =>
      rw [hname] at hfound
      have hvalue : u.get? name = none := by
        rw [← Option.not_isSome_iff_eq_none]
        intro hsome
        have hknown := hfits.declared name hsome
        rw [hname] at hknown
        cases hknown
      rw [hvalue]
      exact ih (n + 1) hfound

theorem ScopesFit.lookup {names : ScopeStack Bool} {values : ScopeStack Variable}
    (h : ScopesFit names values) {name : String} {d : Nat}
    (hfound : names.lookup name = some (d, true)) : ∃ v, values.lookup name = some (d, v) :=
  search_of_fits h 0 hfound

/-- A search that starts at distance `n` finds the entry where its distance says. -/
theorem get?_of_search {α : Type} {name : String} {d : Nat} {v : α} (ss : List (Table String α))
    (n : Nat) (h : ScopeStack.search name n ss = some (d, v)) :
    n ≤ d ∧ (ss[d - n]?).bind (·.get? name) = some v := by
  obtain ⟨k, rfl, hentry, -⟩ := (ScopeStack.search_eq_some_iff ss n).1 h
  exact ⟨Nat.le_add_right n k, by rwa [Nat.add_sub_cancel_left]⟩

/-- The distance of a name addresses its entry, unless the distance has no successor. -/
theorem ScopeStack.lookupAt_of_lookup {α : Type} {s : ScopeStack α} {name : String} {d : Nat}
    {v : α} (h : s.lookup name = some (d, v)) :
    s.lookupAt d name = .ok (some v) ∨ s.lookupAt d name = .error .noSuccessor := by
  obtain ⟨-, hget⟩ := get?_of_search s.scopes 0 h
  unfold lookupAt
  split
  · exact .inl (congrArg Except.ok hget)
  · exact .inr rfl

/-! ### Two runs along a resolution -/

namespace Sides

variable (c : Sides)

/-- The states of two runs at a point where resolution had the given scopes and class bodies open. -/
structure Along (names : ScopeStack Bool) (classDepth : Nat) (b b' : Binder) : Prop
    extends Sides.Related c b b' where
  fits : ScopesFit names b.scopes
  typeDepth : b.types.scopes.depth = names.depth
  classDepth : b.classes.length = classDepth

/-- Two steps that are coupled and go along with a step of resolution. -/
def Tracks {α β : Type} (r r' : Resolver) (g : α → β) (P : α → Prop) (m : Binding α)
    (m' : Binding β) : Prop :=
  Couples c.blame (c.Along r.scopes r.classDepth) (c.Along r'.scopes r'.classDepth) g P m m'

/-- What is asked of syntax that two runs bind: its ids may be noted, no two of its reads share an id,
and the first run knows the distances that resolution has found. -/
structure Covers (found : Table Nat Nat) (ids : List Nat) (reads : List (Nat × String)) : Prop where
  fresh : ∀ i ∈ ids, c.fresh i
  nodup : (reads.map Prod.fst).Nodup
  known : ∀ i ∈ reads.map Prod.fst, c.known.get? i = found.get? i

variable {c} {r r₁ r' : Resolver} {is js : List Nat} {xs ys : List (Nat × String)}

/-- What is resolved later does not change the distances of earlier reads. -/
theorem Covers.left (h : c.Covers r'.distances (is ++ js) (xs ++ ys)) (hkeeps : r₁.Keeps r' ys) :
    c.Covers r₁.distances is xs := by
  obtain ⟨hfresh, hnodup, hknown⟩ := h
  rw [List.map_append] at hnodup hknown
  refine ⟨fun i hi => hfresh i (List.mem_append_left _ hi), (List.nodup_append.1 hnodup).1,
    fun i hi => ?_⟩
  have hother : i ∉ ys.map Prod.fst := fun hy => (List.nodup_append.1 hnodup).2.2 i hi i hy rfl
  rw [hknown i (List.mem_append_left _ hi), hkeeps.others i hother]

theorem Covers.right {found : Table Nat Nat} (h : c.Covers found (is ++ js) (xs ++ ys)) :
    c.Covers found js ys := by
  obtain ⟨hfresh, hnodup, hknown⟩ := h
  rw [List.map_append] at hnodup hknown
  exact ⟨fun i hi => hfresh i (List.mem_append_right _ hi), (List.nodup_append.1 hnodup).2.1,
    fun i hi => hknown i (List.mem_append_right _ hi)⟩

/-- Both runs read the variable that the known distance leads to. -/
theorem reads_of_lookup {base : Binder} {id d : Nat} {name : String} {v : Variable}
    (hknown : c.known.get? id = some d) (hfound : base.scopes.lookup name = some (d, v)) :
    c.Reads base id name := by
  intro place
  refine .reading fun b b' hb => ?_
  have hscopes : b.scopes = base.scopes := hb.2.1
  have hscopes' : b'.scopes = base.scopes := hb.1.scopes.trans hscopes
  unfold Binder.readVariable
  rw [hb.1.distances, hb.1.distances', hknown, hscopes, hscopes']
  obtain hat | hat := ScopeStack.lookupAt_of_lookup hfound
  · rcases c.leads hknown with hsame | ⟨hnone, -⟩
    · simp only [hsame, hat]
      exact .pure hknown
    · simp only [hnone, hat, hfound]
      exact .pure hknown
  · rcases c.leads hknown with hsame | ⟨hnone, hdrops⟩
    · simp only [hsame, hat]
      exact .fails blameless_stuck
    · simp only [hnone, hat, hfound]
      exact fun _ _ _ => ⟨blameless_stuck, .inl hdrops⟩

/-- Expressions that resolution has been through can be bound. -/
theorem Covers.suits {base : Binder} (h : c.Covers r'.distances is xs) (hfinds : r.Finds r' xs)
    (hfits : ScopesFit r.scopes base.scopes) : Expr.Suits c base is xs := by
  refine ⟨h.fresh, fun x hx => ?_⟩
  obtain ⟨d, hfound, hd⟩ := hfinds.distance h.nodup hx
  obtain ⟨v, hv⟩ := hfits.lookup hfound
  exact reads_of_lookup ((h.known x.1 (List.mem_map_of_mem hx)).trans hd) hv

/-- Steps that note types go along with the resolution of an expression. -/
theorem tracks_of_finds {α β : Type} {g : α → β} {P : α → Prop} {m : Binding α} {m' : Binding β}
    (hfinds : r.Finds r' xs)
    (hbinds : ∀ base : Binder, ScopesFit r.scopes base.scopes → c.Binds base g P m m') :
    c.Tracks r r' g P m m' := by
  intro b b' hb
  refine (hbinds b hb.fits ⟨hb.toRelated, rfl, rfl, rfl⟩).mono fun s s' hs => ?_
  obtain ⟨hrelated, hscopes, htypes, hclasses⟩ := hs
  rw [hfinds.same]
  exact ⟨hrelated, hscopes ▸ hb.fits, htypes ▸ hb.typeDepth, hclasses ▸ hb.classDepth⟩

/-- Steps that note types go along with nothing. -/
theorem tracks_of_binds {α β : Type} {g : α → β} {P : α → Prop} {m : Binding α} {m' : Binding β}
    (hbinds : ∀ base : Binder, c.Binds base g P m m') : c.Tracks r r g P m m' :=
  tracks_of_finds (.refl r) fun base _ => hbinds base

end Sides

end ScriptCheck
