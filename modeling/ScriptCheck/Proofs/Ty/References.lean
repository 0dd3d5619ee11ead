import ScriptCheck.Ty.Registry

/-!
Which type references stand for a type. A reference mentions names and keys of index signatures, and
converting it looks at these one after the other; it stands for a type exactly if each has a meaning, and
otherwise the first one that has none is reported, at its own place.
-/

namespace ScriptCheck

/-- Something in a type reference that may be without a meaning, and where it is written. -/
inductive Mention where
  | typeName (name : String) (span : Span)
  | indexKey (key : String) (span : Span)
deriving DecidableEq

namespace Mention

/-- Whether a name is known, and a key one that signatures may have. -/
def fits (r : Registry) : Mention → Bool
  | .typeName name _ => r.contains name
  | .indexKey key _ => key == "string" || key == "int"

/-- What is reported of a mention without a meaning. -/
def report : Mention → Diagnostic
  | .typeName name span => ⟨.unknownType name, span.start⟩
  | .indexKey key span => ⟨.invalidIndexSignature key, span.start⟩

/-- The report of the first mention without a meaning. -/
def offence? (r : Registry) (ms : List Mention) : Option Diagnostic :=
  (ms.find? fun m => !m.fits r).map report

end Mention

namespace TypeRef

/-! ### What a reference mentions -/

/-- The references directly inside a reference. -/
def children : TypeRef → List TypeRef
  | .named _ args _ => args
  | .array element _ => [element]
  | .union members _ => members
  | .intersection members _ => members
  | .interface props index _ => props.map PropertyRef.type ++ index.map IndexRef.type
  | .function params result _ => params.map ParamRef.type ++ [result]
  | .literal _ _ => []

/-- A reference inside another, at any depth; each is inside itself. -/
inductive Inside : TypeRef → TypeRef → Prop where
  | self (t : TypeRef) : Inside t t
  | child {u c t : TypeRef} (hc : c ∈ t.children) (h : Inside u c) : Inside u t

/-- What a reference mentions itself: its name, or the keys of its signatures. -/
def own : TypeRef → List Mention
  | .named name _ span => [.typeName name span]
  | .interface _ index _ => index.map fun i => .indexKey i.key i.keySpan
  | .array _ _ | .union _ _ | .intersection _ _ | .function _ _ _ | .literal _ _ => []

mutual

/-- Everything that a reference mentions, in the order in which it is looked at: arguments before the
name that they belong to, and the result of a function last. -/
def mentions : TypeRef → List Mention
  | .named name args span => mentionsAll args ++ [.typeName name span]
  | .array element _ => mentions element
  | .union members _ => mentionsAll members
  | .intersection members _ => mentionsAll members
  | .interface props index _ => mentionsProps props ++ mentionsIndex index
  | .function params result _ => mentionsParams params ++ mentions result
  | .literal _ _ => []
termination_by structural t => t

/-- What references mention, from left to right. -/
def mentionsAll : List TypeRef → List Mention
  | [] => []
  | t :: ts => mentions t ++ mentionsAll ts
termination_by structural ts => ts

/-- What properties mention, from left to right. -/
def mentionsProps : List (PropertyRef TypeRef) → List Mention
  | [] => []
  | ⟨_, type, _⟩ :: ps => mentions type ++ mentionsProps ps
termination_by structural ps => ps

/-- What index signatures mention, from left to right and each key before its type. -/
def mentionsIndex : List (IndexRef TypeRef) → List Mention
  | [] => []
  | ⟨key, keySpan, type⟩ :: is => .indexKey key keySpan :: (mentions type ++ mentionsIndex is)
termination_by structural is => is

/-- What parameters mention, from left to right. -/
def mentionsParams : List (ParamRef TypeRef) → List Mention
  | [] => []
  | ⟨_, type⟩ :: ps => mentions type ++ mentionsParams ps
termination_by structural ps => ps

end

/-! ### The order lists what is inside -/

section

variable {m : Mention}

theorem mem_mentionsAll {ts : List TypeRef} :
    m ∈ mentionsAll ts ↔ ∃ t ∈ ts, m ∈ t.mentions := by
  induction ts with
  | nil => simp [mentionsAll]
  | cons t ts ih => simp [mentionsAll, ih]

theorem mem_mentionsProps {ps : List (PropertyRef TypeRef)} :
    m ∈ mentionsProps ps ↔ ∃ t ∈ ps.map PropertyRef.type, m ∈ t.mentions := by
  induction ps with
  | nil => simp [mentionsProps]
  | cons p ps ih => simp [mentionsProps, ih]

theorem mem_mentionsIndex {is : List (IndexRef TypeRef)} :
    m ∈ mentionsIndex is ↔
      m ∈ is.map (fun i => .indexKey i.key i.keySpan) ∨ ∃ t ∈ is.map IndexRef.type, m ∈ t.mentions := by
  induction is with
  | nil => simp [mentionsIndex]
  | cons i is ih =>
    simp only [mentionsIndex, List.mem_cons, List.mem_append, ih, List.map_cons, exists_eq_or_imp,
      or_assoc, or_left_comm]

theorem mem_mentionsParams {ps : List (ParamRef TypeRef)} :
    m ∈ mentionsParams ps ↔ ∃ t ∈ ps.map ParamRef.type, m ∈ t.mentions := by
  induction ps with
  | nil => simp [mentionsParams]
  | cons p ps ih => simp [mentionsParams, ih]

/-- A reference mentions what it mentions itself and what the references directly inside it do. -/
theorem mem_mentions_step {t : TypeRef} :
    m ∈ t.mentions ↔ m ∈ t.own ∨ ∃ c ∈ t.children, m ∈ c.mentions := by
  cases t with
  | named name args span =>
    rw [mentions, List.mem_append, mem_mentionsAll, or_comm]
    rfl
  | array element span => simp [mentions, own, children]
  | union members span | intersection members span =>
    simp [mentions, own, children, mem_mentionsAll]
  | interface props index span =>
    simp only [mentions, own, children, List.mem_append, mem_mentionsProps, mem_mentionsIndex,
      or_and_right, exists_or, or_left_comm]
  | function params result span =>
    simp only [mentions, own, children, List.mem_append, mem_mentionsParams, List.mem_singleton,
      or_and_right, exists_or, exists_eq_left, List.not_mem_nil, false_or]
  | literal value span => simp [mentions, own, children]

theorem sizeOf_lt_of_mem_children {c t : TypeRef} (h : c ∈ t.children) : sizeOf c < sizeOf t := by
  cases t with
  | named name args span | union args span | intersection args span =>
    have hlt : sizeOf c < sizeOf args := List.sizeOf_lt_of_mem h
    simp only [named.sizeOf_spec, union.sizeOf_spec, intersection.sizeOf_spec]
    omega
  | array element span =>
    rw [List.mem_singleton.1 h, array.sizeOf_spec]
    omega
  | interface props index span =>
    simp only [interface.sizeOf_spec]
    rcases List.mem_append.1 h with h | h
    · obtain ⟨⟨name, type, writable⟩, hp, rfl⟩ := List.mem_map.1 h
      have hlt := List.sizeOf_lt_of_mem hp
      simp only [PropertyRef.mk.sizeOf_spec] at hlt ⊢
      omega
    · obtain ⟨⟨key, keySpan, type⟩, hi, rfl⟩ := List.mem_map.1 h
      have hlt := List.sizeOf_lt_of_mem hi
      simp only [IndexRef.mk.sizeOf_spec] at hlt ⊢
      omega
  | function params result span =>
    simp only [function.sizeOf_spec]
    rcases List.mem_append.1 h with h | h
    · obtain ⟨⟨name, type⟩, hp, rfl⟩ := List.mem_map.1 h
      have hlt := List.sizeOf_lt_of_mem hp
      simp only [ParamRef.mk.sizeOf_spec] at hlt ⊢
      omega
    · rw [List.mem_singleton.1 h]
      omega
  | literal value span => cases h

theorem exists_inside_of_mem_mentions {t : TypeRef} (h : m ∈ t.mentions) :
    ∃ u : TypeRef, u.Inside t ∧ m ∈ u.own := by
  rcases mem_mentions_step.1 h with hown | ⟨c, hc, hm⟩
  · exact ⟨t, .self t, hown⟩
  · obtain ⟨u, hu, hown⟩ := exists_inside_of_mem_mentions hm
    exact ⟨u, .child hc hu, hown⟩
termination_by sizeOf t
decreasing_by exact sizeOf_lt_of_mem_children hc

/-- The order lists what the references inside a reference mention themselves, at any depth. -/
theorem mem_mentions_iff {t : TypeRef} : m ∈ t.mentions ↔ ∃ u : TypeRef, u.Inside t ∧ m ∈ u.own := by
  refine ⟨exists_inside_of_mem_mentions, ?_⟩
  rintro ⟨u, hu, hm⟩
  induction hu with
  | self => exact mem_mentions_step.2 (.inl hm)
  | child hc _ ih => exact mem_mentions_step.2 (.inr ⟨_, hc, ih⟩)

end

end TypeRef

/-! ### Converting looks at what is mentioned -/

/-- The outcome of a step that looks at mentions in their order: a result if all of them have a meaning,
and else the report of the first that has none. -/
def Examines {α : Type} (r : Registry) (ms : List Mention) : Except Diagnostic α → Prop
  | .ok _ => Mention.offence? r ms = none
  | .error d => Mention.offence? r ms = some d

namespace Examines

variable {α β : Type} {r : Registry} {ms ms' : List Mention} {x : Except Diagnostic α}
  {k : α → Except Diagnostic β}

theorem ok (a : α) : Examines r [] (.ok a) := rfl

/-- One step looks at what it mentions before the next does. -/
theorem bind (hx : Examines r ms x) (hk : ∀ a, Examines r ms' (k a)) :
    Examines r (ms ++ ms') (x >>= k) := by
  cases x with
  | error d =>
    show Mention.offence? r (ms ++ ms') = some d
    obtain ⟨m, hm, hd⟩ := Option.map_eq_some_iff.1 hx
    rw [Mention.offence?, List.find?_append, hm, Option.some_or, Option.map_some, hd]
  | ok a =>
    have hnone : ms.find? (fun m => !m.fits r) = none := Option.map_eq_none_iff.1 hx
    have happend : Mention.offence? r (ms ++ ms') = Mention.offence? r ms' := by
      rw [Mention.offence?, List.find?_append, hnone, Option.none_or, Mention.offence?]
    have hka := hk a
    show Examines r (ms ++ ms') (k a)
    cases hrun : k a <;> rw [hrun] at hka <;> exact happend.trans hka

/-- What is done with a result looks at nothing more. -/
theorem andReturn {f : α → β} (hx : Examines r ms x) :
    Examines r ms (x >>= fun a => Pure.pure (f a)) := by
  have h : Examines r (ms ++ []) (x >>= fun a => Pure.pure (f a)) := hx.bind fun _ => rfl
  rwa [List.append_nil] at h

theorem ok_iff (h : Examines r ms x) : (∃ a, x = .ok a) ↔ ∀ m ∈ ms, m.fits r = true := by
  have hnone : Mention.offence? r ms = none ↔ ∀ m ∈ ms, m.fits r = true := by
    simp [Mention.offence?, Option.map_eq_none_iff, List.find?_eq_none]
  rw [← hnone]
  cases x with
  | ok a => exact ⟨fun _ => h, fun _ => ⟨a, rfl⟩⟩
  | error d =>
    have hsome : Mention.offence? r ms = some d := h
    rw [hsome]
    exact ⟨nofun, nofun⟩

theorem error_iff (h : Examines r ms x) {d : Diagnostic} :
    x = .error d ↔ ∃ m, ms.find? (fun m => !m.fits r) = some m ∧ m.report = d := by
  rw [← Option.map_eq_some_iff]
  show x = .error d ↔ Mention.offence? r ms = some d
  cases x with
  | ok a =>
    have hnone : Mention.offence? r ms = none := h
    rw [hnone]
    exact ⟨nofun, nofun⟩
  | error e =>
    have hsome : Mention.offence? r ms = some e := h
    rw [hsome, Except.error.injEq, Option.some.injEq]

/-! ### The steps of a conversion -/

theorem resolve (name : String) (args : List Ty) (span : Span) :
    Examines r [.typeName name span] (r.resolve name args span) := by
  unfold Registry.resolve
  by_cases harray : name = "Array"
  · have hfits : Mention.offence? r [.typeName name span] = none := by
      simp [Mention.offence?, Mention.fits, Registry.contains, harray]
    rw [if_pos harray]
    split <;> exact hfits
  · have hcontains : r.contains name = (r.get? name).isSome := by simp [Registry.contains, harray]
    rw [if_neg harray]
    cases hname : r.get? name with
    | some t =>
      have hfits : Mention.offence? r [.typeName name span] = none := by
        simp [Mention.offence?, Mention.fits, hcontains, hname]
      dsimp only
      split <;> exact hfits
    | none =>
      show Mention.offence? r [.typeName name span] = some ⟨.unknownType name, span.start⟩
      simp [Mention.offence?, Mention.fits, hcontains, hname, Mention.report]

theorem readKey (key : String) (span : Span) :
    Examines r [.indexKey key span] (IndexKey.read key span) := by
  unfold IndexKey.read
  by_cases hstring : key = "string"
  · simp [Examines, Mention.offence?, Mention.fits, hstring]
  by_cases hint : key = "int"
  · simp [Examines, Mention.offence?, Mention.fits, hint]
  · simp [Examines, Mention.offence?, Mention.fits, hstring, hint, Mention.report]

end Examines

namespace TypeRef

variable (r : Registry)

mutual

/-- Converting a reference looks at everything that it mentions, in order. -/
theorem toTy_examines : ∀ t : TypeRef, Examines r t.mentions (toTy r t)
  | .named name args span => (allToTy_examines args).bind fun args => .resolve name args span
  | .array element _ => (toTy_examines element).andReturn
  | .union members _ => (allToTy_examines members).andReturn
  | .intersection members _ => (allToTy_examines members).andReturn
  | .interface props index _ => (propsToTy_examines props).bind fun _ => (indexToTy_examines index).andReturn
  | .function params result _ => (paramsToTy_examines params).bind fun _ => (toTy_examines result).andReturn
  | .literal value _ => .ok (Ty.literal value)
termination_by structural t => t

theorem allToTy_examines : ∀ ts : List TypeRef, Examines r (mentionsAll ts) (allToTy r ts)
  | [] => .ok []
  | t :: ts => (toTy_examines t).bind fun _ => (allToTy_examines ts).andReturn
termination_by structural ts => ts

theorem propsToTy_examines :
    ∀ ps : List (PropertyRef TypeRef), Examines r (mentionsProps ps) (propsToTy r ps)
  | [] => .ok []
  | ⟨_, type, _⟩ :: ps => (toTy_examines type).bind fun _ => (propsToTy_examines ps).andReturn
termination_by structural ps => ps

theorem indexToTy_examines :
    ∀ is : List (IndexRef TypeRef), Examines r (mentionsIndex is) (indexToTy r is)
  | [] => .ok []
  | ⟨key, keySpan, type⟩ :: is =>
    (Examines.readKey key keySpan).bind fun _ =>
      (toTy_examines type).bind fun _ => (indexToTy_examines is).andReturn
termination_by structural is => is

theorem paramsToTy_examines :
    ∀ ps : List (ParamRef TypeRef), Examines r (mentionsParams ps) (paramsToTy r ps)
  | [] => .ok []
  | ⟨_, type⟩ :: ps => (toTy_examines type).bind fun _ => (paramsToTy_examines ps).andReturn
termination_by structural ps => ps

end

/-- A reference stands for a type if and only if every reference inside it, at any depth, has a known name
and keys that signatures may have. Otherwise the report is that of the first mention without a meaning. -/
theorem toTy_iff_fits (t : TypeRef) :
    ((∃ ty, toTy r t = .ok ty) ↔ ∀ u : TypeRef, u.Inside t → ∀ m ∈ u.own, m.fits r = true) ∧
    ∀ d, toTy r t = .error d ↔
      ∃ m, t.mentions.find? (fun m => !m.fits r) = some m ∧ m.report = d := by
  have hexamines := toTy_examines r t
  refine ⟨hexamines.ok_iff.trans ?_, fun d => hexamines.error_iff⟩
  simp only [mem_mentions_iff]
  constructor
  · intro h u hu m hm
    exact h m ⟨u, hu, hm⟩
  · rintro h m ⟨u, hu, hm⟩
    exact h u hu m hm

end TypeRef

end ScriptCheck
