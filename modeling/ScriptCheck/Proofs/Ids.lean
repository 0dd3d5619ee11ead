import ScriptCheck.Stmt

/-!
The ids of syntax, and the reads of names. The ids of a tree stand in the order in which they are
drawn, those of the parts before that of the whole; the class name behind `new` has an id of its own.
A read is the id of an expression that reads a name, together with the name.
-/

namespace ScriptCheck

namespace Expr

mutual

/-- The ids of an expression and its parts. -/
def ids : Expr → List Nat
  | .literal node _ => [node.id]
  | .keyword node _ => [node.id]
  | .symbol node _ => [node.id]
  | .array node elements => idsAll elements ++ [node.id]
  | .object node entries => idsEntries entries ++ [node.id]
  | .binary node _ left right => ids left ++ ids right ++ [node.id]
  | .unary node _ operand => ids operand ++ [node.id]
  | .assign node _ target value => ids target ++ ids value ++ [node.id]
  | .access node receiver key => ids receiver ++ idsKey key ++ [node.id]
  | .call node callee args => ids callee ++ idsAll args ++ [node.id]
  | .construct node _ classNode args => classNode.id :: idsAll args ++ [node.id]
termination_by structural e => e

/-- The ids of expressions. -/
def idsAll : List Expr → List Nat
  | [] => []
  | e :: es => ids e ++ idsAll es
termination_by structural es => es

/-- The ids of a key. -/
def idsKey : Key Expr → List Nat
  | .name _ _ => []
  | .computed e => ids e
termination_by structural k => k

/-- The ids of entries. -/
def idsEntries : List (Entry Expr) → List Nat
  | [] => []
  | ⟨key, value⟩ :: es => idsKey key ++ ids value ++ idsEntries es
termination_by structural es => es

end

/-- The ids of an entry. -/
def idsEntry (e : Entry Expr) : List Nat := idsKey e.key ++ ids e.value

theorem idsAll_eq_flatMap (es : List Expr) : idsAll es = es.flatMap ids := by
  induction es with
  | nil => rfl
  | cons e es ih => rw [idsAll, ih, List.flatMap_cons]

theorem idsEntries_eq_flatMap (es : List (Entry Expr)) : idsEntries es = es.flatMap idsEntry := by
  induction es with
  | nil => rfl
  | cons e es ih =>
    obtain ⟨key, value⟩ := e
    rw [idsEntries, ih, List.flatMap_cons]
    rfl

mutual

/-- The reads of an expression and its parts. -/
def reads : Expr → List (Nat × String)
  | .literal _ _ => []
  | .keyword _ _ => []
  | .symbol node name => [(node.id, name)]
  | .array _ elements => readsAll elements
  | .object _ entries => readsEntries entries
  | .binary _ _ left right => reads left ++ reads right
  | .unary _ _ operand => reads operand
  | .assign _ _ target value => reads target ++ reads value
  | .access _ receiver key => reads receiver ++ readsKey key
  | .call _ callee args => reads callee ++ readsAll args
  | .construct _ className classNode args => (classNode.id, className) :: readsAll args
termination_by structural e => e

/-- The reads of expressions. -/
def readsAll : List Expr → List (Nat × String)
  | [] => []
  | e :: es => reads e ++ readsAll es
termination_by structural es => es

/-- The reads of a key. -/
def readsKey : Key Expr → List (Nat × String)
  | .name _ _ => []
  | .computed e => reads e
termination_by structural k => k

/-- The reads of entries. -/
def readsEntries : List (Entry Expr) → List (Nat × String)
  | [] => []
  | ⟨key, value⟩ :: es => readsKey key ++ reads value ++ readsEntries es
termination_by structural es => es

end

/-! ### Reads have ids -/

mutual

theorem reads_sublist : ∀ e : Expr, (e.reads.map Prod.fst).Sublist e.ids
  | .literal _ _ => List.nil_sublist _
  | .keyword _ _ => List.nil_sublist _
  | .symbol _ _ => List.Sublist.refl _
  | .array _ es => (readsAll_sublist es).trans (List.sublist_append_left ..)
  | .object _ es => (readsEntries_sublist es).trans (List.sublist_append_left ..)
  | .binary _ _ left right => by
    rw [reads, List.map_append]
    exact ((reads_sublist left).append (reads_sublist right)).trans (List.sublist_append_left ..)
  | .unary _ _ operand => (reads_sublist operand).trans (List.sublist_append_left ..)
  | .assign _ _ target value => by
    rw [reads, List.map_append]
    exact ((reads_sublist target).append (reads_sublist value)).trans (List.sublist_append_left ..)
  | .access _ receiver key => by
    rw [reads, List.map_append]
    exact ((reads_sublist receiver).append (readsKey_sublist key)).trans
      (List.sublist_append_left ..)
  | .call _ callee args => by
    rw [reads, List.map_append]
    exact ((reads_sublist callee).append (readsAll_sublist args)).trans
      (List.sublist_append_left ..)
  | .construct _ _ classNode args => by
    rw [reads, List.map_cons]
    exact ((readsAll_sublist args).cons_cons classNode.id).trans (List.sublist_append_left ..)
termination_by structural e => e

theorem readsAll_sublist : ∀ es : List Expr, ((readsAll es).map Prod.fst).Sublist (idsAll es)
  | [] => List.nil_sublist _
  | e :: es => by
    rw [readsAll, List.map_append]
    exact (reads_sublist e).append (readsAll_sublist es)
termination_by structural es => es

theorem readsKey_sublist : ∀ k : Key Expr, ((readsKey k).map Prod.fst).Sublist (idsKey k)
  | .name _ _ => List.nil_sublist _
  | .computed e => reads_sublist e
termination_by structural k => k

theorem readsEntries_sublist :
    ∀ es : List (Entry Expr), ((readsEntries es).map Prod.fst).Sublist (idsEntries es)
  | [] => List.nil_sublist _
  | ⟨key, value⟩ :: es => by
    rw [readsEntries, List.map_append, List.map_append]
    exact ((readsKey_sublist key).append (reads_sublist value)).append (readsEntries_sublist es)
termination_by structural es => es

end

/-- The ids of an optional expression. -/
def idsOption (e : Option Expr) : List Nat := e.elim [] ids

/-- The reads of an optional expression. -/
def readsOption (e : Option Expr) : List (Nat × String) := e.elim [] reads

theorem readsOption_sublist : ∀ e : Option Expr, ((readsOption e).map Prod.fst).Sublist (idsOption e)
  | none => List.nil_sublist _
  | some e => reads_sublist e

end Expr

namespace Stmt

/-- The ids of the initial values of fields. -/
def idsFields (fields : List FieldDecl) : List Nat := fields.flatMap fun f => Expr.idsOption f.value

/-- The reads of the initial values of fields. -/
def readsFields (fields : List FieldDecl) : List (Nat × String) :=
  fields.flatMap fun f => Expr.readsOption f.value

mutual

/-- The ids of the expressions in a statement. -/
def ids : Stmt → List Nat
  | .expr _ e => e.ids
  | .block _ body => idsAll body
  | .varDecl _ _ _ _ value => Expr.idsOption value
  | .ifElse _ condition onTrue onFalse => condition.ids ++ ids onTrue ++ idsOption onFalse
  | .whileLoop _ condition body => condition.ids ++ ids body
  | .forIn _ _ iterable _ body => iterable.ids ++ idsAll body
  | .fnDecl function => idsFn function
  | .ret _ value => Expr.idsOption value
  | .jump _ _ => []
  | .classDecl _ _ _ _ fields methods => idsFields fields ++ idsMethods methods
  | .typeDecl _ _ _ => []
termination_by structural s => s

/-- The ids of the expressions in statements. -/
def idsAll : List Stmt → List Nat
  | [] => []
  | s :: ss => ids s ++ idsAll ss
termination_by structural ss => ss

/-- The ids of the expressions in an optional statement. -/
def idsOption : Option Stmt → List Nat
  | some s => ids s
  | none => []
termination_by structural s => s

/-- The ids of the expressions in a function. -/
def idsFn : FnDecl Stmt → List Nat
  | ⟨_, _, _, body, _, _⟩ => idsAll body
termination_by structural d => d

/-- The ids of the expressions in methods. -/
def idsMethods : List (MethodDecl Stmt) → List Nat
  | [] => []
  | ⟨_, function⟩ :: ms => idsFn function ++ idsMethods ms
termination_by structural ms => ms

end

mutual

/-- The reads in a statement. -/
def reads : Stmt → List (Nat × String)
  | .expr _ e => e.reads
  | .block _ body => readsAll body
  | .varDecl _ _ _ _ value => Expr.readsOption value
  | .ifElse _ condition onTrue onFalse => condition.reads ++ reads onTrue ++ readsOption onFalse
  | .whileLoop _ condition body => condition.reads ++ reads body
  | .forIn _ _ iterable _ body => iterable.reads ++ readsAll body
  | .fnDecl function => readsFn function
  | .ret _ value => Expr.readsOption value
  | .jump _ _ => []
  | .classDecl _ _ _ _ fields methods => readsFields fields ++ readsMethods methods
  | .typeDecl _ _ _ => []
termination_by structural s => s

/-- The reads in statements. -/
def readsAll : List Stmt → List (Nat × String)
  | [] => []
  | s :: ss => reads s ++ readsAll ss
termination_by structural ss => ss

/-- The reads in an optional statement. -/
def readsOption : Option Stmt → List (Nat × String)
  | some s => reads s
  | none => []
termination_by structural s => s

/-- The reads in a function. -/
def readsFn : FnDecl Stmt → List (Nat × String)
  | ⟨_, _, _, body, _, _⟩ => readsAll body
termination_by structural d => d

/-- The reads in methods. -/
def readsMethods : List (MethodDecl Stmt) → List (Nat × String)
  | [] => []
  | ⟨_, function⟩ :: ms => readsFn function ++ readsMethods ms
termination_by structural ms => ms

end

/-- The ids of a method. -/
def idsMethod (m : MethodDecl Stmt) : List Nat := idsFn m.function

theorem idsAll_eq_flatMap (ss : List Stmt) : idsAll ss = ss.flatMap ids := by
  induction ss with
  | nil => rfl
  | cons s ss ih => rw [idsAll, ih, List.flatMap_cons]

theorem readsFields_sublist :
    ∀ fs : List FieldDecl, ((readsFields fs).map Prod.fst).Sublist (idsFields fs)
  | [] => List.nil_sublist _
  | f :: fs => by
    rw [readsFields, List.flatMap_cons, List.map_append, idsFields, List.flatMap_cons]
    exact (Expr.readsOption_sublist f.value).append (readsFields_sublist fs)

mutual

theorem reads_sublist : ∀ s : Stmt, (s.reads.map Prod.fst).Sublist s.ids
  | .expr _ e => e.reads_sublist
  | .block _ body => readsAll_sublist body
  | .varDecl _ _ _ _ value => Expr.readsOption_sublist value
  | .ifElse _ condition onTrue onFalse => by
    rw [reads, List.map_append, List.map_append]
    exact (condition.reads_sublist.append (reads_sublist onTrue)).append
      (readsOption_sublist onFalse)
  | .whileLoop _ condition body => by
    rw [reads, List.map_append]
    exact condition.reads_sublist.append (reads_sublist body)
  | .forIn _ _ iterable _ body => by
    rw [reads, List.map_append]
    exact iterable.reads_sublist.append (readsAll_sublist body)
  | .fnDecl function => readsFn_sublist function
  | .ret _ value => Expr.readsOption_sublist value
  | .jump _ _ => List.nil_sublist _
  | .classDecl _ _ _ _ fields methods => by
    rw [reads, List.map_append]
    exact (readsFields_sublist fields).append (readsMethods_sublist methods)
  | .typeDecl _ _ _ => List.nil_sublist _
termination_by structural s => s

theorem readsAll_sublist : ∀ ss : List Stmt, ((readsAll ss).map Prod.fst).Sublist (idsAll ss)
  | [] => List.nil_sublist _
  | s :: ss => by
    rw [readsAll, List.map_append]
    exact (reads_sublist s).append (readsAll_sublist ss)
termination_by structural ss => ss

theorem readsOption_sublist :
    ∀ s : Option Stmt, ((readsOption s).map Prod.fst).Sublist (idsOption s)
  | none => List.nil_sublist _
  | some s => reads_sublist s
termination_by structural s => s

theorem readsFn_sublist : ∀ d : FnDecl Stmt, ((readsFn d).map Prod.fst).Sublist (idsFn d)
  | ⟨_, _, _, body, _, _⟩ => readsAll_sublist body
termination_by structural d => d

theorem readsMethods_sublist :
    ∀ ms : List (MethodDecl Stmt), ((readsMethods ms).map Prod.fst).Sublist (idsMethods ms)
  | [] => List.nil_sublist _
  | ⟨_, function⟩ :: ms => by
    rw [readsMethods, List.map_append]
    exact (readsFn_sublist function).append (readsMethods_sublist ms)
termination_by structural ms => ms

end

end Stmt

end ScriptCheck
