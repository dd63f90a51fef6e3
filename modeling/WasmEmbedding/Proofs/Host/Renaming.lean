import WasmEmbedding.Proofs.Host.Ownership

/-! # Other numbers for the same things

The host numbers its functions, and the places of shared data and of environments, as they come.  A
`Numbering` gives new numbers to some of these, the known ones, and a `Renaming` does so for all
three kinds.  An import object whose numbers are known is the same object under the new numbers
(`ImportObject.rename`), and stays so when more numbers become known (`rename_of_grows`).

The second part says what a host finds under a name or a number after it has been changed.
-/
namespace WasmEmbedding

namespace Host

/-! ## Numberings -/

/-- New numbers for those that are known. -/
structure Numbering where
  known : Nat → Prop
  number : Nat → Nat

namespace Numbering

variable {ν μ : Numbering} {n m : Nat}

/-- The numbers below `n` that are known get numbers below `m`, no two the same. -/
structure Fits (ν : Numbering) (n m : Nat) : Prop where
  below : ∀ a, ν.known a → a < n
  under : ∀ a, ν.known a → ν.number a < m
  injective : ∀ a b, ν.known a → ν.known b → ν.number a = ν.number b → a = b

/-- The new numbers of one are none of the other's. -/
def Apart (ν μ : Numbering) : Prop := ∀ a b, ν.known a → μ.known b → ν.number a ≠ μ.number b

/-- More numbers are known, and those that were have the same new ones. -/
def Grows (ν μ : Numbering) : Prop := ∀ a, ν.known a → μ.known a ∧ μ.number a = ν.number a

/-- The same with one more known number. -/
def extend (ν : Numbering) (n m : Nat) : Numbering where
  known a := ν.known a ∨ a = n
  number a := if a = n then m else ν.number a

instance : IsPreorder Numbering Grows where
  refl _ _ h := ⟨h, rfl⟩
  trans _ _ _ h h' a ha := ⟨(h' a (h a ha).1).1, ((h' a (h a ha).1).2).trans (h a ha).2⟩

theorem Apart.symm (h : ν.Apart μ) : μ.Apart ν := fun a b ha hb heq => h b a hb ha heq.symm

theorem Fits.mono (h : ν.Fits n m) {n' m' : Nat} (hn : n ≤ n') (hm : m ≤ m') : ν.Fits n' m' where
  below a ha := Nat.lt_of_lt_of_le (h.below a ha) hn
  under a ha := Nat.lt_of_lt_of_le (h.under a ha) hm
  injective := h.injective

@[simp] theorem number_extend : (ν.extend n m).number n = m := if_pos rfl

theorem known_extend : (ν.extend n m).known n := .inr rfl

theorem Fits.number_extend_of_known (h : ν.Fits n m) {m' a : Nat} (ha : ν.known a) :
    (ν.extend n m').number a = ν.number a :=
  if_neg (Nat.ne_of_lt (h.below a ha))

theorem Fits.grows_extend (h : ν.Fits n m) {m' : Nat} : ν.Grows (ν.extend n m') :=
  fun _ ha => ⟨.inl ha, h.number_extend_of_known ha⟩

/-- The next number gets the next new one. -/
theorem Fits.extend (h : ν.Fits n m) : (ν.extend n m).Fits (n + 1) (m + 1) where
  below a ha := by
    rcases ha with ha | rfl
    · exact Nat.lt_succ_of_lt (h.below a ha)
    · exact Nat.lt_succ_self _
  under a ha := by
    rcases ha with ha | rfl
    · rw [h.number_extend_of_known ha]
      exact Nat.lt_succ_of_lt (h.under a ha)
    · rw [number_extend]
      exact Nat.lt_succ_self _
  injective a b ha hb heq := by
    rcases ha with ha | rfl <;> rcases hb with hb | rfl
    · rw [h.number_extend_of_known ha, h.number_extend_of_known hb] at heq
      exact h.injective a b ha hb heq
    · rw [h.number_extend_of_known ha, number_extend] at heq
      exact absurd heq (Nat.ne_of_lt (h.under a ha))
    · rw [h.number_extend_of_known hb, number_extend] at heq
      exact absurd heq.symm (Nat.ne_of_lt (h.under b hb))
    · rfl

/-- What is replaced under a new number is what is replaced under the old one. -/
theorem Fits.getElem?_set {α : Type} {xs ys : Array α} (h : ν.Fits xs.size ys.size) {a b : Nat}
    (ha : ν.known a) (hb : ν.known b) (hsame : ys[ν.number b]? = xs[b]?) (x : α) :
    (ys.setIfInBounds (ν.number a) x)[ν.number b]? = (xs.setIfInBounds a x)[b]? := by
  by_cases heq : a = b
  · subst heq
    rw [Array.getElem?_setIfInBounds_self_of_lt (h.under a ha),
      Array.getElem?_setIfInBounds_self_of_lt (h.below a ha)]
  · rw [Array.getElem?_setIfInBounds_ne heq, Array.getElem?_setIfInBounds_ne fun hnumber =>
      heq (h.injective a b ha hb hnumber)]
    exact hsame

/-- What is there stays where it is. -/
theorem getElem?_push_of_lt {α : Type} {xs : Array α} {a : Nat} (h : a < xs.size) (x : α) :
    (xs.push x)[a]? = xs[a]? := by
  rw [Array.getElem?_push_lt h, Array.getElem?_eq_getElem h]

/-- What comes behind everything else goes by the next number. -/
theorem Fits.getElem?_push {α : Type} {xs ys : Array α} (h : ν.Fits xs.size ys.size) {b : Nat}
    (hb : (ν.extend xs.size ys.size).known b) (hsame : ν.known b → ys[ν.number b]? = xs[b]?)
    (x : α) : (ys.push x)[(ν.extend xs.size ys.size).number b]? = (xs.push x)[b]? := by
  rcases hb with hb | rfl
  · rw [h.number_extend_of_known hb, getElem?_push_of_lt (h.under b hb),
      getElem?_push_of_lt (h.below b hb)]
    exact hsame hb
  · rw [number_extend, Array.getElem?_push_size, Array.getElem?_push_size]

theorem Fits.apart_extend {n' : Nat} (h : ν.Fits n m) (hμ : μ.Fits n' m) (hapart : ν.Apart μ) :
    (ν.extend n m).Apart μ := by
  intro a b ha hb
  rcases ha with ha | rfl
  · rw [h.number_extend_of_known ha]
    exact hapart a b ha hb
  · rw [number_extend]
    exact (Nat.ne_of_lt (hμ.under b hb)).symm

end Numbering

/-- New numbers for what a host has given out. -/
structure Renaming where
  functions : Numbering
  contexts : Numbering
  environments : Numbering

namespace Renaming

/-- The new number of a function. -/
def id (σ : Renaming) (a : FunctionId) : FunctionId := ⟨σ.functions.number a.val⟩

/-- The new place of shared data. -/
def key (σ : Renaming) (a : ContextKey) : ContextKey := ⟨σ.contexts.number a.val⟩

/-- The new place of an environment. -/
def environment (σ : Renaming) (a : EnvironmentKey) : EnvironmentKey :=
  ⟨σ.environments.number a.val⟩

/-- More is known, and what was known has the same numbers. -/
structure Grows (σ τ : Renaming) : Prop where
  functions : σ.functions.Grows τ.functions
  contexts : σ.contexts.Grows τ.contexts
  environments : σ.environments.Grows τ.environments

instance : IsPreorder Renaming Grows where
  refl _ := ⟨Std.Refl.refl _, Std.Refl.refl _, Std.Refl.refl _⟩
  trans _ _ _ h h' := ⟨IsTrans.trans _ _ _ h.functions h'.functions,
    IsTrans.trans _ _ _ h.contexts h'.contexts, IsTrans.trans _ _ _ h.environments h'.environments⟩

/-- The new numbers of one are none of the other's. -/
structure Apart (σ τ : Renaming) : Prop where
  functions : σ.functions.Apart τ.functions
  contexts : σ.contexts.Apart τ.contexts
  environments : σ.environments.Apart τ.environments

theorem Apart.symm {σ τ : Renaming} (h : σ.Apart τ) : τ.Apart σ :=
  ⟨h.functions.symm, h.contexts.symm, h.environments.symm⟩

variable {σ τ : Renaming}

theorem Grows.id (h : σ.Grows τ) {a : FunctionId} (ha : σ.functions.known a.val) :
    τ.id a = σ.id a :=
  congrArg FunctionId.mk (h.functions _ ha).2

theorem Grows.key (h : σ.Grows τ) {a : ContextKey} (ha : σ.contexts.known a.val) :
    τ.key a = σ.key a :=
  congrArg ContextKey.mk (h.contexts _ ha).2

theorem Grows.environment (h : σ.Grows τ) {a : EnvironmentKey} (ha : σ.environments.known a.val) :
    τ.environment a = σ.environment a :=
  congrArg EnvironmentKey.mk (h.environments _ ha).2

/-- The same with one more function. -/
def withFunction (σ : Renaming) (n m : Nat) : Renaming :=
  { σ with functions := σ.functions.extend n m }

/-- The same with one more place of shared data. -/
def withContext (σ : Renaming) (n m : Nat) : Renaming :=
  { σ with contexts := σ.contexts.extend n m }

/-- The same with one more place of an environment. -/
def withEnvironment (σ : Renaming) (n m : Nat) : Renaming :=
  { σ with environments := σ.environments.extend n m }

theorem grows_withFunction (σ : Renaming) {n m : Nat} (h : σ.functions.Fits n m) :
    σ.Grows (σ.withFunction n m) :=
  ⟨h.grows_extend, Std.Refl.refl _, Std.Refl.refl _⟩

theorem grows_withContext (σ : Renaming) {n m : Nat} (h : σ.contexts.Fits n m) :
    σ.Grows (σ.withContext n m) :=
  ⟨Std.Refl.refl _, h.grows_extend, Std.Refl.refl _⟩

theorem grows_withEnvironment (σ : Renaming) {n m : Nat} (h : σ.environments.Fits n m) :
    σ.Grows (σ.withEnvironment n m) :=
  ⟨Std.Refl.refl _, Std.Refl.refl _, h.grows_extend⟩

end Renaming

/-! ## Import objects under other numbers -/

/-- The same entry of a registry under other numbers. -/
def Registration.rename (e : Registration) (σ : Renaming) : Registration :=
  { e with context := e.context.map σ.key }

/-- The same symbol under other numbers. -/
def Symbol.rename (s : Symbol) (σ : Renaming) : Symbol :=
  match s with
  | .function id signature => .function (σ.id id) signature
  | .table t => .table t
  | .memory m => .memory m
  | .global g => .global g

/-- The same symbols under other numbers. -/
def renameSymbols (symbols : List (String × Symbol)) (σ : Renaming) : List (String × Symbol) :=
  symbols.map fun e => (e.1, e.2.rename σ)

namespace ImportObject

/-- The same import object under other numbers. -/
def rename (o : ImportObject) (σ : Renaming) : ImportObject where
  moduleName := o.moduleName
  symbols := o.symbols.map (renameSymbols · σ)
  context := o.context.map σ.key
  environment := o.environment.map σ.environment

/-- The numbers of an import object are known. -/
structure Known (o : ImportObject) (σ : Renaming) : Prop where
  functions : ∀ id ∈ o.functionIds, σ.functions.known id.val
  context : ∀ key, o.context = some key → σ.contexts.known key.val
  environment : ∀ key, o.environment = some key → σ.environments.known key.val

end ImportObject

variable {σ τ : Renaming}

theorem functionsOf_renameSymbols (symbols : List (String × Symbol)) :
    functionsOf (renameSymbols symbols σ) = functionsOf symbols := by
  unfold functionsOf renameSymbols
  rw [List.filterMap_map]
  refine List.filterMap_congr fun e _ => ?_
  obtain ⟨name, s⟩ := e
  cases s <;> rfl

theorem idsOf_renameSymbols (symbols : List (String × Symbol)) :
    idsOf (renameSymbols symbols σ) = (idsOf symbols).map σ.id := by
  unfold idsOf renameSymbols
  rw [List.filterMap_map, List.map_filterMap]
  refine List.filterMap_congr fun e _ => ?_
  obtain ⟨name, s⟩ := e
  cases s <;> rfl

theorem mem_idsOf {symbols : List (String × Symbol)} {name : String} {id : FunctionId}
    {signature : Signature} (h : (name, .function id signature) ∈ symbols) : id ∈ idsOf symbols :=
  List.mem_filterMap.mpr ⟨_, h, rfl⟩

/-- Symbols whose numbers stay the same stay the same. -/
theorem renameSymbols_of_grows (h : σ.Grows τ) {symbols : List (String × Symbol)}
    (hknown : ∀ id ∈ idsOf symbols, σ.functions.known id.val) :
    renameSymbols symbols τ = renameSymbols symbols σ := by
  refine List.map_congr_left fun e he => ?_
  obtain ⟨name, s⟩ := e
  cases s with
  | function id signature =>
    exact congrArg (fun id => (name, Symbol.function id signature))
      (h.id (hknown id (mem_idsOf he)))
  | table | memory | global => rfl

theorem Registration.rename_of_grows {e : Registration} (h : σ.Grows τ)
    (hknown : ∀ key, e.context = some key → σ.contexts.known key.val) :
    e.rename τ = e.rename σ := by
  obtain ⟨body, context⟩ := e
  cases context with
  | none => rfl
  | some key => exact congrArg (fun k => Registration.mk body (some k)) (h.key (hknown key rfl))

namespace ImportObject

variable {o : ImportObject}

@[simp] theorem functionIds_rename : (o.rename σ).functionIds = o.functionIds.map σ.id := by
  unfold functionIds symbolList rename
  cases o.symbols with
  | none => rfl
  | some symbols => exact idsOf_renameSymbols symbols

@[simp] theorem isWasi_rename : (o.rename σ).isWasi = o.isWasi := by
  unfold isWasi rename
  cases o.environment <;> rfl

theorem checkInsert_rename (name : String) :
    (o.rename σ).checkInsert name = o.checkInsert name := by
  unfold checkInsert
  rw [isWasi_rename]
  unfold rename
  cases o.symbols with
  | none => rfl
  | some symbols =>
    have hany : ((renameSymbols symbols σ).any fun s => s.1 = name) =
        symbols.any fun s => s.1 = name := by
      unfold renameSymbols
      rw [List.any_map]
      rfl
    simp only [Option.map_some, hany]

theorem push_rename (name : String) (s : Symbol) :
    (o.push name s).rename σ = (o.rename σ).push name (s.rename σ) := by
  unfold push rename renameSymbols
  cases o.symbols with
  | none => rfl
  | some symbols => simp

theorem Known.mono (h : o.Known σ) (hgrows : σ.Grows τ) : o.Known τ where
  functions id hid := (hgrows.functions _ (h.functions id hid)).1
  context key hkey := (hgrows.contexts _ (h.context key hkey)).1
  environment key hkey := (hgrows.environments _ (h.environment key hkey)).1

/-- An object whose numbers stay the same stays the same. -/
theorem Known.rename_of_grows (h : o.Known σ) (hgrows : σ.Grows τ) : o.rename τ = o.rename σ := by
  have hsymbols : o.symbols.map (renameSymbols · τ) = o.symbols.map (renameSymbols · σ) := by
    refine Option.map_congr fun symbols hs => renameSymbols_of_grows hgrows fun id hid => ?_
    refine h.functions id ?_
    rw [functionIds, symbolList, hs]
    exact hid
  have hcontext : o.context.map τ.key = o.context.map σ.key :=
    Option.map_congr fun key hkey => hgrows.key (h.context key hkey)
  have henvironment : o.environment.map τ.environment = o.environment.map σ.environment :=
    Option.map_congr fun key hkey => hgrows.environment (h.environment key hkey)
  unfold rename
  rw [hsymbols, hcontext, henvironment]

/-- A deleted object has no functions. -/
theorem Known.deleted (h : o.Known σ) : Known { o with symbols := none } σ :=
  ⟨List.forall_mem_nil _, h.context, h.environment⟩

theorem Known.push (h : o.Known σ) {name : String} {s : Symbol}
    (hs : ∀ id, s.id? = some id → σ.functions.known id.val) : (o.push name s).Known σ where
  functions id hid := by
    unfold functionIds idsOf symbolList ImportObject.push at hid
    cases hsymbols : o.symbols with
    | none =>
      rw [hsymbols] at hid
      cases hid
    | some symbols =>
      rw [hsymbols] at hid
      obtain ⟨e, he, heq⟩ := List.mem_filterMap.mp hid
      rcases List.mem_append.mp he with he | he
      · refine h.functions id ?_
        rw [functionIds, symbolList, hsymbols]
        exact List.mem_filterMap.mpr ⟨e, he, heq⟩
      · obtain rfl := List.mem_singleton.mp he
        refine hs id ?_
        cases s <;> exact heq
  context := h.context
  environment := h.environment

end ImportObject

/-! ## What a host finds after a change -/

namespace Registry

variable {r : Registry}

/-- No entry is under a number that has not been given out. -/
def Fresh (r : Registry) : Prop := ∀ e ∈ r.entries, e.1.val < r.next

theorem lookup_revokeAll (ids : List FunctionId) (id : FunctionId) :
    (r.revokeAll ids).entries.lookup id = if id ∈ ids then none else r.entries.lookup id := by
  have h := lookup_filter_keys (fun id => decide (id ∉ ids)) r.entries id
  rw [entries_revokeAll, h]
  by_cases hid : id ∈ ids <;> simp [hid]

theorem Fresh.revokeAll (h : r.Fresh) (ids : List FunctionId) : (r.revokeAll ids).Fresh := by
  intro e he
  rw [entries_revokeAll] at he
  rw [next_revokeAll]
  exact h e (List.mem_of_mem_filter he)

theorem Fresh.lookup_next (h : r.Fresh) : r.entries.lookup ⟨r.next⟩ = none := by
  cases hentry : r.entries.lookup ⟨r.next⟩ with
  | none => rfl
  | some entry => exact absurd (h _ (mem_of_lookup hentry)) (Nat.lt_irrefl _)

theorem lookup_register (entry : Registration) {id : FunctionId} (hid : id.val ≠ r.next) :
    (r.register entry).2.entries.lookup id = r.entries.lookup id := by
  have hne : (id == (⟨r.next⟩ : FunctionId)) = false :=
    beq_false_of_ne fun heq => hid (congrArg FunctionId.val heq)
  unfold register
  rw [List.lookup_append, List.lookup_cons, hne]
  exact Option.or_none

theorem Fresh.lookup_register_next (h : r.Fresh) (entry : Registration) :
    (r.register entry).2.entries.lookup ⟨r.next⟩ = some entry := by
  unfold register
  rw [List.lookup_append, h.lookup_next, List.lookup_cons, beq_self_eq_true]
  rfl

theorem Fresh.register (h : r.Fresh) (entry : Registration) : (r.register entry).2.Fresh := by
  intro e he
  rcases List.mem_append.mp he with he | he
  · exact Nat.lt_succ_of_lt (h e he)
  · rw [List.mem_singleton.mp he]
    exact Nat.lt_succ_self _

end Registry

variable {h : Host} {name : String}

theorem object?_forget (other : String) :
    (h.forget name).object? other = if other = name then none else h.object? other := by
  have hfilter := lookup_filter_keys (fun other => decide (other ≠ name)) h.objects other
  unfold object? forget
  rw [hfilter]
  by_cases hother : other = name <;> simp [hother]

theorem object?_putObject (o : ImportObject) (other : String) :
    (h.putObject name o).object? other = if other = name then some o else h.object? other := by
  have hforget : (h.forget name).object? other = _ := object?_forget other
  unfold object? at hforget ⊢
  unfold putObject
  rw [List.lookup_cons, hforget]
  by_cases hother : other = name
  · simp [hother]
  · have hne : (other == name) = false := beq_false_of_ne hother
    simp [hother, hne]

end Host

end WasmEmbedding
