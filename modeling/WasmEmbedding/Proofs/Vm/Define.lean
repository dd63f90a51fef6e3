import WasmEmbedding.Proofs.Engine.Instantiation
import WasmEmbedding.Vm.Link

/-! # What defining leaves behind

A linker takes each name once, and what it has taken it keeps: `Linker.define` and
`Linker.defineAll` append their names or refuse (`continues_defineAll`).  There are two
kinds of import objects to define.  One for the system interface brings the functions of the
interface, always the same, and one of the host's own brings its symbols, for each of which the
store makes an item.  Either way defining the object appends `LinkedImports.names` to the linker,
and to the code of the store it adds host functions, or those of the system interface (`define_ok`).

The names are appended one by one, and the first one that is taken ends it, with an error about
linking (`define_error`).  So what a failure leaves in the store may be items that no name leads to,
while the linker is the one from before.
-/
namespace WasmEmbedding

open Engine Wasm

namespace Engine.Linker

/-- The names that a linker has taken, in the order of their definition. -/
def names (l : Linker) : List (String × String) := l.entries.map Prod.fst

/-- A linker that goes on from another one: it has taken more names behind those it had. -/
structure Continues (l l' : Linker) (names : List (String × String)) : Prop where
  entries : l.entries <+: l'.entries
  names_eq : l'.names = l.names ++ names

theorem Continues.refl (l : Linker) : l.Continues l [] := ⟨List.prefix_rfl, by rw [List.append_nil]⟩

theorem Continues.trans {l l' l'' : Linker} {ms ns : List (String × String)}
    (h : l.Continues l' ms) (h' : l'.Continues l'' ns) : l.Continues l'' (ms ++ ns) := by
  refine ⟨h.entries.trans h'.entries, ?_⟩
  rw [h'.names_eq, h.names_eq, List.append_assoc]

theorem lookup_eq_none_iff {l : Linker} {name : String × String} :
    l.entries.lookup name = none ↔ name ∉ l.names := by
  rw [List.lookup_eq_none_iff, names, List.mem_map]
  constructor
  · rintro h ⟨e, he, rfl⟩
    exact absurd (h e he) (by simp)
  · intro h e he
    rw [bne_iff_ne]
    exact fun hne => h ⟨e, he, hne.symm⟩

/-- A name is defined if it is not taken. -/
theorem define_eq_some_iff {l l' : Linker} {moduleName name : String} {item : Item} :
    l.define moduleName name item = some l' ↔
      (moduleName, name) ∉ l.names ∧ l' = ⟨l.entries ++ [((moduleName, name), item)]⟩ := by
  unfold define get?
  cases h : l.entries.lookup (moduleName, name) with
  | some found =>
    have hn : ¬ (moduleName, name) ∉ l.names := by
      rw [← lookup_eq_none_iff, h]
      exact Option.some_ne_none _
    exact ⟨(nomatch ·), fun h => absurd h.1 hn⟩
  | none =>
    have hn : (moduleName, name) ∉ l.names := lookup_eq_none_iff.mp h
    constructor
    · rintro ⟨⟩
      exact ⟨hn, rfl⟩
    · rintro ⟨-, rfl⟩
      rfl

theorem continues_define {l l' : Linker} {moduleName name : String} {item : Item}
    (h : l.define moduleName name item = some l') : l.Continues l' [(moduleName, name)] := by
  obtain ⟨-, rfl⟩ := define_eq_some_iff.mp h
  refine ⟨List.prefix_append _ _, ?_⟩
  rw [names, List.map_append]
  rfl

/-- **All names are defined or none**, and those that are come behind the others. -/
theorem continues_defineAll {moduleName : String} : ∀ {items : List (String × Item)}
    {l l' : Linker}, l.defineAll moduleName items = some l' →
    l.Continues l' (items.map fun x => (moduleName, x.1))
  | [], l, l', h => by
    cases h
    exact Continues.refl l
  | (name, item) :: rest, l, l', h => by
    obtain ⟨k, hk, hrest⟩ := Option.bind_eq_some_iff.mp h
    exact (continues_define hk).trans (continues_defineAll hrest)

/-- A name that is taken keeps a list of names from being defined. -/
theorem defineAll_eq_none {moduleName : String} : ∀ {items : List (String × Item)} {l : Linker},
    (∃ x ∈ items, (moduleName, x.1) ∈ l.names) → l.defineAll moduleName items = none
  | [], _, ⟨x, hx, _⟩ => nomatch hx
  | (name, item) :: rest, l, ⟨x, hx, hl⟩ => by
    rw [defineAll]
    cases hk : l.define moduleName name item with
    | none => rfl
    | some k =>
      obtain ⟨hfree, -⟩ := define_eq_some_iff.mp hk
      -- Either the first name is the one that is taken, or it still is when the others come.
      rcases List.mem_cons.mp hx with rfl | hrest
      · exact absurd hl hfree
      · refine defineAll_eq_none ⟨x, hrest, ?_⟩
        rw [(continues_define hk).names_eq]
        exact List.mem_append_left _ hl

/-- Names of one module that are free and different from each other can be defined. -/
theorem exists_defineAll {moduleName : String} : ∀ {items : List (String × Item)} {l : Linker},
    (∀ x ∈ items, (moduleName, x.1) ∉ l.names) → (items.map Prod.fst).Nodup →
    ∃ l', l.defineAll moduleName items = some l'
  | [], l, _, _ => ⟨l, rfl⟩
  | (name, item) :: rest, l, hfree, hnodup => by
    obtain ⟨hname, hrest⟩ := List.nodup_cons.mp hnodup
    have hk : l.define moduleName name item = some ⟨l.entries ++ [((moduleName, name), item)]⟩ :=
      define_eq_some_iff.mpr ⟨hfree _ List.mem_cons_self, rfl⟩
    have hfree' : ∀ x ∈ rest, (moduleName, x.1) ∉
        names ⟨l.entries ++ [((moduleName, name), item)]⟩ := by
      intro x hx hmem
      rw [(continues_define hk).names_eq, List.mem_append] at hmem
      rcases hmem with hmem | hmem
      · exact hfree x (List.mem_cons_of_mem _ hx) hmem
      · have hxn : x.1 = name := congrArg Prod.snd (List.mem_singleton.mp hmem)
        exact hname (List.mem_map.mpr ⟨x, hx, hxn⟩)
    obtain ⟨l', hl'⟩ := exists_defineAll hfree' hrest
    refine ⟨l', ?_⟩
    rw [defineAll, hk]
    exact hl'

end Engine.Linker

/-! ## Making items -/

namespace Engine.Store

theorem addMemory_eq_some_iff {s : Store} {type : MemoryType} {r : Nat × Store} :
    s.addMemory type = some r ↔ s.admits type = true ∧
      r = (s.memories.size, { s with
        memories := s.memories.push (.zeros type.limits.min type.limits.max type.shared) }) := by
  unfold addMemory
  by_cases h : s.admits type
  · simp [h, eq_comm]
  · simp [h]

/-- A change of stores that what they may take in does not depend on, and that does not depend on
what they are given. -/
structure Unseen (f : Store → Store) : Prop where
  id : ∀ s, (f s).id = s.id
  memoryCap : ∀ s, (f s).memoryCap = s.memoryCap
  heap : ∀ s, (f s).heap = s.heap
  addTable : ∀ s t, (f s).addTable t = ((s.addTable t).1, f (s.addTable t).2)
  addGlobal : ∀ s g, (f s).addGlobal g = ((s.addGlobal g).1, f (s.addGlobal g).2)
  pushMemory : ∀ (s : Store) m, ((f s).memories.size,
    { f s with memories := (f s).memories.push m }) =
      (s.memories.size, f { s with memories := s.memories.push m })

section Unseen

variable {f : Store → Store} (hf : Unseen f) (s : Store)

include hf

theorem newTable_of_unseen (type : TableType) (x : Operand) :
    (f s).newTable type x = (s.newTable type x).map fun r => (r.1, f r.2) := by
  simp only [newTable, hf.addTable, apply_ite (Except.map _)]
  rfl

theorem newMemory_of_unseen (type : MemoryType) :
    (f s).newMemory type = (s.newMemory type).map fun r => (r.1, f r.2) := by
  have hadmits : (f s).admits type = s.admits type := by rw [admits, admits, hf.memoryCap]
  simp only [newMemory, addMemory, hadmits, hf.pushMemory, apply_ite (Except.map _)]
  cases s.admits type <;> rfl

theorem newGlobal_of_unseen (type : GlobalType) (x : Operand) :
    (f s).newGlobal type x = (s.newGlobal type x).map fun r => (r.1, f r.2) := by
  simp only [newGlobal, hf.id, hf.addGlobal, apply_ite (Except.map _)]
  rfl

end Unseen

variable {s : Store} {made : Nat × Store}

theorem newTable_ok {type : TableType} {x : Operand} (h : s.newTable type x = .ok made) :
    made = s.addTable ⟨type.element, type.limits.max, Array.replicate type.limits.min x⟩ := by
  unfold newTable at h
  split at h
  · cases h
  · split at h
    · cases h
    · cases h
      rfl

theorem newMemory_ok {type : MemoryType} (h : s.newMemory type = .ok made) :
    s.addMemory type = some made := by
  unfold newMemory at h
  split at h
  · cases h
  · split at h
    · cases h
    · split at h
      · rename_i hadded
        cases h
        exact hadded
      · cases h

theorem newGlobal_ok {type : GlobalType} {x : Operand} (h : s.newGlobal type x = .ok made) :
    x.belongsTo s.id = true ∧ made = s.addGlobal ⟨type, x⟩ := by
  unfold newGlobal at h
  split at h
  · cases h
  · rename_i hown
    split at h
    · cases h
    · cases h
      exact ⟨by simpa using hown, rfl⟩

end Engine.Store

namespace Host

/-- The null that a table is filled with is the one of its type. -/
theorem HostTable.nulls_type (t : HostTable) :
    (⟨t.type.element, t.type.limits.max, Array.replicate t.type.limits.min t.null⟩ : Table) =
      .nulls t.type := by
  have hnull : t.null = .zero (.ref t.type.element) := by
    rw [HostTable.null, HostTable.type]
    cases t.element <;> rfl
  rw [hnull, Table.nulls]

/-- A list of one value is encoded as one operand: nothing stands in for it. -/
theorem HostGlobal.initial_eq (g : HostGlobal) (heap : ExternHeap) :
    g.initial heap = g.value.encodeOne heap := by
  rw [HostGlobal.initial, Value.encode, List.mapM_cons, List.mapM_nil]
  cases g.value.encodeOne heap <;> rfl

namespace Symbol

/-- What the item of a symbol is, and what the store becomes. -/
inductive Makes (s : Store) : Symbol → Item → Store → Prop
  | function (id : FunctionId) (signature : Signature) :
      Makes s (.function id signature) (.function s.functions.size)
        (s.addFunction (.host id signature)).2
  | table (t : HostTable) :
      Makes s (.table t) (.table s.tables.size) (s.addTable (.nulls t.type)).2
  | memory {m : HostMemory} {a : Nat} {t : Store} (added : s.addMemory m.type = some (a, t)) :
      Makes s (.memory m) (.memory a) t
  | global {g : HostGlobal} {x : Operand} (value : g.value.encodeOne s.heap = .ok x)
      (own : x.belongsTo s.id = true) :
      Makes s (.global g) (.global s.globals.size) (s.addGlobal ⟨g.type, x⟩).2

/-- **What making the item of a symbol comes to, if the store does not refuse.** -/
theorem makes_of_materialize {symbol : Symbol} {s t : Store} {item : Item}
    (h : symbol.materialize s = .ok (item, t)) : symbol.Makes s item t := by
  cases symbol with
  | function id signature =>
    cases h
    exact .function id signature
  | table table =>
    obtain ⟨⟨a, u⟩, hnew, hmade⟩ := bind_eq_ok_iff.mp h
    have hadded := Store.newTable_ok hnew
    rw [table.nulls_type] at hadded
    cases hadded
    cases hmade
    exact .table table
  | memory m =>
    obtain ⟨⟨a, u⟩, hnew, hmade⟩ := bind_eq_ok_iff.mp h
    cases hmade
    exact .memory (Store.newMemory_ok hnew)
  | global g =>
    obtain ⟨x, hx, hglobal⟩ := bind_eq_ok_iff.mp h
    obtain ⟨⟨a, u⟩, hnew, hmade⟩ := bind_eq_ok_iff.mp hglobal
    have hvalue : g.value.encodeOne s.heap = .ok x := by
      rw [← g.initial_eq]
      cases hinitial : g.initial s.heap with
      | error e =>
        rw [hinitial] at hx
        cases hx
      | ok y =>
        rw [hinitial] at hx
        cases hx
        rfl
    obtain ⟨hown, hadded⟩ := Store.newGlobal_ok hnew
    cases hadded
    cases hmade
    exact .global hvalue hown

/-- Making the item of a symbol adds a host function to the code, or nothing. -/
theorem materialize_code {C : Code → Prop}
    (hC : ∀ c id signature, C c → C { c with functions := c.functions.push (.host id signature) })
    {symbol : Symbol} {s t : Store} {item : Item} (h : symbol.materialize s = .ok (item, t))
    (hs : C s.code) : C t.code := by
  cases makes_of_materialize h with
  | function id signature => exact hC _ _ _ hs
  | table t => exact hs
  | memory hadded =>
    obtain ⟨-, heq⟩ := Store.addMemory_eq_some_iff.mp hadded
    cases heq
    exact hs
  | global _ _ => exact hs

/-- Everything but a function is made alike whether the change comes before or after. -/
theorem materialize_of_unseen {f : Store → Store} (hf : Store.Unseen f) (symbol : Symbol)
    (hsymbol : ∀ id signature, symbol ≠ .function id signature) (s : Store) :
    symbol.materialize (f s) = (symbol.materialize s).map fun r => (r.1, f r.2) := by
  cases symbol with
  | function id signature => exact absurd rfl (hsymbol id signature)
  | table t =>
    simp only [materialize, Store.newTable_of_unseen hf]
    cases s.newTable t.type t.null <;> rfl
  | memory m =>
    simp only [materialize, Store.newMemory_of_unseen hf]
    cases s.newMemory m.type <;> rfl
  | global g =>
    simp only [materialize, hf.heap, Store.newGlobal_of_unseen hf]
    cases g.initial s.heap with
    | error e => rfl
    | ok x =>
      change (s.newGlobal g.type x).map _ >>= _ = Except.map _ (s.newGlobal g.type x >>= _)
      cases s.newGlobal g.type x <;> rfl

end Symbol

end Host

namespace LinkedImports

/-- The names that an import object takes when it is linked. -/
def names (l : LinkedImports) : List (String × String) :=
  match l.environment with
  | some _ => Wasi.Syscall.all.map fun c => (Wasi.moduleName, c.name)
  | none => l.symbols.map fun s => (l.moduleName, s.1)

theorem defineFrom_ok {C : Code → Prop} {moduleName : String}
    (hC : ∀ c id signature, C c → C { c with functions := c.functions.push (.host id signature) }) :
    ∀ {symbols : List (String × Host.Symbol)} {s t : Store} {l l' : Linker},
      defineFrom moduleName symbols (s, l) = .ok (t, l') → C s.code →
      C t.code ∧ l.Continues l' (symbols.map fun x => (moduleName, x.1))
  | [], _, _, l, _, h, hs => by
    cases h
    exact ⟨hs, Linker.Continues.refl l⟩
  | (name, symbol) :: rest, s, t, l, l', h, hs => by
    rw [defineFrom] at h
    split at h
    · cases h
    · rename_i item u hu
      split at h
      · cases h
      · rename_i k hk
        obtain ⟨ht, hrest⟩ := defineFrom_ok hC h (symbol.materialize_code hC hu hs)
        exact ⟨ht, (Linker.continues_define hk).trans hrest⟩

/-- The functions of the system interface come behind those of the store. -/
theorem systemItems_spec : ∀ (calls : List Wasi.Syscall) (s : Store),
    s.code.Extends (systemItems calls s).2.code ∧
      (systemItems calls s).1.map Prod.fst = calls.map Wasi.Syscall.name
  | [], s => ⟨Std.Refl.refl _, rfl⟩
  | c :: rest, s => by
    obtain ⟨hext, hnames⟩ := systemItems_spec rest (s.addFunction (.system c)).2
    refine ⟨IsTrans.trans _ _ _ (s.code.extends_push (.system c)) hext, ?_⟩
    exact congrArg (c.name :: ·) hnames

theorem define_of_environment {l : LinkedImports} {key : Host.EnvironmentKey}
    (h : l.environment = some key) (s : Store) (k : Linker) :
    l.define s k =
      match k.defineAll Wasi.moduleName (systemItems Wasi.Syscall.all s).1 with
      | some linker => .ok ((systemItems Wasi.Syscall.all s).2, linker)
      | none => .error (.wasi (.initializationFailed "defined twice")) := by
  obtain ⟨moduleName, symbols, environment⟩ := l
  cases h
  rfl

theorem define_of_none {l : LinkedImports} (h : l.environment = none) (s : Store) (k : Linker) :
    l.define s k = (defineFrom l.moduleName l.symbols (s, k)).mapError .link := by
  simp only [define, h]

theorem define_eq_ok_of_none {l : LinkedImports} (h : l.environment = none) {s : Store}
    {k : Linker} {r : Store × Linker} :
    l.define s k = .ok r ↔ defineFrom l.moduleName l.symbols (s, k) = .ok r := by
  rw [define_of_none h]
  cases defineFrom l.moduleName l.symbols (s, k) with
  | ok found =>
    constructor
    · rintro ⟨⟩
      rfl
    · rintro ⟨⟩
      rfl
  | error e => exact ⟨(nomatch ·), (nomatch ·)⟩

/-- The names of the items of the system interface. -/
theorem names_systemItems (s : Store) :
    (systemItems Wasi.Syscall.all s).1.map (fun x => (Wasi.moduleName, x.1)) =
      Wasi.Syscall.all.map fun c => (Wasi.moduleName, c.name) := by
  have h := congrArg (List.map (Wasi.moduleName, ·)) (systemItems_spec Wasi.Syscall.all s).2
  rw [List.map_map, List.map_map] at h
  exact h

/-- **Linking an import object takes the names it stands for and adds to the code.** -/
theorem define_ok {l : LinkedImports} {s t : Store} {k k' : Linker}
    (h : l.define s k = .ok (t, k')) : s.code.Extends t.code ∧ k.Continues k' l.names := by
  cases he : l.environment with
  | some key =>
    rw [define_of_environment he] at h
    rw [names, he]
    split at h
    · rename_i k₁ hk
      cases h
      refine ⟨(systemItems_spec Wasi.Syscall.all s).1, ?_⟩
      exact names_systemItems s ▸ Linker.continues_defineAll hk
    · cases h
  | none =>
    rw [names, he]
    have hpush : ∀ (c : Code) id signature, s.code.Extends c →
        s.code.Extends { c with functions := c.functions.push (.host id signature) } :=
      fun c _ _ hc => IsTrans.trans _ _ _ hc (c.extends_push _)
    exact defineFrom_ok hpush ((define_eq_ok_of_none he).mp h) (Std.Refl.refl _)

/-- Without an environment what comes to the code are host functions. -/
theorem define_symbols_ok {C : Code → Prop}
    (hC : ∀ c id signature, C c → C { c with functions := c.functions.push (.host id signature) })
    {l : LinkedImports} (hnone : l.environment = none) {s t : Store} {k k' : Linker}
    (h : l.define s k = .ok (t, k')) (hs : C s.code) : C t.code :=
  (defineFrom_ok hC ((define_eq_ok_of_none hnone).mp h) hs).1

theorem instances_systemItems : ∀ (calls : List Wasi.Syscall) (s : Store),
    (systemItems calls s).2.instances = s.instances
  | [], _ => rfl
  | c :: rest, s => instances_systemItems rest (s.addFunction (.system c)).2

/-- An import object brings no instances. -/
theorem instances_define {l : LinkedImports} {s t : Store} {k k' : Linker}
    (h : l.define s k = .ok (t, k')) : t.instances = s.instances := by
  cases he : l.environment with
  | some key =>
    rw [define_of_environment he] at h
    split at h
    · cases h
      exact instances_systemItems _ s
    · cases h
  | none =>
    exact define_symbols_ok (C := fun c => c.instances = s.instances) (fun _ _ _ hc => hc) he h rfl

/-- The names of the functions of the system interface are different from each other. -/
theorem nodup_syscall_names : (Wasi.Syscall.all.map Wasi.Syscall.name).Nodup := by
  decide +kernel

/-- **The system interface can be linked where none of its names is taken.** -/
theorem define_system_iff {l : LinkedImports} {key : Host.EnvironmentKey}
    (h : l.environment = some key) (s : Store) (k : Linker) :
    (∃ r, l.define s k = .ok r) ↔
      ∀ c ∈ Wasi.Syscall.all, (Wasi.moduleName, c.name) ∉ k.names := by
  have hnames := names_systemItems s
  rw [define_of_environment h]
  constructor
  · rintro ⟨r, hr⟩ c hc hmem
    have htaken : (Wasi.moduleName, c.name) ∈
        (systemItems Wasi.Syscall.all s).1.map fun x => (Wasi.moduleName, x.1) := by
      rw [hnames]
      exact List.mem_map_of_mem (f := fun c : Wasi.Syscall => (Wasi.moduleName, c.name)) hc
    obtain ⟨x, hx, hxc⟩ := List.mem_map.mp htaken
    have hnone := Linker.defineAll_eq_none (l := k) ⟨x, hx, hxc ▸ hmem⟩
    rw [hnone] at hr
    cases hr
  · intro hfree
    have hfree' : ∀ x ∈ (systemItems Wasi.Syscall.all s).1, (Wasi.moduleName, x.1) ∉ k.names := by
      intro x hx
      have hmem := List.mem_map_of_mem (f := fun x : String × Item => (Wasi.moduleName, x.1)) hx
      rw [hnames] at hmem
      obtain ⟨c, hc, hcx⟩ := List.mem_map.mp hmem
      exact hcx ▸ hfree c hc
    have hnodup : ((systemItems Wasi.Syscall.all s).1.map Prod.fst).Nodup := by
      rw [(systemItems_spec Wasi.Syscall.all s).2]
      exact nodup_syscall_names
    obtain ⟨k', hk'⟩ := Linker.exists_defineAll hfree' hnodup
    rw [hk']
    exact ⟨_, rfl⟩

/-- What keeps an import object from being linked. -/
theorem define_error {l : LinkedImports} {s : Store} {k : Linker} {e : RuntimeError}
    (h : l.define s k = .error e) : (∃ f, e = .link f) ∨ (∃ w, e = .wasi w) := by
  cases he : l.environment with
  | some key =>
    rw [define_of_environment he] at h
    split at h
    · cases h
    · cases h
      exact .inr ⟨_, rfl⟩
  | none =>
    rw [define_of_none he] at h
    cases hd : defineFrom l.moduleName l.symbols (s, k) with
    | error f =>
      rw [hd] at h
      cases h
      exact .inl ⟨f, rfl⟩
    | ok r =>
      rw [hd] at h
      cases h

end LinkedImports

end WasmEmbedding
