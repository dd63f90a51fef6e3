import WasmEmbedding.Proofs.Vm.Stock

/-! # What a store makes of host definitions

Tables and memories are checked when they are defined, names when they are added, and both are
relied on much later, when a store makes the items.  An object that has been put together from
definitions (`Built`) keeps every rule of the engine (`Symbol.Proper`), whatever the store, so that
making an item is never a misuse; what a store may still refuse is `Symbol.Refused`.  The names of
an object differ from each other, so that where none of them is taken the first refused symbol is
all that keeps it from being defined (`defineFrom_eq_error_iff`), and if there is none the linker
and the store gain exactly what the object has (`Gained`).  `definitions_made` puts them together.
-/
namespace WasmEmbedding

open Engine Wasm

namespace Host

/-! ## Definitions -/

/-- The maximum, if there is one, is not below the minimum. -/
def Ordered (minimum : UInt32) (maximum : Option UInt32) : Prop := ∀ m ∈ maximum, minimum ≤ m

theorem checkLimits_eq_ok_iff {minimum : UInt32} {maximum : Option UInt32} :
    checkLimits minimum maximum = .ok () ↔ Ordered minimum maximum := by
  unfold checkLimits Ordered
  cases maximum with
  | none => simp
  | some m => by_cases h : m < minimum <;> simp [h, UInt32.not_le, UInt32.not_lt.mp]

theorem HostTable.define_eq_ok_iff {element : ValueKind} {minimum : UInt32}
    {maximum : Option UInt32} {t : HostTable} :
    HostTable.define element minimum maximum = .ok t ↔
      element.isReference = true ∧ Ordered minimum maximum ∧ t = ⟨element, minimum, maximum⟩ := by
  unfold HostTable.define
  by_cases h : element.isReference = true
  · rw [if_pos h, bind_eq_ok_iff]
    simp only [h, true_and, ← checkLimits_eq_ok_iff]
    constructor
    · rintro ⟨⟨⟩, hlimits, ht⟩
      exact ⟨hlimits, (Except.ok.inj ht).symm⟩
    · rintro ⟨hlimits, rfl⟩
      exact ⟨(), hlimits, rfl⟩
  · rw [if_neg h]
    exact iff_of_false nofun fun hall => h hall.1

theorem HostMemory.define_eq_ok_iff {minimum : UInt32} {maximum : Option UInt32} {m : HostMemory} :
    HostMemory.define minimum maximum = .ok m ↔
      Ordered minimum maximum ∧ (maximum.getD minimum).toNat ≤ maxPages ∧
        m = ⟨minimum, maximum⟩ := by
  unfold HostMemory.define
  rw [bind_eq_ok_iff]
  by_cases h : (maximum.getD minimum).toNat > maxPages
  · refine iff_of_false ?_ fun hall => absurd hall.2.1 (Nat.not_le_of_lt h)
    rintro ⟨_, -, hm⟩
    rw [if_pos h] at hm
    cases hm
  · simp only [if_neg h, Nat.le_of_not_lt h, true_and, ← checkLimits_eq_ok_iff]
    constructor
    · rintro ⟨⟨⟩, hlimits, hm⟩
      exact ⟨hlimits, (Except.ok.inj hm).symm⟩
    · rintro ⟨hlimits, rfl⟩
      exact ⟨(), hlimits, rfl⟩

/-- What the engine asks of its caller before it makes the item of a symbol. -/
def Symbol.Proper : Symbol → Prop
  | .function _ _ => True
  | .table t =>
    -- The elements are references of the kind that was asked for, and so is the null.
    (t.element = .funcRef ∨ t.element = .externRef) ∧
      .ref t.type.element = t.element.toType ∧ t.null.isOf (.ref t.type.element) = true ∧
      Ordered t.minimum t.maximum
  | .memory m => Ordered m.minimum m.maximum ∧ (m.maximum.getD m.minimum).toNat ≤ 65536
  | .global g =>
    -- One value is encoded as one operand, which is the first value and of the global's type.
    ∀ heap operands, Value.encode heap [g.value] = .ok operands →
      ∃ x, operands = [x] ∧ g.initial heap = .ok x ∧ x.isOf g.type.content = true

theorem Ordered.inOrder {minimum : UInt32} {maximum : Option UInt32} (h : Ordered minimum maximum) :
    (⟨minimum.toNat, maximum.map UInt32.toNat⟩ : Limits).inOrder = true := by
  cases maximum with
  | none => rfl
  | some m => exact decide_eq_true (UInt32.le_iff_toNat_le.mp (h m rfl))

theorem HostTable.proper {element : ValueKind} {minimum : UInt32} {maximum : Option UInt32}
    {t : HostTable} (h : HostTable.define element minimum maximum = .ok t) :
    (Symbol.table t).Proper := by
  obtain ⟨hreference, hlimits, rfl⟩ := define_eq_ok_iff.mp h
  cases element with
  | funcRef => exact ⟨.inl rfl, rfl, rfl, hlimits⟩
  | externRef => exact ⟨.inr rfl, rfl, rfl, hlimits⟩
  | _ => cases hreference

theorem HostMemory.proper {minimum : UInt32} {maximum : Option UInt32} {m : HostMemory}
    (h : HostMemory.define minimum maximum = .ok m) : (Symbol.memory m).Proper := by
  obtain ⟨hlimits, hpages, rfl⟩ := define_eq_ok_iff.mp h
  exact ⟨hlimits, hpages⟩

/-- The operand of a value is of the type of its kind. -/
theorem isOf_of_encodeOne {heap : ExternHeap} {v : Value} {x : Operand}
    (h : v.encodeOne heap = .ok x) : x.isOf v.kind.toType = true := by
  cases v with
  | externRef r =>
    cases r with
    | none => cases h; rfl
    | some r =>
      cases heap with
      | present => cases h; rfl
      | absent => cases h
  | _ =>
    cases h
    rfl

theorem HostGlobal.proper (g : HostGlobal) : (Symbol.global g).Proper := by
  intro heap operands h
  obtain ⟨x, hx, rfl⟩ : ∃ x, g.value.encodeOne heap = .ok x ∧ operands = [x] := by
    rw [Value.encode, List.mapM_cons, List.mapM_nil] at h
    obtain ⟨x, hx, hrest⟩ := bind_eq_ok_iff.mp h
    exact ⟨x, hx, (Except.ok.inj hrest).symm⟩
  exact ⟨x, rfl, (g.initial_eq heap).trans hx, isOf_of_encodeOne hx⟩

/-! ## Objects -/

/-- An import object that has been put together from definitions. -/
inductive ImportObject.Built : ImportObject → Prop
  | new {moduleName : String} {context : Option ContextKey} {o : ImportObject}
      (made : ImportObject.new moduleName context = .ok o) : Built o
  | function {o o' : ImportObject} {r r' : Registry} {name : String} {f : HostFunction}
      (built : Built o) (added : o.addFunction r name f = .ok (o', r')) : Built o'
  | table {o o' : ImportObject} {element : ValueKind} {minimum : UInt32} {maximum : Option UInt32}
      {t : HostTable} {name : String} (built : Built o)
      (defined : HostTable.define element minimum maximum = .ok t)
      (added : o.add name (.table t) = .ok o') : Built o'
  | memory {o o' : ImportObject} {minimum : UInt32} {maximum : Option UInt32} {m : HostMemory}
      {name : String} (built : Built o) (defined : HostMemory.define minimum maximum = .ok m)
      (added : o.add name (.memory m) = .ok o') : Built o'
  | global {o o' : ImportObject} {value : Value} {isMutable : Bool} {name : String}
      (built : Built o) (added : o.add name (.global ⟨value, isMutable⟩) = .ok o') : Built o'

/-- What is relied on when an object is defined. -/
structure ImportObject.Fit (o : ImportObject) : Prop where
  there : o.isDeleted = false
  environment : o.environment = none
  names : o.symbolNames.Nodup
  symbols : ∀ x ∈ o.symbolList, x.2.Proper

theorem ImportObject.Fit.push {o : ImportObject} (h : o.Fit) {name : String} {symbol : Symbol}
    (hsymbol : symbol.Proper) (hinsert : o.checkInsert name = .ok ()) :
    (o.push name symbol).Fit := by
  obtain ⟨hthere, -, hfree⟩ := checkInsert_eq_ok.mp hinsert
  refine ⟨?_, h.environment, ?_, ?_⟩
  · rw [isDeleted, ImportObject.push, Option.isNone_map]
    exact hthere
  · rw [symbolNames_push hthere]
    exact List.nodup_append_comm.mp (List.nodup_cons.mpr ⟨hfree, h.names⟩)
  · rw [symbolList_push hthere]
    intro x hx
    rcases List.mem_append.mp hx with hx | hx
    · exact h.symbols x hx
    · rw [List.mem_singleton.mp hx]
      exact hsymbol

theorem ImportObject.Fit.add {o o' : ImportObject} (h : o.Fit) {name : String} {symbol : Symbol}
    (hsymbol : symbol.Proper) (hadd : o.add name symbol = .ok o') : o'.Fit := by
  rw [add_eq] at hadd
  cases hinsert : o.checkInsert name with
  | error e =>
    rw [hinsert] at hadd
    cases hadd
  | ok _ =>
    rw [hinsert] at hadd
    cases hadd
    exact h.push hsymbol hinsert

theorem ImportObject.Built.fit {o : ImportObject} (h : o.Built) : o.Fit := by
  induction h with
  | new made =>
    unfold ImportObject.new at made
    split at made
    · cases made
    · cases made
      exact ⟨rfl, rfl, .nil, nofun⟩
  | @function o o' r r' name f _ added ih =>
    rw [addFunction_eq] at added
    cases hinsert : o.checkInsert name with
    | error e =>
      rw [hinsert] at added
      cases added
    | ok _ =>
      rw [hinsert] at added
      cases added
      exact ih.push trivial hinsert
  | table _ defined added ih => exact ih.add (HostTable.proper defined) added
  | memory _ defined added ih => exact ih.add (HostMemory.proper defined) added
  | global _ added ih => exact ih.add (HostGlobal.proper _) added

/-- What a machine keeps of an object that is fit. -/
theorem ImportObject.Fit.snapshot_eq {o : ImportObject} (h : o.Fit) :
    o.snapshot = .ok ⟨o.moduleName, o.symbolList, none⟩ := by
  have hthere := h.there
  rw [snapshot, symbolList, ← h.environment]
  cases hsymbols : o.symbols with
  | none =>
    rw [isDeleted, hsymbols] at hthere
    cases hthere
  | some symbols => rfl

/-! ## Symbols in a store -/

namespace Symbol

/-- A store does not make the item of a symbol, although it keeps the rules: the memory is larger
than the store may have it, or the first value of the global is a function of another store, or a
host object in an engine that does not support references to these. -/
inductive Refused (s : Store) : Symbol → Refusal → Prop
  | exceedsCap {m : HostMemory} {cap : Nat} (capped : s.memoryCap = some cap)
      (larger : cap < m.minimum.toNat * pageBytes) : Refused s (.memory m) .exceedsCap
  | foreign {ref : FuncRef} (isMutable : Bool) (other : ref.store ≠ s.id) :
      Refused s (.global ⟨.funcRef (some ref), isMutable⟩) .foreign
  | unsupported {ref : ExternRef} {e : ValueError} (isMutable : Bool) (heap : s.heap = .absent)
      (encoded : (Value.externRef (some ref)).encodeOne .absent = .error e) :
      Refused s (.global ⟨.externRef (some ref), isMutable⟩) (.unsupported e)

theorem Refused.not_misuse {s : Store} {symbol : Symbol} {refusal : Refusal} {rule : Misuse}
    (h : symbol.Refused s refusal) : refusal ≠ .misuse rule := by
  cases h <;> exact Refusal.noConfusion

/-- A symbol that a store does not refuse. -/
def Welcome (s : Store) (symbol : Symbol) : Prop := ∀ refusal, ¬ symbol.Refused s refusal

theorem welcome_function (s : Store) (id : FunctionId) (signature : Signature) :
    (Symbol.function id signature).Welcome s := nofun

theorem welcome_table (s : Store) (t : HostTable) : (Symbol.table t).Welcome s := nofun

theorem Refused.congr {s t : Store} (hid : t.id = s.id) (hcap : t.memoryCap = s.memoryCap)
    (hheap : t.heap = s.heap) {symbol : Symbol} {refusal : Refusal} (h : symbol.Refused s refusal) :
    symbol.Refused t refusal := by
  cases h with
  | exceedsCap capped larger => exact .exceedsCap (hcap.trans capped) larger
  | foreign isMutable other => exact .foreign isMutable (hid ▸ other)
  | unsupported isMutable heap encoded => exact .unsupported isMutable (hheap.trans heap) encoded

theorem admits_iff {s : Store} {m : HostMemory} :
    s.admits m.type = false ↔
      ∃ cap, s.memoryCap = some cap ∧ cap < m.minimum.toNat * pageBytes := by
  have hall : ∀ bytes : Nat, s.memoryCap.all (bytes ≤ ·) = false ↔
      ∃ cap, s.memoryCap = some cap ∧ cap < bytes := by
    intro bytes
    cases s.memoryCap with
    | none => simp
    | some cap =>
      simp only [Option.all_some, decide_eq_false_iff_not, Nat.not_le, Option.some.injEq,
        exists_eq_left']
  exact hall _

variable {s : Store}

theorem materialize_table {t : HostTable} (h : (Symbol.table t).Proper) :
    (Symbol.table t).materialize s =
      .ok (.table s.tables.size, (s.addTable (.nulls t.type)).2) := by
  obtain ⟨-, -, hnull, hlimits⟩ := h
  have horder : t.type.limits.inOrder = true := hlimits.inOrder
  simp only [materialize, Store.newTable, horder, hnull, t.nulls_type]
  rfl

theorem materialize_memory {m : HostMemory} (h : (Symbol.memory m).Proper) :
    (Symbol.memory m).materialize s =
      match s.addMemory m.type with
      | some r => .ok (.memory r.1, r.2)
      | none => .error .exceedsCap := by
  obtain ⟨hlimits, hpages⟩ := h
  have horder : m.type.limits.inOrder = true := hlimits.inOrder
  have hfew : ¬ maxPages < m.type.limits.max.getD m.type.limits.min := by
    have hmap : m.type.limits.max.getD m.type.limits.min = (m.maximum.getD m.minimum).toNat := by
      cases hm : m.maximum <;> simp [HostMemory.type, hm]
    rw [hmap]
    exact Nat.not_lt_of_le hpages
  simp only [materialize, Store.newMemory, horder, Bool.not_true, Bool.false_eq_true, if_false,
    if_neg hfew]
  cases s.addMemory m.type <;> rfl

theorem materialize_global (g : HostGlobal) :
    (Symbol.global g).materialize s =
      match g.value.encodeOne s.heap with
      | .error e => .error (.unsupported e)
      | .ok x =>
        if x.belongsTo s.id then .ok (.global s.globals.size, (s.addGlobal ⟨g.type, x⟩).2)
        else .error .foreign := by
  simp only [materialize, g.initial_eq]
  cases hx : g.value.encodeOne s.heap with
  | error e => rfl
  | ok x =>
    have hof : x.isOf g.type.content = true := isOf_of_encodeOne hx
    change (s.newGlobal g.type x >>= _) = _
    unfold Store.newGlobal
    by_cases hown : x.belongsTo s.id = true
    · simp only [hown, hof, Bool.not_true, Bool.false_eq_true, if_false, if_true]
      rfl
    · simp only [hown, Bool.not_false, if_true, Bool.false_eq_true, if_false]
      rfl

theorem materialize_memory_eq_error_iff {m : HostMemory} (h : (Symbol.memory m).Proper)
    {refusal : Refusal} :
    (Symbol.memory m).materialize s = .error refusal ↔ (Symbol.memory m).Refused s refusal := by
  rw [materialize_memory h, Store.addMemory]
  by_cases hadmits : s.admits m.type = true
  · rw [if_pos hadmits]
    constructor
    · rintro ⟨⟩
    · intro hrefused
      cases hrefused with
      | exceedsCap capped larger =>
        rw [admits_iff.mpr ⟨_, capped, larger⟩] at hadmits
        cases hadmits
  · rw [if_neg hadmits]
    obtain ⟨cap, capped, larger⟩ := admits_iff.mp (Bool.not_eq_true _ ▸ hadmits)
    constructor
    · rintro ⟨⟩
      exact .exceedsCap capped larger
    · rintro ⟨⟩
      rfl

/-- A function of another store is refused. -/
theorem materialize_funcRef_eq_error_iff (ref : FuncRef) (isMutable : Bool) {refusal : Refusal} :
    (Symbol.global ⟨.funcRef (some ref), isMutable⟩).materialize s = .error refusal ↔
      (Symbol.global ⟨.funcRef (some ref), isMutable⟩).Refused s refusal := by
  rw [materialize_global]
  by_cases hown : ref.store = s.id
  · have hbelongs : (Operand.func (some ref)).belongsTo s.id = true := beq_iff_eq.mpr hown
    simp only [Value.encodeOne, hbelongs, if_true]
    constructor
    · rintro ⟨⟩
    · intro hrefused
      cases hrefused with
      | foreign _ other => exact absurd hown other
  · have hbelongs : ¬ (Operand.func (some ref)).belongsTo s.id = true :=
      fun h => hown (beq_iff_eq.mp h)
    simp only [Value.encodeOne, if_neg hbelongs]
    constructor
    · rintro ⟨⟩
      exact .foreign isMutable hown
    · rintro ⟨⟩
      rfl

/-- An external reference is refused where there is no heap for it. -/
theorem materialize_externRef_eq_error_iff (ref : ExternRef) (isMutable : Bool)
    {refusal : Refusal} :
    (Symbol.global ⟨.externRef (some ref), isMutable⟩).materialize s = .error refusal ↔
      (Symbol.global ⟨.externRef (some ref), isMutable⟩).Refused s refusal := by
  rw [materialize_global]
  cases hheap : s.heap with
  | present =>
    constructor
    · rintro ⟨⟩
    · intro hrefused
      cases hrefused with
      | unsupported _ heap _ => cases hheap.symm.trans heap
  | absent =>
    constructor
    · rintro ⟨⟩
      exact .unsupported isMutable hheap rfl
    · intro hrefused
      cases hrefused with
      | unsupported _ _ encoded =>
        rw [encoded]

/-- **Making the item of a symbol is no misuse.**  It fails exactly if the store refuses it. -/
theorem materialize_eq_error_iff {symbol : Symbol} (h : symbol.Proper) {refusal : Refusal} :
    symbol.materialize s = .error refusal ↔ symbol.Refused s refusal := by
  cases symbol with
  | function id signature => refine iff_of_false ?_ ?_ <;> rintro ⟨⟩
  | table t =>
    rw [materialize_table h]
    refine iff_of_false ?_ ?_ <;> rintro ⟨⟩
  | memory m => exact materialize_memory_eq_error_iff h
  | global g =>
    obtain ⟨value, isMutable⟩ := g
    cases value with
    | funcRef r =>
      cases r with
      | none =>
        rw [materialize_global]
        refine iff_of_false ?_ ?_ <;> rintro ⟨⟩
      | some ref => exact materialize_funcRef_eq_error_iff ref isMutable
    | externRef r =>
      cases r with
      | none =>
        rw [materialize_global]
        refine iff_of_false ?_ ?_ <;> rintro ⟨⟩
      | some ref => exact materialize_externRef_eq_error_iff ref isMutable
    | _ =>
      rw [materialize_global]
      refine iff_of_false ?_ ?_ <;> rintro ⟨⟩

/-- The function that a symbol brings. -/
def function? : Symbol → Option Function
  | .function id signature => some (.host id signature)
  | _ => none

/-- The table that a symbol brings: null references, as many as the minimum. -/
def table? : Symbol → Option Table
  | .table t => some (.nulls t.type)
  | _ => none

/-- The memory that a symbol brings: zeros, as many pages as the minimum. -/
def memory? : Symbol → Option Memory
  | .memory m => some (.zeros m.minimum.toNat (m.maximum.map UInt32.toNat) false)
  | _ => none

/-- The global that a symbol brings: of the kind of its value, with the value in it. -/
def global? (heap : ExternHeap) : Symbol → Option Global
  | .global g =>
    match g.value.encodeOne heap with
    | .ok x => some ⟨⟨g.value.kind.toType, g.isMutable, false⟩, x⟩
    | .error _ => none
  | _ => none

/-- An item of a store is what a symbol brings. -/
inductive StandsFor (t : Store) (symbol : Symbol) : Item → Prop
  | function {a : Nat} {f : Function} (brought : symbol.function? = some f)
      (found : t.functions[a]? = some f) : StandsFor t symbol (.function a)
  | table {a : Nat} {row : Table} (brought : symbol.table? = some row)
      (found : t.tables[a]? = some row) : StandsFor t symbol (.table a)
  | memory {a : Nat} {row : Memory} (brought : symbol.memory? = some row)
      (found : t.memories[a]? = some row) : StandsFor t symbol (.memory a)
  | global {a : Nat} {row : Global} (brought : symbol.global? t.heap = some row)
      (found : t.globals[a]? = some row) : StandsFor t symbol (.global a)

end Symbol

end Host

open Host

/-- A store with what symbols bring, behind everything that it has. -/
def Engine.Store.gaining (s : Store) (symbols : List (String × Symbol)) : Store :=
  { s with
    functions := s.functions ++ (symbols.filterMap fun x => x.2.function?).toArray
    tables := s.tables ++ (symbols.filterMap fun x => x.2.table?).toArray
    memories := s.memories ++ (symbols.filterMap fun x => x.2.memory?).toArray
    globals := s.globals ++ (symbols.filterMap fun x => x.2.global? s.heap).toArray }

theorem Engine.Store.gaining_nil (s : Store) : s.gaining [] = s := by simp [gaining]

theorem Engine.Store.gaining_append (s : Store) (a b : List (String × Symbol)) :
    (s.gaining a).gaining b = s.gaining (a ++ b) := by simp [gaining]

namespace Host.Symbol

variable {s t : Store} {symbol : Symbol} {item : Item}

theorem StandsFor.gaining (h : symbol.StandsFor t item) (symbols : List (String × Symbol)) :
    symbol.StandsFor (t.gaining symbols) item := by
  have hkept : ∀ {α : Type} {a b : Array α} {i : Nat} {x : α}, a[i]? = some x →
      (a ++ b)[i]? = some x := by
    intro α a b i x h
    rw [Array.getElem?_append_left (Array.getElem?_eq_some_iff.mp h).1, h]
  cases h with
  | function brought found => exact .function brought (hkept found)
  | table brought found => exact .table brought (hkept found)
  | memory brought found => exact .memory brought (hkept found)
  | global brought found => exact .global brought (hkept found)

/-- Making an item adds what the symbol brings, and the item is that. -/
theorem Makes.gaining (h : symbol.Makes s item t) (name : String) :
    t = s.gaining [(name, symbol)] ∧ symbol.StandsFor t item := by
  cases h with
  | function id signature =>
    refine ⟨by simp [Store.gaining, Store.addFunction, function?, table?, memory?, global?], ?_⟩
    exact .function rfl Array.getElem?_push_size
  | table d =>
    refine ⟨by simp [Store.gaining, Store.addTable, function?, table?, memory?, global?], ?_⟩
    exact .table rfl Array.getElem?_push_size
  | memory added =>
    obtain ⟨-, heq⟩ := Store.addMemory_eq_some_iff.mp added
    cases heq
    refine ⟨by simp [Store.gaining, function?, table?, memory?, global?, HostMemory.type], ?_⟩
    exact .memory rfl Array.getElem?_push_size
  | @global g x value own =>
    have hbrought : (Symbol.global g).global? s.heap = some ⟨g.type, x⟩ := by
      rw [global?, value]
      rfl
    refine ⟨by simp [Store.gaining, Store.addGlobal, function?, table?, memory?, hbrought], ?_⟩
    exact .global hbrought Array.getElem?_push_size

theorem Makes.refused_iff (h : symbol.Makes s item t) (other : Symbol) (refusal : Refusal) :
    other.Refused t refusal ↔ other.Refused s refusal := by
  obtain ⟨rfl, -⟩ := h.gaining ""
  constructor
  · exact Refused.congr (s := s.gaining [("", symbol)]) (t := s) rfl rfl rfl
  · exact Refused.congr (s := s) (t := s.gaining [("", symbol)]) rfl rfl rfl

theorem Makes.welcome_iff (h : symbol.Makes s item t) (other : Symbol) :
    other.Welcome t ↔ other.Welcome s :=
  forall_congr' fun refusal => not_congr (h.refused_iff other refusal)

end Host.Symbol

/-! ## Objects in a store -/

namespace LinkedImports

variable {moduleName : String} {symbols : List (String × Symbol)} {s t : Store} {k k' : Linker}

/-- Names that are free stay free when another name is defined. -/
theorem free_of_define {name : String} {item : Item} (h : k.define moduleName name item = some k')
    {rest : List (String × Symbol)} (hname : name ∉ rest.map Prod.fst)
    (hfree : ∀ x ∈ rest, (moduleName, x.1) ∉ k.names) :
    ∀ x ∈ rest, (moduleName, x.1) ∉ k'.names := by
  intro x hx hmem
  rw [(Linker.continues_define h).names_eq, List.mem_append] at hmem
  rcases hmem with hmem | hmem
  · exact hfree x hx hmem
  · have hxname : x.1 = name := congrArg Prod.snd (List.mem_singleton.mp hmem)
    exact hname (List.mem_map.mpr ⟨x, hx, hxname⟩)

/-- **The first symbol that the store refuses is all that keeps symbols from being defined**, if
they are proper and have names that differ from each other and from those taken. -/
theorem defineFrom_eq_error_iff (hproper : ∀ x ∈ symbols, x.2.Proper)
    (hnodup : (symbols.map Prod.fst).Nodup) (hfree : ∀ x ∈ symbols, (moduleName, x.1) ∉ k.names)
    {e : LinkError} :
    defineFrom moduleName symbols (s, k) = .error e ↔
      ∃ bad, FirstNot (fun x => x.2.Welcome s) symbols bad ∧
        ∃ refusal, bad.2.Refused s refusal ∧
          e = .incompatible moduleName bad.1 refusal.message := by
  induction symbols generalizing s k with
  | nil =>
    constructor
    · rintro ⟨⟩
    · rintro ⟨_, h, -⟩
      exact absurd h not_firstNot_nil
  | cons x rest ih =>
    obtain ⟨name, symbol⟩ := x
    obtain ⟨hsymbol, hproper⟩ := List.forall_mem_cons.mp hproper
    obtain ⟨hname, hnodup⟩ := List.nodup_cons.mp hnodup
    obtain ⟨hnew, hfree⟩ := List.forall_mem_cons.mp hfree
    rw [defineFrom]
    cases hmade : symbol.materialize s with
    | error refusal =>
      have hrefused := (Symbol.materialize_eq_error_iff hsymbol).mp hmade
      have hbad : ¬ symbol.Welcome s := fun h => h refusal hrefused
      have hfirst : ∀ bad, FirstNot (fun x => x.2.Welcome s) ((name, symbol) :: rest) bad ↔
          bad = (name, symbol) := fun _ => firstNot_cons_of_not hbad
      simp only [hfirst, exists_eq_left]
      constructor
      · rintro ⟨⟩
        exact ⟨refusal, hrefused, rfl⟩
      · rintro ⟨refusal', hrefused', rfl⟩
        cases hmade.symm.trans ((Symbol.materialize_eq_error_iff hsymbol).mpr hrefused')
        rfl
    | ok r =>
      obtain ⟨item, u⟩ := r
      have hmakes := Symbol.makes_of_materialize hmade
      have hwelcome : symbol.Welcome s := by
        intro refusal hrefused
        cases hmade.symm.trans ((Symbol.materialize_eq_error_iff hsymbol).mpr hrefused)
      have hfirst : ∀ bad, FirstNot (fun x => x.2.Welcome s) ((name, symbol) :: rest) bad ↔
          FirstNot (fun x => x.2.Welcome s) rest bad := fun _ => firstNot_cons_of hwelcome
      have hdefined : k.define moduleName name item =
          some ⟨k.entries ++ [((moduleName, name), item)]⟩ :=
        Linker.define_eq_some_iff.mpr ⟨hnew, rfl⟩
      dsimp only
      rw [hdefined]
      dsimp only
      -- The rest meets a store with one item more, which refuses what this one refuses.
      rw [ih hproper hnodup (free_of_define hdefined hname hfree)]
      simp only [hmakes.refused_iff, hmakes.welcome_iff, hfirst]

/-- The items of symbols come behind the entries that there are, in their order, and the store
gains what the symbols bring. -/
theorem defineFrom_gaining : ∀ {symbols : List (String × Symbol)} {s t : Store} {k k' : Linker},
    defineFrom moduleName symbols (s, k) = .ok (t, k') →
    t = s.gaining symbols ∧ ∃ new, k'.entries = k.entries ++ new ∧
      List.Forall₂ (fun x e => e.1 = (moduleName, x.1) ∧ x.2.StandsFor t e.2) symbols new
  | [], s, _, k, _, h => by
    cases h
    exact ⟨s.gaining_nil.symm, [], (List.append_nil _).symm, .nil⟩
  | (name, symbol) :: rest, s, t, k, k', h => by
    rw [defineFrom] at h
    split at h
    · cases h
    · rename_i item u hmade
      split at h
      · cases h
      · rename_i l hdefined
        obtain ⟨hu, hitem⟩ := (Symbol.makes_of_materialize hmade).gaining name
        obtain ⟨ht, new, hentries, hnew⟩ := defineFrom_gaining h
        obtain ⟨-, rfl⟩ := Linker.define_eq_some_iff.mp hdefined
        refine ⟨?_, ((moduleName, name), item) :: new, ?_, .cons ⟨rfl, ?_⟩ hnew⟩
        · rw [ht, hu, Store.gaining_append]
          rfl
        · rw [hentries, List.append_assoc]
          rfl
        · rw [ht]
          exact hitem.gaining rest

/-- The names of the entries of symbols. -/
theorem names_of_forall₂ {P : String × Symbol → (String × String) × Item → Prop}
    {new : List ((String × String) × Item)}
    (h : List.Forall₂ (fun x e => e.1 = (moduleName, x.1) ∧ P x e) symbols new) :
    new.map Prod.fst = symbols.map fun x => (moduleName, x.1) := by
  induction h with
  | nil => rfl
  | cons hxe _ ih => rw [List.map_cons, List.map_cons, ih, hxe.1]

/-- What an object comes to when it has been defined: a linker has its symbols behind what it had,
each as an item that stands for it, and a store has what they bring behind what it had. -/
structure Gained (l : LinkedImports) (s t : Store) (k k' : Linker) : Prop where
  names : k'.names = k.names ++ l.symbols.map fun x => (l.moduleName, x.1)
  found : ∀ x ∈ l.symbols, ∃ item, k'.get? l.moduleName x.1 = some item ∧ x.2.StandsFor t item
  others : ∀ moduleName name, (moduleName, name) ∉ l.symbols.map (fun x => (l.moduleName, x.1)) →
    k'.get? moduleName name = k.get? moduleName name
  store : t = s.gaining l.symbols

theorem gained_of_defineFrom {l : LinkedImports} (hnodup : (l.symbols.map Prod.fst).Nodup)
    (hfree : ∀ x ∈ l.symbols, (l.moduleName, x.1) ∉ k.names)
    (h : defineFrom l.moduleName l.symbols (s, k) = .ok (t, k')) : l.Gained s t k k' := by
  obtain ⟨ht, new, hentries, hnew⟩ := defineFrom_gaining h
  have hnames := names_of_forall₂ hnew
  refine ⟨?_, fun x hx => ?_, fun m name hname => ?_, ht⟩
  · rw [Linker.names, hentries, List.map_append, hnames]
    rfl
  · have hkeys : (new.map Prod.fst).Nodup := by
      rw [hnames]
      exact List.pairwise_map.mpr ((List.pairwise_map.mp hnodup).imp fun hne heq =>
        hne (congrArg Prod.snd heq))
    obtain ⟨⟨key, item⟩, hmem, hkey, hitem⟩ := forall₂_mem_left hnew hx
    cases hkey
    refine ⟨item, ?_, hitem⟩
    rw [Linker.get?, hentries, List.lookup_append, Linker.lookup_eq_none_iff.mpr (hfree x hx),
      Option.none_or]
    exact lookup_of_mem hkeys hmem
  · rw [Linker.get?, Linker.get?, hentries, List.lookup_append]
    have hnone : new.lookup (m, name) = none := by
      rw [← not_ne_iff, Option.ne_none_iff_isSome, isSome_lookup, hnames]
      exact hname
    rw [hnone, Option.or_none]

/-- A fresh store and linker, or any in which the names are free, take in an object unless the
store refuses one of its symbols. -/
theorem define_of_fit {o : ImportObject} (h : o.Fit) {l : LinkedImports}
    (hl : o.snapshot = .ok l) (hfree : ∀ name, (l.moduleName, name) ∉ k.names) :
    (∀ e, l.define s k = .error e ↔ ∃ bad refusal, FirstNot (fun x => x.2.Welcome s) l.symbols bad ∧
      bad.2.Refused s refusal ∧ e = .link (.incompatible l.moduleName bad.1 refusal.message)) ∧
    ∀ t k', l.define s k = .ok (t, k') → l.Gained s t k k' := by
  cases h.snapshot_eq.symm.trans hl
  have hnone : (LinkedImports.mk o.moduleName o.symbolList none).environment = none := rfl
  have herror := fun e => defineFrom_eq_error_iff (s := s) (e := e) h.symbols h.names
    fun x _ => hfree x.1
  refine ⟨fun e => ?_, fun t k' hok => ?_⟩
  · rw [define_of_none hnone]
    constructor
    · intro herr
      cases hfrom : defineFrom o.moduleName o.symbolList (s, k) with
      | ok r =>
        rw [hfrom] at herr
        cases herr
      | error e' =>
        rw [hfrom] at herr
        cases herr
        obtain ⟨bad, hbad, refusal, hrefused, rfl⟩ := (herror e').mp hfrom
        exact ⟨bad, refusal, hbad, hrefused, rfl⟩
    · rintro ⟨bad, refusal, hbad, hrefused, rfl⟩
      rw [(herror _).mpr ⟨bad, hbad, refusal, hrefused, rfl⟩]
      rfl
  · exact gained_of_defineFrom h.names (fun x _ => hfree x.1) ((define_eq_ok_of_none hnone).mp hok)

end LinkedImports

/-! ## Definitions are made -/

namespace Host.ImportObject

/-- **What has been defined can be made.**  An object that has been put together from definitions
keeps every rule of the engine in every store.  Where its module name is free, it is defined exactly
if the store refuses none of its symbols, and the error is that of the first one; the linker and the
store then gain what the object has, and what they had stays. -/
theorem definitions_made {o : ImportObject} (built : o.Built) :
    ∃ l, o.snapshot = .ok l ∧ l.moduleName = o.moduleName ∧ l.symbols = o.symbolList ∧
      (∀ x ∈ l.symbols, x.2.Proper ∧ ∀ s rule, x.2.materialize s ≠ .error (.misuse rule)) ∧
      ∀ (s : Store) (k : Linker), (∀ name, (l.moduleName, name) ∉ k.names) →
        (∀ e, l.define s k = .error e ↔
          ∃ bad refusal, FirstNot (fun x => x.2.Welcome s) l.symbols bad ∧
            bad.2.Refused s refusal ∧
              e = .link (.incompatible l.moduleName bad.1 refusal.message)) ∧
        ((∃ r, l.define s k = .ok r) ↔ ∀ x ∈ l.symbols, x.2.Welcome s) ∧
        ∀ t k', l.define s k = .ok (t, k') → l.Gained s t k k' := by
  have hfit := built.fit
  refine ⟨_, hfit.snapshot_eq, rfl, rfl, fun x hx => ⟨hfit.symbols x hx, ?_⟩, fun s k hfree => ?_⟩
  · intro s rule hmisuse
    exact ((Symbol.materialize_eq_error_iff (hfit.symbols x hx)).mp hmisuse).not_misuse rfl
  · obtain ⟨herror, hgained⟩ := LinkedImports.define_of_fit (s := s) hfit hfit.snapshot_eq hfree
    refine ⟨herror, ⟨?_, ?_⟩, hgained⟩
    · rintro ⟨r, hr⟩
      rcases forall_mem_or_firstNot (fun x : String × Symbol => x.2.Welcome s) o.symbolList
        with hall | ⟨bad, hbad⟩
      · exact hall
      · obtain ⟨refusal, hrefused⟩ : ∃ refusal, bad.2.Refused s refusal :=
          not_forall_not.mp hbad.not_self
        cases hr.symm.trans ((herror _).mpr ⟨bad, refusal, hbad, hrefused, rfl⟩)
    · intro hall
      cases hdefined : LinkedImports.define ⟨o.moduleName, o.symbolList, none⟩ s k with
      | ok r => exact ⟨r, rfl⟩
      | error e =>
        obtain ⟨bad, -, hbad, -, -⟩ := (herror e).mp hdefined
        exact absurd (hall bad hbad.mem) hbad.not_self

/-- An object with a symbol of every kind. -/
def sampler : ImportObject where
  moduleName := "env"
  symbols := some [("f", .function ⟨1⟩ ⟨[.i32], []⟩), ("t", .table ⟨.externRef, 1, some 2⟩),
    ("m", .memory ⟨1, none⟩), ("g", .global ⟨.funcRef none, true⟩)]
  context := none
  environment := none

theorem built_sampler : sampler.Built := by
  have hnew : ImportObject.new "env" none = .ok ⟨"env", some [], none, none⟩ := rfl
  have hf := (Built.new hnew).function (r := {}) (f := ⟨⟨[.i32], []⟩, fun _ => .finish (.ok [])⟩)
    (show ImportObject.addFunction _ _ "f" _ = .ok (_, _) from rfl)
  have ht := hf.table (show HostTable.define .externRef 1 (some 2) = .ok _ from rfl)
    (show ImportObject.add _ "t" _ = .ok _ from rfl)
  have hm := ht.memory (show HostMemory.define 1 none = .ok _ from rfl)
    (show ImportObject.add _ "m" _ = .ok _ from rfl)
  exact hm.global (show ImportObject.add _ "g" (.global ⟨.funcRef none, true⟩) = .ok _ from rfl)

/-- The sampler in a new store, and in one that has no room for its memory. -/
theorem definitions_made_sampler :
    (∃ l t k', sampler.snapshot = .ok l ∧
      l.define { id := ⟨0⟩, memoryCap := none, heap := .present } {} = .ok (t, k') ∧
      l.Gained { id := ⟨0⟩, memoryCap := none, heap := .present } t {} k') ∧
    ∃ l, sampler.snapshot = .ok l ∧
      l.define { id := ⟨0⟩, memoryCap := some 0, heap := .present } {} =
        .error (.link (.incompatible "env" "m" Refusal.exceedsCap.message)) := by
  obtain ⟨l, hsnapshot, hname, hsymbols, -, hdefine⟩ := definitions_made built_sampler
  refine ⟨?_, l, hsnapshot, ?_⟩
  · obtain ⟨-, hok, hgained⟩ :=
      hdefine { id := ⟨0⟩, memoryCap := none, heap := .present } {} fun _ => List.not_mem_nil
    have hwelcome : ∀ x ∈ l.symbols,
        x.2.Welcome { id := ⟨0⟩, memoryCap := none, heap := .present } := by
      rw [hsymbols]
      rintro ⟨name, symbol⟩ hx refusal hrefused
      cases hrefused with
      | exceedsCap capped _ => cases capped
      | foreign _ _ => simp [sampler, symbolList] at hx
      | unsupported _ heap _ => cases heap
    obtain ⟨⟨t, k'⟩, hr⟩ := hok.mpr hwelcome
    exact ⟨l, t, k', hsnapshot, hr, hgained t k' hr⟩
  · obtain ⟨herror, -⟩ :=
      hdefine { id := ⟨0⟩, memoryCap := some 0, heap := .present } {} fun _ => List.not_mem_nil
    refine (herror _).mpr ⟨("m", .memory ⟨1, none⟩), .exceedsCap, ?_, ?_, ?_⟩
    · refine ⟨[("f", .function ⟨1⟩ ⟨[.i32], []⟩), ("t", .table ⟨.externRef, 1, some 2⟩)], _,
        hsymbols, ?_, fun hwelcome => hwelcome _ (.exceedsCap rfl (by decide))⟩
      exact List.forall_mem_cons.mpr ⟨Symbol.welcome_function _ _ _,
        List.forall_mem_singleton.mpr (Symbol.welcome_table _ _)⟩
    · exact .exceedsCap rfl (by decide)
    · rw [hname]
      rfl

end Host.ImportObject

end WasmEmbedding
