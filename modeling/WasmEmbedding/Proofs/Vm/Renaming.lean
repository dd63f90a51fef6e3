import WasmEmbedding.Proofs.Engine.Renaming
import WasmEmbedding.Proofs.Vm.Work

/-! # Machines under other numbers

A machine has the numbers of host functions in its store and in its link environment, and the places
of environments in the import objects that it has linked.  `Vm.rename` is the same machine under
other numbers: what its owner sees of it, and what it finds under a name, is the same.  What an
object defines under other numbers is what it defines, under other numbers (`define_rename`).

What is known of a machine stays under its numbers when more numbers become known
(`Vm.Known.rename_of_grows`).
-/
namespace WasmEmbedding

open Engine Host Wasm

variable {σ τ : Renaming}

/-! ## Stores -/

/-- The number of a host function. -/
def Engine.Function.id? : Function → Option FunctionId
  | .host id _ => some id
  | _ => none

namespace Engine.Store

/-- The numbers of the host functions in a store. -/
def hostIds (s : Store) : List FunctionId := s.functions.toList.filterMap Function.id?

variable {s : Store}

theorem hostIds_rename (names : FunctionId → FunctionId) :
    (s.rename names).hostIds = s.hostIds.map names := by
  unfold hostIds rename
  rw [Array.toList_map, List.filterMap_map, List.map_filterMap]
  refine List.filterMap_congr fun f _ => ?_
  cases f <;> rfl

theorem Known.hostIds (h : s.Known σ) {id : FunctionId} (hid : id ∈ s.hostIds) :
    σ.functions.known id.val := by
  obtain ⟨f, hf, hfid⟩ := List.mem_filterMap.mp hid
  obtain ⟨a, ha⟩ := Array.mem_iff_getElem?.mp (Array.mem_toList_iff.mp hf)
  cases f with
  | host id' signature =>
    cases hfid
    exact h a id signature ha
  | guest | system => cases hfid

theorem Known.mono (h : s.Known σ) (hgrows : σ.Grows τ) : s.Known τ :=
  fun a id signature ha => (hgrows.functions _ (h a id signature ha)).1

/-- A store whose numbers stay the same stays the same. -/
theorem Known.rename_of_grows (h : s.Known σ) (hgrows : σ.Grows τ) :
    s.rename τ.id = s.rename σ.id := by
  have hfunctions : s.functions.map (·.rename τ.id) = s.functions.map (·.rename σ.id) := by
    refine Array.map_congr_left fun f hf => ?_
    obtain ⟨a, ha⟩ := Array.mem_iff_getElem?.mp hf
    cases f with
    | host id signature =>
      exact congrArg (Function.host · signature) (hgrows.id (h a id signature ha))
    | guest | system => rfl
  unfold rename
  rw [hfunctions]

theorem Known.push (h : s.Known σ) {f : Function}
    (hf : ∀ id signature, f = .host id signature → σ.functions.known id.val) :
    (s.addFunction f).2.Known σ := by
  intro a id signature ha
  change (s.functions.push f)[a]? = _ at ha
  rw [Array.getElem?_push] at ha
  split at ha
  · exact hf id signature (Option.some.inj ha)
  · exact h a id signature ha

theorem addFunction_rename (names : FunctionId → FunctionId) (f : Function) :
    (s.rename names).addFunction (f.rename names) =
      ((s.addFunction f).1, (s.addFunction f).2.rename names) := by
  unfold addFunction rename
  rw [Array.size_map, Array.map_push]

end Engine.Store

/-! ## Defining under other numbers -/

/-- The item of a symbol under another number. -/
theorem Host.Symbol.materialize_rename (symbol : Symbol) (s : Store) :
    (symbol.rename σ).materialize (s.rename σ.id) =
      (symbol.materialize s).map fun r => (r.1, r.2.rename σ.id) := by
  have hunseen : Store.Unseen (·.rename σ.id) :=
    ⟨fun _ => rfl, fun _ => rfl, fun _ => rfl, fun _ _ => rfl, fun _ _ => rfl, fun _ _ => rfl⟩
  cases symbol with
  | function id signature =>
    have hadd := s.addFunction_rename σ.id (.host id signature)
    have hrename : (Symbol.function id signature).rename σ = .function (σ.id id) signature := rfl
    rw [hrename]
    unfold materialize
    change (let r := (s.rename σ.id).addFunction (.host (σ.id id) signature)
      Except.ok (Item.function r.1, r.2)) = _
    rw [show (s.rename σ.id).addFunction (.host (σ.id id) signature) = _ from hadd]
    rfl
  | table t => exact materialize_of_unseen hunseen (.table t) (fun _ _ => nofun) s
  | memory m => exact materialize_of_unseen hunseen (.memory m) (fun _ _ => nofun) s
  | global g => exact materialize_of_unseen hunseen (.global g) (fun _ _ => nofun) s

/-- The number of a symbol comes into the store. -/
theorem Host.Symbol.known_materialize {symbol : Symbol} {s t : Store} {item : Item}
    (hs : s.Known σ) (hsymbol : ∀ id, symbol.id? = some id → σ.functions.known id.val)
    (h : symbol.materialize s = .ok (item, t)) : t.Known σ := by
  cases makes_of_materialize h with
  | function id signature =>
    refine hs.push fun other _ heq => ?_
    cases heq
    exact hsymbol id rfl
  | table t => exact hs
  | memory hadded =>
    obtain ⟨-, heq⟩ := Store.addMemory_eq_some_iff.mp hadded
    cases heq
    exact hs
  | global _ _ => exact hs

namespace LinkedImports

/-- What a machine has kept of an import object, under other numbers. -/
def rename (l : LinkedImports) (σ : Renaming) : LinkedImports where
  moduleName := l.moduleName
  symbols := renameSymbols l.symbols σ
  environment := l.environment.map σ.environment

/-- The numbers that a machine has kept are known. -/
structure Known (l : LinkedImports) (σ : Renaming) : Prop where
  functions : ∀ id ∈ idsOf l.symbols, σ.functions.known id.val
  environment : ∀ key, l.environment = some key → σ.environments.known key.val

variable {l : LinkedImports}

theorem Known.mono (h : l.Known σ) (hgrows : σ.Grows τ) : l.Known τ where
  functions id hid := (hgrows.functions _ (h.functions id hid)).1
  environment key hkey := (hgrows.environments _ (h.environment key hkey)).1

theorem Known.rename_of_grows (h : l.Known σ) (hgrows : σ.Grows τ) : l.rename τ = l.rename σ := by
  have henvironment : l.environment.map τ.environment = l.environment.map σ.environment :=
    Option.map_congr fun key hkey => hgrows.environment (h.environment key hkey)
  unfold rename
  rw [renameSymbols_of_grows hgrows h.functions, henvironment]

theorem defineFrom_rename (moduleName : String) :
    ∀ (symbols : List (String × Symbol)) (s : Store) (k : Linker),
      defineFrom moduleName (renameSymbols symbols σ) (s.rename σ.id, k) =
        (defineFrom moduleName symbols (s, k)).map fun r => (r.1.rename σ.id, r.2)
  | [], _, _ => rfl
  | (name, symbol) :: rest, s, k => by
    have hcons : renameSymbols ((name, symbol) :: rest) σ =
        (name, symbol.rename σ) :: renameSymbols rest σ := rfl
    rw [hcons, defineFrom, defineFrom, symbol.materialize_rename s]
    cases symbol.materialize s with
    | error reason => rfl
    | ok r =>
      obtain ⟨item, s'⟩ := r
      dsimp only [Except.map]
      cases k.define moduleName name item with
      | none => rfl
      | some linker => exact defineFrom_rename moduleName rest s' linker

theorem systemItems_rename : ∀ (calls : List Wasi.Syscall) (s : Store),
    systemItems calls (s.rename σ.id) =
      ((systemItems calls s).1, (systemItems calls s).2.rename σ.id)
  | [], _ => rfl
  | call :: rest, s => by
    have hadd := s.addFunction_rename σ.id (.system call)
    have h := systemItems_rename rest (s.addFunction (.system call)).2
    rw [systemItems, systemItems]
    change (let r := (s.rename σ.id).addFunction ((Function.system call).rename σ.id)
      let q := systemItems rest r.2
      ((call.name, Item.function r.1) :: q.1, q.2)) = _
    rw [hadd]
    dsimp only
    rw [h]

/-- **Defining an import object under other numbers comes to the same under other numbers.** -/
theorem define_rename (l : LinkedImports) (s : Store) (k : Linker) :
    (l.rename σ).define (s.rename σ.id) k =
      (l.define s k).map fun r => (r.1.rename σ.id, r.2) := by
  cases he : l.environment with
  | some key =>
    have hrename : (l.rename σ).environment = some (σ.environment key) :=
      congrArg (Option.map σ.environment) he
    rw [define_of_environment he, define_of_environment hrename, systemItems_rename]
    dsimp only
    cases k.defineAll Wasi.moduleName (systemItems Wasi.Syscall.all s).1 <;> rfl
  | none =>
    have hrename : (l.rename σ).environment = none := congrArg (Option.map σ.environment) he
    have hdefine : (l.rename σ).define (s.rename σ.id) k = Except.mapError RuntimeError.link
        (defineFrom l.moduleName (renameSymbols l.symbols σ) (s.rename σ.id, k)) :=
      define_of_none hrename _ _
    rw [define_of_none he, hdefine, defineFrom_rename]
    cases defineFrom l.moduleName l.symbols (s, k) <;> rfl

theorem known_defineFrom {moduleName : String} :
    ∀ {symbols : List (String × Symbol)} {s t : Store} {k k' : Linker}, s.Known σ →
      (∀ id ∈ idsOf symbols, σ.functions.known id.val) →
      defineFrom moduleName symbols (s, k) = .ok (t, k') → t.Known σ
  | [], _, _, _, _, hs, _, h => by
    cases h
    exact hs
  | (name, symbol) :: rest, s, t, k, k', hs, hids, h => by
    rw [defineFrom] at h
    split at h
    · cases h
    · rename_i item u hu
      split at h
      · cases h
      · refine known_defineFrom (symbol.known_materialize hs (fun id hid => hids id ?_) hu)
          (fun id hid => hids id ?_) h
        · exact List.mem_filterMap.mpr ⟨_, List.mem_cons_self, by cases symbol <;> exact hid⟩
        · obtain ⟨e, he, heq⟩ := List.mem_filterMap.mp hid
          exact List.mem_filterMap.mpr ⟨e, List.mem_cons_of_mem _ he, heq⟩

theorem known_systemItems : ∀ (calls : List Wasi.Syscall) {s : Store}, s.Known σ →
    (systemItems calls s).2.Known σ
  | [], _, hs => hs
  | _ :: rest, _, hs => known_systemItems rest (hs.push nofun)

/-- What is defined brings no numbers but those of the symbols. -/
theorem Known.define (hl : l.Known σ) {s t : Store} {k k' : Linker} (hs : s.Known σ)
    (h : l.define s k = .ok (t, k')) : t.Known σ := by
  cases he : l.environment with
  | some key =>
    rw [define_of_environment he] at h
    split at h
    · cases h
      exact known_systemItems _ hs
    · cases h
  | none => exact known_defineFrom hs hl.functions ((define_eq_ok_of_none he).mp h)

end LinkedImports

/-- What a machine keeps of an object under other numbers. -/
theorem Host.ImportObject.snapshot_rename (o : ImportObject) :
    (o.rename σ).snapshot = o.snapshot.map (LinkedImports.rename · σ) := by
  unfold snapshot rename
  cases o.symbols <;> rfl

theorem Host.ImportObject.Known.snapshot {o : ImportObject} (ho : o.Known σ) {l : LinkedImports}
    (h : o.snapshot = .ok l) : l.Known σ := by
  unfold ImportObject.snapshot at h
  split at h
  · rename_i symbols hsymbols
    cases h
    refine ⟨fun id hid => ho.functions id ?_, ho.environment⟩
    rw [functionIds, symbolList, hsymbols]
    exact hid
  · cases h

/-! ## Machines -/

namespace Registered

/-- The same entry under other numbers. -/
def rename (σ : Renaming) : Registered → Registered
  | .module m => .module m
  | .imports linked functions => .imports (linked.rename σ) functions

/-- The numbers of an entry are known. -/
def Known (σ : Renaming) : Registered → Prop
  | .module _ => True
  | .imports linked _ => linked.Known σ

theorem Known.mono {e : Registered} (h : e.Known σ) (hgrows : σ.Grows τ) : e.Known τ := by
  cases e with
  | module m => trivial
  | imports linked functions => exact LinkedImports.Known.mono h hgrows

theorem Known.rename_of_grows {e : Registered} (h : e.Known σ) (hgrows : σ.Grows τ) :
    e.rename τ = e.rename σ := by
  cases e with
  | module m => rfl
  | imports linked functions =>
    exact congrArg (imports · functions) (LinkedImports.Known.rename_of_grows h hgrows)

end Registered

namespace Vm

/-- The same machine under other numbers. -/
def rename (vm : Vm) (σ : Renaming) : Vm :=
  { vm with
    store := vm.store.rename σ.id
    registered := vm.registered.map fun e => (e.1, e.2.rename σ)
    wasi := vm.wasi.map (ImportObject.rename · σ)
    environment := vm.environment.map σ.environment }

/-- The numbers of a machine are known. -/
structure Known (vm : Vm) (σ : Renaming) : Prop where
  store : vm.store.Known σ
  registered : ∀ e ∈ vm.registered, e.2.Known σ
  wasi : ∀ o, vm.wasi = some o → o.Known σ
  environment : ∀ key, vm.environment = some key → σ.environments.known key.val

section Views

variable (vm : Vm) (σ : Renaming)

@[simp] theorem stage_rename : (vm.rename σ).stage = vm.stage := rfl

@[simp] theorem logs_rename : (vm.rename σ).logs = vm.logs := rfl

@[simp] theorem exitCode_rename : (vm.rename σ).exitCode = vm.exitCode := rfl

@[simp] theorem statistics_rename : (vm.rename σ).statistics = vm.statistics := rfl

@[simp] theorem functionList_rename : (vm.rename σ).functionList = vm.functionList := rfl

theorem registered?_rename (name : String) :
    (vm.rename σ).registered? name = (vm.registered? name).map (·.rename σ) := by
  have hmap : ∀ l : List (String × Registered),
      (l.map fun e => (e.1, e.2.rename σ)).lookup name = (l.lookup name).map (·.rename σ) := by
    intro l
    induction l with
    | nil => rfl
    | cons e l ih =>
      rw [List.map_cons, List.lookup_cons, List.lookup_cons]
      cases name == e.1 with
      | true => rfl
      | false => exact ih
  exact hmap vm.registered

@[simp] theorem moduleNames_rename : (vm.rename σ).moduleNames = vm.moduleNames := by
  unfold moduleNames rename
  rw [List.map_map]
  rfl

@[simp] theorem describe_rename : (vm.rename σ).describe = vm.describe := by
  unfold describe
  rw [moduleNames_rename]
  unfold rename
  rw [Option.isSome_map]

@[simp] theorem linkedFunctions_rename (moduleName : String) :
    (vm.rename σ).linkedFunctions moduleName = vm.linkedFunctions moduleName := by
  unfold linkedFunctions rename
  simp

end Views

variable {vm : Vm}

theorem Known.mono (h : vm.Known σ) (hgrows : σ.Grows τ) : vm.Known τ where
  store := h.store.mono hgrows
  registered e he := (h.registered e he).mono hgrows
  wasi o ho := (h.wasi o ho).mono hgrows
  environment key hkey := (hgrows.environments _ (h.environment key hkey)).1

/-- A machine whose numbers stay the same stays the same. -/
theorem Known.rename_of_grows (h : vm.Known σ) (hgrows : σ.Grows τ) :
    vm.rename τ = vm.rename σ := by
  have hregistered : vm.registered.map (fun e => (e.1, e.2.rename τ)) =
      vm.registered.map fun e => (e.1, e.2.rename σ) :=
    List.map_congr_left fun e he =>
      congrArg (Prod.mk e.1) ((h.registered e he).rename_of_grows hgrows)
  have hwasi : vm.wasi.map (ImportObject.rename · τ) = vm.wasi.map (ImportObject.rename · σ) :=
    Option.map_congr fun o ho => (h.wasi o ho).rename_of_grows hgrows
  have henvironment : vm.environment.map τ.environment = vm.environment.map σ.environment :=
    Option.map_congr fun key hkey => hgrows.environment (h.environment key hkey)
  unfold rename
  rw [h.store.rename_of_grows hgrows, hregistered, hwasi, henvironment]

theorem Known.registered? (h : vm.Known σ) {name : String} {entry : Registered}
    (hentry : vm.registered? name = some entry) : entry.Known σ :=
  h.registered (name, entry) (mem_of_lookup hentry)

/-- The numbers of an empty store are known. -/
theorem known_fresh (config : VmConfig) (id : StoreId) : (Store.fresh config id).Known σ :=
  fun _ _ _ ha => nomatch ha

theorem known_empty (config : VmConfig) (id : StoreId) : (Vm.empty config id).Known σ where
  store := known_fresh config id
  registered := nofun
  wasi := nofun
  environment := nofun

theorem fresh_rename (config : VmConfig) (id : StoreId) (names : FunctionId → FunctionId) :
    (Store.fresh config id).rename names = .fresh config id := by
  unfold Store.rename
  rw [show (Store.fresh config id).functions.map (·.rename names) = #[] from Array.map_empty]
  rfl

theorem empty_rename (config : VmConfig) (id : StoreId) :
    (Vm.empty config id).rename σ = Vm.empty config id :=
  congrArg (fun store => { Vm.empty config id with store }) (fresh_rename config id σ.id)

end Vm

end WasmEmbedding
