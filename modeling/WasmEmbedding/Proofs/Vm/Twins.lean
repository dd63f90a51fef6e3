import WasmEmbedding.Proofs.Vm.Work

/-! # Machines that differ in their sessions

Two settings are `Twin`s if the engine sees no difference between them but the session of the
system interface.  What linking and calling come to is then the same, as long as runs do not
depend on the session (`Permits`), and the settings stay twins.  Main module and link environment of
twins may differ: what work on a store does not look at is left out of account.
-/
namespace WasmEmbedding

open Engine Wasm

variable {C : Scene → Prop} {S : Wasi.Session → Wasi.Session → Prop}

/-- The same store with another context. -/
def Engine.Store.under (s : Store) (c : Context) : Store := { s with context := c }

/-! ## Defining under another context -/

theorem Host.Symbol.materialize_under (symbol : Host.Symbol) (s : Store) (c : Context) :
    symbol.materialize (s.under c) = (symbol.materialize s).map fun r => (r.1, r.2.under c) := by
  have hunseen : Store.Unseen (·.under c) :=
    ⟨fun _ => rfl, fun _ => rfl, fun _ => rfl, fun _ _ => rfl, fun _ _ => rfl, fun _ _ => rfl⟩
  cases symbol with
  | function id signature => rfl
  | table t => exact materialize_of_unseen hunseen (.table t) (fun _ _ => nofun) s
  | memory m => exact materialize_of_unseen hunseen (.memory m) (fun _ _ => nofun) s
  | global g => exact materialize_of_unseen hunseen (.global g) (fun _ _ => nofun) s

namespace LinkedImports

theorem defineFrom_under (moduleName : String) (c : Context) :
    ∀ (symbols : List (String × Host.Symbol)) (s : Store) (k : Linker),
      defineFrom moduleName symbols (s.under c, k) =
        (defineFrom moduleName symbols (s, k)).map fun r => (r.1.under c, r.2)
  | [], _, _ => rfl
  | (name, symbol) :: rest, s, k => by
    rw [defineFrom, defineFrom, symbol.materialize_under s c]
    cases symbol.materialize s with
    | error reason => rfl
    | ok r =>
      obtain ⟨item, s'⟩ := r
      dsimp only [Except.map]
      cases k.define moduleName name item with
      | none => rfl
      | some linker => exact defineFrom_under moduleName c rest s' linker

theorem systemItems_under (c : Context) : ∀ (calls : List Wasi.Syscall) (s : Store),
    systemItems calls (s.under c) =
      ((systemItems calls s).1, (systemItems calls s).2.under c)
  | [], _ => rfl
  | call :: rest, s => by
    have h := systemItems_under c rest (s.addFunction (.system call)).2
    rw [systemItems, systemItems]
    change (let r := systemItems rest ((s.addFunction (.system call)).2.under c)
      ((call.name, Item.function s.functions.size) :: r.1, r.2)) = _
    rw [h]
    rfl

/-- Defining an import object does not look at the context, and leaves it as it is. -/
theorem define_under (l : LinkedImports) (s : Store) (k : Linker) (c : Context) :
    l.define (s.under c) k = (l.define s k).map fun r => (r.1.under c, r.2) := by
  cases he : l.environment with
  | some key =>
    rw [define_of_environment he, define_of_environment he, systemItems_under]
    dsimp only
    cases k.defineAll Wasi.moduleName (systemItems Wasi.Syscall.all s).1 <;> rfl
  | none =>
    rw [define_of_none he, define_of_none he, defineFrom_under]
    cases defineFrom l.moduleName l.symbols (s, k) <;> rfl

theorem context_define {l : LinkedImports} {s t : Store} {k k' : Linker}
    (h : l.define s k = .ok (t, k')) : t.context = s.context := by
  have hsame : l.define (s.under s.context) k = l.define s k := rfl
  rw [define_under, h] at hsame
  injection hsame with hsame
  have ht : t.under s.context = t := congrArg Prod.fst hsame
  rw [← ht]
  rfl

end LinkedImports

namespace Vm

/-- The scene in which guests run on a setting. -/
def Setting.scene (s : Setting) : Scene :=
  ⟨s.vm.store.code, s.host.grounds, s.vm.store.context.exitCode⟩

/-- The session of a setting. -/
def Setting.session (s : Setting) : Wasi.Session := s.vm.store.context.session

/-- The setting after the definitions that left `store` and `linker` on a twin. -/
def Setting.defining (s : Setting) (store : Store) (linker : Linker) : Setting :=
  { s with vm := { s.vm with
    store := store.under { store.context with session := s.session }, linker } }

/-- Two settings between which the engine sees no difference but the session. -/
structure Twin (C : Scene → Prop) (S : Wasi.Session → Wasi.Session → Prop) (s t : Setting) :
    Prop where
  config : t.vm.config = s.vm.config
  statistics : t.vm.statistics = s.vm.statistics
  linker : t.vm.linker = s.vm.linker
  host : t.host = s.host
  store : t.vm.store = s.vm.store.under { s.vm.store.context with session := t.session }
  scene : C s.scene
  sessions : S s.session t.session

theorem Twin.mono {D : Scene → Prop} {T : Wasi.Session → Wasi.Session → Prop} {s t : Setting}
    (h : Twin C S s t) (hC : C s.scene → D s.scene)
    (hS : S s.session t.session → T s.session t.session) : Twin D T s t :=
  { h with scene := hC h.scene, sessions := hS h.sessions }

namespace Action

variable {α β : Type} {s t : Setting}

theorem alike_of_twin (h : Twin C S s t) : Alike C S (computer s) (computer t) := by
  have ht : computer t = (computer s).withSession t.session := by
    unfold computer
    rw [h.config, h.statistics, h.host, h.store]
    rfl
  rw [ht]
  exact .intro h.scene h.sessions

/-- Looking at the machine. -/
theorem respects_vm {f : Vm → Action β}
    (hf : ∀ s t, Twin C S s t → Respects (Twin C S) (f s.vm) (f t.vm)) :
    Respects (Twin C S) (vm >>= f) (vm >>= f) :=
  fun s t h => hf s t h s t h

theorem respects_ofExcept {ε : Type} (f : ε → RuntimeError) (r : Except ε α) :
    Respects (Twin C S) (ofExcept f r) (ofExcept f r) := by
  cases r with
  | ok a => exact Respects.pure a
  | error e => exact Respects.throw (f e)

/-- Changing the counts. -/
theorem respects_count (f : Statistics → Statistics) :
    Respects (Twin C S) (modifyVm fun vm => { vm with statistics := f vm.statistics })
      (modifyVm fun vm => { vm with statistics := f vm.statistics }) := by
  refine Respects.modify fun s t h => ?_
  exact { h with statistics := congrArg f h.statistics }

/-- **A steady computation comes to the same on twins, and leaves twins.** -/
theorem respects_compute {x : Exec α} (hx : Steady C S x) :
    Respects (Twin C S) (compute x) (compute x) := by
  intro s t h
  obtain ⟨houtcome, hending⟩ := hx.outcome_ending (alike_of_twin h)
  rw [run_compute, run_compute, houtcome]
  generalize ending x (computer s) = m, ending x (computer t) = n at hending ⊢
  cases hending with
  | intro hscene hsession =>
    refine .ok _ ⟨h.config, h.statistics, h.linker, rfl, rfl, hscene, hsession⟩

theorem steady_build {k : Nat} (hC : Growing k C) (hp : Permits C S) (bulkMemory : Bool)
    (linker : Linker) (m : Module) : Steady C S (build bulkMemory linker m) := by
  refine .get (fun n _ => ?_) fun _ _ => rfl
  split
  · exact Exec.steady_instantiate hC hp _ _ _
  · exact Respects.throw _

theorem respects_instance? {k : Nat} (hC : Growing k C) (hp : Permits C S) (m : Module) :
    Respects (Twin C S) (instance? m) (instance? m) := by
  refine respects_vm fun s t h => ?_
  rw [h.config, h.linker]
  refine (respects_compute (steady_build hC hp _ _ _)).bind fun r => ?_
  exact (respects_count fun c => c.recordInstantiation r.2).bind fun _ => respects_ofExcept _ _

/-! ## Linking -/

theorem respects_place {k : Nat} (hC : Growing k C) (hp : Permits C S) (name : String)
    (m : Module) :
    Respects (Twin C S) (place name m) (place name m) := by
  refine (respects_instance? hC hp m).bind fun index => respects_vm fun s t h => ?_
  have hinstances : t.vm.store.instances = s.vm.store.instances := by
    rw [h.store]
    rfl
  rw [h.linker, hinstances]
  split
  · refine Respects.modify fun s t h => ?_
    exact { h with linker := rfl }
  · exact Respects.throw _

/-- Twins define the same. -/
theorem define_of_twin {linked : LinkedImports} {store : Store} {linker : Linker}
    (h : Twin C S s t) (hd : linked.define s.vm.store s.vm.linker = .ok (store, linker)) :
    linked.define t.vm.store t.vm.linker =
      .ok (store.under { store.context with session := t.session }, linker) := by
  rw [h.store, h.linker, LinkedImports.define_under, hd, LinkedImports.context_define hd]
  rfl

/-! ## Calling -/

/-- Twins call the same way: what decides about it is the code. -/
theorem steady_exchange (hp : Permits C S) (address : Nat) (signature : Signature)
    (args : List Value) : Steady C S (exchange address signature args) := by
  refine .get (fun m _ => (Steady.guest _).bind fun operands => ?_) fun _ _ => rfl
  split
  · exact (Exec.steady_invoke hp _ _).bind fun _ => .guest _
  · exact Respects.throw _

theorem respects_settle (hC : OfCode C) (signature : Signature) (stop : Stop) :
    Respects (Twin C S) (settle signature stop) (settle signature stop) := by
  unfold settle
  split
  · rename_i code
    refine Respects.bind (Respects.modify fun s t h => ?_) fun _ => Respects.pure _
    refine ⟨h.config, h.statistics, h.linker, h.host, ?_, hC s.scene _ rfl h.scene, h.sessions⟩
    exact congrArg (fun store : Store =>
      { store with context := { store.context with exitCode := some code } }) h.store
  · exact Respects.pure _
  all_goals exact Respects.throw _

theorem respects_call (hC : OfCode C) (hp : Permits C S) (address : Nat) (args : List Value) :
    Respects (Twin C S) (call address args) (call address args) := by
  refine respects_vm fun s t h => ?_
  have htype : t.vm.store.functionType? address = s.vm.store.functionType? address := by
    rw [h.store]
    rfl
  rw [htype]
  refine (respects_ofExcept _ _).bind fun signature => (respects_ofExcept _ _).bind fun _ => ?_
  refine (respects_compute (steady_exchange hp _ _ _)).bind fun r => ?_
  refine (respects_count fun c => c.recordCall r.2 1).bind fun _ => ?_
  split
  · exact Respects.pure _
  · exact respects_settle hC _ _

end Action

end Vm

end WasmEmbedding
