import WasmEmbedding.Proofs.Engine.Upkeep
import WasmEmbedding.Proofs.Vm.Additions
import WasmEmbedding.Proofs.Vm.Calls

/-! # Machines with orderly stores

The store of every reachable machine is orderly, under the cap of the configuration
(`invariant_orderly`): what an import object brings is looked at before it is let in, and runs keep
stores orderly.  So is the store that each run of an operation starts with, the ones of a rebuild
included (`orders_after`), and the machine at every moment of the run (`EngineRun.orderly_moment`).

What is answered are references of the machine's store, for the same reason
(`Call.belongs_of_answer`).
-/
namespace WasmEmbedding

open Chronicle Engine Wasm

variable {id : StoreId} {cap : Option Nat}

/-! ## What import objects bring -/

/-- A symbol is let in if it is fit for the store. -/
theorem Host.Symbol.orderly_materialize {symbol : Host.Symbol} {s t : Store} {item : Item}
    (hs : s.Orderly id cap) (h : symbol.materialize s = .ok (item, t)) : t.Orderly id cap := by
  cases makes_of_materialize h with
  | function id signature => exact hs.addFunction _
  | table t => exact hs.addTable _
  | memory hadded => exact (hs.addMemory hadded).1
  | global _ hown => exact hs.addGlobal (hs.identity ▸ hown)

namespace LinkedImports

theorem orderly_defineFrom {moduleName : String} {symbols : List (String × Host.Symbol)}
    {s t : Store} {l l' : Linker} (hs : s.Orderly id cap)
    (h : defineFrom moduleName symbols (s, l) = .ok (t, l')) : t.Orderly id cap := by
  induction symbols generalizing s l with
  | nil =>
    cases h
    exact hs
  | cons x rest ih =>
    rw [defineFrom] at h
    split at h
    · cases h
    · rename_i item u hu
      split at h
      · cases h
      · exact ih (x.2.orderly_materialize hs hu) h

theorem orderly_systemItems (calls : List Wasi.Syscall) {s : Store} (hs : s.Orderly id cap) :
    (systemItems calls s).2.Orderly id cap := by
  induction calls generalizing s with
  | nil => exact hs
  | cons c rest ih => exact ih (hs.addFunction (.system c))

/-- **Linking an import object keeps the store orderly.** -/
theorem orderly_define {l : LinkedImports} {s t : Store} {k k' : Linker} (hs : s.Orderly id cap)
    (h : l.define s k = .ok (t, k')) : t.Orderly id cap := by
  cases he : l.environment with
  | none => exact orderly_defineFrom hs ((define_eq_ok_of_none he).mp h)
  | some key =>
    rw [define_of_environment he] at h
    split at h
    · cases h
      exact orderly_systemItems _ hs
    · cases h

/-- A symbol that no orderly store takes in keeps the import object from being defined, if nothing
before it does. -/
theorem defineFrom_refuses (moduleName : String) {symbol : Host.Symbol}
    (hsymbol : ∀ s : Store, s.Orderly id cap → ∀ r, symbol.materialize s ≠ .ok r)
    {name : String} {symbols : List (String × Host.Symbol)}
    (hmem : (name, symbol) ∈ symbols) {s : Store} (hs : s.Orderly id cap) (l : Linker) :
    ∃ place reason, defineFrom moduleName symbols (s, l) =
      .error (.incompatible moduleName place reason) := by
  induction symbols generalizing s l with
  | nil => cases hmem
  | cons x rest ih =>
    rw [defineFrom]
    cases hx : x.2.materialize s with
    | error refusal => exact ⟨x.1, refusal.message, rfl⟩
    | ok r =>
      dsimp only
      cases hl : l.define moduleName x.1 r.1 with
      | none => exact ⟨x.1, _, rfl⟩
      | some k =>
        rcases List.mem_cons.mp hmem with rfl | hmem
        · exact absurd hx (hsymbol s hs r)
        · exact ih hmem (x.2.orderly_materialize hs hx) k

end LinkedImports

namespace Vm

/-! ## Moments of a run -/

namespace Action

/-- Making an instance, after so many steps of the start function. -/
def buildFor (k : Nat) (bulkMemory : Bool) (linker : Linker) (m : Module) : Exec Nat := do
  match linker.resolve (← get).store m with
  | .ok items => Exec.instantiateFor k bulkMemory m items
  | .error reason => throw (.failure reason)

/-- There is no instance of a module with a memory that is too large. -/
theorem yields_buildFor (k : Nat) (bulkMemory : Bool) (linker : Linker) (m : Module) :
    Yields id cap (buildFor k bulkMemory linker m) fun _ => ∀ t ∈ m.memories, t.Fits cap := by
  refine Yields.get fun n _ => ?_
  split
  · exact Exec.yields_instantiateFor k bulkMemory m _
  · exact Yields.throw _

/-- What a call answers belongs to the store if what the engine answers does. -/
theorem yields_exchangeVia {engine : List Operand → Exec (List Operand)}
    (hengine : ∀ xs, (∀ x ∈ xs, x.belongsTo id = true) →
      Yields id cap (engine xs) fun ys => ∀ y ∈ ys, y.belongsTo id = true)
    (signature : Signature) (args : List Value) :
    Yields id cap (exchangeVia engine signature args) fun vs =>
      ∀ v ∈ vs, (Operand.ofValue v).belongsTo id = true := by
  refine Yields.get fun m hm => Yields.seq fun operands => ?_
  split
  · rename_i hall
    rw [hm.store.identity] at hall
    refine (hengine operands (List.all_eq_true.mp hall)).bind fun ys hys => ?_
    cases hdecode : Operand.decode ys signature.returns with
    | error e => exact Yields.throw _
    | ok vs =>
      refine Yields.pure fun v hv => hys _ ?_
      rw [← (Operand.eq_of_decode hdecode).1]
      exact List.mem_map_of_mem hv
  · exact Yields.throw _

end Action

/-- The computation of a task after so many steps of the guest. -/
def Task.execFor (k : Nat) (s : Setting) : Task → Exec Unit
  | .build m => do
    let _ ← Action.buildFor k s.vm.config.engine.bulkMemory s.vm.linker m
  | .call address signature args => do
    let _ ← Action.exchangeVia (Exec.invokeFor k address) signature args

instance (k : Nat) (s : Setting) (task : Task) : Upright (task.execFor k s) := by
  refine ⟨fun id cap => ?_⟩
  cases task with
  | build m => exact (Action.yields_buildFor _ _ _ m).bind fun _ _ => Yields.pure trivial
  | call address signature args =>
    exact (Action.yields_exchangeVia (fun _ => Exec.yields_invokeFor k address) _ _).bind
      fun _ _ => Yields.pure trivial

/-- The machine after so many steps of the guest. -/
def EngineRun.moment (r : EngineRun) (k : Nat) : Machine :=
  WasmEmbedding.ending (r.task.execFor k r.setting) r.machine

/-- **The machine that a run leaves is that of a moment of the run.** -/
theorem EngineRun.moment_manySteps (r : EngineRun) : r.moment Exec.manySteps = r.ending := by
  unfold moment ending
  cases r.task <;> rfl

/-! ## Orderly machines -/

/-- The store is orderly under the cap of the configuration. -/
def Orderly (vm : Vm) : Prop := vm.store.Orderly vm.store.id vm.config.engine.maxMemoryBytes

theorem orderly_fresh (config : VmConfig) (id : StoreId) :
    (Store.fresh config id).Orderly id config.engine.maxMemoryBytes where
  identity := rfl
  memoryCap := rfl
  tables _ h := absurd h (Array.not_mem_empty _)
  globals _ h := absurd h (Array.not_mem_empty _)
  elements _ h := absurd h (Array.not_mem_empty _)
  memories _ h := absurd h (Array.not_mem_empty _)

/-- The machine is orderly at every moment of a run that starts with an orderly store. -/
theorem EngineRun.orderly_moment {r : EngineRun} (h : r.setting.vm.Orderly) (k : Nat) :
    (r.moment k).Orderly r.setting.vm.store.id r.setting.vm.config.engine.maxMemoryBytes :=
  (Upright.yields _ _ r.machine (h.idle _ _)).1

theorem EngineRun.orderly_ending {r : EngineRun} (h : r.setting.vm.Orderly) :
    r.ending.Orderly r.setting.vm.store.id r.setting.vm.config.engine.maxMemoryBytes :=
  r.moment_manySteps ▸ orderly_moment h Exec.manySteps

theorem Orderly.of_store (vm : Vm) {vm' : Vm} (hconfig : vm'.config = vm.config)
    (h : vm'.store.Orderly vm.store.id vm.config.engine.maxMemoryBytes) : vm'.Orderly := by
  rw [Orderly, h.identity, hconfig]
  exact h

/-- The context of a store does not matter. -/
theorem Orderly.of_context {vm vm' : Vm} (h : vm.Orderly) (hconfig : vm'.config = vm.config)
    {c : Context} (hstore : vm'.store = { vm.store with context := c }) : vm'.Orderly := by
  refine .of_store vm hconfig ?_
  rw [hstore]
  exact { h with }

theorem orderly_blank (s : Setting) : (Action.blank s).vm.Orderly := orderly_fresh _ _

/-- The machine goes from orderly store to orderly store, and so do the runs. -/
def Orders (s : Setting) (runs : List EngineRun) (_ : Except RuntimeError Unit) (t : Setting) :
    Prop :=
  t.vm.config = s.vm.config ∧ (s.vm.Orderly → t.vm.Orderly) ∧
    ∀ r ∈ runs, r.setting.vm.config = s.vm.config ∧ (s.vm.Orderly → r.setting.vm.Orderly)

/-- Without runs it is enough that the store is orderly in the end. -/
theorem orders_of_orderly {s t : Setting} {r : Except RuntimeError Unit}
    (hconfig : t.vm.config = s.vm.config) (h : s.vm.Orderly → t.vm.Orderly) : Orders s [] r t :=
  ⟨hconfig, h, List.forall_mem_nil _⟩

/-- So it is with one run. -/
theorem orders_run (run : EngineRun) {r : Except RuntimeError Unit} {t : Setting} {c : Context}
    (hconfig : t.vm.config = run.setting.vm.config)
    (hstore : t.vm.store = { run.ending.store with context := c }) :
    Orders run.setting [run] r t := by
  refine ⟨hconfig, fun h => ?_, List.forall_mem_singleton.mpr ⟨rfl, id⟩⟩
  refine .of_store run.setting.vm hconfig ?_
  rw [hstore]
  exact { (EngineRun.orderly_ending h).store with }

/-- The runs of a rebuild start from a fresh store. -/
theorem orders_rebuild {s t u : Setting} {runs : List EngineRun} {r r' : Except RuntimeError Unit}
    (h : Orders (Action.blank s) runs r u) (hconfig : t.vm.config = u.vm.config)
    (hstore : t.vm.config = s.vm.config → u.vm.Orderly → s.vm.Orderly → t.vm.Orderly) :
    Orders s (runs.map EngineRun.again) r' t := by
  obtain ⟨hconfig', horderly, hruns⟩ := h
  have hsame := hconfig.trans hconfig'
  refine ⟨hsame, hstore hsame (horderly (orderly_blank s)), fun run hrun => ?_⟩
  obtain ⟨first, hfirst, rfl⟩ := List.mem_map.mp hrun
  obtain ⟨hlike, hfresh⟩ := hruns first hfirst
  exact ⟨hlike, fun _ => hfresh (orderly_blank s)⟩

theorem orders_define {s t : Setting} {linked : LinkedImports} {r : Except RuntimeError Unit}
    {store : Store} {linker : Linker}
    (hd : linked.define s.vm.store s.vm.linker = .ok (store, linker))
    (hconfig : t.vm.config = s.vm.config) {c : Context}
    (hstore : t.vm.store = { store with context := c }) : Orders s [] r t := by
  refine orders_of_orderly hconfig fun h => .of_store s.vm hconfig ?_
  rw [hstore]
  exact { LinkedImports.orderly_define h hd with }

theorem throughout_orders : Throughout Orders where
  still s := orders_of_orderly rfl id
  append {s t u l l' r} h h' := by
    obtain ⟨hst, hs, hl⟩ := h
    obtain ⟨htu, ht, hl'⟩ := h'
    refine ⟨htu.trans hst, ht ∘ hs, fun run hrun => ?_⟩
    rcases List.mem_append.mp hrun with hrun | hrun
    · exact hl run hrun
    · exact ⟨(hl' run hrun).1.trans hst, (hl' run hrun).2 ∘ hs⟩
  beside hx s := by
    have hidle := hx.keeps s
    exact orders_of_orderly hidle.config fun h => h.of_context hidle.config hidle.store
  define {s name linked functions} _ := by
    obtain ⟨store, linker, hd, hafter⟩ | hafter := Action.ending_define linked s <;> rw [hafter]
    · exact orders_define hd rfl rfl
    · exact orders_of_orderly rfl id
  build m s := by
    rw [Action.ending_instance?]
    exact orders_run ⟨.build m, s, false⟩ rfl rfl
  call address signature args s := by
    obtain ⟨code, hcode⟩ := Action.ending_engage address signature args s
    rw [hcode]
    exact orders_run ⟨.call address signature args, s, false⟩ rfl rfl
  rebuilt h := orders_rebuild h rfl fun _ hu _ => hu.of_context rfl rfl
  restored h := orders_rebuild h rfl fun hconfig _ hs => hs.of_context hconfig rfl
  registerImport o s := by
    have hstep := importStep s o
    generalize outcome (Action.registerImport o) s = r,
      ending (Action.registerImport o) s = t at hstep ⊢
    cases hstep with
    | refused => exact orders_of_orderly rfl id
    | entered _ _ _ defined => exact orders_define defined rfl rfl
    | stranded _ _ defined => exact orders_define defined rfl rfl
  putOff h := orders_rebuild h rfl fun hconfig _ hs => hs.of_context hconfig rfl

/-- **No operation makes the store of an orderly machine disorderly**, and its runs start from
orderly stores under the same configuration. -/
theorem orders_after (s : Setting) (o : Operation) :
    Orders s (s.runs o) (s.answer o) (s.after o) := by
  cases hamends : o.amends with
  | false => exact throughout_orders.perform hamends s
  | true =>
    cases o with
    | amendStatistics f => exact orders_of_orderly rfl id
    | amendContext f => exact orders_of_orderly rfl fun h => h.of_context rfl rfl
    | _ => cases hamends

/-- **The store of every reachable machine is orderly.** -/
theorem invariant_orderly : Invariant Orderly where
  empty config id := orderly_fresh config id
  enableWasi config id host e t h := by
    obtain ⟨v, hv, rfl⟩ := enableWasi_ok h
    obtain ⟨linked, store, linker, c, functions, -, hd, rfl⟩ := Action.link_ok hv
    have hempty : (Vm.empty config id).Orderly := orderly_fresh config id
    refine .of_store (Vm.empty config id) rfl ?_
    exact { LinkedImports.orderly_define hempty hd with }
  operate s o h := (orders_after s o).2.1 h

/-- **An object with a symbol that no orderly store takes in is not registered**, and nothing comes
of it; if its name is free, the symbol is to blame, or one before it. -/
theorem registerImport_refuses {s : Setting} (hs : s.vm.Orderly) {symbol : Host.Symbol}
    (hsymbol : ∀ t : Store, t.Orderly s.vm.store.id s.vm.config.engine.maxMemoryBytes →
      ∀ r, symbol.materialize t ≠ .ok r)
    {o : Host.ImportObject} (hnone : o.environment = none) {name : String}
    (hmem : (name, symbol) ∈ o.symbolList) :
    ∃ e, EStateM.run (Action.registerImport o) s = .error e s ∧ (s.vm.isFree o.moduleName = true →
      ∃ place reason, e = .link (.incompatible o.moduleName place reason)) := by
  have checked := Action.run_checkName_isFree o.moduleName s
  cases hfree : s.vm.isFree o.moduleName with
  | false =>
    rw [hfree] at checked
    obtain ⟨e, he⟩ := checked
    exact ⟨e, run_bind_of_error he, nofun⟩
  | true =>
    rw [hfree] at checked
    have linked : EStateM.run (Action.registerImport o) s = EStateM.run (Action.link o) s :=
      run_bind_of_ok checked
    cases hsymbols : o.symbols with
    | none =>
      rw [Host.ImportObject.symbolList, hsymbols] at hmem
      cases hmem
    | some symbols =>
      rw [Host.ImportObject.symbolList, hsymbols] at hmem
      have hmem : (name, symbol) ∈ symbols := hmem
      obtain ⟨place, reason, hrefused⟩ :=
        LinkedImports.defineFrom_refuses o.moduleName hsymbol hmem hs s.vm.linker
      have hsnap : o.snapshot = .ok ⟨o.moduleName, symbols, none⟩ := by
        rw [Host.ImportObject.snapshot, hsymbols, hnone]
      refine ⟨_, ?_, fun _ => ⟨place, reason, rfl⟩⟩
      rw [linked, Action.run_link, hsnap]
      dsimp only
      rw [LinkedImports.define_of_none rfl, hrefused]
      rfl

/-! ## Answers -/

/-- **What a call answers belongs to the machine's store.** -/
theorem Call.belongs_of_answer {s : Setting} {k : Call} {vs : List Value} (h : s.vm.Orderly)
    (hvs : outcome k.action s = .ok vs) :
    ∀ v ∈ vs, (Operand.ofValue v).belongsTo s.vm.store.id = true := by
  have hvia : outcome (k.via Exec.invoke) s = .ok vs :=
    (outcome_congr (run_via_invoke k s)).trans hvs
  obtain ⟨e, refused⟩ | ⟨address, signature, admitted⟩ := refused_or_admitted s.vm k
  · cases (outcome_of_error (run_via_of_refused refused)).symm.trans hvia
  · rw [outcome_congr (run_via_of_admitted admitted), outcome_congr (Action.run_engageVia _ _ _ _)]
      at hvia
    have hexchange := (Action.yields_exchangeVia
      (fun _ => Exec.yields_invokeFor Exec.manySteps address) signature k.args (Action.computer s)
      (h.idle _ _)).2
    obtain ⟨-, -, -, hanswer⟩ := Action.report_post signature
      (outcome (Action.exchangeVia (Exec.invoke address) signature k.args) (Action.computer s))
      (Action.counted s _)
    rcases hanswer vs hvia with hok | ⟨_, -, -, rfl⟩
    · exact hexchange vs hok
    · intro v hv
      obtain ⟨kind, -, rfl⟩ := List.mem_map.mp hv
      cases kind <;> rfl

end Vm

end WasmEmbedding
