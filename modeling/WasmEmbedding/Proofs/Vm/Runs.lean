import WasmEmbedding.Proofs.Engine.HostCalls
import WasmEmbedding.Proofs.Vm.Rebuild
import WasmEmbedding.Proofs.Vm.Twins

/-! # The runs of the engine in an operation

A machine lets the engine work for it in two places only: where it makes an instance of a module,
and where it calls a function.  An `EngineRun` is one such piece of work, with the setting that it
starts from; the runs of an operation (`Setting.runs`) are read off a chronicle of the operation
(`Noted.perform`) that looks like the operation itself and is it without the runs
(`Noted.erases_perform`).  Runs in which a rebuild links registered modules again are marked as
replayed.

What holds of an operation because of its runs (`Accountable`) is put together from what holds of
each run, of what the machine does beside them (`Idle`), and of putting a rebuilt store in place
or not.  A relation that minds the session that a run begins in is asked about the two together
(`Recountable`): see `Recountable.tells_perform`.  What holds of every operation in this way is
`Throughout` so.
-/
namespace WasmEmbedding

open Chronicle Engine Wasm

/-! ## Host calls of what the engine is asked to do -/

namespace Engine.Told

/-- Makes an instance of a module with what a linker has to offer. -/
def build (bulkMemory : Bool) (linker : Linker) (m : Module) : Told Nat := do
  let n ← quietly get
  match linker.resolve n.store m with
  | .ok items => instantiate bulkMemory m items
  | .error reason => quietly (throw (.failure reason))

/-- Calls a function with values. -/
def exchange (address : Nat) (signature : Signature) (args : List Value) : Told (List Value) := do
  let store := (← quietly get).store
  let operands ← quietly (Exec.ofValue (Value.encode store.heap args))
  if operands.all (Operand.belongsTo store.id) then
    let results ← invoke address operands
    quietly (Exec.ofValue (Operand.decode results signature.returns))
  else quietly (throw (.failure "an argument is a reference of another store"))

theorem erases_build (bulkMemory : Bool) (linker : Linker) (m : Module) :
    Erases (Vm.Action.build bulkMemory linker m) (build bulkMemory linker m) := by
  refine Erases.after fun n => ?_
  cases linker.resolve n.store m with
  | ok items => exact erases_instantiate bulkMemory m items
  | error reason => exact .quietly _

theorem erases_exchange (address : Nat) (signature : Signature) (args : List Value) :
    Erases (Vm.Action.exchange address signature args) (exchange address signature args) := by
  refine Erases.after fun m => Erases.after fun operands => ?_
  split
  · exact (erases_invoke address operands).bind fun _ => .quietly _
  · exact .quietly _

end Engine.Told

namespace Engine.Witnessed

variable {R : Machine → List HostCall → Except Stop Unit → Machine → Prop} (hR : Witnessed R)

include hR

theorem tells_build (bulkMemory : Bool) (linker : Linker) (m : Module) :
    Tells R (Told.build bulkMemory linker m) := by
  refine hR.bind (hR.inner Inner.get) fun n => ?_
  cases linker.resolve n.store m with
  | ok items => exact hR.tells_instantiate bulkMemory m items
  | error reason => exact hR.guest _

theorem tells_exchange (address : Nat) (signature : Signature) (args : List Value) :
    Tells R (Told.exchange address signature args) := by
  refine hR.bind (hR.inner Inner.get) fun m => hR.bind (hR.guest _) fun operands => ?_
  split
  · exact hR.bind (hR.tells_invoke address operands) fun _ => hR.guest _
  · exact hR.guest _

end Engine.Witnessed

namespace Vm

/-! ## Runs -/

/-- What the engine is asked to do for a machine. -/
inductive Task where
  /-- To make an instance of a module. -/
  | build (m : Module)
  /-- To call a function. -/
  | call (address : Nat) (signature : Signature) (args : List Value)

namespace Task

/-- The computation of a task, whatever it answers. -/
def exec (s : Setting) : Task → Exec Unit
  | .build m => do
    let _ ← Action.build s.vm.config.engine.bulkMemory s.vm.linker m
  | .call address signature args => do
    let _ ← Action.exchange address signature args

/-- The same, with its host calls. -/
def told (s : Setting) : Task → Told Unit
  | .build m => do
    let _ ← Told.build s.vm.config.engine.bulkMemory s.vm.linker m
  | .call address signature args => do
    let _ ← Told.exchange address signature args

theorem erases_told (s : Setting) (task : Task) : Erases (task.exec s) (task.told s) := by
  cases task with
  | build m => exact (Told.erases_build _ _ m).bind fun _ => .pure _
  | call address signature args => exact (Told.erases_exchange _ _ _).bind fun _ => .pure _

theorem tells_told {R : Machine → List HostCall → Except Stop Unit → Machine → Prop}
    (hR : Witnessed R) (s : Setting) (task : Task) : Tells R (task.told s) := by
  cases task with
  | build m => exact hR.bind (hR.tells_build _ _ m) fun _ => hR.pure _
  | call address signature args => exact hR.bind (hR.tells_exchange _ _ _) fun _ => hR.pure _

end Task

/-- A run of the engine. -/
structure EngineRun where
  task : Task
  /-- The machine and the host that the run starts from. -/
  setting : Setting
  /-- The run is one in which a rebuild links a registered module again. -/
  replayed : Bool := false

namespace EngineRun

/-- The machine that the run starts with. -/
def machine (r : EngineRun) : Machine := Action.computer r.setting

/-- What the run comes to. -/
def outcome (r : EngineRun) : Except Stop Unit :=
  WasmEmbedding.outcome (r.task.exec r.setting) r.machine

/-- The machine that the run leaves. -/
def ending (r : EngineRun) : Machine := WasmEmbedding.ending (r.task.exec r.setting) r.machine

/-- The fuel that the run has spent. -/
def fuel (r : EngineRun) : UInt64 := UInt64.ofNat r.ending.meter.consumed

/-- The host calls of the run. -/
def calls (r : EngineRun) : List HostCall := (r.task.told r.setting).events r.machine

/-- The same run in a rebuild. -/
def again (r : EngineRun) : EngineRun := { r with replayed := true }

/-- **A run is told by its host calls.** -/
theorem told {R : Machine → List HostCall → Except Stop Unit → Machine → Prop} (hR : Witnessed R)
    (r : EngineRun) : R r.machine r.calls r.outcome r.ending := by
  have h := (r.task.tells_told hR r.setting).events (r.task.erases_told r.setting) r.machine
  rwa [succeeded_unit] at h

end EngineRun

/-! ## Chronicles of operations -/

/-- An action that writes down the runs of the engine. -/
abbrev Noted (α : Type) := Chronicle EngineRun RuntimeError Setting α

namespace Action

/-- Links the exports of a new instance. -/
def offer (name : String) (index : Nat) : Action Unit := do
  let vm ← vm
  match vm.linker.defineAll name (vm.store.instances[index]?.getD {}).exports with
  | some linker => modifyVm fun vm => { vm with linker }
  | none => throw (.link (.incompatible name "" "defined twice"))

/-- Takes up the image of a source as the main module. -/
def takeUp (source : Source) : Action Unit := do
  let image ← open? source
  modifyVm fun vm => { vm with loaded := some image }
  setStage .loaded

/-- The part of a call that the engine has to do with. -/
def engage (address : Nat) (signature : Signature) (args : List Value) : Action (List Value) := do
  let (outcome, fuel) ← compute (exchange address signature args)
  modifyVm fun vm => { vm with statistics := vm.statistics.recordCall fuel 1 }
  match outcome with
  | .ok values => return values
  | .error stop => settle signature stop

end Action

namespace Noted

/-- Makes an instance of a module, which is a run. -/
def instance? (m : Module) : Noted Nat :=
  noting (fun s => ⟨.build m, s, false⟩) (Action.instance? m)

/-- Links a registered module. -/
def instantiateRegistered (name : String) (m : Module) : Noted Unit := do
  quietly Action.refresh
  let index ← instance? m
  quietly (Action.offer name index)

/-- Links an entry of the link environment again. -/
def replay (name : String) : Registered → Noted Unit
  | .imports linked _ => quietly (Action.define linked)
  | .module m => instantiateRegistered name m

/-- Links an entry again, if there is one. -/
def replaySome (name : String) : Option Registered → Noted Unit
  | some entry => replay name entry
  | none => pure ()

/-- Links what is registered under a name again. -/
def replay? (name : String) : Noted Unit := do
  replaySome name ((← quietly Action.vm).registered? name)

/-- Links every entry of the link environment again. -/
def replayAll : Noted Unit := do
  (← quietly Action.vm).linkOrder.forM replay?

/-- Puts a new store in place of the old one and links everything again.  The runs of the entries
are replayed ones. -/
def rebuild : Noted Unit := fun p =>
  match EStateM.run replayAll (Action.blank p.1, []) with
  | .ok _ q => .ok () (⟨Action.inherit p.1.vm q.1.vm, q.1.host⟩, p.2 ++ q.2.map EngineRun.again)
  | .error e q =>
    .error e (⟨Action.restore p.1.vm q.1.vm, q.1.host⟩, p.2 ++ q.2.map EngineRun.again)

/-- Lets go of the main module. -/
def reset : Noted Unit := do
  quietly (Action.modifyVm Action.cleared)
  if (← quietly Action.vm).stale then tryCatch rebuild fun _ => pure ()

/-- Loads a main module in place of the one before. -/
def load (source : Source) : Noted Unit := do
  reset
  quietly (Action.takeUp source)

/-- Works on the store for a main module. -/
def prepare (m : Module) : Noted Nat := do
  if (← quietly Action.vm).stale then rebuild
  quietly Action.refresh
  quietly (Action.modifyVm fun vm => { vm with stale := true })
  instance? m

/-- Makes an instance of a validated main module. -/
def start (m : Module) : Noted Unit := do
  quietly Action.deactivate
  let index ← prepare m
  quietly (Action.activate m index)

/-- Instantiates the main module. -/
def instantiate : Noted Unit := do
  let vm ← quietly Action.vm
  if vm.stage = .created then quietly (Action.refuseStage "instantiate")
  else
    quietly Action.validate
    match (← quietly Action.vm).compiled with
    | none => quietly (Action.refuseStage "instantiate")
    | some m => start m

/-- Calls a function of the machine's store, which is a run if the arguments are right. -/
def call (address : Nat) (args : List Value) : Noted (List Value) := do
  let type := ((← quietly Action.vm).store.functionType? address).getD default
  let signature ← quietly
    (Action.ofExcept (fun e => .execution (.value e)) (Signature.ofType? type))
  quietly (Action.ofExcept (fun e => .execution (.value e)) (Value.check args signature.params))
  noting (fun s => ⟨.call address signature args, s, false⟩)
    (Action.engage address signature args)

/-- Calls an exported function of the main module. -/
def execute (name : String) (args : List Value) : Noted (List Value) := do
  let vm ← quietly Action.vm
  if vm.stage ≠ .instantiated then quietly (throw (.execution .notInstantiated))
  let found : Option Nat := do
    (← vm.store.exported? (← vm.active).index name).function?
  match found with
  | some address => call address args
  | none => quietly (throw (.execution (.functionNotFound name)))

/-- Calls a function of a registered module. -/
def executeRegistered (moduleName name : String) (args : List Value) : Noted (List Value) := do
  let vm ← quietly Action.vm
  let found : Option Nat := do
    let _ ← vm.registered? moduleName
    (← vm.linker.get? moduleName name).function?
  match found with
  | some address => call address args
  | none => quietly (throw (.execution (.functionNotFound (moduleName ++ "." ++ name))))

/-- Loads, validates and instantiates a main module and calls one of its functions. -/
def run (source : Source) (name : String) (args : List Value) : Noted (List Value) := do
  load source
  quietly Action.validate
  instantiate
  execute name args

/-- Registers the module of a source under a name. -/
def register (name : String) (source : Source) : Noted Unit := do
  let image ← quietly (Action.open? source)
  quietly (Action.checkName name)
  let m ← quietly (Action.compile image)
  instantiateRegistered name m
  quietly (Action.enter name (.module m))

/-- An operation, whatever it answers. -/
def perform : Operation → Noted Unit
  | .load source => load source
  | .instantiate => instantiate
  | .execute name args => do
    let _ ← execute name args
  | .executeRegistered moduleName name args => do
    let _ ← executeRegistered moduleName name args
  | .run source name args => do
    let _ ← run source name args
  | .register name source => register name source
  | .cleanup => reset
  | o => quietly o.perform

/-! ## The chronicles are chronicles of the operations -/

theorem erases_instantiateRegistered (name : String) (m : Module) :
    Erases (Action.instantiateRegistered name m) (instantiateRegistered name m) :=
  Erases.after fun _ => (Erases.noting _ _).bind fun index => .quietly (Action.offer name index)

theorem erases_replay (name : String) (entry : Registered) :
    Erases (Action.replay name entry) (replay name entry) := by
  cases entry with
  | imports linked functions => exact .quietly (Action.define linked)
  | module m => exact erases_instantiateRegistered name m

theorem erases_replay? (name : String) : Erases (Action.replay? name) (replay? name) := by
  refine Erases.after fun vm => ?_
  cases vm.registered? name with
  | none => exact .pure _
  | some entry => exact erases_replay name entry

theorem erases_replayAll : Erases Action.replayAll replayAll :=
  Erases.after fun _ => Erases.forM erases_replay? _

theorem erases_rebuild : Erases Action.rebuild rebuild := by
  rintro _ ⟨s, l⟩ rfl
  have hall := erases_replayAll (Action.blank s) (Action.blank s, []) rfl
  rw [Action.run_rebuild]
  change Agree _ _ (rebuild (s, l))
  unfold rebuild
  dsimp only
  generalize EStateM.run Action.replayAll (Action.blank s) = r,
    EStateM.run replayAll (Action.blank s, []) = r' at hall ⊢
  cases hall with
  | ok a h =>
    subst h
    exact .ok () rfl
  | error e h =>
    subst h
    exact .error e rfl

theorem erases_reset : Erases Action.reset reset := by
  have h : Action.reset = Action.modifyVm Action.cleared >>= fun _ => Action.vm >>= fun vm =>
      if vm.stale then tryCatch Action.rebuild fun _ => pure () else pure () := rfl
  rw [h]
  refine Erases.after fun _ => Erases.after fun vm => ?_
  split
  · exact erases_rebuild.tryCatch fun _ => .pure ()
  · exact .pure ()

theorem erases_load (source : Source) : Erases (Action.load source) (load source) :=
  erases_reset.bind fun _ => .quietly (Action.takeUp source)

theorem erases_prepare (m : Module) : Erases (Action.prepare m) (prepare m) := by
  have rest : Erases (Action.refresh >>= fun _ =>
      Action.modifyVm (fun vm => { vm with stale := true }) >>= fun _ => Action.instance? m)
      (quietly Action.refresh >>= fun _ =>
        quietly (Action.modifyVm fun vm => { vm with stale := true }) >>= fun _ => instance? m) :=
    Erases.after fun _ => Erases.after fun _ => .noting _ _
  refine Erases.after fun vm => ?_
  dsimp only
  split
  · exact erases_rebuild.bind fun _ => rest
  · exact rest

theorem erases_start (m : Module) : Erases (Action.start m) (start m) := by
  rw [Action.start_eq]
  exact Erases.after fun _ => (erases_prepare m).bind fun index => .quietly _

theorem erases_instantiate : Erases Action.instantiate instantiate := by
  intro s p hp
  rw [Action.run_instantiate]
  refine (?_ : Erases (Action.vm >>= fun vm => if vm.stage = .created then
    Action.refuseStage "instantiate" else Action.validate >>= fun _ => Action.vm >>= fun vm =>
      match vm.compiled with
      | none => Action.refuseStage "instantiate"
      | some m => Action.start m) instantiate) s p hp
  refine Erases.after fun vm => ?_
  split
  · exact .quietly _
  · refine Erases.after fun _ => Erases.after fun vm => ?_
    cases vm.compiled with
    | none => exact .quietly _
    | some m => exact erases_start m

theorem erases_call (address : Nat) (args : List Value) :
    Erases (Action.call address args) (call address args) :=
  Erases.after fun _ => Erases.after fun signature => Erases.after fun _ =>
    .noting _ (Action.engage address signature args)

theorem erases_callFound (found : Option Nat) (args : List Value) (e : RuntimeError) :
    Erases (match found with | some address => Action.call address args | none => throw e)
      (match found with | some address => call address args | none => quietly (throw e)) := by
  cases found with
  | some address => exact erases_call address args
  | none => exact .quietly _

theorem erases_execute (name : String) (args : List Value) :
    Erases (Action.execute name args) (execute name args) := by
  refine Erases.after fun vm => ?_
  dsimp only
  split
  · exact Erases.after fun _ => erases_callFound _ args _
  · exact erases_callFound _ args _

theorem erases_executeRegistered (moduleName name : String) (args : List Value) :
    Erases (Action.executeRegistered moduleName name args)
      (executeRegistered moduleName name args) :=
  Erases.after fun _ => erases_callFound _ args _

theorem erases_run (source : Source) (name : String) (args : List Value) :
    Erases (Action.run source name args) (run source name args) :=
  (erases_load source).bind fun _ => Erases.after fun _ => erases_instantiate.bind fun _ =>
    erases_execute name args

theorem erases_register (name : String) (source : Source) :
    Erases (Action.register name source) (register name source) :=
  Erases.after fun _ => Erases.after fun _ => Erases.after fun m =>
    (erases_instantiateRegistered name m).bind fun _ => .quietly _

/-- **The chronicle of an operation does what the operation does.** -/
theorem erases_perform (o : Operation) : Erases o.perform (perform o) := by
  cases o with
  | load source => exact erases_load source
  | instantiate => exact erases_instantiate
  | execute name args => exact (erases_execute name args).bind fun _ => .pure _
  | executeRegistered moduleName name args =>
    exact (erases_executeRegistered moduleName name args).bind fun _ => .pure _
  | run source name args => exact (erases_run source name args).bind fun _ => .pure _
  | register name source => exact erases_register name source
  | cleanup => exact erases_reset
  | _ => exact .quietly _

end Noted

/-- The runs of the engine in an operation, the first one first. -/
def Setting.runs (s : Setting) (o : Operation) : List EngineRun := (Noted.perform o).events s

/-- The runs of the engine in a run with data, of which there are none if it does not get to its
environment. -/
def Setting.runsWithData (s : Setting) (source : Source) (name : String) (data : List UInt8)
    (args envs preopens : List String) (params : List Value) : List EngineRun :=
  match s.supplied data args envs preopens with
  | .ok host => Setting.runs ⟨s.vm, host⟩ (.run source name params)
  | .error _ => []

/-! ## What a run leaves -/

namespace EngineRun

/-- The counts after a run has been counted. -/
def count (r : EngineRun) (s : Statistics) : Statistics :=
  match r.task with
  | .build _ => s.recordInstantiation r.fuel
  | .call _ _ _ => s.recordCall r.fuel 1

/-- The setting that a run leaves, with its fuel counted. -/
def after (r : EngineRun) : Setting where
  vm := { r.setting.vm with store := r.ending.store, statistics := r.count r.setting.vm.statistics }
  host := r.ending.host

end EngineRun

namespace Action

/-- What an instantiation leaves and answers. -/
theorem run_instance?_eq (m : Module) (s : Setting) :
    EStateM.run (instance? m) s =
      EStateM.run (ofExcept (fun stop => .instantiation stop.message)
        (outcome (build s.vm.config.engine.bulkMemory s.vm.linker m) (computer s)))
        (EngineRun.mk (.build m) s false).after := by
  rw [run_instance?]
  unfold EngineRun.after EngineRun.count EngineRun.fuel EngineRun.ending Task.exec EngineRun.machine
  dsimp only
  rw [ending_discard]
  rfl

/-- What the outcome of a call comes to. -/
def report (signature : Signature) : Except Stop (List Value) → Action (List Value)
  | .ok values => pure values
  | .error stop => settle signature stop

/-- What a call leaves and answers. -/
theorem run_engage (address : Nat) (signature : Signature) (args : List Value) (s : Setting) :
    EStateM.run (engage address signature args) s =
      EStateM.run (report signature (outcome (exchange address signature args) (computer s)))
        (EngineRun.mk (.call address signature args) s false).after := by
  have h : engage address signature args = compute (exchange address signature args) >>= fun r =>
      modifyVm (fun vm => { vm with statistics := vm.statistics.recordCall r.2 1 }) >>= fun _ =>
        report signature r.1 := by
    refine congrArg (_ >>= ·) (funext fun r => congrArg (_ >>= ·) (funext fun _ => ?_))
    cases r.1 <;> rfl
  rw [h, run_bind_of_ok (run_compute _ s)]
  unfold EngineRun.after EngineRun.count EngineRun.fuel EngineRun.ending Task.exec EngineRun.machine
  dsimp only
  rw [ending_discard]
  rfl

theorem outcome_build_eq (m : Module) (s : Setting) :
    (EngineRun.mk (.build m) s false).outcome =
      succeeded (outcome (build s.vm.config.engine.bulkMemory s.vm.linker m) (computer s)) :=
  outcome_discard _ _

theorem outcome_call_eq (address : Nat) (signature : Signature) (args : List Value) (s : Setting) :
    (EngineRun.mk (.call address signature args) s false).outcome =
      succeeded (outcome (exchange address signature args) (computer s)) :=
  outcome_discard _ _

/-- An instantiation leaves what its run leaves. -/
theorem ending_instance? (m : Module) (s : Setting) :
    ending (instance? m) s = (EngineRun.mk (.build m) s false).after := by
  unfold ending
  rw [run_instance?_eq]
  cases outcome (build s.vm.config.engine.bulkMemory s.vm.linker m) (computer s) <;> rfl

/-- A call leaves what its run leaves, but for the exit code. -/
theorem ending_engage (address : Nat) (signature : Signature) (args : List Value) (s : Setting) :
    ∃ code, ending (engage address signature args) s =
      withContext (EngineRun.mk (.call address signature args) s false).after
        { (EngineRun.mk (.call address signature args) s false).after.vm.store.context with
          exitCode := code } := by
  unfold ending
  rw [run_engage]
  generalize EngineRun.after _ = t
  cases outcome (exchange address signature args) (computer s) with
  | ok values => exact ⟨t.vm.exitCode, rfl⟩
  | error stop =>
    cases stop with
    | exit code => exact ⟨some code, rfl⟩
    | host e => cases e <;> exact ⟨t.vm.exitCode, rfl⟩
    | _ => exact ⟨t.vm.exitCode, rfl⟩

end Action

/-! ## What a machine does beside the runs -/

/-- No fuel has been spent, nothing has been recorded, and the host is as it was. -/
structure Unspent (s t : Setting) : Prop where
  host : t.host = s.host
  config : t.vm.config = s.vm.config
  statistics : t.vm.statistics = s.vm.statistics
  logs : t.vm.logs = s.vm.logs

/-- Besides, the store is the same but for the context, and no import object has been registered. -/
structure Idle (s t : Setting) : Prop extends Unspent s t where
  store : t.vm.store = { s.vm.store with context := t.vm.store.context }
  imports : ∀ name linked functions, t.vm.registered? name = some (.imports linked functions) →
    s.vm.registered? name = some (.imports linked functions)

instance : IsPreorder Setting Unspent where
  refl _ := ⟨rfl, rfl, rfl, rfl⟩
  trans _ _ _ h h' := ⟨h'.host.trans h.host, h'.config.trans h.config,
    h'.statistics.trans h.statistics, h'.logs.trans h.logs⟩

instance : IsPreorder Setting Idle where
  refl _ := ⟨Std.Refl.refl _, rfl, fun _ _ _ h => h⟩
  trans _ _ _ h h' := by
    refine ⟨IsTrans.trans _ _ _ h.toUnspent h'.toUnspent, ?_, fun name linked fs he =>
      h.imports name linked fs (h'.imports name linked fs he)⟩
    have store := h'.store
    rw [h.store] at store
    exact store

theorem Idle.code {s t : Setting} (h : Idle s t) : t.vm.store.code = s.vm.store.code := by
  rw [h.store]
  rfl

/-- The error is not that the cost limit has been exceeded. -/
def Unpriced (e : RuntimeError) : Prop := e ≠ .execution .costLimitExceeded

theorem unpriced_of_linking {e : RuntimeError} (h : e.OfLinking) : Unpriced e := by
  cases h <;> exact nofun

/-- Something that a machine does beside the runs: no fuel is spent on it, and it does not fail for
want of any. -/
structure Beside {α : Type} (x : Action α) : Prop where
  keeps : Keeps Idle x
  throws : Throws Unpriced x

/-- What a machine does without so much as beginning a session keeps the exit code, too. -/
structure Quiet {α : Type} (x : Action α) : Prop extends Beside x where
  exitCode : Keeps (SameBy fun s => s.vm.exitCode) x

theorem Beside.refresh : Beside Action.refresh := by
  refine ⟨Keeps.intro (fun s _ t ht => ?_) fun s e t ht => ?_, ?_⟩
  · obtain ⟨c, rfl, hlogs⟩ := (Action.refresh_post s).ok ht
    exact ⟨⟨rfl, rfl, rfl, hlogs⟩, rfl, fun _ _ _ he => he⟩
  · rw [(Action.refresh_post s).error ht]
    exact Std.Refl.refl s
  · exact Action.throws_ofLinking_refresh.mono fun _ => unpriced_of_linking

namespace Quiet

variable {α β : Type}

protected theorem pure (a : α) : Quiet (pure a : Action α) :=
  ⟨⟨Keeps.pure a, Throws.pure a⟩, Keeps.pure a⟩

protected theorem throw {e : RuntimeError} (h : Unpriced e) : Quiet (throw e : Action α) :=
  ⟨⟨Keeps.throw e, Throws.throw h⟩, Keeps.throw e⟩

theorem vm : Quiet Action.vm := ⟨⟨Action.keeps_vm, Action.throws_vm⟩, Action.keeps_vm⟩

protected theorem bind {x : Action α} {f : α → Action β} (hx : Quiet x) (hf : ∀ a, Quiet (f a)) :
    Quiet (x >>= f) :=
  ⟨⟨hx.keeps.bind fun a => (hf a).keeps, hx.throws.bind fun a => (hf a).throws⟩,
    hx.exitCode.bind fun a => (hf a).exitCode⟩

/-- What is changed is neither a count nor anything that guests have left. -/
theorem modifyVm {f : Vm → Vm} (h : ∀ vm, f vm = { f vm with
      config := vm.config, statistics := vm.statistics, store := vm.store
      registered := vm.registered }) : Quiet (Action.modifyVm f) := by
  refine ⟨⟨Action.keeps_modifyVm fun s => ?_, Throws.modify⟩, Action.keeps_modifyVm fun s => ?_⟩
  · rw [h]
    exact ⟨⟨rfl, rfl, rfl, rfl⟩, rfl, fun _ _ _ he => he⟩
  · rw [h]
    rfl

theorem ofExcept {ε : Type} {f : ε → RuntimeError} (h : ∀ e, Unpriced (f e)) (r : Except ε α) :
    Quiet (Action.ofExcept f r) :=
  ⟨⟨Action.keeps_ofExcept f r, Action.throws_ofExcept h r⟩, Action.keeps_ofExcept f r⟩

theorem open? (source : Source) : Quiet (Action.open? source) := by
  refine ⟨⟨Keeps.get.bind fun _ => Action.keeps_ofExcept _ _, Throws.get.bind fun s => ?_⟩,
    Keeps.get.bind fun _ => Action.keeps_ofExcept _ _⟩
  rintro _ e _ h
  obtain ⟨⟨d, hd, rfl⟩, -⟩ := Action.run_ofExcept_eq_error.mp h
  obtain ⟨fault, rfl⟩ := Action.load_error hd
  exact nofun

theorem compile (image : Image) : Quiet (Action.compile image) :=
  vm.bind fun _ => ofExcept (fun _ => by nofun) _

theorem refuseStage (operation : String) : Quiet (Action.refuseStage operation : Action α) :=
  vm.bind fun _ => Quiet.throw nofun

theorem checkName (name : String) : Quiet (Action.checkName name) := by
  unfold Action.checkName
  have taken : Quiet (do
      if ((← Action.vm).registered? name).isSome then throw (.link (.duplicateModule name))) := by
    refine vm.bind fun vm => ?_
    split
    · exact Quiet.throw nofun
    · exact Quiet.pure _
  split
  · exact (Quiet.throw (by nofun)).bind fun _ => taken
  · exact taken

theorem offer (name : String) (index : Nat) : Quiet (Action.offer name index) := by
  refine vm.bind fun vm => ?_
  split
  · exact modifyVm fun _ => rfl
  · exact Quiet.throw nofun

theorem takeUp (source : Source) : Quiet (Action.takeUp source) :=
  (open? source).bind fun _ => (modifyVm fun _ => rfl).bind fun _ => modifyVm fun _ => rfl

theorem enter (name : String) (m : Module) : Quiet (Action.enter name (.module m)) := by
  refine ⟨⟨Action.keeps_modifyVm fun s => ?_, Throws.modify⟩, Action.keeps_modifyVm fun _ => rfl⟩
  refine ⟨⟨rfl, rfl, rfl, rfl⟩, rfl, fun other linked fs he => ?_⟩
  change (s.vm.entered name (.module m)).registered? other = _ at he
  rw [registered?_entered] at he
  split at he
  · cases he
  · exact he

theorem validate : Quiet Action.validate := by
  refine vm.bind fun vm => ?_
  split
  · exact refuseStage _
  · exact Quiet.pure _
  · exact Quiet.pure _
  · refine Quiet.vm.bind fun vm => ?_
    split
    · exact refuseStage _
    · refine (compile _).bind fun m => ?_
      exact (modifyVm fun _ => rfl).bind fun _ => modifyVm fun _ => rfl

theorem deactivate : Quiet Action.deactivate := by
  refine vm.bind fun vm => ?_
  split
  · exact (modifyVm fun _ => rfl).bind fun _ => modifyVm fun _ => rfl
  · exact Quiet.pure _

end Quiet

namespace Action

/-! Defining an import object adds to the store, but it is no work of the engine. -/

theorem keeps_unspent_define (linked : LinkedImports) : Keeps Unspent (define linked) := by
  intro s
  obtain ⟨store, linker, hd, hafter⟩ | hafter := ending_define linked s <;> rw [hafter]
  · refine ⟨rfl, rfl, rfl, ?_⟩
    change store.context.logs = s.vm.store.context.logs
    rw [LinkedImports.context_define hd]
  · exact Std.Refl.refl s

theorem keeps_unspent_link (o : Host.ImportObject) : Keeps Unspent (link o) := by
  rw [link_eq]
  refine (keeps_ofExcept _ _).bind fun linked => (keeps_unspent_define linked).bind fun _ => ?_
  have entered : ∀ entry, Keeps Unspent (enter o.moduleName entry) :=
    fun entry => keeps_modifyVm fun _ => ⟨rfl, rfl, rfl, rfl⟩
  unfold commit
  split
  · refine Keeps.bind (keeps_modifyVm fun _ => ⟨rfl, rfl, rfl, rfl⟩) fun _ => ?_
    refine (Beside.refresh.keeps.mono fun _ _ h => h.toUnspent).bind fun _ => ?_
    exact keeps_vm.bind fun _ => entered _
  · exact entered _

theorem keeps_unspent_registerImport (o : Host.ImportObject) :
    Keeps Unspent (registerImport o) :=
  (keeps_checkName _).bind fun _ => keeps_unspent_link o

theorem throws_unpriced_define (linked : LinkedImports) : Throws Unpriced (define linked) :=
  (throws_define linked).mono fun _ => unpriced_of_linking

theorem throws_unpriced_registerImport (o : Host.ImportObject) :
    Throws Unpriced (registerImport o) := by
  refine (Quiet.checkName _).throws.bind fun _ => ?_
  rw [link_eq]
  refine (throws_ofExcept (fun _ => nofun) _).bind fun linked => ?_
  refine (throws_unpriced_define linked).bind fun _ => ?_
  unfold commit
  split
  · exact Throws.modify.bind fun _ => Beside.refresh.throws.bind fun _ =>
      throws_vm.bind fun _ => Throws.modify
  · exact Throws.modify

end Action

/-! ## What holds of an operation because of its runs -/

/-- Begins a session and makes an instance of a module in it. -/
def Noted.house (m : Module) : Noted Nat := do
  quietly Action.refresh
  instance? m

/-- The same for a main module, which marks the store. -/
def Noted.attempt (m : Module) : Noted Nat := do
  quietly Action.refresh
  quietly (Action.modifyVm fun vm => { vm with stale := true })
  instance? m

/-- A relation that holds of what is done with the runs of the engine if it holds of these, together
with the sessions that they begin in. -/
structure Recountable (R : Setting → List EngineRun → Except RuntimeError Unit → Setting → Prop) :
    Prop extends History R where
  quiet : ∀ {α : Type} {x : Action α}, Quiet x → ∀ s,
    R s [] (succeeded (outcome x s)) (ending x s)
  define : ∀ {s name linked functions}, s.vm.registered? name = some (.imports linked functions) →
    R s [] (succeeded (outcome (Action.define linked) s)) (ending (Action.define linked) s)
  house : ∀ m, Tells R (Noted.house m)
  attempt : ∀ m, Tells R (Noted.attempt m)
  call : ∀ address signature args s, R s [⟨.call address signature args, s, false⟩]
    (succeeded (outcome (Action.engage address signature args) s))
    (ending (Action.engage address signature args) s)
  /-- The rebuilt store is put in place. -/
  rebuilt : ∀ {s l u}, R (Action.blank s) l (.ok ()) u →
    R s (l.map EngineRun.again) (.ok ()) ⟨Action.inherit s.vm u.vm, u.host⟩
  /-- The old store is put back. -/
  restored : ∀ {s l e u}, R (Action.blank s) l (.error e) u →
    R s (l.map EngineRun.again) (.error e) ⟨Action.restore s.vm u.vm, u.host⟩

/-- A relation that holds of what is done with the runs of the engine if it holds of these. -/
structure Accountable (R : Setting → List EngineRun → Except RuntimeError Unit → Setting → Prop) :
    Prop extends History R where
  beside : ∀ {α : Type} {x : Action α}, Beside x → ∀ s,
    R s [] (succeeded (outcome x s)) (ending x s)
  define : ∀ {s name linked functions}, s.vm.registered? name = some (.imports linked functions) →
    R s [] (succeeded (outcome (Action.define linked) s)) (ending (Action.define linked) s)
  build : ∀ m s, R s [⟨.build m, s, false⟩] (succeeded (outcome (Action.instance? m) s))
    (ending (Action.instance? m) s)
  call : ∀ address signature args s, R s [⟨.call address signature args, s, false⟩]
    (succeeded (outcome (Action.engage address signature args) s))
    (ending (Action.engage address signature args) s)
  /-- The rebuilt store is put in place. -/
  rebuilt : ∀ {s l u}, R (Action.blank s) l (.ok ()) u →
    R s (l.map EngineRun.again) (.ok ()) ⟨Action.inherit s.vm u.vm, u.host⟩
  /-- The old store is put back. -/
  restored : ∀ {s l e u}, R (Action.blank s) l (.error e) u →
    R s (l.map EngineRun.again) (.error e) ⟨Action.restore s.vm u.vm, u.host⟩

/-- A session that begins is something beside the run. -/
theorem Accountable.recountable
    {R : Setting → List EngineRun → Except RuntimeError Unit → Setting → Prop}
    (hR : Accountable R) : Recountable R where
  toHistory := hR.toHistory
  quiet hx := hR.beside hx.toBeside
  define := hR.define
  house m := by
    refine Tells.bind hR.toHistory (Tells.quietly (hR.beside Beside.refresh)) fun _ => ?_
    exact Tells.noting (hR.build m)
  attempt m := by
    have marked : Quiet (Action.modifyVm fun vm => { vm with stale := true }) :=
      Quiet.modifyVm fun _ => rfl
    refine Tells.bind hR.toHistory (Tells.quietly (hR.beside Beside.refresh)) fun _ => ?_
    refine Tells.bind hR.toHistory (Tells.quietly (hR.beside marked.toBeside)) fun _ => ?_
    exact Tells.noting (hR.build m)
  call := hR.call
  rebuilt := hR.rebuilt
  restored := hR.restored

/-- The relation does not mind that a failed rebuild is put off. -/
def PutsOff (R : Setting → List EngineRun → Except RuntimeError Unit → Setting → Prop) : Prop :=
  ∀ {s l e u}, R (Action.blank s) l (.error e) u →
    R s (l.map EngineRun.again) (.ok ()) ⟨Action.restore s.vm u.vm, u.host⟩

/-- A relation that holds of operations if it holds of the runs of the engine. -/
structure Throughout (R : Setting → List EngineRun → Except RuntimeError Unit → Setting → Prop) :
    Prop extends Accountable R where
  registerImport : ∀ o s, R s [] (succeeded (outcome (Action.registerImport o) s))
    (ending (Action.registerImport o) s)
  putOff : PutsOff R

/-- The operation changes the counts or the context by itself. -/
def Operation.amends : Operation → Bool
  | .amendStatistics _ => true
  | .amendContext _ => true
  | _ => false

namespace Recountable

variable {R : Setting → List EngineRun → Except RuntimeError Unit → Setting → Prop}
variable (hR : Recountable R) {α β : Type}

include hR

theorem quietly {x : Action α} (hx : Quiet x) : Tells R (quietly x) := Tells.quietly (hR.quiet hx)

theorem pure (a : α) : Tells R (Pure.pure a : Noted α) := Tells.pure hR.toHistory a

theorem bind {c : Noted α} {d : α → Noted β} (hc : Tells R c) (hd : ∀ a, Tells R (d a)) :
    Tells R (c >>= d) :=
  Tells.bind hR.toHistory hc hd

theorem vm {d : Vm → Noted β} (hd : ∀ vm, Tells R (d vm)) :
    Tells R (Chronicle.quietly Action.vm >>= d) :=
  hR.bind (hR.quietly Quiet.vm) hd

theorem tells_instantiateRegistered (name : String) (m : Module) :
    Tells R (Noted.instantiateRegistered name m) := by
  have h : Noted.instantiateRegistered name m =
      Noted.house m >>= fun index => Chronicle.quietly (Action.offer name index) :=
    (bind_assoc _ _ _).symm
  rw [h]
  exact hR.bind (hR.house m) fun index => hR.quietly (Quiet.offer name index)

theorem tells_replay? (name : String) : Tells R (Noted.replay? name) := by
  intro s
  change TellsAt R (Noted.replaySome name (s.vm.registered? name)) s
  cases hentry : s.vm.registered? name with
  | none => exact hR.pure () s
  | some entry =>
    cases entry with
    | imports linked functions =>
      exact fun l => Tells.withEvents (by rw [List.append_nil]; rfl) (hR.define hentry)
    | module m => exact hR.tells_instantiateRegistered name m s

theorem tells_replayAll : Tells R Noted.replayAll :=
  hR.vm fun _ => Tells.forM hR.toHistory hR.tells_replay? _

/-- What a rebuild comes to; the old store is put back if the entries cannot be replayed. -/
theorem rebuild_post (s : Setting) (l : List EngineRun) :
    Post Noted.rebuild (s, l) fun r p => ∃ new : List EngineRun,
      p.2 = l ++ new.map EngineRun.again ∧
      match r with
      | .ok _ => R s (new.map EngineRun.again) (.ok ()) p.1
      | .error e => ∃ u, R (Action.blank s) new (.error e) u ∧
          p.1 = ⟨Action.restore s.vm u.vm, u.host⟩ := by
  have hall := hR.tells_replayAll (Action.blank s) []
  have hrun : EStateM.run Noted.rebuild (s, l) = Noted.rebuild (s, l) := rfl
  unfold Noted.rebuild at hrun
  dsimp only at hrun
  cases hreplay : EStateM.run Noted.replayAll (Action.blank s, []) with
  | ok a p =>
    rw [hreplay] at hrun
    obtain ⟨new, hnew, htold⟩ := hall.ok hreplay
    rw [List.nil_append] at hnew
    exact Post.of_ok hrun ⟨new, by rw [hnew], hR.rebuilt htold⟩
  | error e p =>
    rw [hreplay] at hrun
    obtain ⟨new, hnew, htold⟩ := hall.error hreplay
    rw [List.nil_append] at hnew
    exact Post.of_error hrun ⟨new, by rw [hnew], p.1, htold, rfl⟩

theorem tells_rebuild : Tells R Noted.rebuild := by
  refine fun s l => Post.intro (fun _ p hp => ?_) fun e p hp => ?_
  · obtain ⟨new, hnew, htold⟩ := (hR.rebuild_post s l).ok hp
    exact ⟨_, hnew, htold⟩
  · obtain ⟨new, hnew, u, htold, hu⟩ := (hR.rebuild_post s l).error hp
    rw [hu]
    exact ⟨_, hnew, hR.restored htold⟩

theorem tells_reset (hputOff : PutsOff R) : Tells R Noted.reset := by
  have hcleared : Quiet (Action.modifyVm Action.cleared) := Quiet.modifyVm fun _ => rfl
  refine hR.bind (hR.quietly hcleared) fun _ => hR.vm fun vm => ?_
  split
  -- A rebuild that fails is put off, which makes its failure a success.
  · intro s l
    have hrun : EStateM.run (tryCatch Noted.rebuild fun _ => Pure.pure ()) (s, l) = _ :=
      run_tryCatch
    cases hp : EStateM.run Noted.rebuild (s, l) with
    | ok a p =>
      rw [hp] at hrun
      exact Post.of_ok hrun ((hR.tells_rebuild s l).ok hp)
    | error e p =>
      rw [hp] at hrun
      obtain ⟨new, hnew, u, htold, hu⟩ := (hR.rebuild_post s l).error hp
      exact Post.of_ok hrun ⟨_, hnew, hu ▸ hputOff htold⟩
  · exact hR.pure ()

theorem tells_load (hputOff : PutsOff R) (source : Source) : Tells R (Noted.load source) :=
  hR.bind (hR.tells_reset hputOff) fun _ => hR.quietly (Quiet.takeUp source)

theorem tells_prepare (m : Module) : Tells R (Noted.prepare m) := by
  refine hR.vm fun vm => ?_
  dsimp only
  split
  · exact hR.bind hR.tells_rebuild fun _ => hR.attempt m
  · exact hR.attempt m

theorem tells_start (m : Module) : Tells R (Noted.start m) := by
  refine hR.bind (hR.quietly Quiet.deactivate) fun _ => ?_
  refine hR.bind (hR.tells_prepare m) fun index => hR.quietly ?_
  exact (Quiet.modifyVm fun _ => rfl).bind fun _ => Quiet.modifyVm fun _ => rfl

theorem tells_validate : Tells R (Chronicle.quietly Action.validate) :=
  hR.quietly Quiet.validate

theorem tells_instantiate : Tells R Noted.instantiate := by
  refine hR.vm fun vm => ?_
  split
  · exact hR.quietly (Quiet.refuseStage _)
  · refine hR.bind hR.tells_validate fun _ => hR.vm fun vm => ?_
    cases vm.compiled with
    | none => exact hR.quietly (Quiet.refuseStage _)
    | some m => exact hR.tells_start m

theorem tells_call (address : Nat) (args : List Value) : Tells R (Noted.call address args) := by
  refine hR.vm fun vm => ?_
  refine hR.bind (hR.quietly (Quiet.ofExcept (fun _ => by nofun) _)) fun signature => ?_
  refine hR.bind (hR.quietly (Quiet.ofExcept (fun _ => by nofun) _)) fun _ => ?_
  exact Tells.noting (hR.call address signature args)

theorem tells_callFound (found : Option Nat) (args : List Value) {e : RuntimeError}
    (he : Unpriced e) : Tells R (match found with
      | some address => Noted.call address args
      | none => Chronicle.quietly (throw e)) := by
  cases found with
  | some address => exact hR.tells_call address args
  | none => exact hR.quietly (Quiet.throw he)

theorem tells_execute (name : String) (args : List Value) : Tells R (Noted.execute name args) := by
  refine hR.vm fun vm => ?_
  dsimp only
  split
  · exact hR.bind (hR.quietly (Quiet.throw nofun)) fun _ => hR.tells_callFound _ args nofun
  · exact hR.tells_callFound _ args nofun

theorem tells_executeRegistered (moduleName name : String) (args : List Value) :
    Tells R (Noted.executeRegistered moduleName name args) :=
  hR.vm fun _ => hR.tells_callFound _ args nofun

/-- The part of a whole run that comes after the module has been loaded. -/
theorem tells_runLoaded (name : String) (args : List Value) :
    Tells R (Chronicle.quietly Action.validate >>= fun _ => Noted.instantiate >>= fun _ =>
      Noted.execute name args) :=
  hR.bind hR.tells_validate fun _ => hR.bind hR.tells_instantiate fun _ =>
    hR.tells_execute name args

theorem tells_run (hputOff : PutsOff R) (source : Source) (name : String) (args : List Value) :
    Tells R (Noted.run source name args) :=
  hR.bind (hR.tells_load hputOff source) fun _ => hR.tells_runLoaded name args

theorem tells_register (name : String) (source : Source) :
    Tells R (Noted.register name source) := by
  refine hR.bind (hR.quietly (Quiet.open? source)) fun image => ?_
  refine hR.bind (hR.quietly (Quiet.checkName name)) fun _ => ?_
  refine hR.bind (hR.quietly (Quiet.compile image)) fun m => ?_
  refine hR.bind (hR.tells_instantiateRegistered name m) fun _ => ?_
  exact hR.quietly (Quiet.enter name m)

theorem tells_perform {o : Operation} (ho : o.amends = false)
    (hregister : ∀ object s, o = .registerImport object →
      R s [] (succeeded (outcome (Action.registerImport object) s))
        (ending (Action.registerImport object) s))
    (hputOff : o.replaces = true → PutsOff R) : Tells R (Noted.perform o) := by
  cases o with
  | load source => exact hR.tells_load (hputOff rfl) source
  | validate => exact hR.tells_validate
  | instantiate => exact hR.tells_instantiate
  | execute name args => exact hR.bind (hR.tells_execute name args) fun _ => hR.pure ()
  | executeRegistered moduleName name args =>
    exact hR.bind (hR.tells_executeRegistered moduleName name args) fun _ => hR.pure ()
  | run source name args =>
    exact hR.bind (hR.tells_run (hputOff rfl) source name args) fun _ => hR.pure ()
  | register name source => exact hR.tells_register name source
  | registerImport o => exact Tells.quietly fun s => hregister o s rfl
  | cleanup => exact hR.tells_reset (hputOff rfl)
  | amendStatistics f => cases ho
  | amendContext f => cases ho
  | amendWasi f =>
    have hamended : Quiet (Action.modifyVm fun vm => { vm with wasi := vm.wasi.map f }) :=
      Quiet.modifyVm fun _ => rfl
    exact hR.quietly hamended

/-- An operation is told by the runs of the engine, unless it changes the counts or the context by
itself; what else it may do that the relation minds has to be told apart. -/
theorem perform {o : Operation} (ho : o.amends = false)
    (hregister : ∀ object s, o = .registerImport object →
      R s [] (succeeded (outcome (Action.registerImport object) s))
        (ending (Action.registerImport object) s))
    (hputOff : o.replaces = true → PutsOff R) (s : Setting) :
    R s (s.runs o) (s.answer o) (s.after o) := by
  have h := (hR.tells_perform ho hregister hputOff).events (Noted.erases_perform o) s
  rwa [succeeded_unit] at h

end Recountable

/-- **An operation is told by the runs of the engine**, unless it changes the counts or the context
by itself. -/
theorem Throughout.perform
    {R : Setting → List EngineRun → Except RuntimeError Unit → Setting → Prop}
    (hR : Throughout R) {o : Operation} (ho : o.amends = false) (s : Setting) :
    R s (s.runs o) (s.answer o) (s.after o) :=
  hR.recountable.perform ho (fun object s _ => hR.registerImport object s) (fun _ => hR.putOff) s

end Vm

end WasmEmbedding
