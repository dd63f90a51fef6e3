import WasmEmbedding.Proofs.Vm.Stages
import WasmEmbedding.Vm.Staging

/-! # Reachable machines

An `Operation` is one of the things that the owner of a machine can do with it; what it comes to
is decided by the machine and the host it runs on.  A setting is `Reachable` if it comes from
a new machine by operations, between which the host may become any other host: files come and
go, environments are replaced, import objects are deleted, other machines run.

The first thing that holds of every reachable machine is that its fields agree with its stage
(`sound`), and the stage after an operation is the one that `Operation.stageAfter` names
(`stages`).
-/
namespace WasmEmbedding.Vm

open Engine Wasm

/-- What the owner of a machine can do with it. -/
inductive Operation where
  | load (source : Source)
  | validate
  | instantiate
  | execute (name : String) (args : List Value)
  | executeRegistered (moduleName name : String) (args : List Value)
  | run (source : Source) (name : String) (args : List Value)
  | register (name : String) (source : Source)
  | registerImport (o : Host.ImportObject)
  | cleanup
  /-- Changes the counts or the limit. -/
  | amendStatistics (f : Statistics → Statistics)
  /-- Changes the context that guests share, such as the log. -/
  | amendContext (f : Context → Context)
  /-- Changes the built-in import object. -/
  | amendWasi (f : Host.ImportObject → Host.ImportObject)

namespace Operation

/-- The action of an operation, whatever it answers. -/
def perform : Operation → Action Unit
  | .load source => Action.load source
  | .validate => Action.validate
  | .instantiate => Action.instantiate
  | .execute name args => do let _ ← Action.execute name args
  | .executeRegistered moduleName name args => do
    let _ ← Action.executeRegistered moduleName name args
  | .run source name args => do let _ ← Action.run source name args
  | .register name source => Action.register name source
  | .registerImport o => Action.registerImport o
  | .cleanup => Action.cleanup
  | .amendStatistics f => Action.modifyVm fun vm => { vm with statistics := f vm.statistics }
  | .amendContext f => Action.modifyContext f
  | .amendWasi f => Action.modifyVm fun vm => { vm with wasi := vm.wasi.map f }

/-- The operation puts another main module in place of the one before, or none. -/
def replaces : Operation → Bool
  | .load _ => true
  | .run _ _ _ => true
  | .cleanup => true
  | _ => false

/-- The operation moves the main module through its stages. -/
def moves : Operation → Bool
  | .validate => true
  | .instantiate => true
  | o => o.replaces

end Operation

/-- The stage that an error of a whole run leaves a machine at: the one that the failing
operation starts from, or ends in. -/
def stageOf : RuntimeError → Stage
  | .load _ => .created
  | .validation _ => .loaded
  | .execution _ => .instantiated
  | .registry _ => .instantiated
  | _ => .validated

/-- The documented stage after an operation, given the stage before and the answer. -/
def Operation.stageAfter : Operation → Stage → Except RuntimeError Unit → Stage
  | .load _, _, .ok _ => .loaded
  | .load _, _, .error _ => .created
  | .validate, .loaded, .ok _ => .validated
  | .instantiate, _, .ok _ => .instantiated
  | .instantiate, .created, .error _ => .created
  | .instantiate, _, .error (.validation _) => .loaded
  | .instantiate, _, .error _ => .validated
  | .run _ _ _, _, .ok _ => .instantiated
  | .run _ _ _, _, .error e => stageOf e
  | .cleanup, _, _ => .created
  | _, stage, _ => stage

namespace Setting

/-- What a setting becomes by an operation. -/
def after (s : Setting) (o : Operation) : Setting := ending o.perform s

/-- What an operation answers. -/
def answer (s : Setting) (o : Operation) : Except RuntimeError Unit := outcome o.perform s

end Setting

/-- A setting that comes from a new machine. -/
inductive Reachable : Setting → Prop
  | new {host after : Host} {config : VmConfig} {vm : Vm}
      (h : Vm.new host config = (.ok vm, after)) : Reachable ⟨vm, after⟩
  | operate {s : Setting} (h : Reachable s) (o : Operation) : Reachable (s.after o)
  /-- Something else happens on the host. -/
  | elsewhere {s : Setting} (h : Reachable s) (host : Host) : Reachable { s with host }

/-! ## Invariants -/

/-- A new machine has linked the built-in import object, if it is to have one, and nothing else. -/
theorem new_ok {host after : Host} {config : VmConfig} {vm : Vm}
    (h : Vm.new host config = (.ok vm, after)) :
    EStateM.run (if config.hostRegistrations.wasi then enableWasi .empty else pure ())
      ⟨empty config host.newStore.1, host.newStore.2⟩ = .ok () ⟨vm, after⟩ := by
  rw [Vm.new] at h
  dsimp only at h
  rw [act] at h
  cases hr : EStateM.run (if config.hostRegistrations.wasi then enableWasi .empty else pure ())
      (⟨empty config host.newStore.1, host.newStore.2⟩ : Setting) with
  | ok a s =>
    rw [hr] at h
    cases h
    rfl
  | error e s =>
    rw [hr] at h
    cases h

/-- What holds of a machine with nothing linked, and stays true when it links its
built-in import object and whatever its owner does with it. -/
structure Invariant (I : Vm → Prop) : Prop where
  empty : ∀ config id, I (Vm.empty config id)
  enableWasi : ∀ config id host (e : Wasi.Environment) (t : Setting),
    EStateM.run (Vm.enableWasi e) ⟨Vm.empty config id, host⟩ = .ok () t → I t.vm
  operate : ∀ (s : Setting) (o : Operation), I s.vm → I (s.after o).vm

theorem Invariant.reachable {I : Vm → Prop} (hI : Invariant I) {s : Setting} (h : Reachable s) :
    I s.vm := by
  induction h with
  | @new host after config vm h =>
    have hrun := new_ok h
    split at hrun
    · exact hI.enableWasi config _ _ .empty _ hrun
    · cases hrun
      exact hI.empty config host.newStore.1
  | operate h o ih => exact hI.operate _ o ih
  | elsewhere h host ih => exact ih

theorem post_discard {α : Type} {x : Action α} {s : Setting}
    {P : Except RuntimeError Unit → Setting → Prop}
    (h : Post x s fun r t => P (r.map fun _ => ()) t) : Post (x >>= fun _ => pure ()) s P := by
  refine Post.bind (fun a t ht => ?_) fun e t ht => h.error ht
  exact Post.of_ok rfl (h.ok ht)

/-! ## Composite operations -/

/-- A machine from a configuration file is a new one, on another host at most. -/
theorem new_of_ofConfigFile {host after : Host} {file : ConfigFile} {vm : Vm}
    (h : Vm.ofConfigFile host file = (.ok vm, after)) :
    ∃ made, Vm.new host file.vm = (.ok vm, made) ∧ after.stores = made.stores := by
  unfold Vm.ofConfigFile at h
  split at h
  · cases h
  · rename_i vm' made hnew
    split at h
    · cases h
      exact ⟨_, hnew, rfl⟩
    · rename_i o _
      dsimp only at h
      split at h
      · rename_i replaced hreplaced
        cases h
        refine ⟨made, hnew, ?_⟩
        cases hstrings : Wasi.Environment.ofStrings file.wasi.args file.wasi.envs
            file.wasi.preopens with
        | error e =>
          rw [hstrings] at hreplaced
          cases hreplaced
        | ok e =>
          rw [hstrings] at hreplaced
          change made.replaceEnvironment o e = .ok after at hreplaced
          unfold Host.replaceEnvironment at hreplaced
          split at hreplaced <;> cases hreplaced
          rfl
      · cases h

theorem Reachable.ofConfigFile {host after : Host} {file : ConfigFile} {vm : Vm}
    (h : Vm.ofConfigFile host file = (.ok vm, after)) : Reachable ⟨vm, after⟩ := by
  obtain ⟨made, hnew, -⟩ := new_of_ofConfigFile h
  exact .elsewhere (.new hnew) after

/-- From a reachable setting comes another one. -/
def Reaches (s t : Setting) : Prop := Reachable s → Reachable t

instance : IsPreorder Setting Reaches where
  refl _ h := h
  trans _ _ _ h h' hs := h' (h hs)

/-- A run with data is a run between changes of the host that are not about import objects. -/
theorem keeps_runWithData {R : Setting → Setting → Prop} [IsPreorder Setting R] {source : Source}
    {name : String} {params : List Value}
    (hhost : ∀ (s : Setting) (h : Host), h.registry = s.host.registry →
      h.objects = s.host.objects → s.host.contexts.size ≤ h.contexts.size →
        h.stores = s.host.stores → R s { s with host := h })
    (hrun : ∀ s : Setting, R s (s.after (.run source name params)))
    (data : List UInt8) (args envs preopens : List String) :
    Keeps R (Action.runWithData source name data args envs preopens params) := by
  refine Action.keeps_vm.bind fun vm => ?_
  split
  · exact Keeps.throw _
  · rename_i o _
    have hwrite : Keeps R (Action.writeTemporary data) := fun s =>
      hhost s _ rfl rfl (Nat.le_refl _) rfl
    refine hwrite.bind fun path => ?_
    refine Keeps.tryFinally ?_ fun s => hhost s _ rfl rfl (Nat.le_refl _) rfl
    refine (Action.keeps_ofExcept _ _).bind fun e s => ?_
    change R s (ending (get >>= fun t : Setting =>
      Action.ofExcept .wasi (t.host.replaceEnvironment o e) >>= fun host =>
        Action.modifyHost (fun _ => host) >>= fun _ => Action.run source name params) s)
    unfold Host.replaceEnvironment
    cases o.environment with
    | none => exact Std.Refl.refl s
    | some key =>
      have hreplaced := hhost s (s.host.setEnvironment key e) rfl rfl (Nat.le_refl _) rfl
      refine IsTrans.trans _ _ _ hreplaced ?_
      have hafter := hrun { s with host := s.host.setEnvironment key e }
      rwa [Setting.after, Operation.perform, ending_discard] at hafter

theorem reaches_runWithData (source : Source) (name : String) (data : List UInt8)
    (args envs preopens : List String) (params : List Value) :
    Keeps Reaches (Action.runWithData source name data args envs preopens params) :=
  keeps_runWithData (fun _ _ _ _ _ _ h => h.elsewhere _) (fun _ h => h.operate _) data args envs
    preopens

/-- The host on which a run with data is made: the data are in a new file, and the built-in import
object has the environment that names it.  There is none without that object, or if the texts are
not in order. -/
def Setting.supplied (s : Setting) (data : List UInt8) (args envs preopens : List String) :
    Except WasiError Host :=
  match s.vm.wasi with
  | none => .error .notEnabled
  | some o => do
    let (path, files) := s.host.files.writeTemporary "tmp." ".bin" data
    let e ← stagedEnvironment args envs preopens path
    { s.host with files }.replaceEnvironment o e

/-- Nothing but files and environments is different on that host. -/
theorem Setting.stores_of_supplied {s : Setting} {data : List UInt8}
    {args envs preopens : List String} {host : Host}
    (h : s.supplied data args envs preopens = .ok host) :
    host.stores = s.host.stores := by
  unfold supplied at h
  split at h
  · cases h
  · obtain ⟨e, -, h⟩ := bind_eq_ok_iff.mp h
    unfold Host.replaceEnvironment at h
    split at h <;> cases h
    rfl

/-- A run with data does not get to its environment and leaves the machine as it is, or it comes to
what the run comes to on the host that has the data. -/
theorem runWithData_post (source : Source) (name : String) (data : List UInt8)
    (args envs preopens : List String) (params : List Value) (s : Setting) :
    Post (Action.runWithData source name data args envs preopens params) s fun r t =>
      (∃ e, s.supplied data args envs preopens = .error e ∧ r = .error (.wasi e) ∧ t.vm = s.vm) ∨
      ∃ host, s.supplied data args envs preopens = .ok host ∧
        r = outcome (Action.run source name params) ⟨s.vm, host⟩ ∧
        t.vm = (Setting.after ⟨s.vm, host⟩ (.run source name params)).vm ∧
        t.host.stores = (Setting.after ⟨s.vm, host⟩ (.run source name params)).host.stores := by
  refine Post.bind (fun _ _ ht => ?_) fun _ _ => nofun
  cases ht
  unfold Setting.supplied
  cases s.vm.wasi with
  | none => exact .inl ⟨_, rfl, rfl, rfl⟩
  | some o =>
    refine Post.bind (fun path t ht => ?_) fun _ _ => nofun
    obtain ⟨rfl, rfl⟩ : (s.host.files.writeTemporary "tmp." ".bin" data).1 = path ∧
        (⟨s.vm, { s.host with files := (s.host.files.writeTemporary "tmp." ".bin" data).2 }⟩ :
          Setting) = t := by
      cases ht
      exact ⟨rfl, rfl⟩
    dsimp only
    generalize s.host.files.writeTemporary "tmp." ".bin" data = made
    refine Post.tryFinally (fun _ => ⟨_, _, rfl⟩) ?_
    refine Post.bind (fun e u hu => ?_) fun e u hu => ?_
    · obtain ⟨he, rfl⟩ := Action.run_ofExcept_eq_ok.mp hu
      refine Post.bind (fun v v' hv => ?_) fun _ _ => nofun
      cases hv
      rw [he]
      refine Post.bind (fun host v hv => ?_) fun e v hv => ?_
      · obtain ⟨hhost, rfl⟩ := Action.run_ofExcept_eq_ok.mp hv
        refine Post.bind (fun _ w hw => ?_) fun _ _ => nofun
        cases hw
        refine .inr ⟨host, hhost, rfl, ?_, ?_⟩
        · rw [Setting.after, Operation.perform, ending_discard]
          rfl
        · rw [Setting.after, Operation.perform, ending_discard]
          rfl
      · obtain ⟨⟨d, hd, rfl⟩, rfl⟩ := Action.run_ofExcept_eq_error.mp hv
        exact .inl ⟨d, hd, rfl, rfl⟩
    · obtain ⟨⟨d, hd, rfl⟩, rfl⟩ := Action.run_ofExcept_eq_error.mp hu
      rw [hd]
      exact .inl ⟨d, rfl, rfl, rfl⟩

/-! ## The fields agree with the stage -/

/-- The built-in import object is linked like any other. -/
theorem run_enableWasi (e : Wasi.Environment) (s : Setting) :
    EStateM.run (enableWasi e) s =
      EStateM.run (Action.link (s.host.newWasiObject e).1 >>= fun _ =>
        Action.modifyVm fun vm => { vm with wasi := some (s.host.newWasiObject e).1 })
        { s with host := (s.host.newWasiObject e).2 } := rfl

/-- A machine that has linked the built-in import object has kept it besides. -/
theorem enableWasi_ok {e : Wasi.Environment} {s t : Setting}
    (h : EStateM.run (enableWasi e) s = .ok () t) : ∃ v,
      EStateM.run (Action.link (s.host.newWasiObject e).1)
        { s with host := (s.host.newWasiObject e).2 } = .ok () v ∧
      t = { v with vm := { v.vm with wasi := some (s.host.newWasiObject e).1 } } := by
  rw [run_enableWasi] at h
  obtain ⟨_, v, hv, ht⟩ := run_bind_eq_ok.mp h
  cases ht
  exact ⟨v, hv, rfl⟩

theorem keeps_enableWasi (e : Wasi.Environment) : Keeps Grows (enableWasi e) := by
  intro s
  have h : Keeps Grows (Action.link (s.host.newWasiObject e).1 >>= fun _ =>
      Action.modifyVm fun vm => { vm with wasi := some (s.host.newWasiObject e).1 }) := by
    refine (Action.keeps_link _).bind fun _ => ?_
    exact Action.keeps_modifyVm fun _ => ⟨rfl, Std.Refl.refl _⟩
  have hs := h { s with host := (s.host.newWasiObject e).2 }
  unfold ending at hs ⊢
  rw [run_enableWasi]
  exact ⟨hs.main, hs.code⟩

/-- The stages of the main module move by `moves` only. -/
theorem keeps_perform {o : Operation} (h : o.moves = false) : Keeps Grows o.perform := by
  cases o with
  | load source => cases h
  | validate => cases h
  | instantiate => cases h
  | run source name args => cases h
  | cleanup => cases h
  | execute name args =>
    exact (Action.keeps_grows (Action.keeps_execute name args)).bind fun _ => Keeps.pure _
  | executeRegistered moduleName name args =>
    refine Keeps.bind ?_ fun _ => Keeps.pure _
    exact Action.keeps_grows (Action.keeps_executeRegistered moduleName name args)
  | register name source => exact Action.keeps_register name source
  | registerImport o => exact Action.keeps_registerImport o
  | amendStatistics f => exact fun _ => ⟨rfl, Std.Refl.refl _⟩
  | amendContext f => exact fun _ => ⟨rfl, Std.Refl.refl _⟩
  | amendWasi f => exact fun _ => ⟨rfl, Std.Refl.refl _⟩

theorem stageAfter_of_moves {o : Operation} (h : o.moves = false) (stage : Stage)
    (r : Except RuntimeError Unit) : o.stageAfter stage r = stage := by
  cases o with
  | load source => cases h
  | validate => cases h
  | instantiate => cases h
  | run source name args => cases h
  | cleanup => cases h
  | _ => rfl

/-- An operation with the answer `r` has made `t` of `s` as documented: the machine is sound, its
stage is the one after the operation, and the image it has loaded stays unless it is replaced. -/
structure Conforms (s : Setting) (o : Operation) (r : Except RuntimeError Unit) (t : Setting) :
    Prop where
  sound : t.vm.Sound
  stage : t.vm.stage = o.stageAfter s.vm.stage r
  loaded : o.replaces = false → t.vm.loaded = s.vm.loaded

theorem conforms_load (source : Source) (s : Setting) :
    Post (Action.load source) s (Conforms s (.load source)) := by
  refine Post.intro (fun _ t ht => ?_) fun e t ht => ?_
  · obtain ⟨image, hmain⟩ := (Action.load_post source s).ok ht
    exact ⟨Action.sound_of_loaded hmain, congrArg Main.stage hmain, nofun⟩
  · obtain ⟨-, hmain⟩ := (Action.load_post source s).error ht
    exact ⟨Action.sound_of_noMain hmain, congrArg Main.stage hmain, nofun⟩

theorem conforms_validate {s : Setting} (h : s.vm.Sound) :
    Post Action.validate s (Conforms s .validate) := by
  by_cases hs : s.vm.stage = .created
  · have hrun := Action.run_validate s
    rw [hs] at hrun
    refine Post.of_error hrun ⟨h, ?_, fun _ => rfl⟩
    rw [hs]
    rfl
  · refine Post.intro (fun _ t ht => ?_) fun e t ht => ?_
    · obtain ⟨hsound, hloaded, -, hstage⟩ := (Action.validate_post h hs).ok ht
      refine ⟨hsound, ?_, fun _ => hloaded⟩
      rw [hstage]
      cases s.vm.stage <;> rfl
    · obtain ⟨rfl, hstage, -⟩ := (Action.validate_post h hs).error ht
      refine ⟨h, ?_, fun _ => rfl⟩
      rw [hstage]
      rfl

theorem conforms_instantiate {s : Setting} (h : s.vm.Sound) :
    Post Action.instantiate s (Conforms s .instantiate) := by
  refine Post.intro (fun _ t ht => ?_) fun e t ht => ?_
  · obtain ⟨hsound, hloaded, hstage⟩ := (Action.instantiate_post h).ok ht
    exact ⟨hsound, hstage, fun _ => hloaded⟩
  · obtain ⟨hsound, hloaded, hcase⟩ := (Action.instantiate_post h).error ht
    refine ⟨hsound, ?_, fun _ => hloaded⟩
    rcases hcase with ⟨hs, rfl, rfl⟩ | ⟨hs, rfl, d, rfl⟩ | ⟨hstage, hs, he⟩
    · rw [hs]
      rfl
    · rw [hs]
      rfl
    · rw [hstage]
      -- No error of linking is one of validation, whatever the stage was.
      cases hsv : s.vm.stage with
      | created => exact absurd hsv hs
      | loaded => cases he <;> rfl
      | validated => cases he <;> rfl
      | instantiated => cases he <;> rfl

theorem conforms_run (source : Source) (name : String) (args : List Value) (s : Setting) :
    Post (Operation.run source name args).perform s (Conforms s (.run source name args)) := by
  refine post_discard (Post.intro (fun values t ht => ?_) fun e t ht => ?_)
  · obtain ⟨hsound, hstage⟩ := (Action.run_post source name args s).ok ht
    exact ⟨hsound, hstage, nofun⟩
  · obtain ⟨hsound, hcase⟩ := (Action.run_post source name args s).error ht
    refine ⟨hsound, ?_, nofun⟩
    rcases hcase with ⟨hstage, f, rfl⟩ | ⟨hstage, d, rfl⟩ | ⟨hstage, he⟩ | ⟨hstage, he⟩
    · exact hstage
    · exact hstage
    · cases he <;> exact hstage
    · cases he <;> exact hstage

theorem conforms_cleanup (s : Setting) : Post Action.cleanup s (Conforms s .cleanup) := by
  have hmain := Action.main_reset s
  have hrun := Action.run_reset s
  rw [ending_of_ok hrun] at hmain
  exact Post.of_ok hrun ⟨Action.sound_of_noMain hmain, congrArg Main.stage hmain, nofun⟩

/-- Every operation keeps to what is documented. -/
theorem conforms_perform {s : Setting} (h : s.vm.Sound) (o : Operation) :
    Post o.perform s (Conforms s o) := by
  by_cases hmoves : o.moves = false
  · have hg : Grows s (ending o.perform s) := keeps_perform hmoves s
    refine ⟨h.grows hg, ?_, fun _ => congrArg Main.loaded hg.main⟩
    rw [stageAfter_of_moves hmoves]
    exact congrArg Main.stage hg.main
  · cases o with
    | load source => exact conforms_load source s
    | validate => exact conforms_validate h
    | instantiate => exact conforms_instantiate h
    | run source name args => exact conforms_run source name args s
    | cleanup => exact conforms_cleanup s
    | _ => exact absurd rfl hmoves

theorem invariant_sound : Invariant Sound where
  empty config _ := .created config
  enableWasi config id host e t ht := by
    have h : (Vm.empty config id).Sound := .created config
    exact h.grows (s := ⟨Vm.empty config id, host⟩) ((keeps_enableWasi e).ok ht)
  operate _ o h := (conforms_perform h o).sound

/-- The fields of a machine agree with its stage, field by field. -/
structure Coherent (vm : Vm) : Prop where
  created_iff : vm.stage = .created ↔ vm.loaded = none
  nothing_of_created : vm.stage = .created → vm.compiled = none ∧ vm.active = none
  loaded_iff : vm.stage = .loaded ↔
    vm.loaded.isSome ∧ vm.compiled = none ∧ vm.active = none
  validated_iff : vm.stage = .validated ↔
    vm.loaded.isSome ∧ vm.compiled.isSome ∧ vm.active = none
  instantiated_iff : vm.stage = .instantiated ↔ vm.active.isSome
  /-- What is compiled is the module of the image that is loaded. -/
  compiled_eq : ∀ m, vm.compiled = some m →
    ∃ image, vm.loaded = some image ∧ image.validate vm.config.engine.features = .ok m
  /-- The instance is one of the compiled module. -/
  active_eq : ∀ a, vm.active = some a →
    vm.compiled = some a.module ∧ HasInstance vm.store.code a.index a.module

theorem Sound.coherent {vm : Vm} (h : vm.Sound) : vm.Coherent := by
  obtain ⟨config, store, linker, stage, loaded, compiled, active, registered, linkOrder, wasi,
    environment, stale, statistics⟩ := vm
  cases h with
  | created =>
    exact ⟨by simp, by simp, by simp, by simp, by simp, fun _ h => (nomatch h),
      fun _ h => (nomatch h)⟩
  | loaded _ image =>
    exact ⟨by simp, by simp, by simp, by simp, by simp, fun _ h => (nomatch h),
      fun _ h => (nomatch h)⟩
  | validated _ image m valid =>
    refine ⟨by simp, by simp, by simp, by simp, by simp, ?_, fun _ h => (nomatch h)⟩
    rintro _ ⟨⟩
    exact ⟨image, rfl, valid⟩
  | instantiated _ image m index valid found =>
    refine ⟨by simp, by simp, by simp, by simp, by simp, ?_, ?_⟩
    · rintro _ ⟨⟩
      exact ⟨image, rfl, valid⟩
    · rintro _ ⟨⟩
      exact ⟨rfl, found⟩

/-- An operation that the first stage does not allow. -/
theorem refused_of_created {s : Setting} (h : s.vm.stage = .created) :
    EStateM.run Action.validate s = .error (.wrongWorkflow "validate" "created") s ∧
      EStateM.run Action.instantiate s = .error (.wrongWorkflow "instantiate" "created") s := by
  constructor
  · rw [Action.run_validate, h]
  · have hrun : EStateM.run Action.instantiate s =
        EStateM.run (Action.refuseStage "instantiate") s := by
      rw [Action.run_instantiate, if_pos h]
    rw [hrun]
    change EStateM.Result.error (RuntimeError.wrongWorkflow "instantiate" s.vm.stage.name) s = _
    rw [h]
    rfl

/-- An image that is not valid is neither validated nor instantiated. -/
theorem refused_of_invalid {s : Setting} {image : Image} {d : String} (h : s.vm.stage = .loaded)
    (hloaded : s.vm.loaded = some image)
    (hd : image.validate s.vm.config.engine.features = .error d) :
    EStateM.run Action.validate s = .error (.validation d) s ∧
      EStateM.run Action.instantiate s = .error (.validation d) s := by
  have hvalidate : EStateM.run Action.validate s = .error (.validation d) s := by
    rw [Action.run_validate, h, hloaded]
    dsimp only
    rw [hd]
  refine ⟨hvalidate, ?_⟩
  rw [Action.run_instantiate, if_neg (by rw [h]; exact nofun)]
  exact run_bind_of_error hvalidate

/-- **The fields of a reachable machine agree with its stage, and every operation ends at its
documented stage**, whether it succeeds or fails: a failed load at `created`, a failed validation
where it was, a failed instantiation at `loaded` if the module is not valid and at `validated`
otherwise, a failed run at the stage of the operation that failed, and everything that is not
about the main module where the machine was, with the same main module. -/
theorem stages {s : Setting} (h : Reachable s) :
    s.vm.Coherent ∧
    (∀ o : Operation,
      (s.after o).vm.stage = o.stageAfter s.vm.stage (s.answer o) ∧
      (o.moves = false → (s.after o).vm.main = s.vm.main) ∧
      (o.replaces = false → (s.after o).vm.loaded = s.vm.loaded)) ∧
    (s.vm.stage = .created →
      s.answer .validate = .error (.wrongWorkflow "validate" "created") ∧
      s.answer .instantiate = .error (.wrongWorkflow "instantiate" "created") ∧
      s.after .validate = s ∧ s.after .instantiate = s) ∧
    (∀ image d, s.vm.stage = .loaded → s.vm.loaded = some image →
      image.validate s.vm.config.engine.features = .error d →
      s.answer .validate = .error (.validation d) ∧
      s.answer .instantiate = .error (.validation d) ∧
      s.after .validate = s ∧ s.after .instantiate = s) := by
  have hsound : s.vm.Sound := invariant_sound.reachable h
  refine ⟨hsound.coherent, fun o => ?_, fun hs => ?_, fun image d hs hloaded hd => ?_⟩
  · obtain ⟨-, hstage, hloaded⟩ := conforms_perform hsound o
    exact ⟨hstage, fun hmoves => (keeps_perform hmoves s).main, hloaded⟩
  · obtain ⟨hv, hi⟩ := refused_of_created hs
    exact ⟨outcome_of_error hv, outcome_of_error hi, ending_of_error hv, ending_of_error hi⟩
  · obtain ⟨hv, hi⟩ := refused_of_invalid hs hloaded hd
    exact ⟨outcome_of_error hv, outcome_of_error hi, ending_of_error hv, ending_of_error hi⟩

/-- The bytes of a module with nothing in it. -/
def emptyBytes : List UInt8 := [0, 0x61, 0x73, 0x6d, 1, 0, 0, 0]

/-- A new machine after it has loaded a module with nothing in it. -/
def emptyLoaded : Setting :=
  Setting.after ⟨empty {} ⟨0⟩, (Host.newStore {}).2⟩ (.load (.bytes emptyBytes))

theorem reachable_emptyLoaded : Reachable emptyLoaded := by
  have hnew : Vm.new {} {} = (.ok (empty {} ⟨0⟩), (Host.newStore {}).2) := rfl
  exact .operate (.new hnew) _

/-- Instantiating a module with nothing in it. -/
theorem stages_emptyLoaded :
    Reachable emptyLoaded ∧ emptyLoaded.vm.Coherent ∧
      (emptyLoaded.after .instantiate).vm.stage =
        Operation.instantiate.stageAfter .loaded (emptyLoaded.answer .instantiate) ∧
      (emptyLoaded.after .instantiate).vm.stage = .instantiated := by
  have h := stages reachable_emptyLoaded
  have hloaded : emptyLoaded.vm.stage = .loaded := by decide +kernel
  refine ⟨reachable_emptyLoaded, h.1, ?_, by decide +kernel⟩
  rw [← hloaded]
  exact (h.2.1 .instantiate).1

end WasmEmbedding.Vm
