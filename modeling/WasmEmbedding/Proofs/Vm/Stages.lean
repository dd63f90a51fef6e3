import WasmEmbedding.Proofs.Vm.Work

/-! # The stages of the main module

`Vm.Sound` says how the stage of a machine goes together with the three fields that keep its
main module: which of them are there, that the module was compiled from the image, and that the
instance is one of the module.  The fields are changed one at a time, and between two changes an
action can fail, so each operation of the pipeline comes with what it leaves on success and on
failure alike:

* `load_post`, `validate_post`, `instantiate_post`, `run_post` — the operations that move the
  stage, whatever the engine and the host make of them;
* `Grows` — what all other operations do to the main module: nothing.
-/
namespace WasmEmbedding

open Engine Wasm

namespace Vm

/-- The fields that keep the main module. -/
structure Main where
  config : VmConfig
  stage : Stage
  loaded : Option Image
  compiled : Option Module
  active : Option ActiveInstance

/-- The main module on record. -/
def Record.main (r : Record) : Main := ⟨r.config, r.stage, r.loaded, r.compiled, r.active⟩

/-- The main module of a machine. -/
def main (vm : Vm) : Main := vm.record.main

/-- An instance of a module is at an index of a store. -/
def HasInstance (c : Code) (index : Nat) (m : Module) : Prop :=
  ∃ (items : List Item) (i : Instance), c.Realizes index m items i

/-- The fields of a main module agree with its stage: what a module has to have at a stage is
there, and nothing else is. -/
inductive Main.Sound (c : Code) : Main → Prop
  | created (config : VmConfig) : Sound c ⟨config, .created, none, none, none⟩
  | loaded (config : VmConfig) (image : Image) : Sound c ⟨config, .loaded, some image, none, none⟩
  | validated (config : VmConfig) (image : Image) (m : Module)
      (valid : image.validate config.engine.features = .ok m) :
      Sound c ⟨config, .validated, some image, some m, none⟩
  | instantiated (config : VmConfig) (image : Image) (m : Module) (index : Nat)
      (valid : image.validate config.engine.features = .ok m) (found : HasInstance c index m) :
      Sound c ⟨config, .instantiated, some image, some m, some ⟨m, index⟩⟩

/-- The fields of a machine agree with its stage. -/
def Sound (vm : Vm) : Prop := vm.main.Sound vm.store.code

theorem Main.Sound.mono {c d : Code} {m : Main} (h : m.Sound c) (hcd : c.Extends d) :
    m.Sound d := by
  cases h with
  | created config => exact .created config
  | loaded config image => exact .loaded config image
  | validated config image m valid => exact .validated config image m valid
  | instantiated config image m index valid found =>
    obtain ⟨items, i, hi⟩ := found
    exact .instantiated config image m index valid ⟨items, i, hi.mono hcd⟩

/-- The main module is where it was, and the code of the store has grown at most. -/
structure Grows (s t : Setting) : Prop where
  main : t.vm.main = s.vm.main
  code : s.vm.store.code.Extends t.vm.store.code

instance : IsPreorder Setting Grows where
  refl _ := ⟨rfl, Std.Refl.refl _⟩
  trans _ _ _ h h' := ⟨h'.main.trans h.main, IsTrans.trans _ _ _ h.code h'.code⟩

theorem Works.main {s t : Setting} (h : Works s t) : t.vm.main = s.vm.main :=
  congrArg Record.main h.record

theorem Works.grows {s t : Setting} (h : Works s t) : Grows s t := ⟨h.main, h.code⟩

/-- Soundness stays while the store grows. -/
theorem Sound.grows {s t : Setting} (h : s.vm.Sound) (g : Grows s t) : t.vm.Sound := by
  unfold Sound
  rw [g.main]
  exact Main.Sound.mono h g.code

namespace Action

variable {α : Type}

theorem keeps_grows {x : Action α} (h : Keeps Works x) : Keeps Grows x :=
  h.mono fun _ _ h => h.grows

/-! ## Registering -/

/-- What becomes of an import object after its symbols have been defined. -/
def commit (o : Host.ImportObject) (linked : LinkedImports) : Action Unit :=
  match linked.environment with
  | some key => do
    modifyVm fun vm => { vm with environment := some key }
    refresh
    enter o.moduleName (.imports linked ((← vm).linkedFunctions Wasi.moduleName))
  | none => enter o.moduleName (.imports linked (Host.functionsOf linked.symbols))

theorem link_eq (o : Host.ImportObject) :
    link o = ofExcept .link o.snapshot >>= fun linked =>
      define linked >>= fun _ => commit o linked := by
  refine congrArg (ofExcept .link o.snapshot >>= ·) (funext fun linked => ?_)
  simp only [define, bind_assoc]
  rfl

theorem keeps_enter (name : String) (entry : Registered) : Keeps Grows (enter name entry) :=
  keeps_modifyVm fun _ => ⟨rfl, Std.Refl.refl _⟩

theorem keeps_commit (o : Host.ImportObject) (linked : LinkedImports) :
    Keeps Grows (commit o linked) := by
  unfold commit
  split
  · refine Keeps.bind (keeps_modifyVm fun _ => ⟨rfl, Std.Refl.refl _⟩) fun _ => ?_
    refine (keeps_grows (keeps_works keeps_refresh)).bind fun _ => ?_
    exact keeps_vm.bind fun _ => keeps_enter _ _
  · exact keeps_enter _ _

theorem keeps_link (o : Host.ImportObject) : Keeps Grows (link o) := by
  rw [link_eq]
  refine (keeps_ofExcept _ _).bind fun linked => ?_
  exact (keeps_grows (keeps_works (keeps_define linked))).bind fun _ => keeps_commit o linked

theorem keeps_checkName {R : Setting → Setting → Prop} [IsPreorder Setting R] (name : String) :
    Keeps R (checkName name) := by
  unfold checkName
  have taken : Keeps R (do
      if ((← vm).registered? name).isSome then throw (.link (.duplicateModule name))) := by
    refine keeps_vm.bind fun vm => ?_
    split
    · exact Keeps.throw _
    · exact Keeps.pure _
  split
  · exact (Keeps.throw _).bind fun _ => taken
  · exact taken

theorem keeps_registerImport (o : Host.ImportObject) : Keeps Grows (registerImport o) :=
  (keeps_checkName _).bind fun _ => keeps_link o

theorem keeps_register (name : String) (source : Source) : Keeps Grows (register name source) := by
  refine Keeps.bind (Keeps.get.bind fun _ => keeps_ofExcept _ _) fun image => ?_
  refine (keeps_checkName _).bind fun _ => ?_
  refine Keeps.bind (keeps_vm.bind fun _ => keeps_ofExcept _ _) fun m => ?_
  refine (keeps_grows (keeps_works (keeps_instantiateRegistered name m))).bind fun _ => ?_
  exact keeps_enter _ _

/-! ## Letting go of the main module -/

/-- A machine without a main module. -/
def cleared (vm : Vm) : Vm :=
  { vm with stage := .created, loaded := none, compiled := none, active := none }

/-- The main module of a machine that has none. -/
def noMain (config : VmConfig) : Main := ⟨config, .created, none, none, none⟩

theorem sound_of_noMain {vm : Vm} {config : VmConfig} (h : vm.main = noMain config) :
    vm.Sound := by
  unfold Sound
  rw [h]
  exact .created config

theorem sound_of_loaded {vm : Vm} {config : VmConfig} {image : Image}
    (h : vm.main = ⟨config, .loaded, some image, none, none⟩) : vm.Sound := by
  unfold Sound
  rw [h]
  exact .loaded config image

/-- **Letting go of the main module never fails**: a store that has seen one is rebuilt or
left as it is. -/
theorem run_reset (s : Setting) :
    EStateM.run reset s = .ok () (if s.vm.stale then
      ending rebuild { s with vm := cleared s.vm } else { s with vm := cleared s.vm }) := by
  have h : EStateM.run reset s = EStateM.run (if s.vm.stale then
      tryCatch rebuild (fun _ => pure ()) else pure ()) { s with vm := cleared s.vm } := rfl
  rw [h]
  split
  · rw [run_tryCatch]
    unfold ending
    cases EStateM.run rebuild { s with vm := cleared s.vm } <;> rfl
  · rfl

theorem main_reset (s : Setting) : (ending reset s).vm.main = noMain s.vm.config := by
  rw [ending_of_ok (run_reset s)]
  split
  · exact congrArg Record.main (keeps_rebuild { s with vm := cleared s.vm }).1
  · rfl

/-! ## Loading -/

theorem load_error {h : Host} {source : Source} {e : RuntimeError} (he : h.load source = .error e) :
    ∃ f, e = .load f := by
  have of_bytes : ∀ {bytes : List UInt8},
      (Image.ofBytes bytes).mapError .load = .error e → ∃ f, e = .load f := by
    intro bytes he
    cases hb : Image.ofBytes bytes with
    | ok image =>
      rw [hb] at he
      cases he
    | error f =>
      rw [hb] at he
      cases he
      exact ⟨f, rfl⟩
  cases source with
  | file path =>
    simp only [Host.load] at he
    split at he
    · exact of_bytes he
    · cases he
      exact ⟨_, rfl⟩
  | bytes bytes => exact of_bytes he
  | image image => cases he

/-- **A failed load leaves nothing loaded**, whatever was there. -/
theorem load_post (source : Source) (s : Setting) :
    Post (load source) s fun r t =>
      match r with
      | .ok _ => ∃ image, t.vm.main = ⟨s.vm.config, .loaded, some image, none, none⟩
      | .error e => (∃ f, e = .load f) ∧ t.vm.main = noMain s.vm.config := by
  have hreset := run_reset s
  refine Post.bind (fun _ t ht => ?_) fun e t ht => ?_
  · have hmain : t.vm.main = noMain s.vm.config := by
      rw [← main_reset s, ending_of_ok ht]
    refine Post.bind (fun image u hu => ?_) fun e u hu => ?_
    · obtain ⟨-, rfl⟩ := run_ofExcept_eq_ok.mp hu
      refine Post.of_ok rfl ⟨image, ?_⟩
      have hconfig : t.vm.config = s.vm.config := congrArg Main.config hmain
      have hcompiled : t.vm.compiled = none := congrArg Main.compiled hmain
      have hactive : t.vm.active = none := congrArg Main.active hmain
      change Main.mk t.vm.config .loaded (some image) t.vm.compiled t.vm.active = _
      rw [hconfig, hcompiled, hactive]
    · obtain ⟨⟨d, hd, rfl⟩, rfl⟩ := run_ofExcept_eq_error.mp hu
      exact ⟨load_error hd, hmain⟩
  · rw [hreset] at ht
    cases ht

/-! ## Validating -/

/-- What validation comes to, stage by stage. -/
theorem run_validate (s : Setting) :
    EStateM.run validate s =
      match s.vm.stage, s.vm.loaded with
      | .created, _ => .error (.wrongWorkflow "validate" "created") s
      | .loaded, none => .error (.wrongWorkflow "validate" "loaded") s
      | .loaded, some image =>
        match image.validate s.vm.config.engine.features with
        | .ok m => .ok () { s with vm := { s.vm with compiled := some m, stage := .validated } }
        | .error e => .error (.validation e) s
      | .validated, _ => .ok () s
      | .instantiated, _ => .ok () s := by
  obtain ⟨⟨config, store, linker, stage, loaded, compiled, active, registered, linkOrder, wasi,
    environment, stale, statistics⟩, host⟩ := s
  cases stage with
  | created => rfl
  | validated => rfl
  | instantiated => rfl
  | loaded =>
    cases loaded with
    | none => rfl
    | some image =>
      dsimp only
      have h : EStateM.run validate ⟨⟨config, store, linker, .loaded, some image, compiled, active,
          registered, linkOrder, wasi, environment, stale, statistics⟩, host⟩ =
        EStateM.run (ofExcept .validation (image.validate config.engine.features) >>= fun m => do
          modifyVm fun vm => { vm with compiled := some m }
          setStage .validated) ⟨⟨config, store, linker, .loaded, some image, compiled, active,
          registered, linkOrder, wasi, environment, stale, statistics⟩, host⟩ := rfl
      rw [h]
      cases image.validate config.engine.features <;> rfl

/-- A machine that is past `created` has a validated module afterwards, or the error says that
the module is not valid. -/
theorem validate_post {s : Setting} (h : s.vm.Sound) (hs : s.vm.stage ≠ .created) :
    Post validate s fun r t =>
      match r with
      | .ok _ => t.vm.Sound ∧ t.vm.loaded = s.vm.loaded ∧ (∃ m, t.vm.compiled = some m) ∧
          t.vm.stage = if s.vm.stage = .loaded then .validated else s.vm.stage
      | .error e => t = s ∧ s.vm.stage = .loaded ∧ ∃ d, e = .validation d := by
  have hsound : s.vm.Sound := h
  unfold Post outcome ending
  rw [run_validate]
  unfold Sound at h
  generalize hm : s.vm.main = main at h
  cases h with
  | created config => exact absurd (congrArg Main.stage hm) hs
  | loaded config image =>
    have hconfig : s.vm.config = config := congrArg Main.config hm
    have hstage : s.vm.stage = .loaded := congrArg Main.stage hm
    have hloaded : s.vm.loaded = some image := congrArg Main.loaded hm
    have hactive : s.vm.active = none := congrArg Main.active hm
    rw [hstage, hloaded]
    dsimp only
    cases hv : image.validate s.vm.config.engine.features with
    | error d => exact ⟨rfl, rfl, d, rfl⟩
    | ok m =>
      refine ⟨?_, hloaded, ⟨m, rfl⟩, rfl⟩
      have hmain : Main.mk s.vm.config .validated s.vm.loaded (some m) s.vm.active =
          ⟨config, .validated, some image, some m, none⟩ := by
        rw [hconfig, hloaded, hactive]
      unfold Sound
      change Main.Sound _ (Main.mk s.vm.config .validated s.vm.loaded (some m) s.vm.active)
      rw [hmain]
      exact .validated config image m (hconfig ▸ hv)
  | validated config image m valid =>
    have hstage : s.vm.stage = .validated := congrArg Main.stage hm
    have hcompiled : s.vm.compiled = some m := congrArg Main.compiled hm
    rw [hstage]
    exact ⟨hsound, rfl, ⟨m, hcompiled⟩, hstage⟩
  | instantiated config image m index valid found =>
    have hstage : s.vm.stage = .instantiated := congrArg Main.stage hm
    have hcompiled : s.vm.compiled = some m := congrArg Main.compiled hm
    rw [hstage]
    exact ⟨hsound, rfl, ⟨m, hcompiled⟩, hstage⟩

/-! ## Instantiating -/

/-- The part of starting a module that works on the store. -/
def prepare (m : Module) : Action Nat := do
  if (← vm).stale then rebuild
  refresh
  modifyVm fun vm => { vm with stale := true }
  instance? m

/-- Takes up an instance. -/
def activate (m : Module) (index : Nat) : Action Unit := do
  modifyVm fun vm => { vm with active := some ⟨m, index⟩ }
  setStage .instantiated

/-- Starting a module lets go of the instance before it, works on the store, and takes up the
new instance. -/
theorem start_eq (m : Module) : start m = deactivate >>= fun _ => prepare m >>= activate m := by
  refine congrArg (deactivate >>= ·) (funext fun _ => ?_)
  unfold prepare
  rw [bind_assoc]
  refine congrArg (vm >>= ·) (funext fun vm => ?_)
  split
  · simp only [bind_assoc]
    rfl
  · simp only [bind_assoc]
    rfl

theorem keeps_prepare (m : Module) : Keeps (SameBy fun s : Setting => s.vm.main) (prepare m) := by
  have rest : Keeps (SameBy fun s : Setting => s.vm.main) (refresh >>= fun _ =>
      modifyVm (fun vm => { vm with stale := true }) >>= fun _ => instance? m) := by
    refine Keeps.bind (keeps_refresh.mono fun _ _ h => h.main) fun _ => ?_
    refine Keeps.bind (keeps_modifyVm fun _ => rfl) fun _ => ?_
    exact (keeps_instance? m).mono fun _ _ h => h.main
  refine keeps_vm.bind fun vm => ?_
  dsimp only
  split
  · exact Keeps.bind (keeps_rebuild.mono fun _ _ h => congrArg Record.main h.1) fun _ => rest
  · exact rest

theorem throws_prepare (m : Module) : Throws RuntimeError.OfLinking (prepare m) := by
  have rest : Throws RuntimeError.OfLinking (refresh >>= fun _ =>
      modifyVm (fun vm => { vm with stale := true }) >>= fun _ => instance? m) :=
    throws_ofLinking_refresh.bind fun _ => Throws.modify.bind fun _ => throws_ofLinking_instance? m
  refine throws_vm.bind fun vm => ?_
  dsimp only
  split
  · exact throws_rebuild.bind fun _ => rest
  · exact rest

/-- The last part of the work on the store makes the instance. -/
theorem instance?_of_prepare {m : Module} {index : Nat} {s t : Setting}
    (h : EStateM.run (prepare m) s = .ok index t) :
    ∃ u, EStateM.run (instance? m) u = .ok index t := by
  have of_rest : ∀ {u : Setting}, EStateM.run (refresh >>= fun _ =>
      modifyVm (fun vm => { vm with stale := true }) >>= fun _ => instance? m) u = .ok index t →
      ∃ u, EStateM.run (instance? m) u = .ok index t := by
    intro u hu
    obtain ⟨-, v, -, hv⟩ := run_bind_eq_ok.mp hu
    obtain ⟨-, w, -, hw⟩ := run_bind_eq_ok.mp hv
    exact ⟨w, hw⟩
  obtain ⟨vm, u, -, hu⟩ := run_bind_eq_ok.mp h
  dsimp only at hu
  split at hu
  · obtain ⟨-, v, -, hv⟩ := run_bind_eq_ok.mp hu
    exact of_rest hv
  · exact of_rest hu

theorem hasInstance_of_prepare {m : Module} {index : Nat} {s t : Setting}
    (h : EStateM.run (prepare m) s = .ok index t) : HasInstance t.vm.store.code index m := by
  obtain ⟨u, hu⟩ := instance?_of_prepare h
  obtain ⟨-, items, i, -, hi⟩ := instance?_ok hu
  exact ⟨items, i, hi⟩

/-- The main module of a machine without its instance. -/
theorem main_deactivate {s : Setting} {m : Module} (h : s.vm.Sound)
    (hcompiled : s.vm.compiled = some m) :
    ∃ image t, EStateM.run deactivate s = .ok () t ∧ s.vm.loaded = some image ∧
      image.validate s.vm.config.engine.features = .ok m ∧
      t.vm.main = ⟨s.vm.config, .validated, some image, some m, none⟩ := by
  have hrun : EStateM.run deactivate s =
      EStateM.run (if s.vm.active.isSome then
        modifyVm (fun vm => { vm with active := none }) >>= fun _ => setStage .validated
      else pure ()) s := rfl
  rw [hrun]
  unfold Sound at h
  generalize hm : s.vm.main = main at h
  -- Something is compiled, so that only the last two stages remain.
  cases h with
  | created config => exact nomatch hcompiled.symm.trans (congrArg Main.compiled hm)
  | loaded config image => exact nomatch hcompiled.symm.trans (congrArg Main.compiled hm)
  | validated config image m' valid =>
    have hactive : s.vm.active = none := congrArg Main.active hm
    have hconfig : s.vm.config = config := congrArg Main.config hm
    have hloaded : s.vm.loaded = some image := congrArg Main.loaded hm
    have hmod : some m = some m' := hcompiled.symm.trans (congrArg Main.compiled hm)
    cases hmod
    rw [hactive, hconfig]
    exact ⟨image, s, rfl, hloaded, valid, hm⟩
  | instantiated config image m' index valid found =>
    have hactive : s.vm.active = some ⟨m', index⟩ := congrArg Main.active hm
    have hconfig : s.vm.config = config := congrArg Main.config hm
    have hloaded : s.vm.loaded = some image := congrArg Main.loaded hm
    have hmod : some m = some m' := hcompiled.symm.trans (congrArg Main.compiled hm)
    cases hmod
    rw [hactive]
    refine ⟨image, _, rfl, hloaded, hconfig ▸ valid, ?_⟩
    change Main.mk s.vm.config .validated s.vm.loaded s.vm.compiled none = _
    rw [hloaded, hcompiled]

/-- **Starting a validated module ends with an instance of it, or with none at all**: the old
instance is gone either way. -/
theorem start_post {s : Setting} {m : Module} (h : s.vm.Sound) (hm : s.vm.compiled = some m) :
    Post (start m) s fun r t => t.vm.Sound ∧ t.vm.loaded = s.vm.loaded ∧
      match r with
      | .ok _ => t.vm.stage = .instantiated
      | .error e => e.OfLinking ∧ t.vm.stage = .validated := by
  rw [start_eq]
  obtain ⟨image, u, hu, himage, valid, hmain⟩ := main_deactivate h hm
  refine Post.bind (fun _ t ht => ?_) fun e t ht => ?_
  · cases hu.symm.trans ht
    -- The work on the store does not touch the main module, which the last step completes.
    refine Post.bind (fun index v hv => ?_) fun e v hv => ?_
    · have hv' : v.vm.main = u.vm.main := (keeps_prepare m).ok hv
      have hfound := hasInstance_of_prepare hv
      rw [hmain] at hv'
      have hconfig : v.vm.config = s.vm.config := congrArg Main.config hv'
      have hloaded : v.vm.loaded = some image := congrArg Main.loaded hv'
      have hcompiled : v.vm.compiled = some m := congrArg Main.compiled hv'
      refine Post.of_ok rfl ⟨?_, hloaded.trans himage.symm, rfl⟩
      unfold Sound
      change Main.Sound _ (Main.mk v.vm.config .instantiated v.vm.loaded v.vm.compiled _)
      rw [hconfig, hloaded, hcompiled]
      exact .instantiated _ image m index valid hfound
    · have hv' : v.vm.main = u.vm.main := (keeps_prepare m).error hv
      rw [hmain] at hv'
      have hloaded : v.vm.loaded = some image := congrArg Main.loaded hv'
      refine ⟨?_, hloaded.trans himage.symm, throws_prepare m _ _ _ hv, congrArg Main.stage hv'⟩
      unfold Sound
      rw [hv']
      exact .validated _ image m valid
  · exact nomatch hu.symm.trans ht

/-- Nothing is instantiated at the first stage; at the others validation comes first. -/
theorem run_instantiate (s : Setting) :
    EStateM.run instantiate s = EStateM.run (if s.vm.stage = .created then
      refuseStage "instantiate"
    else validate >>= fun _ => vm >>= fun vm =>
      match vm.compiled with
      | none => refuseStage "instantiate"
      | some m => start m) s := by
  have hrun : EStateM.run instantiate s = EStateM.run (vm >>= fun vm =>
      if vm.stage = .created then refuseStage "instantiate"
      else validate >>= fun _ => Action.vm >>= fun vm =>
        match vm.compiled with
        | none => refuseStage "instantiate"
        | some m => start m) s := by
    unfold instantiate
    refine congrArg (EStateM.run · s) (congrArg (vm >>= ·) (funext fun vm => ?_))
    dsimp only
    split
    · rfl
    · rfl
  rw [hrun]
  rfl

/-- **A failed instantiation leaves the module loaded if it is not valid, and validated
otherwise**, whether or not there was an instance before. -/
theorem instantiate_post {s : Setting} (h : s.vm.Sound) :
    Post instantiate s fun r t => t.vm.Sound ∧ t.vm.loaded = s.vm.loaded ∧
      match r with
      | .ok _ => t.vm.stage = .instantiated
      | .error e => (s.vm.stage = .created ∧ t = s ∧ e = .wrongWorkflow "instantiate" "created") ∨
          (s.vm.stage = .loaded ∧ t = s ∧ ∃ d, e = .validation d) ∨
          (t.vm.stage = .validated ∧ s.vm.stage ≠ .created ∧ e.OfLinking) := by
  have hrun := run_instantiate s
  by_cases hs : s.vm.stage = .created
  · refine Post.of_error (e := .wrongWorkflow "instantiate" "created") ?_
      ⟨h, rfl, .inl ⟨hs, rfl, rfl⟩⟩
    rw [hrun, if_pos hs]
    change EStateM.Result.error (RuntimeError.wrongWorkflow "instantiate" s.vm.stage.name) s = _
    rw [hs]
    rfl
  · rw [if_neg hs] at hrun
    refine Post.of_run_eq hrun ?_
    have hvalidate := validate_post h hs
    refine Post.bind (fun _ t ht => ?_) fun e t ht => ?_
    · obtain ⟨hsound, hloaded, ⟨m, hm⟩, -⟩ := hvalidate.ok ht
      refine Post.bind (fun vm u hu => ?_) fun e u hu => nomatch hu
      cases hu
      rw [hm]
      refine Post.intro (fun _ v hv => ?_) fun e v hv => ?_
      · obtain ⟨hv', hsame, hstage⟩ := (start_post hsound hm).ok hv
        exact ⟨hv', hsame.trans hloaded, hstage⟩
      · obtain ⟨hv', hsame, he, hstage⟩ := (start_post hsound hm).error hv
        exact ⟨hv', hsame.trans hloaded, .inr (.inr ⟨hstage, hs, he⟩)⟩
    · obtain ⟨rfl, hstage, hd⟩ := hvalidate.error ht
      exact ⟨h, rfl, .inr (.inl ⟨hstage, rfl, hd⟩)⟩

/-! ## Running -/

/-- **A run stops at the first operation that fails**, and leaves the machine at the stage of
that operation. -/
theorem run_post (source : Source) (name : String) (args : List Value) (s : Setting) :
    Post (run source name args) s fun r t => t.vm.Sound ∧
      match r with
      | .ok _ => t.vm.stage = .instantiated
      | .error e => (t.vm.stage = .created ∧ ∃ f, e = .load f) ∨
          (t.vm.stage = .loaded ∧ ∃ d, e = .validation d) ∨
          (t.vm.stage = .validated ∧ e.OfLinking) ∨
          (t.vm.stage = .instantiated ∧ e.OfCalling) := by
  refine Post.bind (fun _ t ht => ?_) fun e t ht => ?_
  · obtain ⟨image, hmain⟩ := (load_post source s).ok ht
    have hstage : t.vm.stage = .loaded := congrArg Main.stage hmain
    have hsound : t.vm.Sound := sound_of_loaded hmain
    have hvalidate := validate_post hsound (by rw [hstage]; exact nofun)
    refine Post.bind (fun _ u hu => ?_) fun e u hu => ?_
    · obtain ⟨hsound, -, -, hvalid⟩ := hvalidate.ok hu
      rw [if_pos hstage] at hvalid
      have hinstantiate := instantiate_post hsound
      refine Post.bind (fun _ v hv => ?_) fun e v hv => ?_
      · obtain ⟨hsound, -, hinst⟩ := hinstantiate.ok hv
        refine Post.intro (fun _ w hw => ?_) fun e w hw => ?_
        · have hg := (keeps_grows (keeps_execute name args)).ok hw
          exact ⟨hsound.grows hg, (congrArg Main.stage hg.main).trans hinst⟩
        · have hg := (keeps_grows (keeps_execute name args)).error hw
          have he := throws_execute name args _ _ _ hw
          exact ⟨hsound.grows hg,
            .inr (.inr (.inr ⟨(congrArg Main.stage hg.main).trans hinst, he⟩))⟩
      · obtain ⟨hsound, -, ⟨hcreated, -⟩ | ⟨hloaded, -⟩ | ⟨hlinked, -, he⟩⟩ := hinstantiate.error hv
        · exact nomatch hvalid.symm.trans hcreated
        · exact nomatch hvalid.symm.trans hloaded
        · exact ⟨hsound, .inr (.inr (.inl ⟨hlinked, he⟩))⟩
    · obtain ⟨rfl, -, hd⟩ := hvalidate.error hu
      exact ⟨hsound, .inr (.inl ⟨hstage, hd⟩)⟩
  · obtain ⟨hf, hmain⟩ := (load_post source s).error ht
    exact ⟨sound_of_noMain hmain, .inl ⟨congrArg Main.stage hmain, hf⟩⟩

end Action

end Vm

end WasmEmbedding
