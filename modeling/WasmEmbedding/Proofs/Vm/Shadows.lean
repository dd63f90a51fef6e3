import WasmEmbedding.Proofs.Vm.Renaming
import WasmEmbedding.Proofs.Vm.Stages
import WasmEmbedding.Vm.Staging

/-! # Machines on a host of their own

A machine on a host of its own has a companion on any host that this one is woven into
(`Vm.Shadows`): the same machine under the numbers that are known there.  Every action comes to the
same for both, and leaves them companions (`Vm.Echoes`).  Where a call fails because the host does
not know a function, the two numbers may differ, and so may the words of an instantiation that fails
for this reason (`RuntimeError.Like`).

What a machine does with the engine is `Engine.Echoes`; what is left are the parts of the pipeline,
which look at what is the same under other numbers, and the parts of the link environment, which
define import objects under other numbers.
-/
namespace WasmEmbedding

open Engine Host Wasm

/-- Two errors are the same but for the number of a function that is not known, which the error of
an instantiation quotes. -/
inductive RuntimeError.Like : RuntimeError → RuntimeError → Prop
  | refl (e : RuntimeError) : Like e e
  | unknown (a b : Nat) :
    Like (.registry (.unknownHostFunction a)) (.registry (.unknownHostFunction b))
  | quoted (a b : Nat) :
    Like (.instantiation (RegistryError.unknownHostFunction a).message)
      (.instantiation (RegistryError.unknownHostFunction b).message)

theorem Engine.Stop.Like.message {e e' : Stop} (h : e.Like e') :
    (RuntimeError.instantiation e.message).Like (.instantiation e'.message) := by
  cases h with
  | refl => exact .refl _
  | unknown a b => exact .quoted a b

namespace Host.Woven

variable {names others : String → Prop} {σ τ : Renaming} {k g h : Host}
  (H : Woven names others σ τ k g h)

include H

theorem files : h.files = g.files := congrArg Surroundings.files H.surroundings

/-- The same files hold the same modules. -/
theorem load (source : Source) : h.load source = g.load source := by
  cases source with
  | file path =>
    unfold Host.load
    rw [H.files]
  | bytes | image => rfl

/-- An environment is replaced on both hosts or on none. -/
theorem replaceEnvironment {o : ImportObject} (ho : o.Known σ) (e : Wasi.Environment) :
    Likewise Eq (fun g' h' => Woven names others σ τ k g' h') (g.replaceEnvironment o e)
      (h.replaceEnvironment (o.rename σ) e) := by
  unfold Host.replaceEnvironment
  have hrename : (o.rename σ).environment = o.environment.map σ.environment := rfl
  rw [hrename]
  cases hkey : o.environment with
  | none => exact .error rfl
  | some key => exact .ok (H.setEnvironment (ho.environment key hkey) e)

end Host.Woven

namespace Vm

/-- The second setting is the first on a host that its host is woven into. -/
inductive Shadows (names others : String → Prop) (σ τ : Renaming) (k : Host) :
    Setting → Setting → Prop
  | intro {v : Vm} {g h : Host} (known : v.Known σ) (hosts : Woven names others σ τ k g h) :
    Shadows names others σ τ k ⟨v, g⟩ ⟨v.rename σ, h⟩

/-- Actions that come to the same for companions. -/
abbrev Matches (names others : String → Prop) (σ τ : Renaming) (k : Host) {α β : Type}
    (A : α → β → Prop) (x : Action α) (y : Action β) : Prop :=
  Tallies (Shadows names others σ τ k) RuntimeError.Like A x y

/-- An action that comes to the same for companions. -/
abbrev Echoes (names others : String → Prop) (σ τ : Renaming) (k : Host) {α : Type}
    (x : Action α) : Prop :=
  Matches names others σ τ k Eq x x

namespace Action

variable {α β : Type} {names others : String → Prop} {σ τ : Renaming} {k : Host}

/-! ## Parts of actions -/

/-- Looking at the machine. -/
theorem matches_vm {f f' : Vm → Action β}
    (h : ∀ vm, vm.Known σ → Matches names others σ τ k Eq (f vm) (f' (vm.rename σ))) :
    Matches names others σ τ k Eq (vm >>= f) (vm >>= f') := by
  rintro _ _ ⟨known, hosts⟩
  exact h _ known _ _ (.intro known hosts)

/-- Looking at what is the same under other numbers. -/
theorem echoes_vm {f : Vm → Action β} (h : ∀ vm : Vm, f (vm.rename σ) = f vm)
    (hf : ∀ vm, Echoes names others σ τ k (f vm)) : Echoes names others σ τ k (vm >>= f) :=
  matches_vm fun vm _ => by
    rw [h]
    exact hf vm

theorem matches_modifyVm {f f' : Vm → Vm}
    (h : ∀ vm, vm.Known σ → (f vm).Known σ ∧ f' (vm.rename σ) = (f vm).rename σ) :
    Matches names others σ τ k Eq (modifyVm f) (modifyVm f') := by
  refine Tallies.modify ?_
  rintro _ _ ⟨known, hosts⟩
  obtain ⟨hknown, heq⟩ := h _ known
  rw [heq]
  exact .intro hknown hosts

/-- Changing what brings no numbers. -/
theorem echoes_modifyVm {f : Vm → Vm}
    (h : ∀ vm, vm.Known σ → (f vm).Known σ ∧ f (vm.rename σ) = (f vm).rename σ) :
    Echoes names others σ τ k (modifyVm f) :=
  matches_modifyVm h

theorem echoes_modifyContext (f : Context → Context) :
    Echoes names others σ τ k (modifyContext f) :=
  echoes_modifyVm fun _ known => ⟨{ known with store := known.store }, rfl⟩

theorem echoes_ofExcept {ε : Type} (f : ε → RuntimeError) (r : Except ε α) :
    Echoes names others σ τ k (ofExcept f r) := by
  cases r with
  | ok a => exact Tallies.pure rfl
  | error e => exact Tallies.throw (.refl _)

theorem matches_ofExcept {ε ε' : Type} {E : ε → ε' → Prop} {A : α → β → Prop}
    {f : ε → RuntimeError} {f' : ε' → RuntimeError} (hf : ∀ e e', E e e' → (f e).Like (f' e'))
    {r : Except ε α} {r' : Except ε' β} (h : Likewise E A r r') :
    Matches names others σ τ k A (ofExcept f r) (ofExcept f' r') := by
  cases h with
  | ok ha => exact Tallies.pure ha
  | error he => exact Tallies.throw (hf _ _ he)

protected theorem throw (e : RuntimeError) : Echoes names others σ τ k (throw e : Action α) :=
  Tallies.throw (.refl e)

/-! ## Work of the engine -/

/-- **What comes to the same for machines that run comes to the same as an action**, and takes the
same fuel. -/
theorem matches_compute {x : Exec α} (hx : Engine.Echoes names others σ τ k x) :
    Matches names others σ τ k (fun a b => Likewise Stop.Like Eq a.1 b.1 ∧ a.2 = b.2) (compute x)
      (compute x) := by
  rintro _ _ ⟨known, hosts⟩
  rename_i vm g h
  have hshadows :
      Engine.Shadows names others σ τ k (computer ⟨vm, g⟩) (computer ⟨vm.rename σ, h⟩) :=
    .intro (m := computer ⟨vm, g⟩) known.store hosts
  obtain ⟨houtcome, hending⟩ := hx.outcome_ending hshadows
  rw [run_compute, run_compute]
  generalize ending x (computer ⟨vm, g⟩) = m, ending x (computer ⟨vm.rename σ, h⟩) = n at hending ⊢
  cases hending with
  | intro hknown hhosts =>
    exact .ok ⟨houtcome, rfl⟩ (.intro (v := { vm with store := m.store })
      { known with store := hknown } hhosts)

theorem echoes_build (bulkMemory : Bool) (linker : Linker) (m : Module) :
    Engine.Echoes names others σ τ k (build bulkMemory linker m) := by
  have hresolve : ∀ (n : Machine) (o : Guise),
      linker.resolve (n.withOuter o).store m = linker.resolve n.store m := by
    intro n o
    unfold Linker.resolve
    refine congrArg (m.imports.mapM ·) (funext fun i => ?_)
    have hfits : ∀ (e : ImportType) (item : Item), Linker.fits (n.withOuter o).store m e item =
        Linker.fits n.store m e item := by
      intro e item
      cases e <;> cases item
      case function.function t a =>
        have htype := n.functionType?_withOuter o a
        dsimp only [Linker.fits]
        rw [htype]
      all_goals rfl
    unfold Linker.resolveOne
    simp only [hfits]
  refine .get (fun n => ?_) fun n o => ?_
  · split
    · exact Exec.echoes_instantiate _ _ _
    · exact Engine.Echoes.throw _
  · rw [hresolve]

theorem echoes_instance? (m : Module) : Echoes names others σ τ k (instance? m) := by
  refine echoes_vm (fun _ => rfl) fun vm => ?_
  refine (matches_compute (echoes_build _ vm.linker m)).bind fun a b hab => ?_
  obtain ⟨outcome, fuel⟩ := a
  obtain ⟨outcome', fuel'⟩ := b
  obtain ⟨hlike, hfuel⟩ := hab
  dsimp only at hlike hfuel ⊢
  rw [← hfuel]
  refine Tallies.seq (echoes_modifyVm fun _ known => ⟨{ known with store := known.store }, rfl⟩)
    fun _ => ?_
  exact matches_ofExcept (fun _ _ he => he.message) hlike

/-- A session is started under the same environment, among the same files. -/
theorem echoes_refresh : Echoes names others σ τ k refresh := by
  rintro _ _ ⟨known, hosts⟩
  rename_i vm g h
  cases hkey : vm.environment with
  | none =>
    have hrename : (vm.rename σ).environment = none := congrArg (Option.map σ.environment) hkey
    have hrun := run_refresh_of_none (s := ⟨vm, g⟩) hkey
    have hrun' := run_refresh_of_none (s := ⟨vm.rename σ, h⟩) hrename
    rw [hrun, hrun']
    exact .ok rfl (.intro known hosts)
  | some key =>
    have hrename : (vm.rename σ).environment = some (σ.environment key) :=
      congrArg (Option.map σ.environment) hkey
    have hstart : Wasi.Session.start h.files (h.environment (σ.environment key)) =
        Wasi.Session.start g.files (g.environment key) := by
      rw [hosts.own.environment (known.environment key hkey), hosts.files]
    cases hsession : Wasi.Session.start g.files (g.environment key) with
    | error e =>
      have hrun := (run_refresh_eq_error (s := ⟨vm, g⟩) hkey).mpr ⟨e, hsession, rfl, rfl⟩
      have hrun' := (run_refresh_eq_error (s := ⟨vm.rename σ, h⟩) hrename).mpr
        ⟨e, hstart.trans hsession, rfl, rfl⟩
      rw [hrun, hrun']
      exact .error (.refl _) (.intro known hosts)
    | ok session =>
      have hrun := (run_refresh_eq_ok (s := ⟨vm, g⟩) hkey).mpr ⟨session, hsession, rfl⟩
      have hrun' := (run_refresh_eq_ok (s := ⟨vm.rename σ, h⟩) hrename).mpr
        ⟨session, hstart.trans hsession, rfl⟩
      rw [hrun, hrun']
      exact .ok rfl (.intro (v := (begun ⟨vm, g⟩ session).vm) { known with store := known.store }
        hosts)

/-! ## The link environment -/

/-- **An import object is defined under its numbers.** -/
theorem matches_define {l : LinkedImports} (hl : l.Known σ) :
    Matches names others σ τ k Eq (define l) (define (l.rename σ)) := by
  rintro _ _ ⟨known, hosts⟩
  rename_i vm g h
  have hdefine : (l.rename σ).define (vm.rename σ).store (vm.rename σ).linker = _ :=
    l.define_rename vm.store vm.linker
  cases hd : l.define vm.store vm.linker with
  | error e =>
    have hrun := run_define_eq_error (s := ⟨vm, g⟩).mpr ⟨hd, rfl⟩
    rw [hd] at hdefine
    have hrun' := run_define_eq_error (s := ⟨vm.rename σ, h⟩).mpr ⟨hdefine, rfl⟩
    rw [hrun, hrun']
    exact .error (.refl e) (.intro known hosts)
  | ok r =>
    have hrun := run_define_eq_ok (s := ⟨vm, g⟩).mpr ⟨r.1, r.2, hd, rfl⟩
    rw [hd] at hdefine
    have hrun' := run_define_eq_ok (s := ⟨vm.rename σ, h⟩).mpr ⟨_, _, hdefine, rfl⟩
    rw [hrun, hrun']
    exact .ok rfl (.intro (v := { vm with store := r.1, linker := r.2 })
      { known with store := hl.define known.store hd } hosts)

theorem echoes_place (name : String) (m : Module) : Echoes names others σ τ k (place name m) := by
  refine (echoes_instance? m).seq fun index => echoes_vm (fun _ => rfl) fun vm => ?_
  split
  · exact echoes_modifyVm fun _ known => ⟨{ known with store := known.store }, rfl⟩
  · exact Action.throw _

theorem echoes_instantiateRegistered (name : String) (m : Module) :
    Echoes names others σ τ k (instantiateRegistered name m) :=
  echoes_refresh.seq fun _ => echoes_place name m

theorem matches_replay (name : String) {entry : Registered} (h : entry.Known σ) :
    Matches names others σ τ k Eq (replay name entry) (replay name (entry.rename σ)) := by
  cases entry with
  | module m => exact echoes_instantiateRegistered name m
  | imports linked functions => exact matches_define h

theorem echoes_replayAll : Echoes names others σ τ k replayAll := by
  refine echoes_vm (fun _ => rfl) fun vm => Tallies.forM (fun name => ?_) vm.linkOrder
  refine matches_vm fun vm known => ?_
  rw [registered?_rename]
  cases hentry : vm.registered? name with
  | none => exact Tallies.pure rfl
  | some entry => exact matches_replay name (known.registered? hentry)

/-- **A rebuild comes to the same**: the entries are replayed on a new store that has the same
identity. -/
theorem echoes_rebuild : Echoes names others σ τ k rebuild := by
  rintro _ _ ⟨known, hosts⟩
  rename_i vm g h
  obtain ⟨hid, hstore⟩ := hosts.newStore
  have hblank : Shadows names others σ τ k (blank ⟨vm, g⟩) (blank ⟨vm.rename σ, h⟩) := by
    have hintro : Shadows names others σ τ k _ _ :=
      .intro (v := (blank ⟨vm, g⟩).vm) { known with store := known_fresh _ _ } hstore
    unfold blank Vm.rename at hintro ⊢
    dsimp only at hintro ⊢
    rw [fresh_rename] at hintro
    rw [hid]
    exact hintro
  have hreplays := echoes_replayAll _ _ hblank
  rw [run_rebuild, run_rebuild]
  generalize EStateM.run replayAll (blank ⟨vm, g⟩) = r,
    EStateM.run replayAll (blank ⟨vm.rename σ, h⟩) = r' at hreplays ⊢
  cases hreplays with
  | ok _ hst =>
    cases hst with
    | intro known' hosts' =>
      exact .ok rfl (.intro (v := inherit vm _) { known' with store := known'.store } hosts')
  | error he hst =>
    cases hst with
    | intro known' hosts' =>
      exact .error he (.intro (v := restore vm _) { known' with store := known.store } hosts')

/-- An entry is put under a name. -/
theorem matches_enter (name : String) {r : Registered} (h : r.Known σ) :
    Matches names others σ τ k Eq (enter name r) (enter name (r.rename σ)) := by
  refine matches_modifyVm fun vm known => ⟨{ known with registered := ?_ }, ?_⟩
  · intro e he
    rcases List.mem_cons.mp he with rfl | he
    · exact h
    · exact known.registered e (List.mem_of_mem_filter he)
  · unfold Vm.rename
    simp only [List.map_cons, List.filter_map]
    rfl

theorem matches_commit {o : ImportObject} {l : LinkedImports} (hl : l.Known σ) :
    Matches names others σ τ k Eq (commit o l) (commit (o.rename σ) (l.rename σ)) := by
  unfold commit
  have hrename : (l.rename σ).environment = l.environment.map σ.environment := rfl
  have hfunctions : functionsOf (l.rename σ).symbols = functionsOf l.symbols :=
    functionsOf_renameSymbols l.symbols
  rw [hrename]
  cases hkey : l.environment with
  | none =>
    dsimp only [Option.map_none]
    rw [hfunctions]
    exact matches_enter o.moduleName (r := .imports l (functionsOf l.symbols)) hl
  | some key =>
    refine Tallies.seq (matches_modifyVm fun vm known => ⟨{ known with environment := ?_ }, rfl⟩)
      fun _ => echoes_refresh.seq fun _ => matches_vm fun vm known => ?_
    · rintro _ ⟨⟩
      exact hl.environment key hkey
    · rw [linkedFunctions_rename]
      exact matches_enter o.moduleName (r := .imports l _) hl

/-- **An import object is linked under its numbers.** -/
theorem matches_link {o : ImportObject} (ho : o.Known σ) :
    Matches names others σ τ k Eq (link o) (link (o.rename σ)) := by
  have hsnapshot : Likewise Eq (fun l l' => l.Known σ ∧ l' = l.rename σ) o.snapshot
      (o.rename σ).snapshot := by
    rw [ImportObject.snapshot_rename]
    cases hl : o.snapshot with
    | error e => exact .error rfl
    | ok l => exact .ok ⟨ho.snapshot hl, rfl⟩
  rw [link_eq, link_eq]
  refine (matches_ofExcept (fun e _ he => he ▸ .refl (.link e)) hsnapshot).bind fun l l' hl => ?_
  obtain ⟨known, rfl⟩ := hl
  exact (matches_define known).seq fun _ => matches_commit known

theorem echoes_checkName (name : String) : Echoes names others σ τ k (checkName name) := by
  have free : Echoes names others σ τ k (vm >>= fun vm =>
      if (vm.registered? name).isSome then throw (.link (.duplicateModule name)) else pure ()) := by
    refine echoes_vm (fun vm => ?_) fun vm => ?_
    · rw [registered?_rename, Option.isSome_map]
    · split
      · exact Action.throw _
      · exact Tallies.pure rfl
  unfold checkName
  split
  · exact (Action.throw _).seq fun _ => free
  · exact free

theorem matches_registerImport {o : ImportObject} (ho : o.Known σ) :
    Matches names others σ τ k Eq (registerImport o) (registerImport (o.rename σ)) :=
  (echoes_checkName o.moduleName).seq fun _ => matches_link ho

theorem echoes_compile (image : Image) : Echoes names others σ τ k (compile image) :=
  echoes_vm (fun _ => rfl) fun _ => echoes_ofExcept _ _

theorem echoes_registerModule (name : String) (image : Image) :
    Echoes names others σ τ k (registerModule name image) := by
  refine (echoes_checkName name).seq fun _ => (echoes_compile image).seq fun m => ?_
  refine (echoes_instantiateRegistered name m).seq fun _ => ?_
  exact matches_enter name (r := .module m) trivial

theorem echoes_open? (source : Source) : Echoes names others σ τ k (open? source) := by
  refine Tallies.get ?_
  rintro _ _ ⟨known, hosts⟩
  dsimp only
  rw [hosts.load source]
  exact echoes_ofExcept _ _

theorem echoes_register (name : String) (source : Source) :
    Echoes names others σ τ k (register name source) :=
  (echoes_open? source).seq fun image => echoes_registerModule name image

/-! ## The pipeline -/

theorem echoes_setStage (stage : Stage) : Echoes names others σ τ k (setStage stage) :=
  echoes_modifyVm fun _ known => ⟨{ known with store := known.store }, rfl⟩

theorem echoes_reset : Echoes names others σ τ k reset := by
  refine Tallies.seq (echoes_modifyVm fun _ known => ⟨{ known with store := known.store }, rfl⟩)
    fun _ => (echoes_setStage _).seq fun _ => echoes_vm (fun _ => rfl) fun vm => ?_
  split
  · exact Tallies.tryCatch echoes_rebuild fun _ _ _ => Tallies.pure rfl
  · exact Tallies.pure rfl

theorem echoes_load (source : Source) : Echoes names others σ τ k (load source) := by
  refine echoes_reset.seq fun _ => (echoes_open? source).seq fun image => ?_
  refine Tallies.seq (echoes_modifyVm fun _ known => ⟨{ known with store := known.store }, rfl⟩)
    fun _ => echoes_setStage _

theorem echoes_refuseStage (operation : String) :
    Echoes names others σ τ k (refuseStage operation : Action α) :=
  echoes_vm (fun _ => rfl) fun _ => Action.throw _

theorem echoes_validate : Echoes names others σ τ k validate := by
  refine echoes_vm (fun _ => rfl) fun vm => ?_
  split
  · exact echoes_refuseStage _
  · exact Tallies.pure rfl
  · exact Tallies.pure rfl
  · refine echoes_vm (fun _ => rfl) fun vm => ?_
    split
    · exact echoes_refuseStage _
    · refine (echoes_compile _).seq fun m => ?_
      exact Tallies.seq (echoes_modifyVm fun _ known => ⟨{ known with store := known.store }, rfl⟩)
        fun _ => echoes_setStage _

theorem echoes_deactivate : Echoes names others σ τ k deactivate := by
  refine echoes_vm (fun _ => rfl) fun vm => ?_
  split
  · exact Tallies.seq (echoes_modifyVm fun _ known => ⟨{ known with store := known.store }, rfl⟩)
      fun _ => echoes_setStage _
  · exact Tallies.pure rfl

theorem echoes_prepare (m : Module) : Echoes names others σ τ k (prepare m) := by
  have rest : Echoes names others σ τ k (refresh >>= fun _ =>
      modifyVm (fun vm => { vm with stale := true }) >>= fun _ => instance? m) := by
    refine echoes_refresh.seq fun _ => Tallies.seq ?_ fun _ => echoes_instance? m
    exact echoes_modifyVm fun _ known => ⟨{ known with store := known.store }, rfl⟩
  refine echoes_vm (fun _ => rfl) fun vm => ?_
  dsimp only
  split
  · exact echoes_rebuild.seq fun _ => rest
  · exact rest

theorem echoes_start (m : Module) : Echoes names others σ τ k (start m) := by
  rw [start_eq]
  refine echoes_deactivate.seq fun _ => (echoes_prepare m).seq fun index => ?_
  exact Tallies.seq (echoes_modifyVm fun _ known => ⟨{ known with store := known.store }, rfl⟩)
    fun _ => echoes_setStage _

theorem echoes_instantiate : Echoes names others σ τ k instantiate := by
  rintro _ _ ⟨known, hosts⟩
  refine Tallies.of_run_eq ?_ (.intro known hosts) (run_instantiate _) (run_instantiate _)
  change Echoes names others σ τ k (if _ then _ else _)
  split
  · exact echoes_refuseStage _
  · refine echoes_validate.seq fun _ => echoes_vm (fun _ => rfl) fun vm => ?_
    split
    · exact echoes_refuseStage _
    · exact echoes_start _

/-! ## Calls -/

theorem echoes_exchange (address : Nat) (signature : Signature) (args : List Value) :
    Engine.Echoes names others σ τ k (exchange address signature args) := by
  refine .get (fun m => (Engine.Echoes.guest _).bind fun operands => ?_) fun _ _ => rfl
  split
  · exact (Exec.echoes_invoke _ _).bind fun _ => .guest _
  · exact Engine.Echoes.throw _

/-- Stops that are alike come to errors that are alike. -/
theorem matches_settle (signature : Signature) {stop stop' : Stop} (h : stop.Like stop') :
    Matches names others σ τ k Eq (settle signature stop) (settle signature stop') := by
  cases h with
  | unknown a b => exact Tallies.throw (.unknown a b)
  | refl =>
    unfold settle
    split
    · exact (echoes_modifyContext _).seq fun _ => Tallies.pure rfl
    · exact Tallies.pure rfl
    all_goals exact Action.throw _

/-- **A call comes to the same**: the function has the same type under another number. -/
theorem echoes_call (address : Nat) (args : List Value) :
    Echoes names others σ τ k (call address args) := by
  refine echoes_vm (fun vm => ?_) fun vm => ?_
  · have htype : (vm.rename σ).store.functionType? address = vm.store.functionType? address :=
      vm.store.functionType?_rename σ.id address
    rw [htype]
  refine (echoes_ofExcept _ _).seq fun signature => (echoes_ofExcept _ _).seq fun _ => ?_
  refine (matches_compute (echoes_exchange address signature args)).bind fun a b hab => ?_
  obtain ⟨outcome, fuel⟩ := a
  obtain ⟨outcome', fuel'⟩ := b
  obtain ⟨hlike, hfuel⟩ := hab
  dsimp only at hlike hfuel ⊢
  rw [← hfuel]
  refine Tallies.seq (echoes_modifyVm fun _ known => ⟨{ known with store := known.store }, rfl⟩)
    fun _ => ?_
  cases hlike with
  | ok ha => exact Tallies.pure ha
  | error he => exact matches_settle signature he

theorem echoes_callFound (found : Option Nat) (args : List Value) (e : RuntimeError) :
    Echoes names others σ τ k
      (match found with | some address => call address args | none => throw e) := by
  cases found with
  | some address => exact echoes_call address args
  | none => exact Action.throw e

theorem echoes_execute (name : String) (args : List Value) :
    Echoes names others σ τ k (execute name args) := by
  refine echoes_vm (fun _ => rfl) fun vm => ?_
  dsimp only
  split
  · exact (Action.throw _).seq fun _ => echoes_callFound _ args _
  · exact echoes_callFound _ args _

theorem echoes_executeRegistered (moduleName name : String) (args : List Value) :
    Echoes names others σ τ k (executeRegistered moduleName name args) := by
  refine echoes_vm (fun vm => ?_) fun vm => echoes_callFound _ args _
  rw [registered?_rename]
  cases vm.registered? moduleName <;> rfl

theorem echoes_run (source : Source) (name : String) (args : List Value) :
    Echoes names others σ τ k (run source name args) := by
  refine (echoes_load source).seq fun _ => echoes_validate.seq fun _ => ?_
  exact echoes_instantiate.seq fun _ => echoes_execute name args

/-! ## Runs with data -/

theorem echoes_writeTemporary (bytes : List UInt8) :
    Echoes names others σ τ k (writeTemporary bytes) := by
  rintro _ _ ⟨known, hosts⟩
  rename_i vm g h
  have hrun : EStateM.run (writeTemporary bytes) ⟨vm.rename σ, h⟩ =
      .ok (h.files.writeTemporary "tmp." ".bin" bytes).1 ⟨vm.rename σ, { h with
        files := (h.files.writeTemporary "tmp." ".bin" bytes).2 }⟩ := rfl
  rw [hrun, hosts.files]
  exact .ok rfl (.intro known (hosts.withFiles _))

theorem echoes_removeFile (path : Wasi.Path) : Echoes names others σ τ k (removeFile path) := by
  refine Tallies.modify ?_
  rintro _ _ ⟨known, hosts⟩
  dsimp only
  rw [hosts.files]
  exact .intro known (hosts.withFiles _)

/-- Replaces the environment of an import object. -/
def replaceEnvironment (o : ImportObject) (e : Wasi.Environment) : Action Unit := do
  let host ← ofExcept .wasi ((← get).host.replaceEnvironment o e)
  modifyHost fun _ => host

theorem matches_replaceEnvironment {o : ImportObject} (ho : o.Known σ) (e : Wasi.Environment) :
    Matches names others σ τ k Eq (replaceEnvironment o e) (replaceEnvironment (o.rename σ) e) := by
  refine Tallies.get ?_
  rintro _ _ ⟨known, hosts⟩
  rename_i vm g h
  have hreplaced := hosts.replaceEnvironment ho e
  dsimp only
  generalize g.replaceEnvironment o e = r, h.replaceEnvironment (o.rename σ) e = r' at hreplaced ⊢
  cases hreplaced with
  | error he => exact he ▸ Tallies.throw (.refl _)
  | ok hosts' =>
    refine Tallies.modify ?_
    rintro _ _ ⟨known, -⟩
    exact .intro known hosts'

/-- **A run with data comes to the same.** -/
theorem echoes_runWithData (source : Source) (name : String) (data : List UInt8)
    (args envs preopens : List String) (params : List Value) :
    Echoes names others σ τ k (runWithData source name data args envs preopens params) := by
  refine matches_vm fun vm known => ?_
  have hrename : (vm.rename σ).wasi = vm.wasi.map (ImportObject.rename · σ) := rfl
  rw [hrename]
  cases ho : vm.wasi with
  | none => exact Action.throw _
  | some o =>
    refine (echoes_writeTemporary data).seq fun path => ?_
    refine Tallies.tryFinally ?_ (echoes_removeFile path)
    refine (echoes_ofExcept _ _).seq fun e => ?_
    have hrun : Matches names others σ τ k Eq
        (replaceEnvironment o e >>= fun _ => run source name params)
        (replaceEnvironment (o.rename σ) e >>= fun _ => run source name params) :=
      (matches_replaceEnvironment (known.wasi o ho) e).seq fun _ => echoes_run source name params
    simpa only [replaceEnvironment, bind_assoc] using hrun

end Action

end Vm

end WasmEmbedding
