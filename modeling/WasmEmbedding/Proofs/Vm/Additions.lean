import WasmEmbedding.Proofs.Engine.Inert
import WasmEmbedding.Proofs.Vm.Stock

/-! # What registrations add

A registration works on the store that the running instance lives in.  It leaves everything there in
its place (`Later`): an import object comes with rows of its own, and so does a module which is
inert.  What it may do besides is to begin a session of the system interface, in place of the one
that the running instance has.  `Operation.session?` says when, and `later_after` that a
registration of either kind, successful or not, does nothing else.

Guest code belongs to instances of the store in every reachable machine (`invariant_housed`), so
that what comes behind these instances has nothing to do with it.
-/
namespace WasmEmbedding

open Engine Wasm

/-! ## Linking import objects -/

theorem Host.Symbol.within_materialize {symbol : Host.Symbol} {s t : Store} {item : Item}
    (h : symbol.materialize s = .ok (item, t)) : s.Within t := by
  cases makes_of_materialize h with
  | function id signature => exact s.within_addFunction _
  | table t => exact s.within_addTable _
  | memory hadded => exact Store.within_addMemory hadded
  | global _ _ => exact s.within_addGlobal _

namespace LinkedImports

theorem within_defineFrom {moduleName : String} : ∀ {symbols : List (String × Host.Symbol)}
    {s t : Store} {l l' : Linker}, defineFrom moduleName symbols (s, l) = .ok (t, l') → s.Within t
  | [], s, _, _, _, h => by
    cases h
    exact .refl s
  | (name, symbol) :: rest, s, t, l, l', h => by
    rw [defineFrom] at h
    split at h
    · cases h
    · rename_i item u hu
      split at h
      · cases h
      · exact (Host.Symbol.within_materialize hu).trans (within_defineFrom h)

theorem within_systemItems : ∀ (calls : List Wasi.Syscall) (s : Store),
    s.Within (systemItems calls s).2
  | [], s => .refl s
  | c :: rest, s => (s.within_addFunction (.system c)).trans (within_systemItems rest _)

/-- Everything in the store stays in its place when an import object is linked. -/
theorem within_define {l : LinkedImports} {s t : Store} {k k' : Linker}
    (h : l.define s k = .ok (t, k')) : s.Within t := by
  cases he : l.environment with
  | none => exact within_defineFrom ((define_eq_ok_of_none he).mp h)
  | some key =>
    rw [define_of_environment he] at h
    split at h
    · cases h
      exact within_systemItems _ s
    · cases h

/-- An import object brings no guest code. -/
theorem guests_define {l : LinkedImports} {s t : Store} {k k' : Linker}
    (h : l.define s k = .ok (t, k')) {a home : Nat} {type : FuncType} {body : FunctionBody}
    (ha : t.functions[a]? = some (.guest home type body)) :
    s.functions[a]? = some (.guest home type body) := by
  have push (functions : Array Function) (f : Function) (hf : f ≠ .guest home type body)
      (ha : (functions.push f)[a]? = some (.guest home type body)) :
      functions[a]? = some (.guest home type body) := by
    rw [Array.getElem?_push] at ha
    split at ha
    · exact absurd (Option.some.inj ha) hf
    · exact ha
  have system : ∀ (calls : List Wasi.Syscall) (s : Store),
      (systemItems calls s).2.functions[a]? = some (.guest home type body) →
        s.functions[a]? = some (.guest home type body) := by
    intro calls
    induction calls with
    | nil => exact fun _ h => h
    | cons c rest ih => exact fun s h => push s.functions (.system c) nofun (ih _ h)
  cases he : l.environment with
  | none =>
    refine define_symbols_ok (C := fun c => c.functions[a]? = some (.guest home type body) →
      s.functions[a]? = some (.guest home type body)) (fun c id signature hc ha => ?_) he h
      id ha
    exact hc (push c.functions (.host id signature) nofun ha)
  | some key =>
    rw [define_of_environment he] at h
    split at h
    · cases h
      exact system _ s ha
    · cases h

theorem housed_define {l : LinkedImports} {s t : Store} {k k' : Linker}
    (h : l.define s k = .ok (t, k')) (hs : s.code.Housed) : t.code.Housed := by
  intro a home type body ha
  have hhome := hs a home type body (guests_define h ha)
  have hinstances : t.code.instances = s.code.instances := instances_define h
  rwa [hinstances]

end LinkedImports

namespace Vm

/-! ## Guest code belongs to instances -/

/-- The guest code in the store belongs to instances. -/
def Housed (vm : Vm) : Prop := vm.store.code.Housed

theorem Housed.of_code {vm vm' : Vm} (h : vm.Housed) (hcode : vm'.store.code = vm.store.code) :
    vm'.Housed := by
  rwa [Housed, hcode]

/-- The machine keeps guest code at instances. -/
def Houses (s : Setting) (_ : List EngineRun) (_ : Except RuntimeError Unit) (t : Setting) : Prop :=
  s.vm.Housed → t.vm.Housed

theorem housed_blank (s : Setting) : (Action.blank s).vm.Housed := fun _ _ _ _ ha => by cases ha

theorem accountable_houses : Accountable Houses where
  still _ h := h
  append h h' hs := h' (h hs)
  beside hx s h := h.of_code (hx.keeps s).code
  define {s name linked functions} _ h := by
    obtain ⟨store, linker, hd, hafter⟩ | hafter := Action.ending_define linked s <;> rw [hafter]
    · exact LinkedImports.housed_define hd h
    · exact h
  build m s h := by
    rw [Action.ending_instance?]
    have hbuild : Keeps (Upholds fun n => n.code.Housed)
        (Action.build s.vm.config.engine.bulkMemory s.vm.linker m) := by
      refine Keeps.get.bind fun n => ?_
      split
      · exact Exec.housed_instantiate _ _ _
      · exact Keeps.throw _
    change (ending (Action.build _ _ m >>= fun _ => pure ()) _).code.Housed
    rw [ending_discard]
    exact hbuild (Action.computer s) h
  call address signature args s h := by
    obtain ⟨code, hcode⟩ := Action.ending_engage address signature args s
    rw [hcode]
    change (ending (Action.exchange address signature args >>= fun _ => pure ()) _).code.Housed
    rw [ending_discard]
    have hsame : _ = (Action.computer s).code := Action.keeps_code_exchange address signature args _
    exact hsame ▸ h
  rebuilt h _ := h (housed_blank _)
  restored _ hs := hs

theorem putsOff_houses : PutsOff Houses := accountable_houses.restored

theorem Housed.link {s t : Setting} (h : s.vm.Housed) {o : Host.ImportObject}
    (hrun : EStateM.run (Action.link o) s = .ok () t) : t.vm.Housed := by
  obtain ⟨linked, store, linker, c, functions, -, hd, rfl⟩ := Action.link_ok hrun
  have hstore : store.code.Housed := LinkedImports.housed_define hd h
  exact hstore

/-- **Guest code belongs to instances of its store.** -/
theorem invariant_housed : Invariant Housed where
  empty config id a home type body ha := by cases ha
  enableWasi config id host e t h := by
    obtain ⟨v, hv, rfl⟩ := enableWasi_ok h
    have hempty : (Vm.empty config id).Housed := fun _ _ _ _ ha => by cases ha
    have hv : v.vm.Housed := Housed.link (s := ⟨Vm.empty config id, _⟩) hempty hv
    exact hv.of_code rfl
  operate s o h := by
    cases o with
    | registerImport object =>
      change (ending (Action.registerImport object) s).vm.Housed
      have hstep := importStep s object
      generalize outcome (Action.registerImport object) s = r,
        ending (Action.registerImport object) s = t at hstep ⊢
      cases hstep with
      | refused => exact h
      | @entered _ store _ _ _ _ _ _ defined =>
        have hstore : store.code.Housed := LinkedImports.housed_define defined h
        exact hstore
      | stranded _ _ defined => exact LinkedImports.housed_define defined h
    | amendStatistics f => exact h
    | amendContext f => exact h
    | _ =>
      exact accountable_houses.recountable.perform rfl (by rintro _ _ ⟨⟩)
        (fun _ => putsOff_houses) s h

/-! ## Sessions that registrations begin -/

/-- A name can be registered. -/
def isFree (vm : Vm) (name : String) : Bool := !name.isEmpty && (vm.registered? name).isNone

/-- The session that can be started under an environment. -/
def Setting.session? (s : Setting) (environment : Option Host.EnvironmentKey) :
    Option Wasi.Session := do
  (Wasi.Session.start s.host.files (s.host.environment (← environment))).toOption

/-- The session that a registration begins.  A module gets as far as that if it is valid, whether
or not it can be instantiated; an import object has to be one for the system interface. -/
def Operation.session? (s : Setting) : Operation → Option Wasi.Session
  | .register name source => do
    let image ← (s.host.load source).toOption
    if s.vm.isFree name && (image.validate s.vm.config.engine.features).isOk then
      s.session? s.vm.environment
    else none
  | .registerImport o => do
    let linked ← o.snapshot.toOption
    if s.vm.isFree o.moduleName && (linked.define s.vm.store s.vm.linker).isOk then
      s.session? linked.environment
    else none
  | _ => none

/-- The setting after a session has begun, if one does. -/
def Setting.resumed (s : Setting) : Option Wasi.Session → Setting
  | some session => Action.begun s session
  | none => s

/-- An operation is a registration that has nothing run: of an import object, or of a module
which is inert, if it is one at all. -/
def Operation.isInert (s : Setting) : Operation → Bool
  | .register _ source =>
    match s.host.load source with
    | .ok image =>
      match image.validate s.vm.config.engine.features with
      | .ok m => decide m.Inert
      | .error _ => true
    | .error _ => true
  | .registerImport _ => true
  | _ => false

/-! ## Registrations leave everything in its place -/

/-- There is more in the store, and more may be registered; main module and counts are as they
were. -/
structure Later (s t : Setting) : Prop where
  store : s.vm.store.Within t.vm.store
  host : t.host = s.host
  main : t.vm.main = s.vm.main
  statistics : t.vm.statistics = s.vm.statistics

instance : IsPreorder Setting Later where
  refl _ := ⟨.refl _, rfl, rfl, rfl⟩
  trans _ _ _ h h' := ⟨h.store.trans h'.store, h'.host.trans h.host, h'.main.trans h.main,
    h'.statistics.trans h.statistics⟩

namespace Action

theorem later_entered (s : Setting) (name : String) (entry : Registered) :
    Later s (s.entered name entry) :=
  ⟨.refl _, rfl, rfl, rfl⟩

/-- Without fuel that has been spent, nothing is counted. -/
theorem recordInstantiation_zero (c : Statistics) : c.recordInstantiation 0 = c := by
  have h : addSaturating c.consumed 0 = c.consumed := by
    apply UInt64.toNat_inj.mp
    have hlt := c.consumed.toNat_lt
    rw [toNat_addSaturating, maxCount]
    simp only [UInt64.toNat_zero, Nat.add_zero]
    omega
  rw [Statistics.recordInstantiation, h]

/-- An inert module comes with rows of its own and spends no fuel. -/
theorem later_instance? {m : Module} (inert : m.Inert) : Keeps Later (instance? m) := by
  intro s
  have hadds : Adds (computer s) (ending (build s.vm.config.engine.bulkMemory s.vm.linker m)
      (computer s)) := by
    have hbuild : Keeps Adds (build s.vm.config.engine.bulkMemory s.vm.linker m) := by
      refine Keeps.get.bind fun n => ?_
      split
      · exact Exec.adds_instantiate inert _ _
      · exact Keeps.throw _
    exact hbuild (computer s)
  have hending : (EngineRun.mk (.build m) s false).ending =
      ending (build s.vm.config.engine.bulkMemory s.vm.linker m) (computer s) :=
    ending_discard _ _
  have hspent : (computer s).meter.consumed = 0 := by
    unfold computer Machine.idle Meter.consumed
    split
    · exact Nat.zero_min _
    · rfl
  rw [ending_instance?, EngineRun.after, EngineRun.count, EngineRun.fuel, hending, hadds.meter,
    hspent]
  exact ⟨hadds.store, hadds.host, rfl, recordInstantiation_zero _⟩

theorem later_place (name : String) {m : Module} (inert : m.Inert) :
    Keeps Later (place name m) := by
  refine (later_instance? inert).bind fun index => keeps_vm.bind fun vm => ?_
  split
  · exact keeps_modifyVm fun _ => ⟨.refl _, rfl, rfl, rfl⟩
  · exact Keeps.throw _

/-- Whether a name can be registered. -/
theorem run_checkName_isFree (name : String) (s : Setting) :
    if s.vm.isFree name then EStateM.run (checkName name) s = .ok () s
    else ∃ e, EStateM.run (checkName name) s = .error e s := by
  rw [run_checkName, isFree]
  cases name.isEmpty with
  | true => exact ⟨_, rfl⟩
  | false =>
    cases s.vm.registered? name with
    | none => rfl
    | some entry => exact ⟨_, rfl⟩

/-- Refreshing begins the session that can be started, or does nothing. -/
theorem ending_refresh (s : Setting) :
    ending refresh s = s.resumed (s.session? s.vm.environment) := by
  rw [ending, run_refresh, Setting.session?]
  cases s.vm.environment with
  | none => rfl
  | some key =>
    change _ = s.resumed (Wasi.Session.start s.host.files (s.host.environment key)).toOption
    dsimp only
    cases Wasi.Session.start s.host.files (s.host.environment key) <;> rfl

end Action

/-- A session that begins in both does so under the same circumstances. -/
theorem Later.resumed {s t : Setting} (h : Later s t) (session : Option Wasi.Session) :
    Later (s.resumed session) (t.resumed session) := by
  cases session with
  | none => exact h
  | some session =>
    exact { h with store := h.store.mapContext fun c => { c with session, exitCode := none } }

theorem later_of_error {α : Type} {x : Action α} {s : Setting} {e : RuntimeError}
    (h : EStateM.run x s = .error e s) : Later s (ending x s) := by
  rw [ending_of_error h]
  exact Std.Refl.refl s

namespace Action

/-- Linking a module that is inert, with the entry that is made for it. -/
theorem later_instantiateRegistered {m : Module} (inert : m.Inert) (name : String)
    (s : Setting) :
    Later (s.resumed (s.session? s.vm.environment))
      (ending (instantiateRegistered name m >>= fun _ => enter name (.module m)) s) := by
  have rest : ∀ _ : Unit, Keeps Later (place name m >>= fun _ => enter name (.module m)) :=
    fun _ => (later_place name inert).bind fun _ s => later_entered s name _
  rw [instantiateRegistered_eq, bind_assoc, ← ending_refresh]
  exact Keeps.after rest refresh s

/-- What becomes of an import object after its symbols have been defined. -/
theorem later_commit (o : Host.ImportObject) (linked : LinkedImports) (s : Setting) :
    Later (s.resumed (s.session? linked.environment)) (ending (commit o linked) s) := by
  unfold commit
  cases linked.environment with
  | none => exact later_entered s _ _
  | some key =>
    have attached : Later s (s.attach key) := ⟨.refl _, rfl, rfl, rfl⟩
    have rest : ∀ _ : Unit, Keeps Later (vm >>= fun vm =>
        enter o.moduleName (.imports linked (vm.linkedFunctions Wasi.moduleName))) :=
      fun _ => keeps_vm.bind fun _ s => later_entered s _ _
    have refreshed := Keeps.after rest refresh (s.attach key)
    rw [ending_refresh] at refreshed
    exact IsTrans.trans _ _ _ (attached.resumed _) refreshed

end Action

/-- A registered module leaves everything in its place, but for the session. -/
theorem later_register {s : Setting} {name : String} {source : Source}
    (inert : (Operation.register name source).isInert s = true) :
    Later (s.resumed ((Operation.register name source).session? s))
      (ending (Action.register name source) s) := by
  have opened : EStateM.run (Action.register name source) s =
      EStateM.run (Action.ofExcept id (s.host.load source) >>= Action.registerModule name) s := rfl
  have free := Action.run_checkName_isFree name s
  dsimp only [Operation.isInert] at inert
  dsimp only [Operation.session?]
  cases hload : s.host.load source with
  | error e =>
    rw [hload] at opened
    exact later_of_error (opened.trans (run_bind_of_error rfl))
  | ok image =>
    rw [hload] at opened inert
    have opened : EStateM.run (Action.register name source) s =
        EStateM.run (Action.registerModule name image) s := opened
    dsimp only at inert
    dsimp only [Except.toOption, Option.bind_eq_bind, Option.bind_some]
    cases hfree : s.vm.isFree name with
    | false =>
      rw [hfree] at free
      obtain ⟨e, he⟩ := free
      exact later_of_error (opened.trans (run_bind_of_error he))
    | true =>
      rw [hfree] at free
      have checked : EStateM.run (Action.register name source) s =
          EStateM.run (Action.ofExcept .validation (image.validate s.vm.config.engine.features) >>=
            fun m => Action.instantiateRegistered name m >>= fun _ =>
              Action.enter name (.module m)) s := opened.trans (run_bind_of_ok free)
      cases hvalid : image.validate s.vm.config.engine.features with
      | error e =>
        rw [hvalid] at checked
        exact later_of_error (checked.trans (run_bind_of_error rfl))
      | ok m =>
        rw [hvalid] at checked inert
        have placed := Action.later_instantiateRegistered (of_decide_eq_true inert) name s
        unfold ending at placed ⊢
        rw [checked]
        exact placed

/-- So does an import object. -/
theorem later_registerImport (s : Setting) (o : Host.ImportObject) :
    Later (s.resumed ((Operation.registerImport o).session? s))
      (ending (Action.registerImport o) s) := by
  have free := Action.run_checkName_isFree o.moduleName s
  have hlink := Action.run_link o s
  dsimp only [Operation.session?]
  cases hfree : s.vm.isFree o.moduleName with
  | false =>
    rw [hfree] at free
    obtain ⟨e, he⟩ := free
    cases o.snapshot <;> exact later_of_error (run_bind_of_error he)
  | true =>
    rw [hfree] at free
    have linked : EStateM.run (Action.registerImport o) s = EStateM.run (Action.link o) s :=
      run_bind_of_ok free
    cases hsnap : o.snapshot with
    | error e =>
      rw [hsnap] at hlink
      exact later_of_error (linked.trans hlink)
    | ok imports =>
      rw [hsnap] at hlink
      dsimp only [Except.toOption, Option.bind_eq_bind, Option.bind_some] at hlink ⊢
      cases hd : imports.define s.vm.store s.vm.linker with
      | error e =>
        rw [hd] at hlink
        exact later_of_error (linked.trans hlink)
      | ok r =>
        rw [hd] at hlink
        have defined : Later s { s with vm := { s.vm with store := r.1, linker := r.2 } } :=
          ⟨LinkedImports.within_define hd, rfl, rfl, rfl⟩
        have committed := Action.later_commit o imports
          { s with vm := { s.vm with store := r.1, linker := r.2 } }
        unfold ending at committed ⊢
        rw [linked, hlink]
        exact IsTrans.trans _ _ _ (defined.resumed _) committed

/-- **A registration leaves everything in its place**, successful or not, unless something is run
for it; it may begin a session of the system interface. -/
theorem later_after {s : Setting} {o : Operation} (inert : o.isInert s = true) :
    Later (s.resumed (o.session? s)) (s.after o) := by
  cases o with
  | register name source => exact later_register inert
  | registerImport object => exact later_registerImport s object
  | _ => cases inert

end Vm

end WasmEmbedding
