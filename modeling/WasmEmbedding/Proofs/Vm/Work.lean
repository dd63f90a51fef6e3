import WasmEmbedding.Proofs.Vm.Define
import WasmEmbedding.Vm.Pipeline

/-! # What work on a store leaves as it is

Linking, instantiating and calling work on the store of a machine: items come into it, guests
run on it, fuel is counted.  What the machine has on record about its main module and its link
environment stays (`Vm.Record`), and the code of the store grows at most.

* `Works s t` — a machine that was `s` has worked on its store and is `t`;
* `Builds s t` — besides, it has counted nothing but spent fuel.

Actions are put together from parts of which this is true; only `Action.rebuild` puts another
store in place of the old one, and what it makes of a setting is spelled out in `run_rebuild`.
-/
namespace WasmEmbedding

open Engine Wasm

/-- The errors of giving a main module a store, and of making instances on it. -/
inductive RuntimeError.OfLinking : RuntimeError → Prop
  | instantiation (reason : String) : OfLinking (.instantiation reason)
  | link (e : LinkError) : OfLinking (.link e)
  | wasi (e : WasiError) : OfLinking (.wasi e)

/-- The errors of calls. -/
inductive RuntimeError.OfCalling : RuntimeError → Prop
  | execution (e : ExecutionError) : OfCalling (.execution e)
  | registry (e : RegistryError) : OfCalling (.registry e)

/-- The counts `t` are the counts `s` after fuel has been spent. -/
structure Statistics.Spends (s t : Statistics) : Prop where
  others : t = { s with consumed := t.consumed }
  consumed_le : s.consumed ≤ t.consumed

instance : IsPreorder Statistics Statistics.Spends where
  refl s := ⟨rfl, UInt64.le_refl _⟩
  trans s t u h h' := by
    refine ⟨?_, UInt64.le_trans h.consumed_le h'.consumed_le⟩
    rw [h'.others, h.others]

theorem Statistics.spends_recordInstantiation (s : Statistics) (fuel : UInt64) :
    s.Spends (s.recordInstantiation fuel) := by
  refine ⟨rfl, ?_⟩
  rw [UInt64.le_iff_toNat_le]
  have hlt := s.consumed.toNat_lt
  simp only [recordInstantiation, toNat_addSaturating, maxCount]
  omega

namespace Vm

/-- What a machine has on record, beside its store and its counts. -/
structure Record where
  config : VmConfig
  stage : Stage
  loaded : Option Image
  compiled : Option Module
  active : Option ActiveInstance
  registered : List (String × Registered)
  linkOrder : List String
  wasi : Option Host.ImportObject
  environment : Option Host.EnvironmentKey

/-- The record of a machine. -/
def record (vm : Vm) : Record where
  config := vm.config
  stage := vm.stage
  loaded := vm.loaded
  compiled := vm.compiled
  active := vm.active
  registered := vm.registered
  linkOrder := vm.linkOrder
  wasi := vm.wasi
  environment := vm.environment

/-- The machine of a setting has worked on its store. -/
structure Works (s t : Setting) : Prop where
  record : t.vm.record = s.vm.record
  stale : t.vm.stale = s.vm.stale
  code : s.vm.store.code.Extends t.vm.store.code

instance : IsPreorder Setting Works where
  refl _ := ⟨rfl, rfl, Std.Refl.refl _⟩
  trans _ _ _ h h' := {
    record := h'.record.trans h.record
    stale := h'.stale.trans h.stale
    code := IsTrans.trans _ _ _ h.code h'.code }

namespace Works

variable {s t : Setting}

theorem config (h : Works s t) : t.vm.config = s.vm.config := congrArg Record.config h.record

theorem registered (h : Works s t) : t.vm.registered = s.vm.registered :=
  congrArg Record.registered h.record

theorem linkOrder (h : Works s t) : t.vm.linkOrder = s.vm.linkOrder :=
  congrArg Record.linkOrder h.record

theorem wasi (h : Works s t) : t.vm.wasi = s.vm.wasi := congrArg Record.wasi h.record

theorem environment (h : Works s t) : t.vm.environment = s.vm.environment :=
  congrArg Record.environment h.record

end Works

/-- The machine of a setting has worked on its store and has spent fuel at most. -/
structure Builds (s t : Setting) : Prop extends Works s t where
  spends : s.vm.statistics.Spends t.vm.statistics

instance : IsPreorder Setting Builds where
  refl _ := ⟨Std.Refl.refl _, Std.Refl.refl _⟩
  trans _ _ _ h h' :=
    ⟨IsTrans.trans _ _ _ h.toWorks h'.toWorks, IsTrans.trans _ _ _ h.spends h'.spends⟩

namespace Action

variable {α β : Type}

/-! ## Parts of actions -/

theorem keeps_vm {R : Setting → Setting → Prop} [IsPreorder Setting R] : Keeps R vm :=
  Keeps.get.bind fun _ => Keeps.pure _

theorem keeps_modifyVm {R : Setting → Setting → Prop} {f : Vm → Vm}
    (h : ∀ s : Setting, R s { s with vm := f s.vm }) : Keeps R (modifyVm f) :=
  Keeps.modify h

theorem keeps_ofExcept {ε : Type} {R : Setting → Setting → Prop} [IsPreorder Setting R]
    (f : ε → RuntimeError) (r : Except ε α) : Keeps R (ofExcept f r) := by
  cases r with
  | ok a => exact Keeps.pure a
  | error e => exact Keeps.throw (f e)

theorem run_ofExcept_eq_ok {ε : Type} {f : ε → RuntimeError} {r : Except ε α} {s t : Setting}
    {a : α} : EStateM.run (ofExcept f r) s = .ok a t ↔ r = .ok a ∧ s = t := by
  cases r with
  | ok b =>
    constructor
    · rintro ⟨⟩
      exact ⟨rfl, rfl⟩
    · rintro ⟨⟨⟩, rfl⟩
      rfl
  | error e => exact ⟨(nomatch ·), fun h => nomatch h.1⟩

theorem run_ofExcept_eq_error {ε : Type} {f : ε → RuntimeError} {r : Except ε α} {s t : Setting}
    {e : RuntimeError} :
    EStateM.run (ofExcept f r) s = .error e t ↔ (∃ d, r = .error d ∧ f d = e) ∧ s = t := by
  cases r with
  | ok b => exact ⟨(nomatch ·), fun ⟨⟨_, h, _⟩, _⟩ => nomatch h⟩
  | error d =>
    constructor
    · rintro ⟨⟩
      exact ⟨⟨d, rfl, rfl⟩, rfl⟩
    · rintro ⟨⟨_, ⟨⟩, rfl⟩, rfl⟩
      rfl

theorem throws_vm {P : RuntimeError → Prop} : Throws P vm := Throws.get.bind fun _ => Throws.pure _

theorem throws_ofExcept {ε : Type} {P : RuntimeError → Prop} {f : ε → RuntimeError}
    (h : ∀ e, P (f e)) (r : Except ε α) : Throws P (ofExcept f r) := by
  cases r with
  | ok a => exact Throws.pure a
  | error e => exact Throws.throw (h e)

theorem keeps_modifyContext (f : Context → Context) : Keeps Builds (modifyContext f) :=
  keeps_modifyVm fun _ => ⟨⟨rfl, rfl, Std.Refl.refl _⟩, Std.Refl.refl _⟩

/-! ## Work of the engine -/

/-- The machine that computes for a setting. -/
def computer (s : Setting) : Machine :=
  .idle s.vm.store s.host
    (if s.vm.config.meters then some s.vm.statistics.remainingBudget.toNat else none)

/-- The setting that a computation leaves. -/
def settled (s : Setting) (m : Machine) : Setting := ⟨{ s.vm with store := m.store }, m.host⟩

/-- A computation never fails as an action; its failure is part of the answer. -/
theorem run_compute (x : Exec α) (s : Setting) :
    EStateM.run (compute x) s =
      .ok (outcome x (computer s), UInt64.ofNat (ending x (computer s)).meter.consumed)
        (settled s (ending x (computer s))) := by
  change EStateM.run (modifyGet _) s = _
  rw [EStateM.run_modifyGet]
  unfold outcome ending computer settled
  cases EStateM.run x (Machine.idle s.vm.store s.host
    (if s.vm.config.meters then some s.vm.statistics.remainingBudget.toNat else none)) <;> rfl

theorem keeps_compute {x : Exec α} (hx : Keeps (InvImage Code.Extends Machine.code) x) :
    Keeps Builds (compute x) := by
  intro s
  rw [ending_of_ok (run_compute x s)]
  exact ⟨⟨rfl, rfl, hx (computer s)⟩, Std.Refl.refl _⟩

theorem throws_compute {P : RuntimeError → Prop} (x : Exec α) : Throws P (compute x) := by
  intro s e t h
  rw [run_compute] at h
  cases h

/-! ## Sessions and instances -/

theorem keeps_refresh : Keeps Builds refresh := by
  refine Keeps.get.bind fun s => ?_
  split
  · exact Keeps.pure _
  · exact (keeps_ofExcept _ _).bind fun _ => keeps_modifyContext _

theorem throws_refresh : Throws (∃ w, · = .wasi w) refresh := by
  refine Throws.get.bind fun s => ?_
  split
  · exact Throws.pure _
  · exact (throws_ofExcept (fun w => ⟨w, rfl⟩) _).bind fun _ => Throws.modify

/-- A setting whose guests share another context. -/
def withContext (s : Setting) (c : Context) : Setting :=
  { s with vm := { s.vm with store := { s.vm.store with context := c } } }

/-- What refreshing comes to: a new session if there is an environment for it. -/
theorem run_refresh (s : Setting) :
    EStateM.run refresh s =
      match s.vm.environment with
      | none => .ok () s
      | some key =>
        match Wasi.Session.start s.host.files (s.host.environment key) with
        | .ok session =>
          .ok () (withContext s { s.vm.store.context with session, exitCode := none })
        | .error e => .error (.wasi e) s := by
  have h : EStateM.run refresh s = EStateM.run (match s.vm.environment with
    | none => pure ()
    | some key =>
      ofExcept .wasi (Wasi.Session.start s.host.files (s.host.environment key)) >>= fun session =>
        modifyContext fun c => { c with session, exitCode := none }) s := rfl
  rw [h]
  cases s.vm.environment with
  | none => rfl
  | some key =>
    dsimp only
    cases Wasi.Session.start s.host.files (s.host.environment key) <;> rfl

/-- The setting after a session has begun. -/
def begun (s : Setting) (session : Wasi.Session) : Setting :=
  withContext s { s.vm.store.context with session, exitCode := none }

/-- Without an environment, no session begins. -/
theorem run_refresh_of_none {s : Setting} (h : s.vm.environment = none) :
    EStateM.run refresh s = .ok () s := by
  rw [run_refresh, h]

/-- A session begins under the environment. -/
theorem run_refresh_eq_ok {s t : Setting} {key : Host.EnvironmentKey}
    (h : s.vm.environment = some key) :
    EStateM.run refresh s = .ok () t ↔
      ∃ session, Wasi.Session.start s.host.files (s.host.environment key) = .ok session ∧
        t = begun s session := by
  rw [run_refresh, h]
  dsimp only
  cases Wasi.Session.start s.host.files (s.host.environment key) with
  | ok session =>
    constructor
    · rintro ⟨⟩
      exact ⟨session, rfl, rfl⟩
    · rintro ⟨_, ⟨⟩, rfl⟩
      rfl
  | error w => exact ⟨(nomatch ·), fun ⟨_, h, _⟩ => nomatch h⟩

/-- What keeps a session from beginning is its environment. -/
theorem run_refresh_eq_error {s t : Setting} {key : Host.EnvironmentKey} {e : RuntimeError}
    (h : s.vm.environment = some key) :
    EStateM.run refresh s = .error e t ↔
      ∃ w, Wasi.Session.start s.host.files (s.host.environment key) = .error w ∧
        e = .wasi w ∧ t = s := by
  rw [run_refresh, h]
  dsimp only
  cases Wasi.Session.start s.host.files (s.host.environment key) with
  | ok session => exact ⟨(nomatch ·), fun ⟨_, h, _⟩ => nomatch h⟩
  | error w =>
    constructor
    · rintro ⟨⟩
      exact ⟨w, rfl, rfl, rfl⟩
    · rintro ⟨_, ⟨⟩, rfl, rfl⟩
      rfl

/-- Refreshing changes the context of the store only, and fails as it found things. -/
theorem refresh_post (s : Setting) :
    Post refresh s fun r t =>
      match r with
      | .ok _ => ∃ c, t = withContext s c ∧ c.logs = s.vm.logs
      | .error _ => t = s := by
  unfold Post outcome ending
  rw [run_refresh]
  cases s.vm.environment with
  | none => exact ⟨s.vm.store.context, rfl, rfl⟩
  | some key =>
    dsimp only
    cases Wasi.Session.start s.host.files (s.host.environment key) with
    | ok session => exact ⟨_, rfl, rfl⟩
    | error e => rfl

/-- Making an instance of a module with what a linker has to offer. -/
def build (bulkMemory : Bool) (linker : Linker) (m : Module) : Exec Nat := do
  match linker.resolve (← get).store m with
  | .ok items => Exec.instantiate bulkMemory m items
  | .error reason => throw (.failure reason)

theorem keeps_build (bulkMemory : Bool) (linker : Linker) (m : Module) :
    Keeps (InvImage Code.Extends Machine.code) (build bulkMemory linker m) := by
  refine Keeps.get.bind fun s => ?_
  split
  · exact Exec.keeps_instantiate _ _ _
  · exact Keeps.throw _

theorem keeps_instance? (m : Module) : Keeps Builds (instance? m) := by
  refine keeps_vm.bind fun vm => (keeps_compute (keeps_build _ vm.linker m)).bind fun r => ?_
  refine Keeps.bind (keeps_modifyVm fun s => ⟨⟨rfl, rfl, Std.Refl.refl _⟩, ?_⟩) fun _ => ?_
  · exact s.vm.statistics.spends_recordInstantiation _
  · exact keeps_ofExcept _ _

theorem throws_instance? (m : Module) : Throws (∃ r, · = .instantiation r) (instance? m) := by
  refine throws_vm.bind fun vm => (throws_compute _).bind fun r => Throws.modify.bind fun _ => ?_
  exact throws_ofExcept (fun stop => ⟨stop.message, rfl⟩) _

/-- What making an instance comes to: the fuel is counted in any case. -/
theorem run_instance? (m : Module) (s : Setting) :
    EStateM.run (instance? m) s =
      let x := build s.vm.config.engine.bulkMemory s.vm.linker m
      let t := settled s (ending x (computer s))
      let counted := t.vm.statistics.recordInstantiation
        (UInt64.ofNat (ending x (computer s)).meter.consumed)
      EStateM.run (ofExcept (fun stop => .instantiation stop.message) (outcome x (computer s)))
        { t with vm := { t.vm with statistics := counted } } := by
  have h := run_compute (build s.vm.config.engine.bulkMemory s.vm.linker m) s
  have hbind : EStateM.run (instance? m) s =
      EStateM.run (compute (build s.vm.config.engine.bulkMemory s.vm.linker m) >>= fun r =>
        modifyVm (fun vm => { vm with statistics := vm.statistics.recordInstantiation r.2 }) >>=
          fun _ => ofExcept (fun stop => .instantiation stop.message) r.1) s := rfl
  rw [hbind, run_bind_of_ok h]
  rfl

/-- **A new instance is one of its module**, behind those of the store; its imports stand for
what the linker had under their names. -/
theorem instance?_ok {m : Module} {index : Nat} {s t : Setting}
    (h : EStateM.run (instance? m) s = .ok index t) :
    index = s.vm.store.instances.size ∧ ∃ (items : List Item) (i : Instance),
      s.vm.linker.resolve s.vm.store m = .ok items ∧
        t.vm.store.code.Realizes index m items i := by
  rw [run_instance?] at h
  dsimp only at h
  obtain ⟨ho, rfl⟩ := run_ofExcept_eq_ok.mp h
  cases hx : EStateM.run (build s.vm.config.engine.bulkMemory s.vm.linker m) (computer s) with
  | error stop n =>
    rw [outcome_of_error hx] at ho
    cases ho
  | ok k n =>
    rw [outcome_of_ok hx] at ho
    rw [ending_of_ok hx]
    cases ho
    cases hr : s.vm.linker.resolve s.vm.store m with
    | error reason =>
      -- What is missing fails before anything is made, but the run has not failed.
      have hthrow : EStateM.run (build s.vm.config.engine.bulkMemory s.vm.linker m) (computer s) =
          .error (.failure reason) (computer s) := by
        change EStateM.run (match s.vm.linker.resolve s.vm.store m with
          | .ok items => Exec.instantiate s.vm.config.engine.bulkMemory m items
          | .error reason => throw (.failure reason)) (computer s) = _
        rw [hr]
        rfl
      rw [hthrow] at hx
      cases hx
    | ok items =>
      have hinst : EStateM.run (Exec.instantiate s.vm.config.engine.bulkMemory m items)
          (computer s) = .ok index n := by
        rw [← hx]
        change _ = EStateM.run (match s.vm.linker.resolve s.vm.store m with
          | .ok items => Exec.instantiate s.vm.config.engine.bulkMemory m items
          | .error reason => throw (.failure reason)) (computer s)
        rw [hr]
      obtain ⟨hindex, i, hi⟩ := Exec.instantiate_ok hinst
      exact ⟨hindex, items, i, rfl, hi⟩

theorem throws_ofLinking_refresh : Throws RuntimeError.OfLinking refresh := by
  refine throws_refresh.mono ?_
  rintro _ ⟨w, rfl⟩
  exact .wasi w

theorem throws_ofLinking_instance? (m : Module) : Throws RuntimeError.OfLinking (instance? m) := by
  refine (throws_instance? m).mono ?_
  rintro _ ⟨r, rfl⟩
  exact .instantiation r

/-! ## Entries of the link environment -/

/-- Defines what an import object had when it was linked. -/
def define (linked : LinkedImports) : Action Unit := do
  let vm ← vm
  let (store, linker) ← ofExcept id (linked.define vm.store vm.linker)
  modifyVm fun vm => { vm with store, linker }

/-- An import object is defined altogether or not at all. -/
theorem run_define (linked : LinkedImports) (s : Setting) :
    EStateM.run (define linked) s =
      match linked.define s.vm.store s.vm.linker with
      | .ok (store, linker) => .ok () { s with vm := { s.vm with store, linker } }
      | .error e => .error e s := by
  have h : EStateM.run (define linked) s =
      EStateM.run (ofExcept id (linked.define s.vm.store s.vm.linker) >>= fun r =>
        modifyVm fun vm => { vm with store := r.1, linker := r.2 }) s := rfl
  rw [h]
  cases linked.define s.vm.store s.vm.linker <;> rfl

theorem run_define_eq_ok {linked : LinkedImports} {s t : Setting} :
    EStateM.run (define linked) s = .ok () t ↔ ∃ store linker,
      linked.define s.vm.store s.vm.linker = .ok (store, linker) ∧
        t = { s with vm := { s.vm with store, linker } } := by
  rw [run_define]
  cases linked.define s.vm.store s.vm.linker with
  | ok r =>
    constructor
    · rintro ⟨⟩
      exact ⟨r.1, r.2, rfl, rfl⟩
    · rintro ⟨_, _, ⟨⟩, rfl⟩
      rfl
  | error e => exact ⟨(nomatch ·), fun ⟨_, _, h, _⟩ => nomatch h⟩

theorem run_define_eq_error {linked : LinkedImports} {s t : Setting} {e : RuntimeError} :
    EStateM.run (define linked) s = .error e t ↔
      linked.define s.vm.store s.vm.linker = .error e ∧ t = s := by
  rw [run_define]
  cases linked.define s.vm.store s.vm.linker with
  | ok r => exact ⟨(nomatch ·), fun h => nomatch h.1⟩
  | error f =>
    constructor
    · rintro ⟨⟩
      exact ⟨rfl, rfl⟩
    · rintro ⟨⟨⟩, rfl⟩
      rfl

theorem ending_define (linked : LinkedImports) (s : Setting) :
    (∃ store linker, linked.define s.vm.store s.vm.linker = .ok (store, linker) ∧
      ending (define linked) s = { s with vm := { s.vm with store, linker } }) ∨
    ending (define linked) s = s := by
  cases hrun : EStateM.run (define linked) s with
  | ok _ t =>
    obtain ⟨store, linker, hd, rfl⟩ := run_define_eq_ok.mp hrun
    exact .inl ⟨store, linker, hd, ending_of_ok hrun⟩
  | error e t =>
    obtain ⟨-, rfl⟩ := run_define_eq_error.mp hrun
    exact .inr (ending_of_error hrun)

theorem keeps_define (linked : LinkedImports) : Keeps Builds (define linked) := by
  intro s
  obtain ⟨store, linker, hd, hafter⟩ | hafter := ending_define linked s <;> rw [hafter]
  · exact ⟨⟨rfl, rfl, (LinkedImports.define_ok hd).1⟩, Std.Refl.refl _⟩
  · exact Std.Refl.refl s

theorem throws_define (linked : LinkedImports) :
    Throws RuntimeError.OfLinking (define linked) := by
  intro s e t h
  obtain ⟨hd, -⟩ := run_define_eq_error.mp h
  rcases LinkedImports.define_error hd with ⟨f, rfl⟩ | ⟨w, rfl⟩
  · exact .link f
  · exact .wasi w

/-- The part of linking a registered module that comes after a new session. -/
def place (name : String) (m : Module) : Action Unit := do
  let index ← instance? m
  let vm ← vm
  match vm.linker.defineAll name (vm.store.instances[index]?.getD {}).exports with
  | some linker => modifyVm fun vm => { vm with linker }
  | none => throw (.link (.incompatible name "" "defined twice"))

theorem instantiateRegistered_eq (name : String) (m : Module) :
    instantiateRegistered name m = refresh >>= fun _ => place name m := rfl

theorem keeps_place (name : String) (m : Module) : Keeps Builds (place name m) := by
  refine (keeps_instance? m).bind fun index => keeps_vm.bind fun vm => ?_
  split
  · exact keeps_modifyVm fun _ => ⟨⟨rfl, rfl, Std.Refl.refl _⟩, Std.Refl.refl _⟩
  · exact Keeps.throw _

theorem throws_place (name : String) (m : Module) :
    Throws RuntimeError.OfLinking (place name m) := by
  refine (throws_ofLinking_instance? m).bind fun index => throws_vm.bind fun vm => ?_
  split
  · exact Throws.modify
  · exact Throws.throw (.link _)

theorem keeps_instantiateRegistered (name : String) (m : Module) :
    Keeps Builds (instantiateRegistered name m) :=
  keeps_refresh.bind fun _ => keeps_place name m

theorem throws_instantiateRegistered (name : String) (m : Module) :
    Throws RuntimeError.OfLinking (instantiateRegistered name m) :=
  throws_ofLinking_refresh.bind fun _ => throws_place name m

theorem keeps_replay (name : String) (entry : Registered) : Keeps Builds (replay name entry) := by
  cases entry with
  | imports linked functions => exact keeps_define linked
  | module m => exact keeps_instantiateRegistered name m

theorem throws_replay (name : String) (entry : Registered) :
    Throws RuntimeError.OfLinking (replay name entry) := by
  cases entry with
  | imports linked functions => exact throws_define linked
  | module m => exact throws_instantiateRegistered name m

theorem keeps_replayAll : Keeps Builds replayAll := by
  -- The order is read once, before the first entry; each entry is looked up when its turn comes.
  refine keeps_vm.bind fun vm => Keeps.forM (fun name => keeps_vm.bind fun vm => ?_) _
  split
  · exact keeps_replay _ _
  · exact Keeps.pure _

theorem throws_replayAll : Throws RuntimeError.OfLinking replayAll := by
  refine throws_vm.bind fun vm => Throws.forM (fun name => throws_vm.bind fun vm => ?_) _
  split
  · exact throws_replay _ _
  · exact Throws.pure _

/-! ## New stores -/

/-- The setting in which the entries of the link environment are replayed: a new store, and
a linker that has taken nothing. -/
def blank (s : Setting) : Setting where
  vm := { s.vm with store := .fresh s.vm.config s.host.newStore.1, linker := {} }
  host := s.host.newStore.2

/-- What a rebuilt machine takes over from the context of its old store. -/
def inherit (old : Vm) (vm : Vm) : Vm :=
  { vm with
    store := { vm.store with
      context := { vm.store.context with logs := old.logs, exitCode := old.exitCode } }
    stale := false }

/-- The old store and its links, put back. -/
def restore (old : Vm) (vm : Vm) : Vm := { vm with store := old.store, linker := old.linker }

/-- **What a rebuild comes to**: the entries are replayed on a new store, and if that fails
the old store and its links are back in place. -/
theorem run_rebuild (s : Setting) :
    EStateM.run rebuild s =
      match EStateM.run replayAll (blank s) with
      | .ok () t => .ok () { t with vm := inherit s.vm t.vm }
      | .error e t => .error e { t with vm := restore s.vm t.vm } := by
  have h : EStateM.run rebuild s = EStateM.run (tryCatch replayAll (fun e => do
      modifyVm (restore s.vm)
      throw e) >>= fun _ => modifyVm (inherit s.vm)) (blank s) := rfl
  rw [h, EStateM.run_bind, run_tryCatch]
  cases EStateM.run replayAll (blank s) <;> rfl

theorem throws_rebuild : Throws RuntimeError.OfLinking rebuild := by
  intro s e t h
  rw [run_rebuild] at h
  cases hr : EStateM.run replayAll (blank s) with
  | ok a u =>
    rw [hr] at h
    cases h
  | error f u =>
    rw [hr] at h
    cases h
    exact throws_replayAll _ _ _ hr

/-- **A rebuild leaves the record as it is**, and what it counts is spent fuel. -/
theorem keeps_rebuild : Keeps (fun s t => t.vm.record = s.vm.record ∧
    s.vm.statistics.Spends t.vm.statistics) rebuild := by
  intro s
  unfold ending
  rw [run_rebuild]
  cases hr : EStateM.run replayAll (blank s) with
  | ok a t =>
    have hb : Builds (blank s) t := keeps_replayAll.ok hr
    exact ⟨hb.record, hb.spends⟩
  | error e t =>
    have hb : Builds (blank s) t := keeps_replayAll.error hr
    exact ⟨hb.record, hb.spends⟩

/-! ## Calls -/

theorem keeps_works {x : Action α} (h : Keeps Builds x) : Keeps Works x :=
  h.mono fun _ _ h => h.toWorks

/-- A call keeps the functions and the instances of the store. -/
theorem keeps_code_exchange (address : Nat) (signature : Signature) (args : List Value) :
    Keeps (SameBy Machine.code) (exchange address signature args) := by
  refine Keeps.get.bind fun m => Guest.keeps.bind fun operands => ?_
  split
  · exact (Exec.keeps_invoke _ _).bind fun results => Guest.keeps
  · exact Keeps.throw _

theorem keeps_exchange (address : Nat) (signature : Signature) (args : List Value) :
    Keeps (InvImage Code.Extends Machine.code) (exchange address signature args) := by
  refine (keeps_code_exchange address signature args).mono fun s t (hst : t.code = s.code) => ?_
  change s.code.Extends t.code
  rw [hst]
  exact Std.Refl.refl s.code

theorem keeps_settle (signature : Signature) (stop : Stop) :
    Keeps Builds (settle signature stop) := by
  unfold settle
  split
  · exact (keeps_modifyContext _).bind fun _ => Keeps.pure _
  · exact Keeps.pure _
  · exact Keeps.throw _
  · exact Keeps.throw _
  · exact Keeps.throw _
  · exact Keeps.throw _
  · exact Keeps.throw _
  · exact Keeps.throw _

theorem throws_settle (signature : Signature) (stop : Stop) :
    Throws RuntimeError.OfCalling (settle signature stop) := by
  unfold settle
  split
  · exact Throws.modify.bind fun _ => Throws.pure _
  · exact Throws.pure _
  · exact Throws.throw (.execution _)
  · exact Throws.throw (.registry _)
  · exact Throws.throw (.execution _)
  · exact Throws.throw (.execution _)
  · exact Throws.throw (.execution _)
  · exact Throws.throw (.execution _)

theorem keeps_call (address : Nat) (args : List Value) : Keeps Works (call address args) := by
  refine keeps_vm.bind fun vm => (keeps_ofExcept _ _).bind fun signature => ?_
  refine (keeps_ofExcept _ _).bind fun _ => ?_
  refine (keeps_works (keeps_compute (keeps_exchange _ _ _))).bind fun r => ?_
  refine Keeps.bind (keeps_modifyVm fun s => ⟨rfl, rfl, Std.Refl.refl _⟩) fun _ => ?_
  split
  · exact Keeps.pure _
  · exact keeps_works (keeps_settle _ _)

theorem throws_call (address : Nat) (args : List Value) :
    Throws RuntimeError.OfCalling (call address args) := by
  refine throws_vm.bind fun vm =>
    (throws_ofExcept (fun _ => .execution _) _).bind fun signature => ?_
  refine (throws_ofExcept (fun _ => .execution _) _).bind fun _ => ?_
  refine (throws_compute _).bind fun r => Throws.modify.bind fun _ => ?_
  split
  · exact Throws.pure _
  · exact throws_settle _ _

/-- What calls keep, the call of what has been found keeps. -/
theorem keeps_callFound {R : Setting → Setting → Prop} [IsPreorder Setting R]
    (hcall : ∀ address args, Keeps R (call address args)) (found : Option Nat) (args : List Value)
    (e : RuntimeError) :
    Keeps R (match found with | some address => call address args | none => throw e) := by
  cases found with
  | some address => exact hcall address args
  | none => exact Keeps.throw e

theorem keeps_execute_of_call {R : Setting → Setting → Prop} [IsPreorder Setting R]
    (hcall : ∀ address args, Keeps R (call address args)) (name : String) (args : List Value) :
    Keeps R (execute name args) := by
  refine keeps_vm.bind fun vm => ?_
  dsimp only
  split
  · exact (Keeps.throw _).bind fun _ => keeps_callFound hcall _ args _
  · exact keeps_callFound hcall _ args _

theorem keeps_executeRegistered_of_call {R : Setting → Setting → Prop} [IsPreorder Setting R]
    (hcall : ∀ address args, Keeps R (call address args)) (moduleName name : String)
    (args : List Value) : Keeps R (executeRegistered moduleName name args) :=
  keeps_vm.bind fun _ => keeps_callFound hcall _ args _

theorem throws_callFound (found : Option Nat) (args : List Value) {e : ExecutionError} :
    Throws RuntimeError.OfCalling
      (match found with | some address => call address args | none => throw (.execution e)) := by
  cases found with
  | some address => exact throws_call address args
  | none => exact Throws.throw (.execution e)

theorem keeps_execute (name : String) (args : List Value) : Keeps Works (execute name args) :=
  keeps_execute_of_call keeps_call name args

theorem throws_execute (name : String) (args : List Value) :
    Throws RuntimeError.OfCalling (execute name args) := by
  refine throws_vm.bind fun vm => ?_
  dsimp only
  split
  · exact (Throws.throw (.execution _)).bind fun _ => throws_callFound _ args
  · exact throws_callFound _ args

theorem keeps_executeRegistered (moduleName name : String) (args : List Value) :
    Keeps Works (executeRegistered moduleName name args) :=
  keeps_executeRegistered_of_call keeps_call moduleName name args

/-! ## Work that leaves the linker alone -/

/-- The linker of a machine is the same. -/
abbrev SameLinker : Setting → Setting → Prop := SameBy fun s => s.vm.linker

theorem keeps_linker_refresh : Keeps SameLinker refresh := by
  refine Keeps.get.bind fun s => ?_
  split
  · exact Keeps.pure _
  · exact (keeps_ofExcept _ _).bind fun _ => keeps_modifyVm fun _ => rfl

theorem keeps_linker_compute (x : Exec α) : Keeps SameLinker (compute x) := by
  intro s
  rw [ending_of_ok (run_compute x s)]
  rfl

theorem keeps_linker_instance? (m : Module) : Keeps SameLinker (instance? m) := by
  refine keeps_vm.bind fun vm => (keeps_linker_compute _).bind fun r => ?_
  exact Keeps.bind (keeps_modifyVm fun _ => rfl) fun _ => keeps_ofExcept _ _

theorem keeps_linker_call (address : Nat) (args : List Value) :
    Keeps SameLinker (call address args) := by
  refine keeps_vm.bind fun vm => (keeps_ofExcept _ _).bind fun signature => ?_
  refine (keeps_ofExcept _ _).bind fun _ => (keeps_linker_compute _).bind fun r => ?_
  refine Keeps.bind (keeps_modifyVm fun _ => rfl) fun _ => ?_
  split
  · exact Keeps.pure _
  · rename_i stop _
    have hsettle : Keeps SameLinker (settle signature stop) := by
      unfold settle
      split
      · exact Keeps.bind (keeps_modifyVm fun _ => rfl) fun _ => Keeps.pure _
      all_goals first | exact Keeps.pure _ | exact Keeps.throw _
    exact hsettle

theorem keeps_linker_execute (name : String) (args : List Value) :
    Keeps SameLinker (execute name args) :=
  keeps_execute_of_call keeps_linker_call name args

theorem keeps_linker_executeRegistered (moduleName name : String) (args : List Value) :
    Keeps SameLinker (executeRegistered moduleName name args) :=
  keeps_executeRegistered_of_call keeps_linker_call moduleName name args

end Action

end Vm

end WasmEmbedding
