import WasmEmbedding.Proofs.Vm.Attempts
import WasmEmbedding.Proofs.Vm.Orderly

/-! # The memory cap

A configuration can limit the pages of a linear memory.  Memories come from modules and from import
objects, and guests grow them; stores come and go with rebuilds, whether these succeed or not.
Nowhere on the way is there a memory with more pages (`memory_cap`): every store of a machine is
orderly under the cap, at every moment of a run (`EngineRun.orderly_moment`).

At such a moment the next step of a guest that grows a memory is known in full (`Machine.Capped`):
beyond the cap it answers −1 and changes nothing, and within the cap and the maximum of the memory
it appends the pages.  What cannot be made at all fails what asks for it: an instantiation, or the
registration of a module or an import object.
-/
namespace WasmEmbedding

open Chronicle Engine Wasm

/-- The module has a memory with more pages to start with. -/
def Wasm.Module.Exceeds (pages : Nat) (m : Module) : Prop :=
  ∃ t ∈ m.memories, pages < t.limits.min

instance (pages : Nat) (m : Module) : Decidable (m.Exceeds pages) :=
  inferInstanceAs (Decidable (∃ t ∈ m.memories, pages < t.limits.min))

/-- Under a cap of so many pages. -/
theorem Wasm.MemoryType.fits_iff {pages : Nat} {t : MemoryType} :
    t.Fits (some (pages * pageBytes)) ↔ t.limits.min ≤ pages := by
  constructor
  · exact fun h => Nat.le_of_mul_le_mul_right (h _ rfl) (by decide)
  · rintro h _ ⟨⟩
    exact Nat.mul_le_mul_right _ h

theorem Wasm.Module.exceeds_iff {pages : Nat} {m : Module} :
    m.Exceeds pages ↔ ¬ ∀ t ∈ m.memories, t.Fits (some (pages * pageBytes)) := by
  simp only [Exceeds, MemoryType.fits_iff, not_forall, Nat.not_le, exists_prop]

namespace Engine

namespace Memory

variable {pages count : Nat} {m : Memory}

theorem fits_iff : m.Fits (some (pages * pageBytes)) ↔ m.pageCount ≤ pages := by
  constructor
  · exact fun h => Nat.le_of_mul_le_mul_right (h _ rfl) (by decide)
  · rintro h _ ⟨⟩
    exact Nat.mul_le_mul_right _ h

theorem append_zero (m : Memory) : m.append 0 = m := by
  simp [append]

/-- Growth beyond the cap is refused. -/
theorem grow_of_lt (h : m.pageCount ≤ pages) (hlt : pages < m.pageCount + count) :
    m.grow (some (pages * pageBytes)) count = none := by
  have hcount : count ≠ 0 := by omega
  have hcap : ¬ (m.pageCount + count) * pageBytes ≤ pages * pageBytes := fun hle =>
    Nat.not_le_of_lt hlt (Nat.le_of_mul_le_mul_right hle (by decide))
  rw [grow, if_neg hcount, if_neg]
  simp [allows, hcap]

/-- Growth within the cap is refused for other reasons only. -/
theorem grow_of_le (hle : m.pageCount + count ≤ pages) (hmax : m.pageCount + count ≤ maxPages)
    (hdeclared : ∀ n, m.maximum = some n → m.pageCount + count ≤ n) :
    m.grow (some (pages * pageBytes)) count = some (m.append count) := by
  have hcap : (m.pageCount + count) * pageBytes ≤ pages * pageBytes := Nat.mul_le_mul_right _ hle
  have hallows : m.allows (some (pages * pageBytes)) (m.pageCount + count) = true := by
    cases hm : m.maximum with
    | none => simp [allows, hm, hmax, hcap]
    | some n => simp [allows, hm, hmax, hcap, hdeclared n hm]
  rw [grow, if_pos hallows]
  split
  · rename_i hzero
    rw [hzero, append_zero]
  · rfl

end Memory

/-! ## Steps that grow a memory -/

/-- What a guest asks for that grows a memory, and what it has besides. -/
structure Growth where
  index : Nat
  count : UInt32
  address : Nat
  memory : Memory
  code : List Instr
  values : List Operand

/-- The growth that the next step of the guest is about, if it is about one. -/
def Machine.growth? (m : Machine) : Option Growth :=
  match m.frame.code, m.frame.values with
  | .op (.memoryGrow index) :: code, .i32 count :: values => do
    let i ← m.frame.home
    let home ← m.store.instances[i]?
    let address ← home.memories[index]?
    let memory ← m.store.memories[address]?
    return ⟨index, count, address, memory, code, values⟩
  | _, _ => none

namespace Growth

variable {g : Growth} {m : Machine}

/-- The pages that the memory is to have. -/
def pages (g : Growth) : Nat := g.memory.pageCount + g.count.toNat

/-- The next step of the guest is to grow the memory. -/
structure At (g : Growth) (m : Machine) : Prop where
  code : m.frame.code = .op (.memoryGrow g.index) :: g.code
  values : m.frame.values = .i32 g.count :: g.values
  address : ∃ i home, m.frame.home = some i ∧ m.store.instances[i]? = some home ∧
    home.memories[g.index]? = some g.address
  memory : m.store.memories[g.address]? = some g.memory

theorem at_of_growth? (h : m.growth? = some g) : g.At m := by
  unfold Machine.growth? at h
  split at h
  · rename_i hcode hvalues
    simp only [Option.bind_eq_bind, Option.bind_eq_some_iff, Option.pure_def,
      Option.some.injEq] at h
    obtain ⟨i, hi, home, hhome, address, haddress, memory, hmemory, rfl⟩ := h
    exact ⟨hcode, hvalues, ⟨i, home, hi, hhome, haddress⟩, hmemory⟩
  · cases h

/-- The machine with the instruction behind it. -/
def begun (g : Growth) (m : Machine) : Machine where
  __ := m
  frame := { m.frame with code := g.code }
  meter := m.meter.charge 1

/-- The machine with other operands. -/
def answered (xs : List Operand) (m : Machine) : Machine :=
  { m with frame := { m.frame with values := xs } }

/-- Another memory stands in the place of the one that was to grow. -/
def placed (g : Growth) (t : Memory) (m : Machine) : Machine where
  __ := m
  store := { m.store with memories := m.store.memories.modify g.address fun _ => t }

theorem At.run_memoryAddress (h : g.At m) :
    EStateM.run (Exec.memoryAddress g.index) (answered g.values (g.begun m)) =
      .ok g.address (answered g.values (g.begun m)) := by
  obtain ⟨i, home, hhome, hinstance, haddress⟩ := h.address
  have hrun : EStateM.run (Exec.memoryAddress g.index) (answered g.values (g.begun m)) =
      EStateM.run (Exec.ofOption (m.frame.home.bind fun i => m.store.instances[i]?) >>=
        fun home => Exec.ofOption home.memories[g.index]?) (answered g.values (g.begun m)) := rfl
  rw [hrun, hhome, Option.bind_some, hinstance]
  change EStateM.run (Exec.ofOption home.memories[g.index]?) _ = _
  rw [haddress]
  rfl

/-- A memory grows if it can, and else nothing is changed and the answer is −1. -/
theorem At.run_memoryGrow (h : g.At m) :
    EStateM.run (Exec.memoryGrow g.index) (g.begun m) = .ok ()
      (match g.memory.grow m.store.memoryCap g.count.toNat with
      | some t => answered (.i32 (UInt32.ofNat g.memory.pageCount) :: g.values)
          (g.placed t (g.begun m))
      | none => answered (.i32 0xFFFFFFFF :: g.values) (g.begun m)) := by
  have hpop : EStateM.run Exec.popWord (g.begun m) =
      .ok g.count (answered g.values (g.begun m)) := by
    change EStateM.run Exec.popWord (answered m.frame.values (g.begun m)) = _
    rw [h.values]
    rfl
  have hrun : EStateM.run (Exec.memoryGrow g.index) (g.begun m) =
      EStateM.run (Exec.ofOption m.store.memories[g.address]? >>= fun memory =>
        match memory.grow m.store.memoryCap g.count.toNat with
        | some grown => Exec.modifyMemory g.address (fun _ => grown) >>= fun _ =>
            Exec.push (.i32 (UInt32.ofNat memory.pageCount))
        | none => Exec.push Exec.refused) (answered g.values (g.begun m)) :=
    (run_bind_of_ok hpop).trans (run_bind_of_ok h.run_memoryAddress)
  rw [hrun, h.memory]
  change EStateM.run (match g.memory.grow m.store.memoryCap g.count.toNat with
    | some grown => Exec.modifyMemory g.address (fun _ => grown) >>= fun _ =>
        Exec.push (.i32 (UInt32.ofNat g.memory.pageCount))
    | none => Exec.push Exec.refused) _ = _
  cases g.memory.grow m.store.memoryCap g.count.toNat <;> rfl

/-- The step is the instruction. -/
theorem At.run_step (h : g.At m) :
    EStateM.run Exec.step m =
      EStateM.run (Exec.memoryGrow g.index >>= fun _ => pure false) (g.begun m) := by
  obtain ⟨store, host, meter, ⟨home, arity, locals, values, labels, code⟩, callers, depth⟩ := m
  cases h.code
  rfl

end Growth

/-- Under a cap of so many pages: no memory has more, and the next step gives none more. -/
structure Machine.Capped (pages : Nat) (m : Machine) : Prop where
  memories : ∀ memory ∈ m.store.memories, memory.pageCount ≤ pages
  /-- Growth beyond the cap answers −1 and leaves the store as it is. -/
  refuses : ∀ g : Growth, m.growth? = some g → pages < g.pages →
    EStateM.run Exec.step m = .ok false (g.begun m |> Growth.answered (.i32 0xFFFFFFFF :: g.values))
  /-- Growth within the cap, the declared maximum and the largest memory there is appends the
  pages and answers how many there were. -/
  grants : ∀ g : Growth, m.growth? = some g → g.pages ≤ pages → g.pages ≤ maxPages →
    (∀ n, g.memory.maximum = some n → g.pages ≤ n) →
    EStateM.run Exec.step m = .ok false
      (g.placed (g.memory.append g.count.toNat) (g.begun m) |>
        Growth.answered (.i32 (UInt32.ofNat g.memory.pageCount) :: g.values))

/-- **A machine with an orderly store is capped.** -/
theorem Machine.capped {id : StoreId} {pages : Nat} {m : Machine}
    (h : m.store.Orderly id (some (pages * pageBytes))) : m.Capped pages := by
  have hmemories : ∀ memory ∈ m.store.memories, memory.pageCount ≤ pages :=
    fun memory hmemory => Memory.fits_iff.mp (h.memories memory hmemory)
  refine ⟨hmemories, fun g hg hlt => ?_, fun g hg hle hmax hdeclared => ?_⟩
  · have hat := Growth.at_of_growth? hg
    have hfits := hmemories g.memory (Array.mem_of_getElem? hat.memory)
    rw [hat.run_step, EStateM.run_bind, hat.run_memoryGrow, h.memoryCap,
      Memory.grow_of_lt hfits hlt]
    rfl
  · have hat := Growth.at_of_growth? hg
    rw [hat.run_step, EStateM.run_bind, hat.run_memoryGrow, h.memoryCap,
      Memory.grow_of_le hle hmax hdeclared]
    rfl

end Engine

namespace Vm

/-- The cap in bytes. -/
theorem maxMemoryBytes_eq {config : EngineConfig} {n : UInt32}
    (h : config.maxMemoryPages = some n) :
    config.maxMemoryBytes = some (n.toNat * pageBytes) := by
  rw [EngineConfig.maxMemoryBytes, h]
  rfl

/-- The pages of a machine's memories are limited, and its store is orderly under the limit. -/
structure CappedBy (n : UInt32) (vm : Vm) : Prop where
  orderly : vm.Orderly
  limit : vm.config.engine.maxMemoryPages = some n

namespace CappedBy

variable {n : UInt32} {vm : Vm}

theorem store (h : vm.CappedBy n) :
    vm.store.Orderly vm.store.id (some (n.toNat * pageBytes)) := by
  have horderly := h.orderly
  rwa [Orderly, maxMemoryBytes_eq h.limit] at horderly

/-- The machine is capped at every moment of a run. -/
theorem moment {r : EngineRun} (h : r.setting.vm.CappedBy n) (k : Nat) :
    (r.moment k).Capped n.toNat := by
  have horderly := (EngineRun.orderly_moment h.orderly k).store
  rw [maxMemoryBytes_eq h.limit] at horderly
  exact Machine.capped horderly

end CappedBy

/-- The store can be used for a main module, and nothing is in the way of a session. -/
def Setting.Unhindered (s : Setting) : Prop := s.vm.stale = false ∧ ¬ s.Barred

/-- What there is of a main module does not matter. -/
theorem Setting.Unhindered.of_aside {s t : Setting} (h : s.Unhindered)
    (hst : t.aside = s.aside) : t.Unhindered := by
  change t.aside.Unhindered
  rw [hst]
  exact h

namespace Action

variable {s : Setting} {n : UInt32} {m : Module}

/-- There is no instance of a module with a memory that is too large. -/
theorem outcome_build_of_exceeds (h : s.vm.CappedBy n) (hm : m.Exceeds n.toNat) :
    ∃ stop, outcome (build s.vm.config.engine.bulkMemory s.vm.linker m) (computer s) =
      .error stop := by
  have hbuild := (yields_buildFor Exec.manySteps s.vm.config.engine.bulkMemory s.vm.linker m
    (computer s) (h.store.idle _ _)).2
  cases ho : outcome (build s.vm.config.engine.bulkMemory s.vm.linker m) (computer s) with
  | error stop => exact ⟨stop, rfl⟩
  | ok index => exact absurd (hbuild index ho) (Module.exceeds_iff.mp hm)

theorem instance?_of_exceeds (h : s.vm.CappedBy n) (hm : m.Exceeds n.toNat) :
    ∃ message t, EStateM.run (instance? m) s = .error (.instantiation message) t := by
  obtain ⟨stop, ho⟩ := outcome_build_of_exceeds h hm
  refine ⟨stop.message, (EngineRun.mk (.build m) s false).after, ?_⟩
  rw [run_instance?_eq, ho]
  rfl

/-- A session begins if nothing is in its way. -/
theorem refresh_of_not_barred (h : ¬ s.Barred) :
    ∃ c, EStateM.run refresh s = .ok () (withContext s c) := by
  cases hrun : EStateM.run refresh s with
  | ok _ t =>
    obtain ⟨c, rfl, -⟩ := (refresh_post s).ok hrun
    exact ⟨c, rfl⟩
  | error e t =>
    cases hkey : s.vm.environment with
    | none => cases (run_refresh_of_none hkey).symm.trans hrun
    | some key =>
      obtain ⟨w, hw, -⟩ := (run_refresh_eq_error hkey).mp hrun
      exact absurd ⟨key, w, hkey, hw⟩ h

/-- Linking a module with a memory that is too large fails for this reason, if a session begins. -/
theorem instantiateRegistered_of_exceeds (h : s.vm.CappedBy n) (hm : m.Exceeds n.toNat)
    (name : String) : ∃ e t, EStateM.run (instantiateRegistered name m) s = .error e t ∧
      (¬ s.Barred → ∃ message, e = .instantiation message) := by
  rw [instantiateRegistered_eq]
  by_cases hbarred : s.Barred
  · obtain ⟨w, hw⟩ := refresh_of_barred hbarred
    exact ⟨.wasi w, s, run_bind_of_error hw, absurd hbarred⟩
  · obtain ⟨c, hc⟩ := refresh_of_not_barred hbarred
    have hcapped : (withContext s c).vm.CappedBy n := ⟨h.orderly.of_context rfl rfl, h.limit⟩
    obtain ⟨message, t, hrun⟩ := instance?_of_exceeds hcapped hm
    exact ⟨_, t, (run_bind_of_ok hc).trans (run_bind_of_error hrun), fun _ => ⟨message, rfl⟩⟩

/-- Without hindrances only the instance itself can fail. -/
theorem prepare_error {e : RuntimeError} {t : Setting} (h : s.Unhindered)
    (hrun : EStateM.run (prepare m) s = .error e t) : ∃ message, e = .instantiation message := by
  obtain ⟨c, hc⟩ := refresh_of_not_barred h.2
  rcases run_bind_eq_error.mp hrun with hvm | ⟨_, u, hvm, hrest⟩
  · cases hvm
  · cases hvm
    dsimp only at hrest
    rw [if_neg (by rw [h.1]; exact nofun), run_bind_of_ok hc] at hrest
    exact throws_instance? m (withContext s c).marked e t hrest

theorem start_error {e : RuntimeError} {t : Setting} (h : s.Unhindered)
    (hrun : EStateM.run (start m) s = .error e t) : ∃ message, e = .instantiation message := by
  rw [start_eq] at hrun
  rcases run_bind_eq_error.mp hrun with hdeactivate | ⟨_, u, hdeactivate, hrest⟩
  · obtain ⟨u, hu, -⟩ := run_deactivate s
    cases hu.symm.trans hdeactivate
  · rcases run_bind_eq_error.mp hrest with hprepare | ⟨index, v, -, hactivate⟩
    · exact prepare_error (h.of_aside (keeps_aside_deactivate.ok hdeactivate)) hprepare
    · cases hactivate

/-- So it is with the operation, if there is a valid module. -/
theorem instantiate_error {e : RuntimeError} {t : Setting} (hsound : s.vm.Sound)
    (h : s.Unhindered) {image : Image} (hloaded : s.vm.loaded = some image)
    (hvalid : image.validate s.vm.config.engine.features = .ok m)
    (hrun : EStateM.run instantiate s = .error e t) : ∃ message, e = .instantiation message := by
  have hcoherent := hsound.coherent
  have hstage : s.vm.stage ≠ .created := fun hcreated =>
    nomatch hloaded.symm.trans (hcoherent.created_iff.mp hcreated)
  have hvalidate := validate_post hsound hstage
  rw [run_instantiate, if_neg hstage] at hrun
  rcases run_bind_eq_error.mp hrun with hfails | ⟨_, u, hok, hrest⟩
  · obtain ⟨-, hloadedStage, -⟩ := hvalidate.error hfails
    rw [run_validate, hloadedStage, hloaded] at hfails
    dsimp only at hfails
    rw [hvalid] at hfails
    cases hfails
  · obtain ⟨-, -, ⟨m', hm'⟩, -⟩ := hvalidate.ok hok
    rcases run_bind_eq_error.mp hrest with hvm | ⟨_, v, hvm, hstart⟩
    · cases hvm
    · cases hvm
      rw [hm'] at hstart
      exact start_error (h.of_aside (keeps_aside_validate.ok hok)) hstart

end Action

/-- What has been instantiated is the module of the image that is loaded. -/
theorem attempt_of_instantiate {s : Setting} (h : s.vm.Sound) {image : Image} {m : Module}
    (hloaded : s.vm.loaded = some image)
    (hvalid : image.validate s.vm.config.engine.features = .ok m)
    (hok : s.answer .instantiate = .ok ()) :
    ∃ r ∈ s.attempts .instantiate, r.task = .build m ∧ r.outcome = .ok () := by
  obtain ⟨hsound, -, hsame⟩ := conforms_perform h .instantiate
  have hconfig := config_after s .instantiate
  have hundertakes := undertakes (o := .instantiate) rfl s
  unfold Setting.after at hconfig hundertakes
  rw [hok] at hundertakes
  generalize s.attempts .instantiate = attempts, s.services .instantiate = calls,
    ending (Operation.perform .instantiate) s = t at hsound hsame hconfig hundertakes ⊢
  cases hundertakes with
  | @makes v w m' ready begins outcome calls r t serves =>
    have hcompiled : t.vm.compiled = some m' :=
      (congrArg Record.compiled serves.works.record).trans
        ((congrArg Record.compiled (Action.keeps_refresh.ok begins).record).trans ready.compiled)
    obtain ⟨image', hloaded', hvalid'⟩ := hsound.coherent.compiled_eq m' hcompiled
    rw [hsame rfl, hloaded] at hloaded'
    cases hloaded'
    rw [hconfig, hvalid] at hvalid'
    cases hvalid'
    exact ⟨_, List.mem_singleton_self _, rfl, outcome⟩

section Limits

variable {s : Setting} {n : UInt32}

/-- A run cannot make an instance of a module with a memory that is too large. -/
theorem CappedBy.outcome {r : EngineRun} (h : r.setting.vm.CappedBy n) {m : Module}
    (htask : r.task = .build m) (hm : m.Exceeds n.toNat) : ∃ stop, r.outcome = .error stop := by
  obtain ⟨task, t, replayed⟩ := r
  cases htask
  obtain ⟨stop, hstop⟩ := Action.outcome_build_of_exceeds h hm
  have houtcome := Action.outcome_build_eq m t
  rw [hstop] at houtcome
  exact ⟨stop, houtcome⟩

theorem CappedBy.of_mem_runs (h : s.vm.CappedBy n) {o : Operation} {r : EngineRun}
    (hr : r ∈ s.runs o) : r.setting.vm.CappedBy n := by
  obtain ⟨-, -, hruns⟩ := orders_after s o
  obtain ⟨hconfig, horderly⟩ := hruns r hr
  exact ⟨horderly h.orderly, by rw [hconfig]; exact h.limit⟩

theorem CappedBy.of_mem_attempts (h : s.vm.CappedBy n) {o : Operation} {r : EngineRun}
    (hr : r ∈ s.attempts o) : r.setting.vm.CappedBy n := by
  unfold Setting.attempts at hr
  split at hr
  · exact h.of_mem_runs (List.mem_of_mem_filter hr)
  · cases hr

/-- An attempt at a module with a memory that is too large fails, and the operation with it. -/
theorem CappedBy.attempt (h : s.vm.CappedBy n) {o : Operation} {r : EngineRun}
    (hr : r ∈ s.attempts o) {m : Module} (htask : r.task = .build m) (hm : m.Exceeds n.toNat) :
    ∃ message, s.answer o = .error (.instantiation message) := by
  cases ho : o.instantiates with
  | false =>
    rw [Setting.attempts_of_not_instantiates ho] at hr
    cases hr
  | true =>
    have hcapped := h.of_mem_attempts hr
    have hundertakes := undertakes ho s
    generalize s.attempts o = attempts, s.services o = calls, s.answer o = answer,
      s.after o = t at hr hundertakes
    cases hundertakes with
    | falls => cases hr
    | @fails v w m' ready begins stop outcome => exact ⟨stop.message, rfl⟩
    | @makes v w m' ready begins outcome =>
      cases List.mem_singleton.mp hr
      obtain ⟨stop, hstop⟩ := hcapped.outcome htask hm
      cases hstop.symm.trans outcome

/-- A main module with a memory that is too large is not instantiated. -/
theorem CappedBy.instantiate (h : s.vm.CappedBy n) (hsound : s.vm.Sound) {image : Image}
    {m : Module} (hloaded : s.vm.loaded = some image)
    (hvalid : image.validate s.vm.config.engine.features = .ok m) (hm : m.Exceeds n.toNat) :
    ∃ e, s.answer .instantiate = .error e ∧
      (s.Unhindered → ∃ message, e = .instantiation message) := by
  cases hrun : EStateM.run Action.instantiate s with
  | error e t =>
    exact ⟨e, outcome_of_error hrun, fun hfree =>
      Action.instantiate_error hsound hfree hloaded hvalid hrun⟩
  | ok _ t =>
    obtain ⟨r, hr, htask, houtcome⟩ :=
      attempt_of_instantiate hsound hloaded hvalid (outcome_of_ok hrun)
    obtain ⟨stop, hstop⟩ := (h.of_mem_attempts hr).outcome htask hm
    cases hstop.symm.trans houtcome

/-- A module with a memory that is too large is not registered. -/
theorem CappedBy.register (h : s.vm.CappedBy n) (name : String) {source : Source} {image : Image}
    {m : Module} (hload : s.host.load source = .ok image)
    (hvalid : image.validate s.vm.config.engine.features = .ok m) (hm : m.Exceeds n.toNat) :
    ∃ e, s.answer (.register name source) = .error e ∧
      (s.vm.isFree name = true → ¬ s.Barred → ∃ message, e = .instantiation message) := by
  have hopened : EStateM.run (Action.register name source) s =
      EStateM.run (Action.registerModule name image) s := by
    have hrun : EStateM.run (Action.register name source) s =
        EStateM.run (Action.ofExcept id (s.host.load source) >>= Action.registerModule name) s :=
      rfl
    rw [hrun, hload]
    rfl
  have hchecked := Action.run_checkName_isFree name s
  cases hfree : s.vm.isFree name with
  | false =>
    rw [hfree] at hchecked
    obtain ⟨e, he⟩ := hchecked
    exact ⟨e, outcome_of_error (hopened.trans (run_bind_of_error he)), nofun⟩
  | true =>
    rw [hfree] at hchecked
    have hvalidated : EStateM.run (Action.registerModule name image) s =
        EStateM.run (Action.ofExcept .validation (image.validate s.vm.config.engine.features) >>=
          fun m => Action.instantiateRegistered name m >>= fun _ =>
            Action.enter name (.module m)) s := run_bind_of_ok hchecked
    rw [hvalid] at hvalidated
    have hvalidated : EStateM.run (Action.registerModule name image) s =
        EStateM.run (Action.instantiateRegistered name m >>= fun _ =>
          Action.enter name (.module m)) s := hvalidated
    obtain ⟨e, t, hrun, he⟩ := Action.instantiateRegistered_of_exceeds h hm name
    refine ⟨e, outcome_of_error (t := t) ?_, fun _ => he⟩
    exact (hopened.trans hvalidated).trans (run_bind_of_error hrun)

/-- No store that is orderly under the cap takes in a memory that is too large. -/
theorem materialize_of_lt {config : EngineConfig} (hlimit : config.maxMemoryPages = some n)
    {memory : Host.HostMemory} (hlt : n < memory.minimum) {id : StoreId} (t : Store)
    (ht : t.Orderly id config.maxMemoryBytes) (r : Item × Store) :
    (Host.Symbol.memory memory).materialize t ≠ .ok r := by
  have hcap : ¬ memory.minimum.toNat * pageBytes ≤ n.toNat * pageBytes := fun hle =>
    Nat.not_le_of_lt (UInt32.lt_iff_toNat_lt.mp hlt) (Nat.le_of_mul_le_mul_right hle (by decide))
  have hadmits : t.admits memory.type = false := by
    rw [Store.admits, ht.memoryCap, maxMemoryBytes_eq hlimit]
    exact decide_eq_false hcap
  intro hr
  obtain ⟨item, u⟩ := r
  cases Host.Symbol.makes_of_materialize hr with
  | memory hadded =>
    obtain ⟨hadmitted, -⟩ := Store.addMemory_eq_some_iff.mp hadded
    rw [hadmits] at hadmitted
    cases hadmitted

/-- An import object with a memory that is too large is not registered. -/
theorem CappedBy.registerImport (h : s.vm.CappedBy n) {o : Host.ImportObject}
    (hnone : o.environment = none) {name : String} {memory : Host.HostMemory}
    (hmem : (name, .memory memory) ∈ o.symbolList) (hlt : n < memory.minimum) :
    ∃ e, s.answer (.registerImport o) = .error e ∧ (s.vm.isFree o.moduleName = true →
      ∃ place reason, e = .link (.incompatible o.moduleName place reason)) := by
  obtain ⟨e, hrun, hlink⟩ :=
    registerImport_refuses h.orderly (materialize_of_lt h.limit hlt) hnone hmem
  exact ⟨e, outcome_of_error hrun, hlink⟩

end Limits

/-- **The memory cap holds in every store.**  In a machine whose configuration limits memories to so
many pages, no memory has more, at no moment of any run that an operation comes to, on whatever
store: runs for main and registered modules, for calls, and those of rebuilds.  At each of these
moments a guest that is about to grow a memory is answered −1, with nothing changed, if this would
exceed the cap, and has its pages if it is within the cap and the maximum of the memory.  A module
with a memory that is too large to start with cannot be instantiated or registered, nor can an
object be linked that brings such a memory, and if nothing else is in the way, this is what the
error says. -/
theorem memory_cap {s : Setting} (h : Reachable s) {n : UInt32}
    (hn : s.vm.config.engine.maxMemoryPages = some n) :
    (∀ memory ∈ s.vm.store.memories, memory.pageCount ≤ n.toNat) ∧
    (∀ o, (s.after o).vm.config.engine.maxMemoryPages = some n ∧
      (∀ r ∈ s.runs o, ∀ k, (r.moment k).Capped n.toNat) ∧
      ∀ r ∈ s.attempts o, ∀ m, r.task = .build m → m.Exceeds n.toNat →
        ∃ message, s.answer o = .error (.instantiation message)) ∧
    (∀ image m, s.vm.loaded = some image →
      image.validate s.vm.config.engine.features = .ok m → m.Exceeds n.toNat →
      ∃ e, s.answer .instantiate = .error e ∧
        (s.Unhindered → ∃ message, e = .instantiation message)) ∧
    (∀ name source image m, s.host.load source = .ok image →
      image.validate s.vm.config.engine.features = .ok m → m.Exceeds n.toNat →
      ∃ e, s.answer (.register name source) = .error e ∧
        (s.vm.isFree name = true → ¬ s.Barred → ∃ message, e = .instantiation message)) ∧
    ∀ (o : Host.ImportObject) name (memory : Host.HostMemory), o.environment = none →
      (name, .memory memory) ∈ o.symbolList → n < memory.minimum →
      ∃ e, s.answer (.registerImport o) = .error e ∧ (s.vm.isFree o.moduleName = true →
        ∃ place reason, e = .link (.incompatible o.moduleName place reason)) := by
  have hcapped : s.vm.CappedBy n := ⟨invariant_orderly.reachable h, hn⟩
  have hsound : s.vm.Sound := invariant_sound.reachable h
  refine ⟨fun memory hmemory => Memory.fits_iff.mp (hcapped.store.memories memory hmemory),
    fun o => ⟨?_, ?_, ?_⟩,
    fun image m hloaded hvalid hm => hcapped.instantiate hsound hloaded hvalid hm,
    fun name source image m hload hvalid hm => hcapped.register name hload hvalid hm,
    fun o name memory hnone hmem hlt => hcapped.registerImport hnone hmem hlt⟩
  · rw [config_after]
    exact hn
  · exact fun r hr k => (hcapped.of_mem_runs hr).moment k
  · exact fun r hr m htask hm => hcapped.attempt hr htask hm

/-- The bytes of a module with a memory of two pages. -/
def tallBytes : List UInt8 := emptyBytes ++ [5, 3, 1, 0, 2]

/-- The bytes of a module with a memory of one page, and a function that adds another one. -/
def growingBytes : List UInt8 :=
  emptyBytes ++ [1, 5, 1, 0x60, 0, 1, 0x7f] ++ [3, 2, 1, 0] ++ [5, 3, 1, 0, 1] ++
    [7, 8, 1, 4, 0x67, 0x72, 0x6f, 0x77, 0, 0] ++ [10, 8, 1, 6, 0, 0x41, 1, 0x40, 0, 0x0b]

/-- A machine that allows memories of one page. -/
def onePage : Vm := empty { engine := { maxMemoryPages := some 1 } } ⟨0⟩

/-- The machine after it has registered the one module and loaded the other. -/
def growing : Setting :=
  (Setting.after ⟨onePage, (Host.newStore {}).2⟩ (.register "lib" (.bytes growingBytes))).after
    (.load (.bytes tallBytes))

theorem reachable_growing : Reachable growing := by
  have hnew : Vm.new {} onePage.config = (.ok onePage, (Host.newStore {}).2) := rfl
  exact .operate (.operate (.new hnew) _) _

/-- The call that asks for a page. -/
def askPage : Operation := .executeRegistered "lib" "grow" []

/-- An import object with a memory of two pages. -/
def tallImport : Host.ImportObject := ⟨"host", some [("memory", .memory ⟨2, none⟩)], none, none⟩

/-- The page is refused, and so are the module and the import object. -/
theorem memory_cap_growing :
    Reachable growing ∧ growing.vm.config.engine.maxMemoryPages = some 1 ∧
      (∃ r ∈ growing.runs askPage, ∃ k g, (r.moment k).growth? = some g ∧ g.pages = 2 ∧
        EStateM.run Exec.step (r.moment k) =
          .ok false (Growth.answered (.i32 0xFFFFFFFF :: g.values) (g.begun (r.moment k)))) ∧
      (∃ message, growing.answer .instantiate = .error (.instantiation message)) ∧
      ∃ place reason, growing.answer (.registerImport tallImport) =
        .error (.link (.incompatible "host" place reason)) := by
  have hlimit : growing.vm.config.engine.maxMemoryPages = some 1 := by decide +kernel
  obtain ⟨-, hruns, hinstantiate, -, himport⟩ := memory_cap reachable_growing hlimit
  refine ⟨reachable_growing, hlimit, ?_, ?_, ?_⟩
  · have hgrowth : (growing.runs askPage).any (fun r =>
        (r.moment 1).growth?.any fun g => g.pages == 2) = true := by decide +kernel
    obtain ⟨r, hr, hgrowth⟩ := List.any_eq_true.mp hgrowth
    obtain ⟨g, hg, hpages⟩ := (Option.any_eq_true _ _).mp hgrowth
    have hpages : g.pages = 2 := of_decide_eq_true hpages
    have hcapped := (hruns askPage).2.1 r hr 1
    exact ⟨r, hr, 1, g, hg, hpages, hcapped.refuses g hg (by rw [hpages]; decide)⟩
  · have hloaded : growing.vm.loaded.any (fun image =>
        (image.validate growing.vm.config.engine.features).toOption.any fun m =>
          decide (m.Exceeds 1)) = true := by decide +kernel
    obtain ⟨image, hloaded, hvalid⟩ := (Option.any_eq_true _ _).mp hloaded
    obtain ⟨m, hm, hexceeds⟩ := (Option.any_eq_true _ _).mp hvalid
    have hvalid : image.validate growing.vm.config.engine.features = .ok m := by
      cases hv : image.validate growing.vm.config.engine.features with
      | error e =>
        rw [hv] at hm
        cases hm
      | ok m' =>
        rw [hv] at hm
        cases hm
        rfl
    obtain ⟨e, he, hinstantiation⟩ :=
      hinstantiate image m hloaded hvalid (of_decide_eq_true hexceeds)
    have henvironment : growing.vm.environment = none := by decide +kernel
    obtain ⟨message, rfl⟩ := hinstantiation ⟨by decide +kernel, fun ⟨_, _, hkey, _⟩ =>
      nomatch henvironment.symm.trans hkey⟩
    exact ⟨message, he⟩
  · obtain ⟨e, he, hlink⟩ := himport tallImport "memory" ⟨2, none⟩ rfl
      (List.mem_singleton_self _) (by decide)
    obtain ⟨place, reason, rfl⟩ := hlink (by decide +kernel)
    exact ⟨place, reason, he⟩

end Vm

end WasmEmbedding
