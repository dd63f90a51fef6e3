import WasmEmbedding.Proofs.Vm.Attempts
import WasmEmbedding.Proofs.Vm.Isolation
import WasmEmbedding.Proofs.Wasi.Sessions
import WasmEmbedding.Proofs.Wasi.Texts

/-! # Environments that machines share

An import object for the system interface has its environment on the host, where machines that have
linked the object find it.  Whoever has the object can replace the environment, with any machines
between two operations, and none of them is told.  What the machines rely on is that they look at it
anew before an instance of a main module is attempted: the session of the store is started under the
environment that the object has at that moment, or, if it cannot be started, nothing is attempted.

`World.Amends` is what can happen next on a host with machines, with the environments that are set
by it; a replacement that fails sets none.  A `Ledger` is what has been set in the course of time,
and the last entry for an object is its environment for as long as nothing else happens to it.

The main result, `environment_current`, is that each instance of a main module is attempted in a
session under the last environment that has been set for the machine (`EngineRun.Under`), and that
there is no attempt where such a session cannot be started.
-/
namespace WasmEmbedding

open Engine Host Wasm

/-- The environments that have been set, the newest first. -/
abbrev Ledger := List (EnvironmentKey × Wasi.Environment)

namespace Host

/-- The newest entry of a ledger is what the host has. -/
def Recorded (h : Host) (given : Ledger) : Prop :=
  ∀ key : EnvironmentKey, key.val < h.environments.size →
    given.lookup key = some (h.environment key)

/-- An import object has been made on the host. -/
def HasMade (h : Host) (o : ImportObject) : Prop :=
  ∀ key, o.environment = some key → key.val < h.environments.size

/-- Gives an import object another environment, if that is well formed. -/
def refit (h : Host) (o : ImportObject) (e : Except WasiError Wasi.Environment) :
    Except WasiError Host := do
  h.replaceEnvironment o (← e)

/-- What a successful replacement sets. -/
def replaced (o : ImportObject) (e : Except WasiError Wasi.Environment) : Ledger :=
  match e, o.environment with
  | .ok e, some key => [(key, e)]
  | _, _ => []

theorem environment_congr {h t : Host} (heq : t.environments = h.environments)
    (key : EnvironmentKey) : t.environment key = h.environment key := by
  rw [environment, heq]
  rfl

theorem environment_setEnvironment {h : Host} {key : EnvironmentKey}
    (hkey : key.val < h.environments.size) (e : Wasi.Environment) :
    (h.setEnvironment key e).environment key = e := by
  simp [environment, setEnvironment, hkey]

/-- A host comes from another one by what is set in the meantime. -/
structure Advances (h : Host) (more : Ledger) (t : Host) : Prop where
  size : h.environments.size ≤ t.environments.size
  recorded : ∀ given, h.Recorded given → t.Recorded (more ++ given)

namespace Advances

variable {h t : Host}

theorem of_eq (heq : t.environments = h.environments) : h.Advances [] t where
  size := Nat.le_of_eq (congrArg Array.size heq.symm)
  recorded given H key hkey := by
    rw [heq] at hkey
    rw [environment_congr heq]
    exact H key hkey

theorem push {e : Wasi.Environment} (heq : t.environments = h.environments.push e) :
    h.Advances [(⟨h.environments.size⟩, e)] t where
  size := by
    rw [heq, Array.size_push]
    exact Nat.le_succ _
  recorded given H key hkey := by
    rw [heq, Array.size_push] at hkey
    rw [environment, heq, Array.getElem?_push, List.singleton_append]
    by_cases hnew : key = ⟨h.environments.size⟩
    · subst hnew
      simp
    · have hval : key.val ≠ h.environments.size := fun h => hnew (congrArg EnvironmentKey.mk h)
      rw [if_neg hval, List.lookup_cons, beq_false_of_ne hnew]
      exact H key (by omega)

theorem set {key : EnvironmentKey} (hkey : key.val < h.environments.size) (e : Wasi.Environment) :
    h.Advances [(key, e)] (h.setEnvironment key e) where
  size := Nat.le_of_eq Array.size_setIfInBounds.symm
  recorded given H other hother := by
    have hsize : other.val < h.environments.size := by
      rwa [setEnvironment, Array.size_setIfInBounds] at hother
    rw [environment, setEnvironment, Array.getElem?_setIfInBounds, List.singleton_append]
    by_cases hsame : other = key
    · subst hsame
      simp [hkey]
    · have hval : key.val ≠ other.val := fun h => hsame (congrArg EnvironmentKey.mk h.symm)
      rw [if_neg hval, List.lookup_cons, beq_false_of_ne hsame]
      exact H other hsize

end Advances

/-- The environment that a deed sets: a new import object comes with one. -/
def Deed.sets (d : Deed) (h : Host) : Ledger :=
  match d with
  | .createWasi _ e => [(⟨h.environments.size⟩, e)]
  | _ => []

theorem environments_dropObject (h : Host) (name : String) :
    (h.dropObject name).environments = h.environments :=
  (h.abides_deleteObject name).environments

theorem environments_onObject {name : String} {f : ImportObject → EStateM LinkError Host Unit}
    (hf : ∀ o, Keeps (SameBy environments) (f o)) :
    Keeps (SameBy environments) (Deed.onObject name f) := by
  refine Keeps.get.bind fun h => ?_
  split
  · exact hf _
  · exact Keeps.pure _

theorem environments_ofExcept {α : Type} (r : Except LinkError α) :
    Keeps (SameBy environments) (Deed.ofExcept r) := by
  cases r with
  | ok a => exact Keeps.pure a
  | error e => exact Keeps.throw e

theorem Advances.deed (h : Host) (d : Deed) : h.Advances (d.sets h) (d.after h) := by
  have same : ∀ {d : Deed}, Keeps (SameBy environments) d.perform → h.Advances [] (d.after h) :=
    fun hd => .of_eq (hd h)
  cases d with
  | createWasi name e => exact .push (environments_dropObject (h.newWasiObject e).2 name)
  | create name moduleName data =>
    refine same fun t => ?_
    have hkept : (t.keepData data).2.environments = t.environments := by cases data <;> rfl
    unfold ending
    rw [Deed.run_create]
    cases ImportObject.new moduleName (t.keepData data).1 with
    | ok o => exact (environments_dropObject _ name).trans hkept
    | error e => rfl
  | addFunction name symbol f =>
    refine same (environments_onObject fun o => Keeps.get.bind fun t => ?_)
    exact (environments_ofExcept _).bind fun _ => Keeps.modify fun _ => rfl
  | add name symbol w =>
    refine same (environments_onObject fun o => ?_)
    exact (environments_ofExcept _).bind fun _ => Keeps.modify fun _ => rfl
  | delete name => exact same (Keeps.modify fun t => (t.abides_deleteObject name).environments)
  | drop name => exact same (Keeps.modify fun t => t.environments_dropObject name)
  | make moduleName =>
    exact same (Keeps.modify fun t => (t.abides_makeObject moduleName).environments)

end Host

namespace World

/-- The environment of the built-in import object of a new machine. -/
def builtIn (config : VmConfig) (h : Host) : Ledger :=
  if config.hostRegistrations.wasi then [(⟨h.environments.size⟩, .empty)] else []

/-- The world after another environment for an import object. -/
def refit (w : World) (o : ImportObject) (e : Except WasiError Wasi.Environment) : World :=
  match w.host.refit o e with
  | .ok h => ⟨h, w.vms⟩
  | .error _ => w

/-- What can happen next, with the environments that are set. -/
inductive Amends (w : World) : Ledger → World → Prop
  | deed (d : Deed) : Amends w (d.sets w.host) ⟨d.after w.host, w.vms⟩
  | new {config : VmConfig} {vm : Vm} {h : Host} (H : Vm.new w.host config = (.ok vm, h)) :
      Amends w (builtIn config w.host) ⟨h, w.vms ++ [vm]⟩
  /-- A machine does something, and so may the host functions that it calls. -/
  | operate {i : Nat} {vm : Vm} (hvm : w.vms[i]? = some vm) {o : Vm.Operation}
      (made : ∀ object, o = .registerImport object → w.host.HasMade object) :
      Amends w [] (w.operate i vm o)
  /-- An import object, which may have been deleted since, is given another environment. -/
  | refit {o : ImportObject} (made : w.host.HasMade o)
      (e : Except WasiError Wasi.Environment) : Amends w (replaced o e) (w.refit o e)
  /-- Something else happens on the host. -/
  | elsewhere {h : Host} (henvironments : h.environments = w.host.environments) :
      Amends w [] ⟨h, w.vms⟩

/-- A world with what has been set in it, from its beginning without machines and objects. -/
inductive Records : World → Ledger → Prop
  | start {h : Host} (henvironments : h.environments = #[]) : Records ⟨h, []⟩ []
  | step {w v : World} {given more : Ledger} (H : Records w given) (next : Amends w more v) :
      Records v (more ++ given)

end World

namespace Vm

/-- Only the registration of an import object attaches an environment to a machine. -/
theorem environment_after (s : Setting) (o : Operation) :
    (s.after o).vm.environment = s.vm.environment ∨ ∃ object key, o = .registerImport object ∧
      object.environment = some key ∧ (s.after o).vm.environment = some key := by
  have of_relinked : ∀ {t : Setting}, Relinked s t → t.vm.environment = s.vm.environment :=
    fun h => congrArg LinkRecord.environment h.link
  have others : o.registers = false → (s.after o).vm.environment = s.vm.environment := by
    intro ho
    have hstep := linkStep_after s o
    generalize s.answer o = r, s.after o = t at hstep
    cases hstep with
    | relinked h => exact of_relinked h
    | module registers => exact nomatch ho.symm.trans registers
    | imports registers => exact nomatch ho.symm.trans registers
    | stranded registers => exact nomatch ho.symm.trans registers
  cases o with
  | registerImport object =>
    have hstep := importStep s object
    change (ending (Action.registerImport object) s).vm.environment = _ ∨
      ∃ o key, _ ∧ _ ∧ (ending (Action.registerImport object) s).vm.environment = some key
    generalize outcome (Action.registerImport object) s = r,
      ending (Action.registerImport object) s = t at hstep ⊢
    cases hstep with
    | refused => exact .inl rfl
    | entered _ _ snapshot _ =>
      obtain ⟨symbols, -, rfl⟩ := Host.ImportObject.snapshot_eq_ok_iff.mp snapshot
      change object.environment.or s.vm.environment = _ ∨ ∃ o key, _ ∧ _ ∧
        object.environment.or s.vm.environment = some key
      cases hkey : object.environment with
      | none => exact .inl rfl
      | some key => exact .inr ⟨object, key, rfl, hkey, rfl⟩
    | @stranded key _ _ _ _ strands _ _ => exact .inr ⟨object, key, rfl, strands.system, rfl⟩
  | register name source =>
    left
    cases hrun : EStateM.run (Action.register name source) s with
    | ok _ t =>
      obtain ⟨-, -, image, m, u, -, -, hlinks, rfl⟩ := (Action.register_post name source s).ok hrun
      exact (congrArg (·.vm.environment) (ending_of_ok hrun)).trans hlinks.environment
    | error e t =>
      obtain ⟨hbuilds, -⟩ := (Action.register_post name source s).error hrun
      exact (congrArg (·.vm.environment) (ending_of_error hrun)).trans hbuilds.environment
  | _ => exact .inl (others rfl)

/-! ## Sessions under an environment -/

/-- The guest of a machine has the texts of an environment, and finds them in its memory if it asks
for them. -/
structure Informs (m : Machine) (e : Wasi.Environment) : Prop where
  texts : m.texts = (e.args, e.envs)
  args : m.Delivers .argsGet e.args
  envs : m.Delivers .environGet e.envs

theorem informs_of_texts {m : Machine} {e : Wasi.Environment} (h : m.texts = (e.args, e.envs)) :
    Informs m e := by
  obtain ⟨hargs, henvs⟩ := Prod.mk.inj h
  exact ⟨h, hargs ▸ Exec.delivers_argsGet m, henvs ▸ Exec.delivers_environGet m⟩

/-- A run of the engine has the arguments and environment strings of an environment from its
beginning until it ends. -/
structure EngineRun.Informed (r : EngineRun) (e : Wasi.Environment) : Prop where
  begins : Informs r.machine e
  calls : ∀ c ∈ r.calls, Informs c.machine e
  ends : Informs r.ending e

/-- A run that begins with the texts of an environment keeps them. -/
theorem EngineRun.informed_of_texts {r : EngineRun} {e : Wasi.Environment}
    (h : r.machine.texts = (e.args, e.envs)) : r.Informed e := by
  obtain ⟨hends, hcalls⟩ := r.told Exec.witnessed_texts
  exact ⟨informs_of_texts h, fun c hc => informs_of_texts ((hcalls c hc).trans h),
    informs_of_texts (hends.trans h)⟩

/-- A run of the engine begins with a new session under an environment, and has its arguments and
environment strings until it ends. -/
structure EngineRun.Under (r : EngineRun) (e : Wasi.Environment) : Prop extends r.Informed e where
  /-- The preopens have been opened in their order, from the files that the run finds. -/
  session : ∃ ds, List.Forall₂ (Wasi.Session.Opens r.machine.host.files) e.preopens ds ∧
    r.machine.session = .under e ds
  exitCode : r.machine.store.context.exitCode = none

theorem EngineRun.under_of_session {r : EngineRun} {e : Wasi.Environment}
    (hstart : Wasi.Session.start r.machine.host.files e = .ok r.machine.session)
    (hexit : r.machine.store.context.exitCode = none) : r.Under e := by
  obtain ⟨ds, hds, hsession⟩ := Wasi.Session.start_eq_ok.mp hstart
  exact ⟨EngineRun.informed_of_texts (congrArg Wasi.Session.texts hsession),
    ⟨ds, hds, hsession⟩, hexit⟩

/-- **An attempt is made in a session under the environment of the machine.** -/
theorem under_of_attempts {s : Setting} {key : EnvironmentKey} (hkey : s.vm.environment = some key)
    {o : Operation} {r : EngineRun} (hr : r ∈ s.attempts o) : r.Under (s.host.environment key) := by
  have of_begins : ∀ {v w : Setting} {m : Module}, Ready s v m →
      EStateM.run Action.refresh v = .ok () w → (w.attempt m).Under (s.host.environment key) := by
    intro v w m ready begins
    have hv : v.vm.environment = some key := ready.approaches.environment.trans hkey
    obtain ⟨session, hstart, rfl⟩ := (Action.run_refresh_eq_ok hv).mp begins
    rw [environment_congr ready.approaches.host.environments key] at hstart
    exact EngineRun.under_of_session hstart rfl
  cases ho : o.instantiates with
  | false =>
    rw [Setting.attempts_of_not_instantiates ho] at hr
    cases hr
  | true =>
    have hundertakes := undertakes ho s
    generalize s.attempts o = attempts, s.services o = calls, s.answer o = answer,
      s.after o = t at hundertakes hr
    cases hundertakes with
    | falls => cases hr
    | fails ready begins => exact List.mem_singleton.mp hr ▸ of_begins ready begins
    | makes ready begins => exact List.mem_singleton.mp hr ▸ of_begins ready begins

/-- **Whatever an operation that instantiates a main module lets the engine do anew is done with the
texts of the environment**: the attempt begins with them, and the calls that follow it find what the
attempt has left. -/
theorem informed_of_runs {s : Setting} {key : EnvironmentKey} (hkey : s.vm.environment = some key)
    {o : Operation} (ho : o.instantiates = true) {r : EngineRun} (hr : r ∈ s.runs o)
    (hanew : r.replayed = false) : r.Informed (s.host.environment key) := by
  have attempted : ∀ a ∈ s.attempts o, a.Under (s.host.environment key) :=
    fun a ha => under_of_attempts hkey ha
  rcases EngineRun.isAttempt_or_isService hanew with hattempt | hservice
  · have hmem : r ∈ s.attempts o := by
      unfold Setting.attempts
      rw [if_pos ho]
      exact List.mem_filter.mpr ⟨hr, hattempt⟩
    exact (attempted r hmem).toInformed
  · have hmem : r ∈ s.services o := by
      unfold Setting.services
      rw [if_pos ho]
      exact List.mem_filter.mpr ⟨hr, hservice⟩
    have hundertakes := undertakes ho s
    generalize s.attempts o = attempts, s.services o = calls, s.answer o = answer, s.after o = t
      at attempted hmem hundertakes
    cases hundertakes with
    | falls => cases hmem
    | fails => cases hmem
    | @makes v w m ready begins outcome calls answer t serves =>
      have hended := (attempted _ List.mem_cons_self).ends.texts
      exact EngineRun.informed_of_texts ((serves.calls r hmem).2.trans hended)

/-- Where no session can be started, nothing is attempted. -/
theorem attempts_of_barred {s : Setting} (h : s.Barred) (o : Operation) : s.attempts o = [] := by
  have refuted : ∀ {v w : Setting} {m : Module}, Ready s v m →
      EStateM.run Action.refresh v ≠ .ok () w := by
    intro v w m ready begins
    obtain ⟨e, he⟩ := Action.refresh_of_barred (ready.approaches.barred h)
    cases he.symm.trans begins
  cases ho : o.instantiates with
  | false => exact Setting.attempts_of_not_instantiates ho
  | true =>
    have hundertakes := undertakes ho s
    generalize s.attempts o = attempts, s.services o = calls, s.answer o = answer,
      s.after o = t at hundertakes ⊢
    cases hundertakes with
    | falls => rfl
    | fails ready begins => exact absurd begins (refuted ready)
    | makes ready begins => exact absurd begins (refuted ready)

/-- An operation has failed before it could attempt anything. -/
structure Falls (s : Setting) (o : Operation) : Prop where
  answer : ∃ e, s.answer o = .error e
  environments : (s.after o).host.environments = s.host.environments
  environment : (s.after o).vm.environment = s.vm.environment
  exitCode : (s.after o).vm.exitCode = s.vm.exitCode

/-- An operation that instantiates a main module makes an instance, or fails with the attempt or
before it. -/
theorem attempted_or_falls {s : Setting} {o : Operation} (h : o.instantiates = true) :
    (s.answer o = .ok () → ∃ r, s.attempts o = [r] ∧ r.outcome = .ok ()) ∧
      (s.attempts o = [] → Falls s o) := by
  have hundertakes := undertakes h s
  have hfalls : s.attempts o = [] → (∃ e, s.answer o = .error e) → Approaches s (s.after o) →
      Falls s o := fun _ hanswer ha => ⟨hanswer, ha.host.environments, ha.environment, ha.exitCode⟩
  generalize s.attempts o = attempts, s.services o = calls, s.answer o = answer,
    s.after o = t at hundertakes hfalls ⊢
  cases hundertakes with
  | falls approaches => exact ⟨nofun, fun _ => hfalls rfl ⟨_, rfl⟩ approaches⟩
  | fails => exact ⟨nofun, fun h => nomatch h⟩
  | makes _ _ outcome => exact ⟨fun _ => ⟨_, rfl, outcome⟩, fun h => nomatch h⟩

/-- If the built-in import object can be linked, or there is none, there is a new machine. -/
theorem new_eq_ok {host : Host} {config : VmConfig} {s : Setting}
    (h : EStateM.run (if config.hostRegistrations.wasi then enableWasi .empty else pure ())
      ⟨empty config host.newStore.1, host.newStore.2⟩ = .ok () s) :
    Vm.new host config = (.ok s.vm, s.host) := by
  rw [Vm.new]
  dsimp only
  rw [act, h]

/-- A new machine comes with the environment of its built-in import object. -/
theorem advances_new {host after : Host} {config : VmConfig} {vm : Vm}
    (h : Vm.new host config = (.ok vm, after)) :
    host.Advances (World.builtIn config host) after ∧
      ∀ key, vm.environment = some key → key.val < after.environments.size := by
  have hrun := new_ok h
  unfold World.builtIn
  split at hrun
  · rename_i hwasi
    rw [if_pos hwasi]
    obtain ⟨v, hv, ht⟩ := enableWasi_ok hrun
    cases ht
    have hhost : v.host = (host.newStore.2.newWasiObject .empty).2 :=
      ((Action.keeps_unspent_link _).ok hv).host
    have hpush : v.host.environments = host.environments.push .empty := congrArg _ hhost
    refine ⟨.push hpush, fun key hkey => ?_⟩
    obtain ⟨linked, store, linker, c, functions, hsnap, -, rfl⟩ := Action.link_ok hv
    obtain ⟨symbols, -, rfl⟩ := Host.ImportObject.snapshot_eq_ok_iff.mp hsnap
    have hkey : some (⟨host.environments.size⟩ : EnvironmentKey) = some key := hkey
    cases hkey
    rw [hpush, Array.size_push]
    exact Nat.lt_succ_self _
  · rename_i hwasi
    rw [if_neg hwasi]
    cases hrun
    exact ⟨.of_eq rfl, nofun⟩

end Vm

namespace World

variable {w v : World} {given more : Ledger}

/-- What holds of a world with what has been set in it. -/
structure Current (w : World) (given : Ledger) : Prop where
  recorded : w.host.Recorded given
  linked : ∀ vm ∈ w.vms, vm.Linked
  made : ∀ vm ∈ w.vms, ∀ key, vm.environment = some key → key.val < w.host.environments.size

theorem Amends.advances (h : Amends w more v) : w.host.Advances more v.host := by
  cases h with
  | deed d => exact .deed w.host d
  | new hnew => exact (Vm.advances_new hnew).1
  | operate hvm made => exact .of_eq (Vm.abides_after _ _).environments
  | @refit o made e =>
    unfold World.refit Host.refit Host.replaced
    cases e with
    | error err => exact .of_eq rfl
    | ok e =>
      unfold Host.replaceEnvironment
      cases hkey : o.environment with
      | none => exact .of_eq rfl
      | some key => exact .set (made key hkey) e
  | elsewhere henvironments => exact .of_eq henvironments

/-- **Whatever happens next, the newest environment that has been set is the one that a host
has.** -/
theorem Current.amends (H : w.Current given) (h : Amends w more v) : v.Current (more ++ given) := by
  have hadvances := h.advances
  have hrecorded := hadvances.recorded given H.recorded
  have hmade : ∀ vm ∈ w.vms, ∀ key, vm.environment = some key →
      key.val < v.host.environments.size := fun vm hvm key hkey =>
    Nat.lt_of_lt_of_le (H.made vm hvm key hkey) hadvances.size
  have same : v.vms = w.vms → v.Current (more ++ given) := fun hvms =>
    ⟨hrecorded, hvms ▸ H.linked, hvms ▸ hmade⟩
  cases h with
  | deed d => exact same rfl
  | @new config vm h hnew =>
    refine ⟨hrecorded, fun u hu => ?_, fun u hu => ?_⟩
    · rcases List.mem_append.mp hu with hu | hu
      · exact H.linked u hu
      · exact List.mem_singleton.mp hu ▸ Vm.invariant_linked.reachable (.new hnew)
    · rcases List.mem_append.mp hu with hu | hu
      · exact hmade u hu
      · exact List.mem_singleton.mp hu ▸ (Vm.advances_new hnew).2
  | @operate i vm hvm o made =>
    have hmem := List.mem_of_getElem? hvm
    refine ⟨hrecorded, fun u hu => ?_, fun u hu key hkey => ?_⟩
    · rcases List.mem_or_eq_of_mem_set hu with hu | rfl
      · exact H.linked u hu
      · exact Vm.invariant_linked.operate ⟨vm, w.host⟩ o (H.linked vm hmem)
    · rcases List.mem_or_eq_of_mem_set hu with hu | rfl
      · exact hmade u hu key hkey
      · rcases Vm.environment_after ⟨vm, w.host⟩ o with hsame | ⟨object, _, ho, hobject, hafter⟩
        · exact hmade vm hmem key (hsame.symm.trans hkey)
        · cases hafter.symm.trans hkey
          exact Nat.lt_of_lt_of_le (made object ho key hobject) hadvances.size
  | @refit o _ e =>
    refine same ?_
    unfold World.refit
    cases w.host.refit o e <;> rfl
  | elsewhere _ => exact same rfl

theorem Records.current (H : w.Records given) : w.Current given := by
  induction H with
  | @start h henvironments =>
    refine ⟨fun key hkey => ?_, List.forall_mem_nil _, List.forall_mem_nil _⟩
    have hkey : key.val < h.environments.size := hkey
    rw [henvironments] at hkey
    cases hkey
  | step _ next ih => exact ih.amends next

/-- **The environment of a machine is current at every instantiation.**  A machine that has
registered an import object for the system interface keeps to its environment.  Whichever objects
and machines share it and however often it has been replaced, every instance of a main module that
the machine attempts begins in a session under the environment that has been set last: with its
arguments, its environment strings and its preopens, in order, and without an exit code.  A
replacement that fails changes nothing, and an operation that cannot start a session fails without
an attempt and leaves environments and exit code as they are. -/
theorem environment_current {w : World} {given : Ledger} (H : w.Records given) :
    (∀ o e err, w.host.refit o e = .error err →
      w.refit o e = w ∧ replaced o e = []) ∧
    ∀ (i : Nat) (vm : Vm), w.vms[i]? = some vm →
      (∀ name linked functions key, (name, .imports linked functions) ∈ vm.entries →
        linked.environment = some key → vm.environment = some key) ∧
      ∀ key, vm.environment = some key → ∃ e, given.lookup key = some e ∧
        ∀ o : Vm.Operation,
          (∀ r ∈ Vm.Setting.attempts ⟨vm, w.host⟩ o, r.Under e) ∧
          (o.instantiates = true →
            (Vm.Setting.answer ⟨vm, w.host⟩ o = .ok () →
              ∃ r, Vm.Setting.attempts ⟨vm, w.host⟩ o = [r] ∧ r.outcome = .ok ()) ∧
            ((∃ p ∈ e.preopens, ∃ fault, w.host.files.openDirectory p.host = .error fault) →
              Vm.Setting.attempts ⟨vm, w.host⟩ o = []) ∧
            (Vm.Setting.attempts ⟨vm, w.host⟩ o = [] → Vm.Falls ⟨vm, w.host⟩ o)) := by
  have hcurrent := H.current
  refine ⟨fun o e err herror => ?_, fun i vm hvm => ?_⟩
  · refine ⟨by rw [World.refit, herror], ?_⟩
    cases e with
    | error _ => rfl
    | ok e =>
      unfold Host.replaced
      cases hkey : o.environment with
      | none => rfl
      | some key =>
        have hok : w.host.replaceEnvironment o e = .ok (w.host.setEnvironment key e) :=
          replaceEnvironment_eq_ok.mpr ⟨key, hkey, rfl⟩
        cases hok.symm.trans herror
  · have hmem := List.mem_of_getElem? hvm
    refine ⟨fun name linked functions key he hkey =>
      ((hcurrent.linked vm hmem).attached name linked functions key he hkey).1, fun key hkey => ?_⟩
    have hlast := hcurrent.recorded key (hcurrent.made vm hmem key hkey)
    refine ⟨w.host.environment key, hlast, fun o =>
      ⟨fun r hr => Vm.under_of_attempts hkey hr, fun ho => ?_⟩⟩
    obtain ⟨hok, hfalls⟩ := Vm.attempted_or_falls (s := ⟨vm, w.host⟩) ho
    refine ⟨hok, fun hmissing => ?_, hfalls⟩
    obtain ⟨err, hstart⟩ := Wasi.Session.start_eq_error.mpr hmissing
    exact Vm.attempts_of_barred ⟨key, err, hkey, hstart⟩ o

/-! ## A machine whose environment is replaced -/

/-- A configuration with the system interface. -/
def wasiConfig : VmConfig := { hostRegistrations := { wasi := true } }

/-- A new machine with the built-in import object. -/
def equipped : Vm.Setting :=
  ending (Vm.enableWasi .empty) ⟨Vm.empty wasiConfig ⟨0⟩, (newStore {}).2⟩

theorem new_equipped : Vm.new {} wasiConfig = (.ok equipped.vm, equipped.host) :=
  Vm.new_eq_ok (run_of_isOk (x := Vm.enableWasi .empty)
    (s := ⟨Vm.empty wasiConfig ⟨0⟩, (newStore {}).2⟩) (by decide +kernel))

/-- Another environment, with a key that occurs twice. -/
def laterEnvironment : Wasi.Environment :=
  ⟨["prog"], ["A=1=2", "A=3"], []⟩

/-- The machine after it has loaded a module and its import object has been given the other
environment. -/
def refitted : World :=
  ((ofSetting equipped).operate 0 equipped.vm loadEmpty).refit (.wasi ⟨0⟩)
    (Wasi.Environment.ofStrings ["prog"] ["A=1=2", "A=3"] [])

theorem records_refitted : refitted.Records [(⟨0⟩, laterEnvironment), (⟨0⟩, .empty)] := by
  have hnew : (ofSetting equipped).Records [(⟨0⟩, .empty)] :=
    .step (.start (h := {}) rfl) (.new new_equipped)
  have hloaded := hnew.step (.operate (i := 0) (o := loadEmpty) rfl nofun)
  refine hloaded.step (.refit (o := .wasi ⟨0⟩) (e := .ok laterEnvironment) ?_)
  rintro _ ⟨⟩
  decide +kernel

/-- Its main module is instantiated under the other environment. -/
theorem environment_current_refitted : ∃ vm r,
    refitted.Records [(⟨0⟩, laterEnvironment), (⟨0⟩, .empty)] ∧ refitted.vms[0]? = some vm ∧
      Vm.Setting.attempts ⟨vm, refitted.host⟩ .instantiate = [r] ∧ r.outcome = .ok () ∧
      r.Under laterEnvironment := by
  have hvm : refitted.vms[0]? = some (equipped.after loadEmpty).vm := rfl
  have hkey : (equipped.after loadEmpty).vm.environment = some ⟨0⟩ := by decide +kernel
  have hrun := run_of_isOk (x := Vm.Operation.instantiate.perform)
    (s := ⟨(equipped.after loadEmpty).vm, refitted.host⟩) (by decide +kernel)
  obtain ⟨e, hlast, hall⟩ := ((environment_current records_refitted).2 0 _ hvm).2 ⟨0⟩ hkey
  obtain ⟨hunder, hmakes⟩ := hall .instantiate
  obtain ⟨r, hr, hok⟩ := (hmakes rfl).1 (outcome_of_ok hrun)
  cases hlast
  exact ⟨_, r, records_refitted, hvm, hr, hok, hunder r (hr ▸ List.mem_singleton_self r)⟩

end World

end WasmEmbedding
