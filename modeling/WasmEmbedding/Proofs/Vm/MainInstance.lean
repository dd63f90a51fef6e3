import WasmEmbedding.Proofs.Vm.Attempts

/-! # One main instance in a store

A machine may be asked to instantiate its main module any number of times, and each time the
registered modules and the link environment are those that have been there before.  What must not
happen is that two main modules meet in one store, a second one finding what the first has left.
The machine guards against it with one flag: a store on which an instantiation of a main module has
been attempted is stale, whether or not the attempt has come to anything, and a stale store is
replaced before the next attempt.

To say this, a history of a machine is kept with the attempts that have been made in it (`Annals`).
The history has no store twice: a store is stale if and only if there has been an attempt on it, and
a stale store is never used for another one, whether or not it can be rebuilt (`one_main_instance`).
What carries this through every operation is `Filed`: the identities of stores that have been given
out are below the next one, so that a new store cannot be one of the history.  A step keeps it
because an operation either stays on its store without an attempt, or goes over to a new one, or
makes one attempt, which is then the first on its store (`Filed.attempt_not_mem`).
-/
namespace WasmEmbedding.Vm

open Engine Wasm

/-- A machine with the attempts that have been made since it was new. -/
inductive Annals : List EngineRun → Setting → Prop
  | new {host after : Host} {config : VmConfig} {vm : Vm}
      (h : Vm.new host config = (.ok vm, after)) : Annals [] ⟨vm, after⟩
  | operate {past : List EngineRun} {s : Setting} (h : Annals past s) (o : Operation) :
      Annals (past ++ s.attempts o) (s.after o)
  /-- Something else happens on the host, which does not give out the identity of a store again. -/
  | elsewhere {past : List EngineRun} {s : Setting} (h : Annals past s) {host : Host}
      (stores : s.host.stores ≤ host.stores) : Annals past { s with host }

/-- The instance is what the attempt has made, and the store of the attempt is the machine's. -/
structure EngineRun.Made (r : EngineRun) (vm : Vm) (a : ActiveInstance) : Prop where
  task : r.task = .build a.module
  outcome : r.outcome = .ok ()
  store : r.store = vm.store.id
  index : a.index = r.setting.vm.store.instances.size
  code : r.ending.store.code.Extends vm.store.code

/-- What holds of a machine and its attempts. -/
structure Filed (past : List EngineRun) (s : Setting) : Prop where
  current : s.vm.store.id.val < s.host.stores
  given : ∀ r ∈ past, r.store.val < s.host.stores
  nodup : (past.map EngineRun.store).Nodup
  stale_iff : s.vm.stale = true ↔ s.vm.store.id ∈ past.map EngineRun.store
  active : ∀ a, s.vm.active = some a → ∃ r ∈ past, r.Made s.vm a

namespace Filed

variable {past : List EngineRun} {s t : Setting}

theorem held (h : Filed past s) (hst : Held s t) (hstores : s.host.stores ≤ t.host.stores) :
    Filed past t := by
  have hid : t.vm.store.id = s.vm.store.id := hst.code.id
  refine ⟨hid ▸ Nat.lt_of_lt_of_le h.current hstores,
    fun r hr => Nat.lt_of_lt_of_le (h.given r hr) hstores, h.nodup, ?_, fun a ha => ?_⟩
  · rw [hst.stale, hid]
    exact h.stale_iff
  · rcases hst.active with hnone | hsame
    · rw [hnone] at ha
      cases ha
    · obtain ⟨r, hr, made⟩ := h.active a (hsame ▸ ha)
      exact ⟨r, hr, { made with
        store := made.store.trans hid.symm
        code := IsTrans.trans _ _ _ made.code hst.code }⟩

/-- The identity of a new store is above those that have been given out. -/
theorem renewed (h : Filed past s) (hst : Renewed s t) (hstores : s.host.stores ≤ t.host.stores) :
    Filed past t := by
  have fresh : t.vm.store.id ∉ past.map EngineRun.store := by
    intro hmem
    obtain ⟨r, hr, heq⟩ := List.mem_map.mp hmem
    have hlt := h.given r hr
    rw [heq] at hlt
    exact Nat.lt_irrefl _ (Nat.lt_of_lt_of_le hlt hst.le)
  refine ⟨hst.lt, fun r hr => Nat.lt_of_lt_of_le (h.given r hr) hstores, h.nodup, ?_, ?_⟩
  · rw [hst.stale]
    exact ⟨nofun, fun hmem => absurd hmem fresh⟩
  · rw [hst.active]
    exact nofun

theorem approaches (h : Filed past s) (hst : Approaches s t) : Filed past t :=
  hst.store.elim (fun held => h.held held hst.host.stores) fun new =>
    h.renewed new hst.host.stores

/-- **An attempt is the first one on its store.** -/
theorem attempt_not_mem {v w : Setting} {m : Module} (h : Filed past s) (hv : Ready s v m)
    (hw : EStateM.run Action.refresh v = .ok () w) :
    (w.attempt m).store ∉ past.map EngineRun.store := by
  have hid : w.vm.store.id = v.vm.store.id := (Action.keeps_refresh.ok hw).code.id
  have hstale := (h.approaches hv.approaches).stale_iff
  rw [hv.stale, ← hid] at hstale
  exact fun hmem => nomatch hstale.mpr hmem

/-- The attempt belongs to the history from now on, and with it the store is stale. -/
theorem attempted {v w : Setting} {m : Module} (h : Filed past s) (hv : Ready s v m)
    (hw : EStateM.run Action.refresh v = .ok () w)
    (hcode : w.vm.store.code.Extends t.vm.store.code) (hstale : t.vm.stale = true)
    (hstores : w.host.stores ≤ t.host.stores)
    (hactive : ∀ a, t.vm.active = some a → (w.attempt m).Made t.vm a) :
    Filed (past ++ [w.attempt m]) t := by
  have hready := h.approaches hv.approaches
  have hnot := h.attempt_not_mem hv hw
  have hid : w.vm.store.id = v.vm.store.id := (Action.keeps_refresh.ok hw).code.id
  have hhost : w.host = v.host := (Beside.refresh.keeps.ok hw).host
  have hle : v.host.stores ≤ t.host.stores := hhost ▸ hstores
  have hlt : w.vm.store.id.val < t.host.stores := hid ▸ Nat.lt_of_lt_of_le hready.current hle
  have hmap : (past ++ [w.attempt m]).map EngineRun.store =
      past.map EngineRun.store ++ [w.vm.store.id] := List.map_append
  have hsame : t.vm.store.id = w.vm.store.id := hcode.id
  refine ⟨hsame ▸ hlt, fun r hr => ?_, ?_, ?_, fun a ha => ⟨_, ?_, hactive a ha⟩⟩
  · rcases List.mem_append.mp hr with hr | hr
    · exact Nat.lt_of_lt_of_le (hready.given r hr) hle
    · rw [List.mem_singleton.mp hr]
      exact hlt
  · rw [hmap]
    refine List.nodup_append.mpr ⟨h.nodup, List.pairwise_singleton _ _, fun a ha b hb heq => ?_⟩
    rw [heq, List.mem_singleton.mp hb] at ha
    exact hnot ha
  · rw [hmap, hstale]
    exact ⟨fun _ => List.mem_append_right _ (List.mem_singleton.mpr hsame), fun _ => rfl⟩
  · exact List.mem_append_right _ List.mem_cons_self

/-- **Whatever an operation comes to, the history with its attempts is one in which no store comes
twice.** -/
theorem undertakes {attempts calls : List EngineRun} {r : Except RuntimeError Unit}
    (h : Filed past s) (hst : Undertakes s attempts calls r t) : Filed (past ++ attempts) t := by
  have built : ∀ (w : Setting) (m : Module), Builds w.marked (w.attempt m).after ∧
      w.host.Abides (w.attempt m).after.host := by
    intro w m
    have hbuilds := Action.keeps_instance? m w.marked
    rw [Action.ending_instance?] at hbuilds
    exact ⟨hbuilds, ((w.attempt m).told (witnessed_host Host.effects_abides)).1⟩
  have inactive : ∀ {v w : Setting} {m : Module}, Ready s v m →
      EStateM.run Action.refresh v = .ok () w → w.vm.active = none := fun ready begins =>
    (congrArg Record.active (Action.keeps_refresh.ok begins).record).trans ready.active
  cases hst with
  | falls approaches =>
    rw [List.append_nil]
    exact h.approaches approaches
  | @fails v w m ready begins stop outcome =>
    obtain ⟨hbuilds, habides⟩ := built w m
    refine h.attempted ready begins hbuilds.code hbuilds.stale habides.stores fun a ha => ?_
    have hinactive : w.vm.active = none := inactive ready begins
    have hactive : (w.attempt m).after.vm.active = none := hinactive
    rw [hactive] at ha
    cases ha
  | @makes v w m ready begins outcome calls r t serves =>
    obtain ⟨hbuilds, habides⟩ := built w m
    have hcode : w.vm.store.code.Extends t.vm.store.code :=
      IsTrans.trans _ _ _ hbuilds.code serves.works.code
    refine h.attempted ready begins hcode serves.works.stale
      (Nat.le_trans habides.stores serves.host.stores) fun a ha => ?_
    have hactive : t.vm.active = some ⟨m, w.vm.store.instances.size⟩ :=
      congrArg Record.active serves.works.record
    cases Option.some.inj (ha.symm.trans hactive)
    exact ⟨rfl, outcome, hcode.id.symm, rfl, serves.works.code⟩

end Filed

namespace Action

variable {α : Type}

theorem held_of_works {x : Action α} (h : Keeps Works x) : Keeps Held x :=
  h.mono fun _ _ h => .of_works h

theorem held_modifyVm {f : Vm → Vm} (h : ∀ vm, f vm = { f vm with
      store := vm.store, stale := vm.stale, active := vm.active }) : Keeps Held (modifyVm f) := by
  refine keeps_modifyVm fun s => ?_
  rw [h]
  exact ⟨rfl, Std.Refl.refl _, .inr rfl⟩

theorem held_link (o : Host.ImportObject) : Keeps Held (link o) := by
  rw [link_eq]
  refine (keeps_ofExcept _ _).bind fun linked => ?_
  refine (held_of_works (keeps_works (keeps_define linked))).bind fun _ => ?_
  have entered : ∀ entry, Keeps Held (enter o.moduleName entry) :=
    fun entry => held_modifyVm fun _ => rfl
  unfold commit
  split
  · refine Keeps.bind (held_modifyVm fun _ => rfl) fun _ => ?_
    refine (held_of_works (keeps_works keeps_refresh)).bind fun _ => ?_
    exact keeps_vm.bind fun _ => entered _
  · exact entered _

theorem held_register (name : String) (source : Source) : Keeps Held (register name source) := by
  refine Keeps.bind (Keeps.get.bind fun _ => keeps_ofExcept _ _) fun image => ?_
  refine (keeps_checkName _).bind fun _ => ?_
  refine Keeps.bind (keeps_vm.bind fun _ => keeps_ofExcept _ _) fun m => ?_
  refine (held_of_works (keeps_works (keeps_instantiateRegistered name m))).bind fun _ => ?_
  exact held_modifyVm fun _ => rfl

end Action

/-- An operation that does not instantiate a main module keeps the store or renews it. -/
theorem held_or_renewed {o : Operation} (h : o.instantiates = false) (s : Setting) :
    Held s (s.after o) ∨ Renewed s (s.after o) := by
  have discard : ∀ {α : Type} {x : Action α}, Keeps Works x →
      Held s (ending (x >>= fun _ => pure ()) s) := fun hx => by
    rw [ending_discard]
    exact .of_works (hx s)
  cases o with
  | instantiate => cases h
  | run source name args => cases h
  | load source => exact (Action.approaches_load source s).store
  | cleanup => exact (Action.approaches_reset s).store
  | validate => exact (Action.approaches_validate s).store
  | execute name args => exact .inl (discard (Action.keeps_execute name args))
  | executeRegistered moduleName name args =>
    exact .inl (discard (Action.keeps_executeRegistered moduleName name args))
  | register name source => exact .inl (Action.held_register name source s)
  | registerImport o =>
    exact .inl (((Action.keeps_checkName _).bind fun _ => Action.held_link o) s)
  | amendStatistics f => exact .inl ⟨rfl, Std.Refl.refl _, .inr rfl⟩
  | amendContext f => exact .inl ⟨rfl, Std.Refl.refl _, .inr rfl⟩
  | amendWasi f => exact .inl ⟨rfl, Std.Refl.refl _, .inr rfl⟩

/-- Linking the built-in import object keeps the store. -/
theorem held_enableWasi (e : Wasi.Environment) : Keeps Held (enableWasi e) := by
  intro s
  have linked : Keeps Held (Action.link (s.host.newWasiObject e).1 >>= fun _ =>
      Action.modifyVm fun vm => { vm with wasi := some (s.host.newWasiObject e).1 }) :=
    (Action.held_link _).bind fun _ => Action.held_modifyVm fun _ => rfl
  have h := linked { s with host := (s.host.newWasiObject e).2 }
  unfold ending at h ⊢
  rw [run_enableWasi]
  exact ⟨h.stale, h.code, h.active⟩

theorem stores_enableWasi {e : Wasi.Environment} {s t : Setting}
    (h : EStateM.run (enableWasi e) s = .ok () t) : s.host.stores ≤ t.host.stores := by
  obtain ⟨u, hu, rfl⟩ := enableWasi_ok h
  have hhost : u.host = (s.host.newWasiObject e).2 := ((Action.keeps_unspent_link _).ok hu).host
  change s.host.stores ≤ u.host.stores
  rw [hhost]
  exact Nat.le_refl _

theorem filed_new {host after : Host} {config : VmConfig} {vm : Vm}
    (h : Vm.new host config = (.ok vm, after)) : Filed [] ⟨vm, after⟩ := by
  have hempty : Filed [] ⟨Vm.empty config host.newStore.1, host.newStore.2⟩ :=
    ⟨Nat.lt_succ_self _, List.forall_mem_nil _, .nil, by simp [Vm.empty], by simp [Vm.empty]⟩
  have hrun := new_ok h
  split at hrun
  · exact hempty.held ((held_enableWasi _).ok hrun) (stores_enableWasi hrun)
  · cases hrun
    exact hempty

theorem Annals.filed {past : List EngineRun} {s : Setting} (h : Annals past s) : Filed past s := by
  induction h with
  | new h => exact filed_new h
  | @operate past s _ o ih =>
    cases ho : o.instantiates with
    | true => exact ih.undertakes (undertakes ho s)
    | false =>
      rw [Setting.attempts_of_not_instantiates ho, List.append_nil]
      have hstores := (abides_after s o).stores
      exact (held_or_renewed ho s).elim (fun held => ih.held held hstores)
        fun new => ih.renewed new hstores
  | elsewhere _ stores ih => exact ih.held ⟨rfl, Std.Refl.refl _, .inr rfl⟩ stores

theorem Annals.reachable {past : List EngineRun} {s : Setting} (h : Annals past s) :
    Reachable s := by
  induction h with
  | new h => exact .new h
  | operate _ o ih => exact .operate ih o
  | elsewhere _ _ ih => exact .elsewhere ih _

/-- From a history comes a longer one. -/
def Continues (s t : Setting) : Prop :=
  ∀ past, Annals past s → ∃ more, Annals (past ++ more) t

instance : IsPreorder Setting Continues where
  refl _ past h := ⟨[], (List.append_nil past).symm ▸ h⟩
  trans _ _ _ h h' past hs := by
    obtain ⟨more, ht⟩ := h past hs
    obtain ⟨later, hu⟩ := h' _ ht
    exact ⟨more ++ later, (List.append_assoc past more later) ▸ hu⟩

/-- Running a module with data is a part of a history like any other. -/
theorem continues_runWithData (source : Source) (name : String) (data : List UInt8)
    (args envs preopens : List String) (params : List Value) :
    Keeps Continues (Action.runWithData source name data args envs preopens params) :=
  keeps_runWithData
    (fun _ _ _ _ _ hstores past h =>
      ⟨[], (List.append_nil past).symm ▸ h.elsewhere (Nat.le_of_eq hstores.symm)⟩)
    (fun _ _ h => ⟨_, h.operate _⟩) data args envs preopens

/-- A machine from a configuration file starts a history as a new one does. -/
theorem Annals.ofConfigFile {host after : Host} {file : ConfigFile} {vm : Vm}
    (h : Vm.ofConfigFile host file = (.ok vm, after)) : Annals [] ⟨vm, after⟩ := by
  obtain ⟨made, hnew, hstores⟩ := new_of_ofConfigFile h
  exact .elsewhere (.new hnew) (Nat.le_of_eq hstores.symm)

/-- **There is one main instance in a store at most.**  Whatever is done with a machine, each of its
stores has seen one attempt at an instance of a main module at most, and a store is stale if and
only if it has seen one.  The instance of a machine at the last stage has been made by this attempt,
and it is in the store that the machine has now.  The next attempt, if an operation makes one, is
on a store that has not seen any, so never on a stale one. -/
theorem one_main_instance {past : List EngineRun} {s : Setting} (h : Annals past s) :
    (past.map EngineRun.store).Nodup ∧
    (s.vm.stale = true ↔ s.vm.store.id ∈ past.map EngineRun.store) ∧
    (s.vm.stage = .instantiated → ∃ a, s.vm.active = some a ∧
      HasInstance s.vm.store.code a.index a.module ∧ ∃ r ∈ past, r.Made s.vm a) ∧
    ∀ o, (s.attempts o).length ≤ 1 ∧ ∀ r ∈ s.attempts o,
      (∃ m, r.task = .build m ∧ r.setting.vm.compiled = some m) ∧
      r.store ∉ past.map EngineRun.store ∧ (s.vm.stale = true → r.store ≠ s.vm.store.id) := by
  have hfiled := h.filed
  have hcoherent := (invariant_sound.reachable h.reachable).coherent
  refine ⟨hfiled.nodup, hfiled.stale_iff, fun hstage => ?_, fun o => ?_⟩
  · obtain ⟨a, ha⟩ := Option.isSome_iff_exists.mp (hcoherent.instantiated_iff.mp hstage)
    exact ⟨a, ha, (hcoherent.active_eq a ha).2, hfiled.active a ha⟩
  · have of_ready : ∀ {v w : Setting} {m : Module}, Ready s v m →
        EStateM.run Action.refresh v = .ok () w → ∀ r ∈ [w.attempt m],
          (∃ m, r.task = .build m ∧ r.setting.vm.compiled = some m) ∧
          r.store ∉ past.map EngineRun.store ∧ (s.vm.stale = true → r.store ≠ s.vm.store.id) := by
      intro v w m ready begins r hr
      cases List.mem_singleton.mp hr
      have hnot := hfiled.attempt_not_mem ready begins
      have hrecord := (Action.keeps_refresh.ok begins).record
      refine ⟨⟨m, rfl, (congrArg Record.compiled hrecord).trans ready.compiled⟩, hnot, ?_⟩
      exact fun hstale heq => hnot (heq ▸ hfiled.stale_iff.mp hstale)
    cases ho : o.instantiates with
    | false =>
      rw [Setting.attempts_of_not_instantiates ho]
      exact ⟨Nat.zero_le 1, List.forall_mem_nil _⟩
    | true =>
      have hundertakes := undertakes ho s
      generalize s.attempts o = attempts, s.services o = calls, s.answer o = r,
        s.after o = t at hundertakes ⊢
      cases hundertakes with
      | falls => exact ⟨Nat.zero_le 1, List.forall_mem_nil _⟩
      | fails ready begins => exact ⟨Nat.le_refl 1, of_ready ready begins⟩
      | makes ready begins => exact ⟨Nat.le_refl 1, of_ready ready begins⟩

/-- A machine with an instance, which cleans up and loads its module again. -/
def reloaded : Setting :=
  ((emptyLoaded.after .instantiate).after .cleanup).after (.load (.bytes emptyBytes))

/-- The same machine with another instance, in a store of its own. -/
theorem one_main_instance_reloaded :
    ∃ past, Annals past (reloaded.after .instantiate) ∧
      past.map EngineRun.store = [⟨0⟩, ⟨1⟩] ∧ (past.map EngineRun.store).Nodup ∧
      (reloaded.after .instantiate).vm.stage = .instantiated ∧
      ∃ a, (reloaded.after .instantiate).vm.active = some a ∧
        ∃ r ∈ past, r.Made (reloaded.after .instantiate).vm a := by
  have hnew : Vm.new {} {} = (.ok (empty {} ⟨0⟩), (Host.newStore {}).2) := rfl
  have hpast : Annals _ (reloaded.after .instantiate) :=
    .operate (.operate (.operate (.operate (.operate (.new hnew) (.load (.bytes emptyBytes)))
      .instantiate) .cleanup) (.load (.bytes emptyBytes))) .instantiate
  obtain ⟨hnodup, -, hinstance, -⟩ := one_main_instance hpast
  have hstage : (reloaded.after .instantiate).vm.stage = .instantiated := by decide +kernel
  obtain ⟨a, ha, -, r, hr, hmade⟩ := hinstance hstage
  exact ⟨_, hpast, by decide +kernel, hnodup, hstage, a, ha, r, hr, hmade⟩

end WasmEmbedding.Vm
