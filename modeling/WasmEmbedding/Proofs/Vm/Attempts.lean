import WasmEmbedding.Proofs.Vm.Restart
import WasmEmbedding.Proofs.Vm.Trail
import WasmEmbedding.Proofs.Wasi.Texts

/-! # Attempts at a main instance

An operation that instantiates a main module attempts to make an instance of it once at most, and
only after everything else has gone well: it lets go of the old instance, gives the machine a new
store if the old one is stale, starts a session, and marks the store as stale.  What such an
operation comes to is one of three things (`Undertakes`): it fails before the attempt, with the
attempt, or it goes on from the new instance and makes calls (`undertakes`).  All other runs of the
engine in it are replayed ones (`Idles`), and the calls are made in the session of the instance
(`Serves`).

On the way to the attempt nothing but the stages of the main module and the store changes
(`Approaches`): environments and exit code stay, and the store is the one that it was or a new one.
-/
namespace WasmEmbedding

open Chronicle Engine Wasm

namespace Host

/-- An environment is replaced where there is one. -/
theorem replaceEnvironment_eq_ok {h t : Host} {o : ImportObject} {e : Wasi.Environment} :
    h.replaceEnvironment o e = .ok t ↔
      ∃ key, o.environment = some key ∧ t = h.setEnvironment key e := by
  unfold replaceEnvironment
  cases o.environment with
  | none => exact ⟨nofun, fun ⟨_, hkey, _⟩ => nomatch hkey⟩
  | some key =>
    constructor
    · rintro ⟨⟩
      exact ⟨key, rfl, rfl⟩
    · rintro ⟨_, ⟨⟩, rfl⟩
      rfl

/-- Environments stay, and no store is unmade. -/
structure Abides (h t : Host) : Prop where
  environments : t.environments = h.environments
  stores : h.stores ≤ t.stores

instance : IsPreorder Host Abides where
  refl _ := ⟨rfl, Nat.le_refl _⟩
  trans _ _ _ h h' := ⟨h'.environments.trans h.environments, Nat.le_trans h.stores h'.stores⟩

theorem abides_deleteObject (h : Host) (name : String) : Abides h (h.deleteObject name) := by
  unfold deleteObject
  split
  · exact ⟨rfl, Nat.le_refl _⟩
  · exact Std.Refl.refl h

theorem abides_makeObject (h : Host) (moduleName : String) :
    Abides h (h.makeObject moduleName).2 := by
  unfold makeObject
  split
  · exact ⟨rfl, Nat.le_refl _⟩
  · exact Std.Refl.refl h

/-- Nothing that is done in a run gives an environment or unmakes a store. -/
theorem effects_abides : Effects (fun _ => True) (fun _ => True) Abides where
  note _ _ := ⟨rfl, Nat.le_refl _⟩
  share _ _ _ _ := ⟨rfl, Nat.le_refl _⟩
  delete h name _ := h.abides_deleteObject name
  drop h name _ := ⟨(h.abides_deleteObject name).environments, (h.abides_deleteObject name).stores⟩
  make h moduleName := h.abides_makeObject moduleName
  adopt _ _ _ _ _ := ⟨rfl, Nat.le_refl _⟩

end Host

namespace Vm

/-- The host goes one way, which the host calls find it on. -/
def Going (Q : Host → Host → Prop) (s : Setting) (runs : List EngineRun)
    (_ : Except RuntimeError Unit) (t : Setting) : Prop :=
  Q s.host t.host ∧ ∀ c ∈ hostCalls runs, Q s.host c.machine.host

section Going

variable {Q : Host → Host → Prop} [IsPreorder Host Q]

theorem going_of_host {s t : Setting} {r : Except RuntimeError Unit} (h : t.host = s.host) :
    Going Q s [] r t := by
  refine ⟨?_, List.forall_mem_nil _⟩
  rw [h]
  exact Std.Refl.refl s.host

theorem going_run (hQ : Host.Effects (fun _ => True) (fun _ => True) Q) (run : EngineRun)
    {r : Except RuntimeError Unit} {t : Setting} (h : t.host = run.ending.host) :
    Going Q run.setting [run] r t := by
  unfold Going hostCalls
  rw [List.flatMap_singleton, h]
  exact run.told (witnessed_host hQ)

theorem going_rebuild (hnew : ∀ h, Q h h.newStore.2) {s t u : Setting} {runs : List EngineRun}
    {r r' : Except RuntimeError Unit} (h : Going Q (Action.blank s) runs r u)
    (hhost : t.host = u.host) : Going Q s (runs.map EngineRun.again) r' t := by
  have hblank : Q s.host (Action.blank s).host := hnew s.host
  unfold Going
  rw [hostCalls_again, hhost]
  exact ⟨IsTrans.trans _ _ _ hblank h.1, fun c hc => IsTrans.trans _ _ _ hblank (h.2 c hc)⟩

/-- What runs do to the host and new stores do to it, operations do. -/
theorem throughout_going (hQ : Host.Effects (fun _ => True) (fun _ => True) Q)
    (hnew : ∀ h, Q h h.newStore.2) : Throughout (Going Q) where
  still s := going_of_host rfl
  append {s t u l l' _} h h' := by
    obtain ⟨hst, hl⟩ := h
    obtain ⟨htu, hl'⟩ := h'
    refine ⟨IsTrans.trans _ _ _ hst htu, fun c hc => ?_⟩
    unfold hostCalls at hc
    rw [List.flatMap_append] at hc
    exact (List.mem_append.mp hc).elim (hl c) fun hc => IsTrans.trans _ _ _ hst (hl' c hc)
  beside hx s := going_of_host (hx.keeps s).host
  define {s _ linked _} _ := going_of_host (Action.keeps_unspent_define linked s).host
  build m s := going_run hQ _ (congrArg Setting.host (Action.ending_instance? m s))
  call address signature args s := by
    obtain ⟨code, hcode⟩ := Action.ending_engage address signature args s
    exact going_run hQ _ (congrArg Setting.host hcode)
  rebuilt h := going_rebuild hnew h rfl
  restored h := going_rebuild hnew h rfl
  registerImport o s := going_of_host (Action.keeps_unspent_registerImport o s).host
  putOff h := going_rebuild hnew h rfl

end Going

theorem throughout_abides : Throughout (Going Host.Abides) :=
  throughout_going Host.effects_abides fun _ => ⟨rfl, Nat.le_succ _⟩

/-- **No operation gives an environment or unmakes a store**, and none of the host calls on its way
does. -/
theorem going_abides (s : Setting) (o : Operation) :
    Going Host.Abides s (s.runs o) (s.answer o) (s.after o) := by
  cases hamends : o.amends with
  | false => exact throughout_abides.perform hamends s
  | true =>
    cases o with
    | amendStatistics f => exact going_of_host rfl
    | amendContext f => exact going_of_host rfl
    | _ => cases hamends

theorem abides_after (s : Setting) (o : Operation) : s.host.Abides (s.after o).host :=
  (going_abides s o).1

/-! ## Where a machine has got to -/

/-- The store is the one that it was, and there is no other instance of a main module. -/
structure Held (s t : Setting) : Prop where
  stale : t.vm.stale = s.vm.stale
  code : s.vm.store.code.Extends t.vm.store.code
  active : t.vm.active = none ∨ t.vm.active = s.vm.active

/-- The store is a new one without an instance of a main module. -/
structure Renewed (s t : Setting) : Prop where
  stale : t.vm.stale = false
  le : s.host.stores ≤ t.vm.store.id.val
  lt : t.vm.store.id.val < t.host.stores
  active : t.vm.active = none

instance : IsPreorder Setting Held where
  refl _ := ⟨rfl, Std.Refl.refl _, .inr rfl⟩
  trans _ _ _ h h' := by
    refine ⟨h'.stale.trans h.stale, IsTrans.trans _ _ _ h.code h'.code, ?_⟩
    rcases h'.active with hnone | hsame
    · exact .inl hnone
    · rw [hsame]
      exact h.active

/-- No session can be started under the environment of the machine. -/
def Setting.Barred (s : Setting) : Prop :=
  ∃ key w, s.vm.environment = some key ∧
    Wasi.Session.start s.host.files (s.host.environment key) = .error w

theorem Held.of_works {s t : Setting} (h : Works s t) : Held s t :=
  ⟨h.stale, h.code, .inr (congrArg Record.active h.record)⟩

/-- A machine is on its way to an attempt: beside the stages of the main module at most the store
has become another one. -/
structure Approaches (s t : Setting) : Prop where
  host : s.host.Abides t.host
  wasi : t.vm.wasi = s.vm.wasi
  environment : t.vm.environment = s.vm.environment
  exitCode : t.vm.exitCode = s.vm.exitCode
  store : Held s t ∨ Renewed s t
  barred : s.Barred → t.Barred

instance : IsPreorder Setting Approaches where
  refl _ := ⟨Std.Refl.refl _, rfl, rfl, rfl, .inl (Std.Refl.refl _), id⟩
  trans s t u h h' := by
    refine ⟨IsTrans.trans _ _ _ h.host h'.host, h'.wasi.trans h.wasi,
      h'.environment.trans h.environment, h'.exitCode.trans h.exitCode, ?_, h'.barred ∘ h.barred⟩
    rcases h'.store with held' | new'
    · rcases h.store with held | new
      · exact .inl (IsTrans.trans _ _ _ held held')
      · have hid : u.vm.store.id = t.vm.store.id := held'.code.id
        refine .inr ⟨held'.stale.trans new.stale, hid ▸ new.le, ?_, ?_⟩
        · exact hid ▸ Nat.lt_of_lt_of_le new.lt h'.host.stores
        · exact held'.active.elim id fun same => same.trans new.active
    · exact .inr { new' with le := Nat.le_trans h.host.stores new'.le }

namespace Action

variable {α : Type}

theorem approaches_modifyVm {f : Vm → Vm} (h : ∀ vm, f vm = { f vm with
      store := vm.store, stale := vm.stale, wasi := vm.wasi, environment := vm.environment })
    (hactive : ∀ vm, (f vm).active = none ∨ (f vm).active = vm.active) :
    Keeps Approaches (modifyVm f) := by
  refine keeps_modifyVm fun s => ?_
  have active := hactive s.vm
  rw [h] at active ⊢
  exact ⟨Std.Refl.refl _, rfl, rfl, rfl, .inl ⟨rfl, Std.Refl.refl _, active⟩, id⟩

theorem approaches_validate : Keeps Approaches validate := by
  refine keeps_vm.bind fun vm => ?_
  split
  · exact keeps_vm.bind fun _ => Keeps.throw _
  · exact Keeps.pure _
  · exact Keeps.pure _
  · refine keeps_vm.bind fun vm => ?_
    split
    · exact keeps_vm.bind fun _ => Keeps.throw _
    · refine Keeps.bind (keeps_vm.bind fun _ => keeps_ofExcept _ _) fun m => ?_
      refine Keeps.bind ?_ fun _ => ?_
      · exact approaches_modifyVm (fun _ => rfl) fun _ => .inr rfl
      · exact approaches_modifyVm (fun _ => rfl) fun _ => .inr rfl

theorem approaches_takeUp (source : Source) : Keeps Approaches (takeUp source) := by
  refine Keeps.bind (Keeps.get.bind fun _ => keeps_ofExcept _ _) fun image => ?_
  refine Keeps.bind ?_ fun _ => ?_
  · exact approaches_modifyVm (fun _ => rfl) fun _ => .inr rfl
  · exact approaches_modifyVm (fun _ => rfl) fun _ => .inr rfl

/-- Letting go of the instance leaves none. -/
theorem run_deactivate (s : Setting) :
    ∃ t, EStateM.run deactivate s = .ok () t ∧ Approaches s t ∧ t.vm.active = none ∧
      t.vm.compiled = s.vm.compiled := by
  have hrun : EStateM.run deactivate s =
      EStateM.run (if s.vm.active.isSome then
        modifyVm (fun vm => { vm with active := none }) >>= fun _ => setStage .validated
      else pure ()) s := rfl
  rw [hrun]
  cases hactive : s.vm.active with
  | none => exact ⟨s, rfl, Std.Refl.refl s, hactive, rfl⟩
  | some a =>
    refine ⟨_, rfl, ⟨Std.Refl.refl _, rfl, rfl, rfl, .inl ⟨rfl, Std.Refl.refl _, .inl rfl⟩, id⟩,
      rfl, rfl⟩

theorem abides_replayAll : Keeps (InvImage Host.Abides Setting.host) replayAll := fun s =>
  (throughout_abides.recountable.tells_replayAll.events Noted.erases_replayAll s).1

/-- Where no session can be started, a refresh fails and changes nothing. -/
theorem refresh_of_barred {s : Setting} (h : s.Barred) :
    ∃ w, EStateM.run refresh s = .error (.wasi w) s := by
  obtain ⟨key, w, hkey, hstart⟩ := h
  exact ⟨w, (run_refresh_eq_error hkey).mpr ⟨w, hstart, rfl, rfl⟩⟩

/-- Linking everything again changes no files until it gets to a module, which needs a session. -/
theorem barred_replayAll : Keeps (Upholds Setting.Barred) replayAll := by
  refine keeps_vm.bind fun vm => Keeps.forM (fun name => keeps_vm.bind fun vm => ?_) _
  split
  · rename_i entry _
    cases entry with
    | imports linked functions =>
      refine keeps_vm.bind fun vm => (keeps_ofExcept _ _).bind fun _ => ?_
      exact keeps_modifyVm fun _ h => h
    | module m =>
      intro s h
      obtain ⟨w, hw⟩ := refresh_of_barred h
      have hrun : EStateM.run (replay name (.module m)) s = .error (.wasi w) s :=
        run_bind_of_error hw
      rw [ending_of_error hrun]
      exact h
  · exact Keeps.pure _

/-- **A rebuild puts a new store in place or keeps the old one.** -/
theorem approaches_rebuild {s : Setting} (h : s.vm.active = none) :
    Approaches s (ending rebuild s) := by
  have host : s.host.Abides (blank s).host := ⟨rfl, Nat.le_succ _⟩
  unfold ending
  rw [run_rebuild]
  cases hr : EStateM.run replayAll (blank s) with
  | ok a t =>
    have hb : Builds (blank s) t := keeps_replayAll.ok hr
    have habides : (blank s).host.Abides t.host := abides_replayAll.ok hr
    have hbarred : (blank s).Barred → t.Barred := barred_replayAll.ok hr
    have hid : t.vm.store.id = s.host.newStore.1 := hb.code.id
    refine ⟨IsTrans.trans _ _ _ host habides, congrArg Record.wasi hb.record, hb.environment, rfl,
      .inr ⟨rfl, ?_, ?_, ?_⟩, hbarred⟩
    · exact Nat.le_of_eq (congrArg StoreId.val hid.symm)
    · change t.vm.store.id.val < t.host.stores
      rw [hid]
      exact habides.stores
    · exact (congrArg Record.active hb.record).trans h
  | error e t =>
    have hb : Builds (blank s) t := keeps_replayAll.error hr
    have habides : (blank s).host.Abides t.host := abides_replayAll.error hr
    have hbarred : (blank s).Barred → t.Barred := barred_replayAll.error hr
    refine ⟨IsTrans.trans _ _ _ host habides, congrArg Record.wasi hb.record, hb.environment, rfl,
      .inl ⟨hb.stale, Std.Refl.refl _, .inl ?_⟩, hbarred⟩
    exact (congrArg Record.active hb.record).trans h

theorem approaches_reset : Keeps Approaches reset := by
  intro s
  have hcleared : Approaches s { s with vm := cleared s.vm } :=
    ⟨Std.Refl.refl _, rfl, rfl, rfl, .inl ⟨rfl, Std.Refl.refl _, .inl rfl⟩, id⟩
  rw [ending_of_ok (run_reset s)]
  split
  · exact IsTrans.trans _ _ _ hcleared (approaches_rebuild rfl)
  · exact hcleared

theorem approaches_load (source : Source) : Keeps Approaches (load source) :=
  approaches_reset.bind fun _ => approaches_takeUp source

end Action

/-! ## The attempts of an operation -/

/-- The task is to make an instance. -/
def Task.builds : Task → Bool
  | .build _ => true
  | .call _ _ _ => false

/-- The run makes an instance anew. -/
def EngineRun.isAttempt (r : EngineRun) : Bool := r.task.builds && !r.replayed

/-- The run is a call, and no rebuild makes it. -/
def EngineRun.isService (r : EngineRun) : Bool := !r.task.builds && !r.replayed

/-- A run that is not replayed is an attempt or a service. -/
theorem EngineRun.isAttempt_or_isService {r : EngineRun} (h : r.replayed = false) :
    r.isAttempt = true ∨ r.isService = true := by
  unfold isAttempt isService
  rw [h]
  cases r.task.builds <;> simp

/-- And it is not both. -/
theorem EngineRun.not_isAttempt_of_isService {r : EngineRun} (h : r.isService = true) :
    ¬ r.isAttempt = true := by
  unfold isService at h
  unfold isAttempt
  intro h'
  cases hbuilds : r.task.builds <;> simp_all

/-- The store of a run. -/
def EngineRun.store (r : EngineRun) : StoreId := r.setting.vm.store.id

/-- The attempts of an operation at making an instance of a main module. -/
def Setting.attempts (s : Setting) (o : Operation) : List EngineRun :=
  if o.instantiates then (s.runs o).filter EngineRun.isAttempt else []

/-- The calls that follow the attempts. -/
def Setting.services (s : Setting) (o : Operation) : List EngineRun :=
  if o.instantiates then (s.runs o).filter EngineRun.isService else []

theorem Setting.attempts_of_not_instantiates {s : Setting} {o : Operation}
    (h : o.instantiates = false) : s.attempts o = [] := by
  rw [Setting.attempts, h]
  rfl

/-- The setting of an attempt: the store is stale from now on. -/
def Setting.marked (s : Setting) : Setting := { s with vm := { s.vm with stale := true } }

/-- The attempt that is made with a session. -/
def Setting.attempt (s : Setting) (m : Module) : EngineRun := ⟨.build m, s.marked, false⟩

/-- What a successful attempt leaves. -/
def Setting.made (s : Setting) (m : Module) : Setting where
  vm := { (s.attempt m).after.vm with
    active := some ⟨m, s.vm.store.instances.size⟩
    stage := .instantiated }
  host := (s.attempt m).after.host

/-- A machine is ready for an attempt: its store is not stale, it has no instance of a main module,
and it has a compiled module. -/
structure Ready (s v : Setting) (m : Module) : Prop where
  approaches : Approaches s v
  active : v.vm.active = none
  stale : v.vm.stale = false
  compiled : v.vm.compiled = some m

theorem Ready.after {s t v : Setting} {m : Module} (h : Ready t v m) (hst : Approaches s t) :
    Ready s v m :=
  { h with approaches := IsTrans.trans _ _ _ hst h.approaches }

/-- A machine calls functions: it works on its store, and each call finds the texts of the session
that it has had before the calls. -/
structure Serves (s : Setting) (calls : List EngineRun) (t : Setting) : Prop where
  works : Works s t
  host : s.host.Abides t.host
  texts : (Action.computer t).texts = (Action.computer s).texts
  calls : ∀ r ∈ calls, r.isService = true ∧ r.machine.texts = (Action.computer s).texts

theorem Serves.refl (s : Setting) : Serves s [] s :=
  ⟨Std.Refl.refl s, Std.Refl.refl _, rfl, List.forall_mem_nil _⟩

theorem Serves.trans {s t u : Setting} {l l' : List EngineRun} (h : Serves s l t)
    (h' : Serves t l' u) : Serves s (l ++ l') u where
  works := IsTrans.trans _ _ _ h.works h'.works
  host := IsTrans.trans _ _ _ h.host h'.host
  texts := h'.texts.trans h.texts
  calls r hr := by
    rcases List.mem_append.mp hr with hr | hr
    · exact h.calls r hr
    · exact ⟨(h'.calls r hr).1, (h'.calls r hr).2.trans h.texts⟩

/-- What an operation that instantiates a main module comes to, with its attempts and calls. -/
inductive Undertakes (s : Setting) :
    List EngineRun → List EngineRun → Except RuntimeError Unit → Setting → Prop
  /-- It fails before there is an attempt. -/
  | falls {e : RuntimeError} {t : Setting} (approaches : Approaches s t) :
      Undertakes s [] [] (.error e) t
  /-- The attempt fails, and the operation with it. -/
  | fails {v w : Setting} {m : Module} (ready : Ready s v m)
      (begins : EStateM.run Action.refresh v = .ok () w) {stop : Stop}
      (outcome : (w.attempt m).outcome = .error stop) :
      Undertakes s [w.attempt m] [] (.error (.instantiation stop.message)) (w.attempt m).after
  /-- The attempt succeeds, and the operation may go on with calls. -/
  | makes {v w : Setting} {m : Module} (ready : Ready s v m)
      (begins : EStateM.run Action.refresh v = .ok () w) (outcome : (w.attempt m).outcome = .ok ())
      {calls : List EngineRun} {r : Except RuntimeError Unit} {t : Setting}
      (serves : Serves (w.made m) calls t) : Undertakes s [w.attempt m] calls r t

theorem Undertakes.after {s t u : Setting} {l l' : List EngineRun} {r : Except RuntimeError Unit}
    (h : Undertakes t l l' r u) (hst : Approaches s t) : Undertakes s l l' r u := by
  cases h with
  | falls approaches => exact .falls (IsTrans.trans _ _ _ hst approaches)
  | fails ready begins outcome => exact .fails (ready.after hst) begins outcome
  | makes ready begins outcome serves => exact .makes (ready.after hst) begins outcome serves

/-! ## Chronicles without attempts -/

/-- Every run is a replayed one. -/
def Idles (_ : Setting) (runs : List EngineRun) (_ : Except RuntimeError Unit)
    (_ : Setting) : Prop :=
  ∀ r ∈ runs, r.replayed = true

theorem history_idles : History Idles where
  still _ := List.forall_mem_nil _
  append h h' r hr := (List.mem_append.mp hr).elim (h r) (h' r)

theorem idles_again (runs : List EngineRun) :
    ∀ r ∈ runs.map EngineRun.again, r.replayed = true := by
  intro r hr
  obtain ⟨r, -, rfl⟩ := List.mem_map.mp hr
  rfl

/-- A replayed run is no attempt. -/
theorem filter_isAttempt_of_idles {runs : List EngineRun} (h : ∀ r ∈ runs, r.replayed = true) :
    runs.filter EngineRun.isAttempt = [] := by
  rw [List.filter_eq_nil_iff]
  intro r hr
  simp [EngineRun.isAttempt, h r hr]

/-- And it is no service. -/
theorem filter_isService_of_idles {runs : List EngineRun} (h : ∀ r ∈ runs, r.replayed = true) :
    runs.filter EngineRun.isService = [] := by
  rw [List.filter_eq_nil_iff]
  intro r hr
  simp [EngineRun.isService, h r hr]

/-- Calls are made while a machine has an instance. -/
def Serving (s : Setting) (runs : List EngineRun) (_ : Except RuntimeError Unit) (t : Setting) :
    Prop :=
  Serves s runs t

theorem history_serving : History Serving where
  still := Serves.refl
  append h h' := h.trans h'

namespace Noted

variable {α β : Type}

theorem idles_quietly (x : Action α) : Tells Idles (quietly x : Noted α) :=
  Tells.quietly fun _ => List.forall_mem_nil _

theorem idles_bind {c : Noted α} {d : α → Noted β} (hc : Tells Idles c)
    (hd : ∀ a, Tells Idles (d a)) : Tells Idles (c >>= d) :=
  Tells.bind history_idles hc hd

theorem idles_rebuild : Tells Idles rebuild := by
  intro s l
  have hrun : EStateM.run rebuild (s, l) = rebuild (s, l) := rfl
  unfold rebuild at hrun
  dsimp only at hrun
  cases hreplay : EStateM.run replayAll (Action.blank s, []) with
  | ok a p =>
    rw [hreplay] at hrun
    exact Post.of_ok hrun ⟨_, rfl, idles_again _⟩
  | error e p =>
    rw [hreplay] at hrun
    exact Post.of_error hrun ⟨_, rfl, idles_again _⟩

theorem idles_reset : Tells Idles reset := by
  refine idles_bind (idles_quietly _) fun _ => idles_bind (idles_quietly _) fun vm => ?_
  split
  · intro s l
    have hrun : EStateM.run (tryCatch rebuild fun _ => pure ()) (s, l) = _ := run_tryCatch
    cases hp : EStateM.run rebuild (s, l) with
    | ok a p =>
      rw [hp] at hrun
      exact Post.of_ok hrun ((idles_rebuild s l).ok hp)
    | error e p =>
      rw [hp] at hrun
      exact Post.of_ok hrun ((idles_rebuild s l).error hp)
  · exact Tells.pure history_idles ()

theorem idles_load (source : Source) : Tells Idles (load source) :=
  idles_bind idles_reset fun _ => idles_quietly _

theorem keeps_engage (address : Nat) (signature : Signature) (args : List Value) :
    Keeps Works (Action.engage address signature args) := by
  refine (Action.keeps_works (Action.keeps_compute (Action.keeps_exchange _ _ _))).bind fun r => ?_
  refine Keeps.bind (Action.keeps_modifyVm fun s => ⟨rfl, rfl, Std.Refl.refl _⟩) fun _ => ?_
  split
  · exact Keeps.pure _
  · exact Action.keeps_works (Action.keeps_settle _ _)

/-- What leaves a machine as it is makes no calls. -/
theorem serving_quietly {x : Action α} (hx : Keeps (SameBy id) x) :
    Tells Serving (quietly x : Noted α) := by
  refine Tells.quietly fun s => ?_
  have hsame : ending x s = s := hx s
  rw [hsame]
  exact Serves.refl s

theorem serving_call (address : Nat) (args : List Value) : Tells Serving (call address args) := by
  refine Tells.bind history_serving (serving_quietly Action.keeps_vm) fun vm => ?_
  refine Tells.bind history_serving (serving_quietly (Action.keeps_ofExcept _ _))
    fun signature => ?_
  refine Tells.bind history_serving (serving_quietly (Action.keeps_ofExcept _ _)) fun _ => ?_
  refine Tells.noting fun s => ?_
  let run : EngineRun := ⟨.call address signature args, s, false⟩
  obtain ⟨code, hending⟩ := Action.ending_engage address signature args s
  have habides := (throughout_abides.call address signature args s).1
  obtain ⟨htexts, -⟩ := run.told Exec.witnessed_texts
  refine ⟨keeps_engage address signature args s, habides, ?_, fun r hr => ?_⟩
  · rw [hending]
    exact htexts
  · rw [List.mem_singleton.mp hr]
    exact ⟨rfl, rfl⟩

theorem serving_callFound (found : Option Nat) (args : List Value) (e : RuntimeError) :
    Tells Serving (match found with
      | some address => call address args
      | none => quietly (throw e)) := by
  cases found with
  | some address => exact serving_call address args
  | none => exact serving_quietly (Keeps.throw e)

theorem serving_execute (name : String) (args : List Value) :
    Tells Serving (execute name args) := by
  refine Tells.bind history_serving (serving_quietly Action.keeps_vm) fun vm => ?_
  dsimp only
  split
  · exact Tells.bind history_serving (serving_quietly (Keeps.throw _)) fun _ =>
      serving_callFound _ args _
  · exact serving_callFound _ args _

/-- A chronicle leaves what its action leaves, and the runs that it tells of. -/
theorem run_of_tells {R : Setting → List EngineRun → Except RuntimeError Unit → Setting → Prop}
    {x : Action α} {c : Noted α} (hx : Erases x c) (hc : Tells R c) (s : Setting)
    (l : List EngineRun) : ∃ new, R s new (succeeded (outcome x s)) (ending x s) ∧
      EStateM.run c (s, l) = withEvents (l ++ new) (EStateM.run x s) := by
  have hagree := hx s (s, l) rfl
  have htells := hc s l
  unfold Post outcome ending at htells
  unfold outcome ending
  generalize EStateM.run x s = r, EStateM.run c (s, l) = r' at hagree htells ⊢
  cases hagree with
  | ok a h =>
    subst h
    obtain ⟨new, hnew, htold⟩ := htells
    exact ⟨new, htold, congrArg _ (Prod.ext rfl hnew)⟩
  | error e h =>
    subst h
    obtain ⟨new, hnew, htold⟩ := htells
    exact ⟨new, htold, congrArg _ (Prod.ext rfl hnew)⟩

end Noted

/-! ## Up to the attempt and from it on -/

namespace Action

/-- Gives a machine a store and a session for an attempt. -/
def ready : Action Unit := do
  if (← vm).stale then rebuild
  refresh
  modifyVm fun vm => { vm with stale := true }

/-- A machine without an instance is ready for an attempt afterwards, but for the session that has
begun and the mark on the store. -/
theorem ready_post {s : Setting} (h : s.vm.active = none) {m : Module}
    (hm : s.vm.compiled = some m) :
    Post ready s fun r t =>
      match r with
      | .error _ => Approaches s t
      | .ok _ => ∃ v w, Ready s v m ∧ EStateM.run refresh v = .ok () w ∧ t = w.marked := by
  have rest : ∀ {v : Setting}, Ready s v m →
      Post (refresh >>= fun _ => modifyVm fun vm => { vm with stale := true }) v fun r t =>
        match r with
        | .error _ => Approaches s t
        | .ok _ => ∃ v w, Ready s v m ∧ EStateM.run refresh v = .ok () w ∧ t = w.marked := by
    intro v hv
    refine Post.bind (fun _ w hw => Post.of_ok rfl ⟨v, w, hv, hw, rfl⟩) fun e w hw => ?_
    rw [(refresh_post v).error hw]
    exact hv.approaches
  refine Post.bind (fun vm u hu => ?_) fun _ _ => nofun
  cases hu
  dsimp only
  split
  · refine Post.bind (fun _ u hu => rest ?_) fun e u hu => ?_
    · have happroaches := approaches_rebuild h
      have hrecord := (keeps_rebuild s).1
      rw [ending_of_ok hu] at happroaches hrecord
      refine ⟨happroaches, (congrArg Record.active hrecord).trans h, ?_,
        (congrArg Record.compiled hrecord).trans hm⟩
      rw [run_rebuild] at hu
      cases hreplay : EStateM.run replayAll (blank s) with
      | ok a t =>
        rw [hreplay] at hu
        cases hu
        rfl
      | error e t =>
        rw [hreplay] at hu
        cases hu
    · have happroaches := approaches_rebuild h
      rwa [ending_of_error hu] at happroaches
  · rename_i hstale
    exact rest ⟨Std.Refl.refl s, h, Bool.eq_false_iff.mpr hstale, hm⟩

end Action

namespace Noted

/-- The same, with the runs of a rebuild. -/
def ready : Noted Unit := do
  if (← quietly Action.vm).stale then rebuild
  quietly Action.refresh
  quietly (Action.modifyVm fun vm => { vm with stale := true })

theorem prepare_eq (m : Module) : prepare m = ready >>= fun _ => instance? m := by
  unfold ready prepare
  rw [bind_assoc]
  refine congrArg (quietly Action.vm >>= ·) (funext fun vm => ?_)
  split
  · simp only [bind_assoc]
  · simp only [bind_assoc]

theorem erases_ready : Erases Action.ready ready := by
  refine Erases.after fun vm => ?_
  dsimp only
  split
  · exact erases_rebuild.bind fun _ => Erases.after fun _ => .quietly _
  · exact Erases.after fun _ => .quietly _

theorem idles_ready : Tells Idles ready := by
  refine idles_bind (idles_quietly _) fun vm => ?_
  dsimp only
  split
  · exact idles_bind idles_rebuild fun _ => idles_bind (idles_quietly _) fun _ => idles_quietly _
  · exact idles_bind (idles_quietly _) fun _ => idles_quietly _

/-- What an operation comes to that instantiates a main module, told by its attempts and calls. -/
def Attempting (s : Setting) (runs : List EngineRun) (r : Except RuntimeError Unit) (t : Setting) :
    Prop :=
  Undertakes s (runs.filter EngineRun.isAttempt) (runs.filter EngineRun.isService) r t

/-- Replayed runs come before without saying anything. -/
theorem attempting_append {s t u : Setting} {new more : List EngineRun}
    {r : Except RuntimeError Unit} (hidle : ∀ r ∈ new, r.replayed = true)
    (happroaches : Approaches s t) (h : Attempting t more r u) :
    Attempting s (new ++ more) r u := by
  unfold Attempting at h ⊢
  rw [List.filter_append, List.filter_append, filter_isAttempt_of_idles hidle,
    filter_isService_of_idles hidle]
  exact h.after happroaches

/-- Nor do they where nothing is attempted. -/
theorem attempting_of_idles {s t : Setting} {new : List EngineRun} {e : RuntimeError}
    (hidle : ∀ r ∈ new, r.replayed = true) (happroaches : Approaches s t) :
    Attempting s new (.error e) t := by
  unfold Attempting
  rw [filter_isAttempt_of_idles hidle, filter_isService_of_idles hidle]
  exact .falls happroaches

/-- A part without attempts comes before. -/
theorem attempting_after {α β : Type} {x : Action α} {c : Noted α} {d : α → Noted β} {s : Setting}
    (hx : Erases x c) (hc : Tells Idles c)
    (hok : ∀ a t, EStateM.run x s = .ok a t → Approaches s t ∧ TellsAt Attempting (d a) t)
    (herror : ∀ e t, EStateM.run x s = .error e t → Approaches s t) :
    TellsAt Attempting (c >>= d) s := by
  intro l
  obtain ⟨new, hidle, hrun⟩ := run_of_tells hx hc s l
  cases hs : EStateM.run x s with
  | error e t =>
    rw [hs] at hrun
    exact Post.of_error (run_bind_of_error hrun)
      ⟨new, rfl, attempting_of_idles hidle (herror e t hs)⟩
  | ok a t =>
    rw [hs] at hrun
    obtain ⟨happroaches, hrest⟩ := hok a t hs
    refine Post.bind (fun b p hp => ?_) fun e p hp => nomatch hrun.symm.trans hp
    cases hrun.symm.trans hp
    refine Post.intro (fun b p hp => ?_) fun e p hp => ?_
    · obtain ⟨more, hmore, h⟩ := (hrest (l ++ new)).ok hp
      exact ⟨new ++ more, by rw [hmore, List.append_assoc], attempting_append hidle happroaches h⟩
    · obtain ⟨more, hmore, h⟩ := (hrest (l ++ new)).error hp
      exact ⟨new ++ more, by rw [hmore, List.append_assoc], attempting_append hidle happroaches h⟩

/-- **Starting a compiled module is one attempt**, if it gets so far. -/
theorem attempting_start {s : Setting} {m : Module} (hm : s.vm.compiled = some m) :
    TellsAt Attempting (start m) s := by
  obtain ⟨t, ht, happroaches, hactive, hcompiled⟩ := Action.run_deactivate s
  refine attempting_after (.quietly _) (idles_quietly _) (fun _ u hu => ?_) fun e u hu => ?_
  · cases ht.symm.trans hu
    refine ⟨happroaches, ?_⟩
    rw [prepare_eq, bind_assoc]
    have hready := Action.ready_post hactive (hcompiled.trans hm)
    intro l
    obtain ⟨new, hidle, hrun⟩ := run_of_tells erases_ready idles_ready t l
    cases hs : EStateM.run Action.ready t with
    | error e u =>
      rw [hs] at hrun
      exact Post.of_error (run_bind_of_error hrun)
        ⟨new, rfl, attempting_of_idles hidle (hready.error hs)⟩
    | ok a u =>
      obtain ⟨v, w, hv, hw, rfl⟩ := hready.ok hs
      rw [hs] at hrun
      have attempted : (new ++ [w.attempt m]).filter EngineRun.isAttempt = [w.attempt m] := by
        rw [List.filter_append, filter_isAttempt_of_idles hidle]
        rfl
      have served : (new ++ [w.attempt m]).filter EngineRun.isService = [] := by
        rw [List.filter_append, filter_isService_of_idles hidle]
        rfl
      have houtcome := Action.outcome_build_eq m w.marked
      have hinstance := Action.run_instance?_eq m w.marked
      refine Post.bind (fun _ p hp => ?_) fun e p hp => nomatch hrun.symm.trans hp
      cases hrun.symm.trans hp
      have hnoted : EStateM.run (instance? m) (w.marked, l ++ new) =
          withEvents (l ++ new ++ [w.attempt m]) (EStateM.run (Action.instance? m) w.marked) := rfl
      cases ho : outcome (Action.build w.marked.vm.config.engine.bulkMemory w.marked.vm.linker m)
          (Action.computer w.marked) with
      | error stop =>
        rw [ho] at houtcome hinstance
        rw [hinstance] at hnoted
        refine Post.of_error (run_bind_of_error hnoted) ⟨_, List.append_assoc _ _ _, ?_⟩
        unfold Attempting
        rw [attempted, served]
        exact .fails hv hw houtcome
      | ok index =>
        rw [ho] at houtcome hinstance
        obtain ⟨hindex, -⟩ := Action.instance?_ok hinstance
        subst hindex
        rw [hinstance] at hnoted
        refine Post.bind (fun _ p hp => ?_) fun e p hp => nomatch hnoted.symm.trans hp
        cases hnoted.symm.trans hp
        refine Post.of_ok rfl ⟨_, List.append_assoc _ _ _, ?_⟩
        unfold Attempting
        rw [attempted, served]
        exact .makes hv hw houtcome (Serves.refl _)
  · cases ht.symm.trans hu

theorem attempting_instantiate (s : Setting) : TellsAt Attempting instantiate s := by
  unfold instantiate
  refine attempting_after (.quietly Action.vm) (idles_quietly _) (fun vm t ht => ?_)
    fun _ _ => nofun
  cases ht
  refine ⟨Std.Refl.refl s, ?_⟩
  have refused : ∀ u : Setting,
      TellsAt Attempting (quietly (Action.refuseStage "instantiate") : Noted Unit) u :=
    fun u l => ⟨[], (List.append_nil l).symm, .falls (Std.Refl.refl u)⟩
  split
  · exact refused s
  · refine attempting_after (.quietly Action.validate) (idles_quietly _) (fun _ t ht => ?_)
      fun e t ht => Action.approaches_validate.error ht
    refine ⟨Action.approaches_validate.ok ht, ?_⟩
    refine attempting_after (.quietly Action.vm) (idles_quietly _) (fun vm u hu => ?_)
      fun _ _ => nofun
    cases hu
    refine ⟨Std.Refl.refl t, ?_⟩
    cases hm : t.vm.compiled with
    | none => exact refused t
    | some m => exact attempting_start hm

/-- Calls come after the attempt. -/
theorem attempting_execute {s : Setting} (name : String) (args : List Value)
    (h : TellsAt Attempting instantiate s) :
    TellsAt Attempting (instantiate >>= fun _ => execute name args) s := by
  intro l
  have hinstantiate := h l
  refine Post.bind (fun _ p hp => ?_) fun e p hp => hinstantiate.error hp
  obtain ⟨new, hnew, hundertakes⟩ := hinstantiate.ok hp
  obtain ⟨more, hserves, hrun⟩ :=
    run_of_tells (erases_execute name args) (serving_execute name args)
    p.1 p.2
  have attempted : (new ++ more).filter EngineRun.isAttempt = new.filter EngineRun.isAttempt := by
    have hnone : more.filter EngineRun.isAttempt = [] :=
      List.filter_eq_nil_iff.mpr fun r hr =>
        EngineRun.not_isAttempt_of_isService (hserves.calls r hr).1
    rw [List.filter_append, hnone, List.append_nil]
  have served : (new ++ more).filter EngineRun.isService =
      new.filter EngineRun.isService ++ more := by
    rw [List.filter_append, List.filter_eq_self.mpr fun r hr => (hserves.calls r hr).1]
  have told : ∀ r, Attempting s (new ++ more) r (ending (Action.execute name args) p.1) := by
    intro r
    unfold Attempting at hundertakes ⊢
    rw [attempted, served]
    generalize new.filter EngineRun.isAttempt = attempts, new.filter EngineRun.isService = calls
      at hundertakes ⊢
    cases hundertakes with
    | makes ready begins outcome serves =>
      exact .makes ready begins outcome (serves.trans hserves)
  cases hs : EStateM.run (Action.execute name args) p.1 with
  | ok values t =>
    rw [hs] at hrun
    rw [ending_of_ok hs] at told
    exact Post.of_ok hrun ⟨new ++ more, by rw [hnew, List.append_assoc], told _⟩
  | error e t =>
    rw [hs] at hrun
    rw [ending_of_error hs] at told
    exact Post.of_error hrun ⟨new ++ more, by rw [hnew, List.append_assoc], told _⟩

theorem attempting_run (source : Source) (name : String) (args : List Value) (s : Setting) :
    TellsAt Attempting (run source name args) s := by
  refine attempting_after (erases_load source) (idles_load source)
    (fun _ t ht => ⟨(Action.approaches_load source).ok ht, ?_⟩)
    fun e t ht => (Action.approaches_load source).error ht
  refine attempting_after (.quietly Action.validate) (idles_quietly _)
    (fun _ u hu => ⟨Action.approaches_validate.ok hu, ?_⟩)
    fun e u hu => Action.approaches_validate.error hu
  exact attempting_execute name args (attempting_instantiate u)

end Noted

/-- **An operation that instantiates a main module attempts it once at most**, when all else has
gone well. -/
theorem undertakes {o : Operation} (h : o.instantiates = true) (s : Setting) :
    Undertakes s (s.attempts o) (s.services o) (s.answer o) (s.after o) := by
  unfold Setting.attempts Setting.services
  rw [if_pos h, if_pos h]
  have of_tells : ∀ {α : Type} {c : Noted α}, TellsAt Noted.Attempting c s →
      Post c (s, []) fun r p =>
        Noted.Attempting s p.2 (succeeded r) p.1 := by
    intro α c hc
    obtain ⟨new, hnew, hundertakes⟩ := hc []
    change Noted.Attempting s (ending c (s, [])).2 (succeeded (outcome c (s, [])))
      (ending c (s, [])).1
    rw [hnew]
    exact hundertakes
  refine Noted.perform_post (P := fun r p => Noted.Attempting s p.2 r p.1) ?_
  cases o with
  | instantiate =>
    have hinstantiate := of_tells (Noted.attempting_instantiate s)
    simp only [succeeded_unit] at hinstantiate
    exact hinstantiate
  | run source name args =>
    have hrun := of_tells (Noted.attempting_run source name args s)
    exact Post.bind (fun _ p hp => Post.of_ok rfl (hrun.ok hp)) fun e p hp => hrun.error hp
  | _ => cases h

end Vm

end WasmEmbedding
