import WasmEmbedding.Proofs.Engine.Trail
import WasmEmbedding.Proofs.Vm.Runs

/-! # What the host calls of an operation come to

The hosts that the host calls of an operation meet come one after the other (`trail_after`), so that
each call finds the registry as the deeds before it have left it.  A call of a number that its
object has let go of is the last one of its run, which fails with it.  What becomes of the operation
then depends on the run (`failed_run`): a rebuild that is only to let go of the main module is put
off; any other run that fails in this way is the last one of the operation, which answers so.
-/
namespace WasmEmbedding.Vm

open Chronicle Engine Wasm

/-! ## The hosts on the way -/

/-- The host calls of runs, the first one first. -/
def hostCalls (runs : List EngineRun) : List HostCall := runs.flatMap EngineRun.calls

theorem hostCalls_again (runs : List EngineRun) :
    hostCalls (runs.map EngineRun.again) = hostCalls runs :=
  List.flatMap_map _ _ _

/-- The hosts that the calls meet come one after the other. -/
def Trailing (s : Setting) (runs : List EngineRun) (_ : Except RuntimeError Unit) (t : Setting) :
    Prop :=
  Host.Along s.host ((hostCalls runs).map HostCall.host) t.host

theorem trailing_of_host {s t : Setting} {r : Except RuntimeError Unit} (h : t.host = s.host) :
    Trailing s [] r t := by
  change Host.Along s.host [] t.host
  rw [h]
  exact .last (Std.Refl.refl s.host)

/-- The calls of one run. -/
theorem trailing_run (run : EngineRun) {r : Except RuntimeError Unit} {t : Setting}
    (h : t.host = run.ending.host) : Trailing run.setting [run] r t := by
  unfold Trailing hostCalls
  rw [List.flatMap_singleton, h]
  exact run.told witnessed_trails

/-- A new store is all that a rebuild takes from the host beside the calls. -/
theorem trailing_rebuild {s t u : Setting} {runs : List EngineRun}
    {r r' : Except RuntimeError Unit} (h : Trailing (Action.blank s) runs r u)
    (hhost : t.host = u.host) : Trailing s (runs.map EngineRun.again) r' t := by
  have hblank : Host.Leads s.host (Action.blank s).host := .elsewhere rfl rfl (Nat.le_refl _)
  unfold Trailing
  rw [hostCalls_again, hhost]
  exact Host.Along.after hblank h

theorem throughout_trailing : Throughout Trailing where
  still s := trailing_of_host rfl
  append {s t u l l' _} (h : Host.Along s.host _ t.host) (h' : Host.Along t.host _ u.host) := by
    unfold Trailing hostCalls
    rw [List.flatMap_append, List.map_append]
    exact h.append h'
  beside hx s := trailing_of_host (hx.keeps s).host
  define {s _ linked _} _ := trailing_of_host (Action.keeps_unspent_define linked s).host
  build m s := trailing_run _ (congrArg Setting.host (Action.ending_instance? m s))
  call address signature args s := by
    obtain ⟨code, hcode⟩ := Action.ending_engage address signature args s
    exact trailing_run _ (congrArg Setting.host hcode)
  rebuilt h := trailing_rebuild h rfl
  restored h := trailing_rebuild h rfl
  registerImport o s := trailing_of_host (Action.keeps_unspent_registerImport o s).host
  putOff h := trailing_rebuild h rfl

/-- **The hosts that the calls of an operation meet come one after the other**, from the host before
it to the one after it. -/
theorem trail_after (s : Setting) (o : Operation) :
    Host.Along s.host ((hostCalls (s.runs o)).map HostCall.host) (s.after o).host := by
  cases hamends : o.amends with
  | false => exact throughout_trailing.perform hamends s
  | true =>
    cases o with
    | amendStatistics f => exact .last (Std.Refl.refl s.host)
    | amendContext f => exact .last (Std.Refl.refl s.host)
    | _ => cases hamends

/-! ## Runs that fail -/

/-- What an operation answers when the engine has failed it with an error of the registry. -/
def Task.failure (e : RegistryError) : Task → RuntimeError
  | .build _ => .instantiation (Stop.registry e).message
  | .call _ _ _ => .registry e

/-- The run has failed with an error of the registry. -/
def EngineRun.FailsWith (run : EngineRun) (e : RegistryError) : Prop :=
  run.outcome = .error (.registry e)

/-- A run that fails with an error of the registry is the last one, and the answer says so. -/
def Ends (runs : List EngineRun) (r : Except RuntimeError Unit) : Prop :=
  ∀ run ∈ runs, ∀ e, run.FailsWith e →
    runs.getLast? = some run ∧ r = .error (run.task.failure e)

namespace Ends

theorem nil (r : Except RuntimeError Unit) : Ends [] r := by
  intro run hrun
  cases hrun

protected theorem append {l l' : List EngineRun} {r : Except RuntimeError Unit}
    (h : Ends l (.ok ())) (h' : Ends l' r) : Ends (l ++ l') r := by
  intro run hrun e he
  rcases List.mem_append.mp hrun with hrun | hrun
  · cases (h run hrun e he).2
  · obtain ⟨hlast, hr⟩ := h' run hrun e he
    exact ⟨List.mem_getLast?_append_of_mem_getLast? hlast, hr⟩

protected theorem again {l : List EngineRun} {r : Except RuntimeError Unit} (h : Ends l r) :
    Ends (l.map EngineRun.again) r := by
  intro run hrun e he
  obtain ⟨run, hmem, rfl⟩ := List.mem_map.mp hrun
  obtain ⟨hlast, hr⟩ := h run hmem e he
  refine ⟨?_, hr⟩
  rw [List.getLast?_map, hlast]
  rfl

theorem singleton {run : EngineRun} {r : Except RuntimeError Unit}
    (h : ∀ e, run.FailsWith e → r = .error (run.task.failure e)) : Ends [run] r := by
  intro other hother e he
  cases List.mem_singleton.mp hother
  exact ⟨rfl, h e he⟩

end Ends

/-- A computation that fails when its answer is left out fails with the same. -/
theorem outcome_of_succeeded {α : Type} {r : Except Stop α} {stop : Stop}
    (h : succeeded r = .error stop) : r = .error stop := by
  cases r with
  | ok a => cases h
  | error e =>
    cases h
    rfl

theorem accountable_ends : Accountable fun _ runs r _ => Ends runs r where
  still _ := .nil _
  append := Ends.append
  beside _ _ := .nil _
  define _ := .nil _
  build m s := Ends.singleton fun e he => by
    have hfails := outcome_of_succeeded ((Action.outcome_build_eq m s).symm.trans he)
    unfold outcome
    rw [Action.run_instance?_eq, hfails]
    rfl
  call address signature args s := Ends.singleton fun e he => by
    have hfails := outcome_of_succeeded
      ((Action.outcome_call_eq address signature args s).symm.trans he)
    unfold outcome
    rw [Action.run_engage, hfails]
    rfl
  rebuilt := Ends.again
  restored := Ends.again

/-! ## Letting go of the main module -/

namespace Noted

variable {s : Setting}

/-- What holds of the chronicle of an operation holds of the operation. -/
theorem perform_post {o : Operation}
    {P : Except RuntimeError Unit → Setting × List EngineRun → Prop}
    (h : Post (perform o) (s, []) P) : P (s.answer o) (s.after o, s.runs o) := by
  obtain ⟨houtcome, hending⟩ := (erases_perform o).outcome_ending (s := s) (t := (s, [])) rfl
  have hanswer : s.answer o = outcome (perform o) (s, []) := houtcome
  have hafter : (s.after o, s.runs o) = ending (perform o) (s, []) := Prod.ext hending.symm rfl
  rw [hanswer, hafter]
  exact h

theorem run_reset : EStateM.run reset (s, []) = .ok () (s.after .cleanup, s.runs .cleanup) := by
  obtain ⟨p, hp, -⟩ := erases_reset.ok (s := s) (t := (s, [])) rfl (Action.run_reset s)
  have hpost := perform_post (o := .cleanup) (Post.of_ok (P := fun _ q => q = p) hp rfl)
  rw [hpost]
  exact hp

/-- Taking up the main module is no work of the engine. -/
theorem load_post (source : Source) :
    Post (load source) (s, []) fun _ p => p.2 = s.runs .cleanup := by
  refine Post.bind (fun _ p hp => ?_) fun e p hp => nomatch run_reset.symm.trans hp
  cases run_reset.symm.trans hp
  have htakeUp := run_quietly (x := Action.takeUp source) (s := s.after .cleanup) (s.runs .cleanup)
  cases hrun : EStateM.run (Action.takeUp source) (s.after .cleanup) with
  | ok a t =>
    rw [hrun] at htakeUp
    exact Post.of_ok htakeUp rfl
  | error e t =>
    rw [hrun] at htakeUp
    exact Post.of_error htakeUp rfl

/-- The part of a whole run after the module has been loaded ends as its runs do. -/
theorem run_post (source : Source) (name : String) (args : List Value) :
    Post (run source name args) (s, []) fun r p =>
      ∃ later, p.2 = s.runs .cleanup ++ later ∧ Ends later (succeeded r) := by
  refine Post.bind (fun _ p hp => ?_) fun e p hp => ?_
  · have hload : p.2 = s.runs .cleanup := (load_post source).ok hp
    rw [← hload]
    exact accountable_ends.recountable.tells_runLoaded name args p.1 p.2
  · have hload : p.2 = s.runs .cleanup := (load_post source).error hp
    exact ⟨[], by rw [hload, List.append_nil], .nil _⟩

end Noted

/-- **What an operation answers**, unless it is about the rebuild that it begins with: the first run
that fails with an error of the registry is the last one, and the operation fails as this task
does. -/
theorem ends_after (s : Setting) (o : Operation) :
    ∃ later, s.runs o = (if o.replaces then s.runs .cleanup else []) ++ later ∧
      Ends later (s.answer o) := by
  cases hreplaces : o.replaces with
  | false =>
    refine ⟨s.runs o, rfl, ?_⟩
    cases hamends : o.amends with
    | false =>
      refine accountable_ends.recountable.perform hamends (fun _ _ _ => .nil _) (fun h => ?_) s
      cases hreplaces.symm.trans h
    | true =>
      cases o with
      | amendStatistics f => exact .nil _
      | amendContext f => exact .nil _
      | _ => cases hamends
  | true =>
    cases o with
    | cleanup => exact ⟨[], (List.append_nil _).symm, .nil _⟩
    | load source =>
      have hload : s.runs (.load source) = s.runs .cleanup :=
        Noted.perform_post (o := .load source) (Noted.load_post source)
      exact ⟨[], hload.trans (List.append_nil _).symm, .nil _⟩
    | run source name args =>
      have hrun := Noted.run_post source name args (s := s)
      refine Noted.perform_post (o := .run source name args) (P := fun r p =>
        ∃ later, p.2 = s.runs .cleanup ++ later ∧ Ends later r) ?_
      exact Post.bind (fun _ p hp => Post.of_ok rfl (hrun.ok hp)) fun e p hp => hrun.error hp
    | _ => cases hreplaces

/-- What an operation that lets go of the main module does after that. -/
def Operation.sequel : Operation → Action Unit
  | .load source => Action.takeUp source
  | .run source name args => do
    Action.takeUp source
    Action.validate
    Action.instantiate
    let _ ← Action.execute name args
  | _ => pure ()

/-- **Whether or not a rebuild has been put off, the operation goes on.** -/
theorem run_perform_of_replaces {o : Operation} (h : o.replaces = true) (s : Setting) :
    EStateM.run o.perform s = EStateM.run o.sequel (s.after .cleanup) := by
  have hreset : EStateM.run Action.reset s = .ok () (s.after .cleanup) := by
    have hrun := Action.run_reset s
    rw [hrun]
    exact congrArg _ (ending_of_ok hrun).symm
  have hload : ∀ source, EStateM.run (Action.load source) s =
      EStateM.run (Action.takeUp source) (s.after .cleanup) := fun source => run_bind_of_ok hreset
  cases o with
  | load source => exact hload source
  | cleanup => exact hreset
  | run source name args =>
    change EStateM.run ((Action.load source >>= fun _ => Action.validate >>= fun _ =>
      Action.instantiate >>= fun _ => Action.execute name args) >>= fun _ => pure ()) s = _
    simp only [bind_assoc]
    rw [EStateM.run_bind, hload, Operation.sequel, EStateM.run_bind]
  | _ => cases h

/-- Nothing comes after a run that fails in letting go of the main module, and the machine has let
go of it and spent fuel at most. -/
theorem reset_of_failed {s : Setting} {run : EngineRun} (hrun : run ∈ s.runs .cleanup)
    {e : RegistryError} (he : run.FailsWith e) :
    (s.runs .cleanup).getLast? = some run ∧ s.vm.stale = true ∧
      (s.after .cleanup).vm =
        { Action.cleared s.vm with statistics := (s.after .cleanup).vm.statistics } := by
  have hreset : EStateM.run Noted.reset (s, []) =
      EStateM.run (if s.vm.stale then tryCatch Noted.rebuild fun _ => pure () else pure ())
        (⟨Action.cleared s.vm, s.host⟩, []) := rfl
  rw [Noted.run_reset] at hreset
  generalize s.runs .cleanup = runs, s.after .cleanup = t at hrun hreset ⊢
  split at hreset
  · rename_i hstale
    rw [run_tryCatch] at hreset
    have hpost := accountable_ends.recountable.rebuild_post ⟨Action.cleared s.vm, s.host⟩ []
    cases hrebuild : EStateM.run Noted.rebuild (⟨Action.cleared s.vm, s.host⟩, []) with
    | ok _ p =>
      rw [hrebuild] at hreset
      cases hreset
      obtain ⟨new, rfl, hends⟩ := hpost.ok hrebuild
      cases (hends run hrun e he).2
    | error d p =>
      rw [hrebuild] at hreset
      cases hreset
      obtain ⟨new, rfl, u, hends, -⟩ := hpost.error hrebuild
      refine ⟨(hends.again run hrun e he).1, hstale, ?_⟩
      -- The rebuild itself puts the old store and its links back.
      have herases := Noted.erases_rebuild.outcome_ending
        (s := ⟨Action.cleared s.vm, s.host⟩) (t := (⟨Action.cleared s.vm, s.host⟩, [])) rfl
      rw [outcome_of_error hrebuild, ending_of_error hrebuild] at herases
      have hrestored := Action.rebuild_post ⟨Action.cleared s.vm, s.host⟩
      unfold Post at hrestored
      rw [herases.1, ← herases.2] at hrestored
      exact hrestored.1
  · cases hreset
    cases hrun

/-- An operation that lets go of the main module has put off the rebuild in which a run has failed:
the old store and its links are in place, the machine is as stale as before, and the operation goes
on. -/
structure PutOff (s : Setting) (o : Operation) (run : EngineRun) : Prop where
  replaces : o.replaces = true
  last : (s.runs .cleanup).getLast? = some run
  stale : s.vm.stale = true
  kept : (s.after .cleanup).vm =
    { Action.cleared s.vm with statistics := (s.after .cleanup).vm.statistics }
  goesOn : EStateM.run o.perform s = EStateM.run o.sequel (s.after .cleanup)

/-- **What comes of a run that fails with an error of the registry.** -/
theorem failed_run {s : Setting} {o : Operation} {run : EngineRun} (hrun : run ∈ s.runs o)
    {e : RegistryError} (he : run.FailsWith e) :
    PutOff s o run ∨
      (s.runs o).getLast? = some run ∧ s.answer o = .error (run.task.failure e) := by
  obtain ⟨later, hruns, hends⟩ := ends_after s o
  rw [hruns] at hrun ⊢
  rcases List.mem_append.mp hrun with hrun | hrun
  · split at hrun
    · rename_i hreplaces
      obtain ⟨hlast, hstale, hkept⟩ := reset_of_failed hrun he
      exact .inl ⟨hreplaces, hlast, hstale, hkept, run_perform_of_replaces hreplaces s⟩
    · cases hrun
  · obtain ⟨hlast, hanswer⟩ := hends run hrun e he
    exact .inr ⟨List.mem_getLast?_append_of_mem_getLast? hlast, hanswer⟩

/-! ## Calls of numbers that objects have been given -/

/-- A call runs no body and changes nothing.  The run ends with it and fails, and so does the
operation, unless the run belongs to a rebuild that is put off. -/
structure Refused (s : Setting) (o : Operation) (run : EngineRun) (c : HostCall) : Prop where
  call : EStateM.run c.perform c.machine =
    .error (.registry (.unknownHostFunction c.id.val)) c.machine
  last : run.calls.getLast? = some c
  fails : run.FailsWith (.unknownHostFunction c.id.val)
  operation : PutOff s o run ∨ (s.runs o).getLast? = some run ∧
    s.answer o = .error (run.task.failure (.unknownHostFunction c.id.val))

section Calls

variable {s : Setting} {grants : List Host.Grant} {o : Operation} {run : EngineRun} {c : HostCall}

theorem leads_call (hrun : run ∈ s.runs o) (hc : c ∈ run.calls) : Host.Leads s.host c.host :=
  (trail_after s o).leads_of_mem (List.mem_map_of_mem (List.mem_flatMap_of_mem hrun hc))

variable (H : Host.Owned s.host grants) {g : Host.Grant} (hg : g ∈ grants) {name : String}
  (hrun : run ∈ s.runs o) (hc : c ∈ run.calls) (hid : c.id = g.id)

include H hg hrun hc hid

/-- A call of a number that its object offers runs the body that was added, with the data of the
object. -/
theorem call_of_offers (hoffers : c.host.Offers name g.id) :
    EStateM.run c.perform c.machine = EStateM.run (c.serve g.entry.2) c.machine := by
  obtain ⟨more, hmore⟩ := leads_call hrun hc
  have hholds := (H.proceeds hmore).holds
  refine HostCall.run_of_live ?_
  rw [hid]
  exact hholds.lookup_of_offers (List.mem_append_left _ hg) hoffers

/-- A call of a number that its object has let go of is refused. -/
theorem refused_of_not_offers (hname : g.object = some name)
    (hoffers : ¬ c.host.Offers name g.id) : Refused s o run c := by
  obtain ⟨more, hmore⟩ := leads_call hrun hc
  have hholds := (H.proceeds hmore).holds
  have hlookup := hholds.lookup_of_not_offers (List.mem_append_left _ hg) hname hoffers
  rw [← hid] at hlookup
  have hperform := HostCall.run_of_dead hlookup
  obtain ⟨hlast, hfails, -⟩ := run.told witnessed_fatal c hc _ _ hperform
  exact ⟨hperform, hlast, hfails, failed_run hrun hfails⟩

end Calls

end WasmEmbedding.Vm
