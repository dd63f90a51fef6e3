import WasmEmbedding.Proofs.Vm.Foreign
import WasmEmbedding.Proofs.Vm.Stores

/-! # Function references

What a call answers are references of the store that the machine has then (`store_of_gives`), and
whoever has called may keep them while machines let go of their stores, get new ones or get their
old ones back.  Code looks at nothing but the address in a reference, so a reference must not get
into a machine with another store, where the address is that of another function or of none.

It does not (`function_references`): a reference means what it has meant as long as the machine that
has answered it has the store (`Honours.kept`), and from then on no machine lets it in
(`Honours.rejected`), nor does any run on its way (`EngineRun.Rejects`).
-/
namespace WasmEmbedding

open Chronicle Engine Wasm

namespace Vm

/-! ## References that are given out -/

/-- The values that an operation answers. -/
def Operation.values : Operation → Action (List Value)
  | .execute name args => Action.execute name args
  | .executeRegistered moduleName name args => Action.executeRegistered moduleName name args
  | .run source name args => Action.run source name args
  | _ => pure []

/-- The operation answers the reference. -/
def Setting.Gives (s : Setting) (o : Operation) (ref : FuncRef) : Prop :=
  ∃ vs, outcome o.values s = .ok vs ∧ .funcRef (some ref) ∈ vs

/-- A call answers references of the store that it leaves. -/
theorem Call.store_of_answer {s : Setting} (h : s.vm.Orderly) {k : Call} {vs : List Value}
    (hvs : outcome k.action s = .ok vs) {ref : FuncRef} (hmem : .funcRef (some ref) ∈ vs) :
    ref.store = (ending k.action s).vm.store.id := by
  have hid : (ending k.action s).vm.store.id = s.vm.store.id := by
    cases k with
    | main name args => exact (Action.keeps_execute name args s).code.id
    | registered moduleName name args =>
      exact (Action.keeps_executeRegistered moduleName name args s).code.id
  rw [hid]
  exact Operand.belongsTo_eq_true.mp (k.belongs_of_answer h hvs _ hmem) ref rfl

namespace Action

/-- The part of a whole run before the call. -/
def start? (source : Source) : Action Unit := do
  load source
  validate
  instantiate

theorem run_eq (source : Source) (name : String) (args : List Value) :
    run source name args = start? source >>= fun _ => execute name args := by
  unfold run start?
  simp only [bind_assoc]

end Action

/-- What starting a main module leaves. -/
def Setting.started (s : Setting) (source : Source) : Setting :=
  ((s.after (.load source)).after .validate).after .instantiate

theorem started_of_ok {s t : Setting} {source : Source}
    (h : EStateM.run (Action.start? source) s = .ok () t) : t = s.started source := by
  obtain ⟨_, u, hload, hrest⟩ := run_bind_eq_ok.mp h
  obtain ⟨_, v, hvalidate, hinstantiate⟩ := run_bind_eq_ok.mp hrest
  have hu : s.after (.load source) = u := ending_of_ok hload
  have hv : u.after .validate = v := ending_of_ok hvalidate
  have ht : v.after .instantiate = t := ending_of_ok hinstantiate
  rw [Setting.started, hu, hv, ht]

theorem carries_started (s : Setting) (source : Source) : Carries s (s.started source) :=
  IsTrans.trans _ _ _ (conveys_after s _).1
    (IsTrans.trans _ _ _ (conveys_after _ _).1 (conveys_after _ _).1)

theorem orderly_started {s : Setting} (h : s.vm.Orderly) (source : Source) :
    (s.started source).vm.Orderly :=
  (orders_after _ _).2.1 ((orders_after _ _).2.1 ((orders_after s _).2.1 h))

/-- **What an operation answers are references of the store that it leaves.** -/
theorem store_of_gives {s : Setting} (h : s.vm.Orderly) {o : Operation} {ref : FuncRef}
    (hgives : s.Gives o ref) : ref.store = (s.after o).vm.store.id := by
  obtain ⟨vs, hvs, hmem⟩ := hgives
  cases o with
  | execute name args =>
    rw [Setting.after, Operation.perform, ending_discard]
    exact Call.store_of_answer (k := .main name args) h hvs hmem
  | executeRegistered moduleName name args =>
    rw [Setting.after, Operation.perform, ending_discard]
    exact Call.store_of_answer (k := .registered moduleName name args) h hvs hmem
  | run source name args =>
    rw [Setting.after, Operation.perform, ending_discard]
    cases hrun : EStateM.run (Action.run source name args) s with
    | error e t => cases (outcome_of_error hrun).symm.trans hvs
    | ok values t =>
      cases (outcome_of_ok hrun).symm.trans hvs
      rw [ending_of_ok hrun]
      rw [Action.run_eq] at hrun
      obtain ⟨_, u, hstart, hcall⟩ := run_bind_eq_ok.mp hrun
      have hu : u.vm.Orderly := started_of_ok hstart ▸ orderly_started h source
      rw [← ending_of_ok hcall]
      exact Call.store_of_answer (k := .main name args) hu (outcome_of_ok hcall) hmem
  | _ =>
    cases hvs
    cases hmem

/-! ## References that are taken back -/

/-- A run does not come by a reference of another store. -/
structure EngineRun.Rejects (run : EngineRun) (ref : FuncRef) : Prop where
  /-- At every moment the references in the machine are of the run's store. -/
  moments : ∀ n, (run.moment n).Orderly run.store run.setting.vm.config.engine.maxMemoryBytes
  /-- A host function that returns the reference is the last thing that the run comes to, and fails
  it. -/
  returns : ∀ c ∈ run.calls, ∀ b ∈ c.bodies, ∀ returned t,
    EStateM.run b.perform b.machine = .ok returned t → .funcRef (some ref) ∈ returned →
    ∃ stop, Bars (returned.map Value.kind = c.signature.returns ∧ Writable t.store.heap returned)
        stop ∧
      run.calls.getLast? = some c ∧ run.outcome = .error stop ∧ run.ending = t

theorem EngineRun.rejects {run : EngineRun} (h : run.setting.vm.Orderly) {ref : FuncRef}
    (hne : ref.store ≠ run.store) : run.Rejects ref where
  moments := EngineRun.orderly_moment h
  returns c hc b hb returned t hbody hmem := by
    obtain ⟨stop, hbars, hperform⟩ := EngineRun.perform_of_foreign hc hb hbody ⟨ref, hmem, hne⟩
    exact ⟨stop, hbars, run.told witnessed_fatal c hc _ _ hperform⟩

/-- A reference that was given out when its store had this code means what it meant, or it does not
get into the machine. -/
structure Honours (origin : Code) (ref : FuncRef) (s : Setting) : Prop where
  /-- Every function and every instance is at its address, and so is what the reference stands
  for. -/
  kept : ref.store = s.vm.store.id → origin.Extends s.vm.store.code
  rejected : ref.store ≠ s.vm.store.id → Rejects s ref

/-- It is so on a store that is kept or replaced. -/
theorem Honours.carries {origin : Code} {ref : FuncRef} {s t : Setting} (h : Honours origin ref s)
    (hgiven : ref.store.val < s.host.stores) (hst : Carries s t) (ht : t.vm.Orderly) :
    Honours origin ref t := by
  refine ⟨fun hid => ?_, rejects ht⟩
  rcases hst.store with hcode | ⟨hle, -⟩
  · have hsame : t.vm.store.id = s.vm.store.id := hcode.id
    exact IsTrans.trans _ _ _ (h.kept (hid.trans hsame)) hcode
  · rw [← hid] at hle
    exact absurd hgiven (Nat.not_lt_of_le hle)

/-- What becomes of a reference in a machine, whatever is done with the machine. -/
structure Heeds (origin : Code) (ref : FuncRef) (s : Setting) : Prop extends
    Honours origin ref s where
  /-- A whole run is a call on the store that its main module is started on. -/
  run : ∀ source, Honours origin ref (s.started source) ∧ ∀ name args,
    EStateM.run (Action.run source name args) s =
      match EStateM.run (Action.start? source) s with
      | .ok _ _ => EStateM.run (Action.execute name args) (s.started source)
      | .error e t => .error e t
  /-- So it is in every run of the engine, among them the ones in which modules are instantiated,
  once more or for the first time. -/
  runs : ∀ o, ∀ run ∈ s.runs o, Honours origin ref run.setting ∧
    (ref.store ≠ run.store → run.Rejects ref)
  /-- A rebuild that succeeds is the end of the reference, and one that fails is not. -/
  rebuild : Post Action.rebuild s fun r t => Honours origin ref t ∧
    match r with
    | .ok _ => ref.store ≠ t.vm.store.id
    | .error _ => t.vm.store = s.vm.store

/-- A whole run is a call on the machine that starting the main module leaves. -/
theorem run_run (source : Source) (name : String) (args : List Value) (s : Setting) :
    EStateM.run (Action.run source name args) s =
      match EStateM.run (Action.start? source) s with
      | .ok _ _ => EStateM.run (Action.execute name args) (s.started source)
      | .error e t => .error e t := by
  rw [Action.run_eq]
  cases hrun : EStateM.run (Action.start? source) s with
  | error e t => exact run_bind_of_error hrun
  | ok _ t => exact started_of_ok hrun ▸ run_bind_of_ok hrun

/-- A rebuild that succeeds leaves a new store. -/
theorem store_of_rebuilt {s t : Setting} (h : EStateM.run Action.rebuild s = .ok () t) :
    s.host.stores ≤ t.vm.store.id.val := by
  rw [Action.run_rebuild] at h
  have hall := throughout_conveys.recountable.tells_replayAll.events Noted.erases_replayAll
    (Action.blank s)
  cases hreplay : EStateM.run Action.replayAll (Action.blank s) with
  | error e u =>
    rw [hreplay] at h
    cases h
  | ok _ u =>
    rw [hreplay] at h
    rw [ending_of_ok hreplay] at hall
    cases h
    rcases hall.1.store with hcode | ⟨hle, -⟩
    · have hid : u.vm.store.id = s.host.newStore.1 := hcode.id
      exact Nat.le_of_eq (congrArg StoreId.val hid.symm)
    · exact Nat.le_of_succ_le hle

/-- One that fails leaves the old store. -/
theorem store_of_restored {s t : Setting} {e : RuntimeError}
    (h : EStateM.run Action.rebuild s = .error e t) : t.vm.store = s.vm.store := by
  rw [Action.run_rebuild] at h
  cases hreplay : EStateM.run Action.replayAll (Action.blank s) with
  | ok _ u =>
    rw [hreplay] at h
    cases h
  | error e u =>
    rw [hreplay] at h
    cases h
    rfl

/-- A machine that honours a reference goes on to, in all that it does. -/
theorem Honours.heeds {origin : Code} {ref : FuncRef} {s : Setting} (h : Honours origin ref s)
    (hs : s.vm.Orderly) (hgiven : ref.store.val < s.host.stores) : Heeds origin ref s where
  toHonours := h
  run source := ⟨h.carries hgiven (carries_started s source) (orderly_started hs source),
    fun name args => run_run source name args s⟩
  runs o run hrun := by
    have horderly := ((orders_after s o).2.2 run hrun).2 hs
    exact ⟨h.carries hgiven ((conveys_after s o).2 run hrun) horderly, EngineRun.rejects horderly⟩
  rebuild := by
    have hconveys := throughout_conveys.recountable.tells_rebuild.events Noted.erases_rebuild s
    have horders := throughout_orders.recountable.tells_rebuild.events Noted.erases_rebuild s
    refine ⟨h.carries hgiven hconveys.1 (horders.2.1 hs), ?_⟩
    cases hrun : EStateM.run Action.rebuild s with
    | ok _ t =>
      rw [outcome_of_ok hrun, ending_of_ok hrun]
      intro hid
      rw [hid] at hgiven
      exact absurd hgiven (Nat.not_lt_of_le (store_of_rebuilt hrun))
    | error e t =>
      rw [outcome_of_error hrun, ending_of_error hrun]
      exact store_of_restored hrun

end Vm

namespace World

/-- The world in which a machine and the host are in another setting. -/
def put (w : World) (i : Nat) (s : Vm.Setting) : World := ⟨s.host, w.vms.set i s.vm⟩

/-- A machine has answered the reference, in an operation or in a run with data. -/
inductive Gives (w : World) (i : Nat) (ref : FuncRef) : World → Prop
  | operate {vm : Vm} (hvm : w.vms[i]? = some vm) {o : Vm.Operation}
      (h : Vm.Setting.Gives ⟨vm, w.host⟩ o ref) : Gives w i ref (w.operate i vm o)
  | runWithData {vm : Vm} (hvm : w.vms[i]? = some vm) {source : Source} {name : String}
      {data : List UInt8} {args envs preopens : List String} {params vs : List Value}
      (h : outcome (Vm.Action.runWithData source name data args envs preopens params)
        ⟨vm, w.host⟩ = .ok vs) (hmem : .funcRef (some ref) ∈ vs) :
      Gives w i ref (w.put i (ending
        (Vm.Action.runWithData source name data args envs preopens params) ⟨vm, w.host⟩))

variable {w v : World} {i : Nat} {ref : FuncRef}

/-- The reference comes from an operation. -/
theorem Gives.operation (h : w.Gives i ref v) : ∃ u vm o, Comes w u ∧ u.vms[i]? = some vm ∧
    Vm.Setting.Gives ⟨vm, u.host⟩ o ref ∧ Comes (u.operate i vm o) v ∧
    v.vms[i]? = (u.operate i vm o).vms[i]? := by
  cases h with
  | operate hvm h => exact ⟨w, _, _, .refl, hvm, h, .refl, rfl⟩
  | @runWithData vm hvm source name data args envs preopens params vs h hmem =>
    have hpost := Vm.runWithData_post source name data args envs preopens params ⟨vm, w.host⟩
    unfold Post at hpost
    rw [h] at hpost
    generalize ending (Vm.Action.runWithData source name data args envs preopens params)
      ⟨vm, w.host⟩ = t at hpost ⊢
    obtain ⟨u, host⟩ := t
    rcases hpost with ⟨e, -, he, -⟩ | ⟨before, hsupplied, hrun, rfl, hafter⟩
    · cases he
    · refine ⟨⟨before, w.vms⟩, vm, .run source name params, ?_, hvm, ⟨vs, hrun.symm, hmem⟩, ?_, rfl⟩
      · exact .single (.elsewhere (Nat.le_of_eq (Vm.Setting.stores_of_supplied hsupplied).symm))
      · exact .single (.elsewhere (Nat.le_of_eq hafter.symm))

/-- **A function reference is good for its store, and nowhere else.**  Whatever has been done in the
world since a machine has answered a reference: a machine that has the store of the reference is
this machine, and the store has all that was in it in the same place, so that the reference stands
for the same function.  To any other machine, and to this one on another store, the reference does
not get: a call with it fails before anything is run, an import object with it is not registered,
and a host function that returns it ends the call.  What the caller is told is a trap of no kind, or
that the import is incompatible, unless the call or the object is refused for other reasons.  It is
the same for the call in a whole run, once the main module has been started, and for every run of
the engine in an operation.  A rebuild that fails leaves the reference good, and after one that
succeeds it is not. -/
theorem function_references {h : Host} {w w' v : World} {i j : Nat} {ref : FuncRef} {u : Vm}
    (hw : Comes ⟨h, []⟩ w) (hgives : w.Gives i ref w') (hv : Comes w' v)
    (hu : v.vms[j]? = some u) : ∃ vm, w'.vms[i]? = some vm ∧ ref.store = vm.store.id ∧
      (ref.store = u.store.id → j = i) ∧ Vm.Heeds vm.store.code ref ⟨u, v.host⟩ := by
  obtain ⟨x, vm, o, hx, hvm, hanswer, hw', hsame⟩ := hgives.operation
  have hxapart : x.Apart := (Apart.nil h).comes (hw.trans hx)
  have hstore := Vm.store_of_gives (hxapart.orderly i vm hvm) hanswer
  have hself : w'.vms[i]? = some (Vm.Setting.after ⟨vm, x.host⟩ o).vm :=
    hsame.trans (List.getElem?_set_self (List.getElem?_eq_some_iff.mp hvm).1)
  have hturn : Comes x (x.operate i vm o) := .single (.operate hvm o)
  have hapart : w'.Apart := hxapart.comes (hturn.trans hw')
  have hplaces := (Places.of_apart hapart hself).comes hv
  refine ⟨_, hself, hstore, fun hid => ?_, ?_⟩
  · exact (hplaces.placed j u hu (hid.symm.trans hstore)).1
  · have horderly := (hapart.comes hv).orderly j u hu
    have hhonours : Vm.Honours _ ref ⟨u, v.host⟩ :=
      ⟨fun hid => (hplaces.placed j u hu (hid.symm.trans hstore)).2, Vm.rejects horderly⟩
    have hgiven : ref.store.val < v.host.stores := by
      rw [hstore]
      exact hplaces.given
    exact hhonours.heeds horderly hgiven

/-! ## A reference that outlives its store -/

/-- The world with one machine. -/
def lone (s : Vm.Setting) : World := ⟨s.host, [s.vm]⟩

theorem comes_lone {w : World} {s : Vm.Setting} (h : Comes w (lone s)) (o : Vm.Operation) :
    Comes w (lone (s.after o)) :=
  h.tail (.operate (i := 0) rfl o)

/-- The bytes of a module with a function that takes a reference and answers one to itself. -/
def selfishBytes : List UInt8 :=
  Vm.emptyBytes ++ [1, 6, 1, 0x60, 1, 0x70, 1, 0x70] ++ [3, 2, 1, 0] ++
    [7, 5, 1, 1, 0x66, 0, 0] ++ [10, 6, 1, 4, 0, 0xd2, 0, 0x0b]

/-- A setting after the module has been loaded and instantiated. -/
def selfish (s : Vm.Setting) : Vm.Setting :=
  (s.after (.load (.bytes selfishBytes))).after .instantiate

/-- A new machine with the module. -/
def early : Vm.Setting := selfish ⟨Vm.empty {} ⟨0⟩, (Host.newStore {}).2⟩

/-- The machine after it has answered the reference. -/
def lent : Vm.Setting := early.after (.execute "f" [.funcRef none])

/-- The reference. -/
def lentRef : FuncRef := ⟨⟨0⟩, 0⟩

/-- The machine with the module on another store. -/
def late : Vm.Setting := selfish (lent.after .cleanup)

theorem gives_early : Vm.Setting.Gives early (.execute "f" [.funcRef none]) lentRef :=
  ⟨[.funcRef (some lentRef)], by decide +kernel, List.mem_singleton_self _⟩

theorem comes_early : Comes ⟨{}, []⟩ (lone early) := by
  have hnew : Vm.new {} {} = (.ok (Vm.empty {} ⟨0⟩), (Host.newStore {}).2) := rfl
  exact comes_lone (comes_lone (.single (.new hnew)) _) _

/-- The reference is refused on the other store, which has a function at the same address. -/
theorem function_references_late :
    (lone early).Gives 0 lentRef (lone lent) ∧ Comes (lone lent) (lone late) ∧
      (late.vm.store.functions[lentRef.index]?).isSome ∧ lentRef.store ≠ late.vm.store.id ∧
      ∃ message, outcome (Vm.Action.execute "f" [.funcRef (some lentRef)]) late =
        .error (.execution (.trap message none)) := by
  have hgives : (lone early).Gives 0 lentRef (lone lent) := .operate rfl gives_early
  have hlate : Comes (lone lent) (lone late) :=
    comes_lone (comes_lone (comes_lone .refl .cleanup) _) _
  have hne : lentRef.store ≠ late.vm.store.id := by decide +kernel
  obtain ⟨_, -, -, -, hheeds⟩ := function_references comes_early hgives hlate
    (j := 0) (u := late.vm) rfl
  have hbounces := (hheeds.rejected hne).calls (.main "f" [.funcRef (some lentRef)])
    (List.mem_singleton_self _)
  have hadmitted : (Vm.Call.main "f" [.funcRef (some lentRef)]).Admitted late.vm 0
      ⟨[.funcRef], [.funcRef]⟩ := ⟨by decide +kernel, by decide +kernel, by decide +kernel, rfl⟩
  exact ⟨hgives, hlate, by decide +kernel, hne, hbounces.trap 0 _ hadmitted ⟨_, rfl⟩⟩

/-- If there is no instance to call, the call does not get as far as to the reference, and what the
caller is told is not a trap. -/
theorem reference_unseen :
    Comes ⟨{}, []⟩ (lone early) ∧ early.Gives (.execute "f" [.funcRef none]) lentRef ∧
      lentRef.store ≠ (lent.after .cleanup).vm.store.id ∧
      outcome (Vm.Action.execute "f" [.funcRef (some lentRef)]) (lent.after .cleanup) =
        .error (.execution .notInstantiated) ∧
      ∀ message, outcome (Vm.Action.execute "f" [.funcRef (some lentRef)]) (lent.after .cleanup) ≠
        .error (.execution (.trap message none)) := by
  have hanswer : outcome (Vm.Action.execute "f" [.funcRef (some lentRef)]) (lent.after .cleanup) =
      .error (.execution .notInstantiated) := by decide +kernel
  refine ⟨comes_early, gives_early, by decide +kernel, hanswer, fun message htrap => ?_⟩
  cases hanswer.symm.trans htrap

end World

end WasmEmbedding
