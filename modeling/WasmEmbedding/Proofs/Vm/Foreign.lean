import WasmEmbedding.Proofs.Vm.Boundary
import WasmEmbedding.Proofs.Vm.Orderly

/-! # References of other stores

A function reference belongs to a store, and a machine has another store than it is of.  There are
three ways in for the reference: as an argument of a call, as what a host function returns, and as
the value of a global that is registered.  All three are closed (`rejects`), whatever else is going
on: the engine looks at the store of every reference that it is given.

So a call with such an argument stops before anything is run (`Call.bounces`), and a call in which
such a reference is returned ends there (`Call.returned_of_foreign`).  The owner is told of a trap
of no kind, unless there is something else about the values.
-/
namespace WasmEmbedding

open Chronicle Engine Wasm

/-! ## Values with a reference of another store -/

/-- What can be written as operands is. -/
theorem Value.eq_of_encode {heap : ExternHeap} {vs : List Value} {xs : List Operand}
    (h : Value.encode heap vs = .ok xs) : xs = vs.map Operand.ofValue := by
  have one : ∀ {v : Value} {x : Operand}, v.encodeOne heap = .ok x → x = Operand.ofValue v := by
    intro v x hx
    cases v with
    | externRef e =>
      cases e with
      | none => cases hx; rfl
      | some e => cases heap <;> cases hx; rfl
    | _ => cases hx; rfl
  induction vs generalizing xs with
  | nil =>
    cases h
    rfl
  | cons v vs ih =>
    rw [Value.encode, List.mapM_cons] at h
    obtain ⟨x, hx, h⟩ := bind_eq_ok_iff.mp h
    obtain ⟨rest, hrest, h⟩ := bind_eq_ok_iff.mp h
    cases h
    rw [List.map_cons, one hx, ih hrest]

namespace Engine

/-- The values have a reference of another store among them. -/
def Foreign (id : StoreId) (vs : List Value) : Prop :=
  ∃ r : FuncRef, .funcRef (some r) ∈ vs ∧ r.store ≠ id

theorem Foreign.belongsTo {id : StoreId} {vs : List Value} (h : Foreign id vs) :
    (vs.map Operand.ofValue).all (Operand.belongsTo id) = false := by
  obtain ⟨r, hmem, hne⟩ := h
  rw [List.all_eq_false]
  refine ⟨.func (some r), List.mem_map_of_mem hmem, fun hown => ?_⟩
  exact hne (Operand.belongsTo_eq_true.mp hown r rfl)

/-- The values can be written as operands. -/
def Writable (heap : ExternHeap) (vs : List Value) : Prop := ∃ xs, Value.encode heap vs = .ok xs

/-- What keeps such values out: there is something else about them, or the engine looks at the store
of the reference. -/
inductive Bars (sound : Prop) : Stop → Prop
  | value {e : ValueError} (h : ¬ sound) : Bars sound (.value e)
  | store (message : String) : Bars sound (.failure message)

/-! ## References that a host function returns -/

/-- The host functions that a run calls find its store. -/
theorem witnessed_store : Witnessed fun m calls _ t =>
    t.store.id = m.store.id ∧ ∀ c ∈ calls, c.machine.store.id = m.store.id where
  still _ := ⟨rfl, List.forall_mem_nil _⟩
  append {_ _ _ l l' _} h h' := by
    refine ⟨h'.1.trans h.1, fun c hc => ?_⟩
    rcases List.mem_append.mp hc with hc | hc
    · exact h.2 c hc
    · exact (h'.2 c hc).trans h.1
  within hx m := ⟨(hx.keeps m).store, List.forall_mem_nil _⟩
  callHost c := by
    have hcode : (ending c.perform c.machine).code = c.machine.code :=
      (Exec.steady_callHost (C := fun a => a.code = c.machine.code) _ _ _).keeps rfl
    exact ⟨congrArg Code.id hcode, List.forall_mem_singleton.mpr rfl⟩
  callSystem c args m := ⟨congrArg Code.id (Exec.keeps_callSystem c args m), List.forall_mem_nil _⟩

/-- Nor does the body. -/
theorem BodyRun.store_of_ok {b : BodyRun} {returned : List Value} {t : Machine}
    (h : EStateM.run b.perform b.machine = .ok returned t) : t.store.id = b.machine.store.id := by
  have hcode : (ending b.perform b.machine).code = b.machine.code :=
    (Exec.steady_answer (C := fun a => a.code = b.machine.code) _ _).keeps rfl
  rw [ending_of_ok h] at hcode
  exact congrArg Code.id hcode

/-- **A host function that returns a reference of another store fails.** -/
theorem HostCall.run_perform_of_foreign {c : HostCall} {b : BodyRun} (hb : b ∈ c.bodies)
    {returned : List Value} {t : Machine}
    (hbody : EStateM.run b.perform b.machine = .ok returned t)
    (h : Foreign t.store.id returned) :
    ∃ stop, Bars (returned.map Value.kind = c.signature.returns ∧ Writable t.store.heap returned)
      stop ∧ EStateM.run c.perform c.machine = .error stop t := by
  rw [(runs_of_mem hb).1.run_perform]
  have hrun : EStateM.run (c.round b) b.machine =
      EStateM.run (Exec.deliver c.signature returned) t := run_bind_of_ok hbody
  rw [hrun, Exec.run_deliver]
  cases hcheck : Value.check returned c.signature.returns with
  | error e =>
    refine ⟨.value e, .value fun hsound => ?_, rfl⟩
    cases hcheck.symm.trans (Value.check_eq_ok_iff.mpr hsound.1)
  | ok _ =>
    cases hencode : Value.encode t.store.heap returned with
    | error e =>
      refine ⟨.value e, .value fun ⟨_, _, hxs⟩ => ?_, rfl⟩
      cases hencode.symm.trans hxs
    | ok results =>
      refine ⟨_, .store "a host function returned a reference of another store", ?_⟩
      refine (run_bind_of_ok (t := t) rfl).trans ((run_bind_of_ok (t := t) rfl).trans ?_)
      rw [Value.eq_of_encode hencode, h.belongsTo]
      rfl

end Engine

namespace Vm

/-! ## References among the arguments of a call -/

namespace Action

/-- Such arguments do not get to the engine, whatever this would do with them. -/
theorem exchangeVia_of_foreign (engine : List Operand → Exec (List Operand))
    (signature : Signature) {m : Machine} {args : List Value} (h : Foreign m.store.id args) :
    ∃ stop, Bars (Writable m.store.heap args) stop ∧
      EStateM.run (exchangeVia engine signature args) m = .error stop m := by
  have hrun : EStateM.run (exchangeVia engine signature args) m =
      EStateM.run (Exec.ofValue (Value.encode m.store.heap args) >>= fun operands =>
        if operands.all (Operand.belongsTo m.store.id) then
          engine operands >>= fun results => Exec.ofValue (Operand.decode results signature.returns)
        else throw (.failure "an argument is a reference of another store")) m := rfl
  rw [hrun]
  cases hencode : Value.encode m.store.heap args with
  | error e =>
    refine ⟨.value e, .value fun ⟨_, hxs⟩ => ?_, rfl⟩
    cases hencode.symm.trans hxs
  | ok operands =>
    refine ⟨_, .store "an argument is a reference of another store", ?_⟩
    refine (run_bind_of_ok (t := m) rfl).trans ?_
    rw [Value.eq_of_encode hencode, h.belongsTo]
    rfl

/-- No host function is called either. -/
theorem run_toldExchange_of_foreign (address : Nat) (signature : Signature) {m : Machine}
    {args : List Value} (h : Foreign m.store.id args) :
    ∃ e, EStateM.run (Told.exchange address signature args) (m, []) = .error e (m, []) := by
  have hrun : EStateM.run (Told.exchange address signature args) (m, []) =
      EStateM.run (quietly (Exec.ofValue (Value.encode m.store.heap args)) >>= fun operands =>
        if operands.all (Operand.belongsTo m.store.id) then
          Told.invoke address operands >>= fun results =>
            quietly (Exec.ofValue (Operand.decode results signature.returns))
        else quietly (throw (.failure "an argument is a reference of another store")))
          (m, ([] : List HostCall)) := rfl
  rw [hrun]
  cases hencode : Value.encode m.store.heap args with
  | error e => exact ⟨.value e, rfl⟩
  | ok operands =>
    refine ⟨.failure "an argument is a reference of another store", ?_⟩
    refine (run_bind_of_ok (t := (m, [])) rfl).trans ?_
    rw [Value.eq_of_encode hencode, h.belongsTo]
    rfl

/-- What the owner of a machine is told. -/
theorem run_settle_of_bars {sound : Prop} {stop : Stop} (h : Bars sound stop)
    (signature : Signature) (s : Setting) :
    ∃ e, EStateM.run (settle signature stop) s = .error (.execution e) s ∧
      (sound → ∃ message, e = .trap message none) := by
  cases h with
  | value hunsound => exact ⟨_, rfl, fun hsound => absurd hsound hunsound⟩
  | store message => exact ⟨.trap message none, rfl, fun _ => ⟨message, rfl⟩⟩

end Action

/-- A call fails before the engine is let in: nothing is run, no host function is called, and store
and host are as they were. -/
structure Call.Bounces (s : Setting) (k : Call) : Prop where
  fails : ∃ e, outcome k.action s = .error (.execution e)
  store : (ending k.action s).vm.store = s.vm.store
  host : (ending k.action s).host = s.host
  idle : ∀ run ∈ s.runs k.operation, run.calls = [] ∧ ∀ n, run.moment n = run.machine
  /-- The error is a trap of no kind unless the call is refused for other reasons, or an argument
  cannot be written as an operand. -/
  trap : ∀ address signature, k.Admitted s.vm address signature →
    Writable s.vm.store.heap k.args →
      ∃ message, outcome k.action s = .error (.execution (.trap message none))

namespace Call

variable {s : Setting} {k : Call}

/-- What an admitted call comes to. -/
theorem run_action_of_foreign {address : Nat} {signature : Signature}
    (hadmitted : k.Admitted s.vm address signature) (h : Foreign s.vm.store.id k.args) :
    ∃ e, EStateM.run k.action s =
        .error (.execution e) (Action.counted s (Action.computer s)) ∧
      (Writable s.vm.store.heap k.args → ∃ message, e = .trap message none) := by
  have hmachine : Foreign (Action.computer s).store.id k.args := h
  obtain ⟨stop, hbars, hexchange⟩ :=
    Action.exchangeVia_of_foreign (Exec.invoke address) signature hmachine
  have hrun := run_action_of_admitted hadmitted
  have houtcome : outcome (Action.exchange address signature k.args) (Action.computer s) =
      .error stop := outcome_of_error hexchange
  have hending : ending (Action.exchange address signature k.args) (Action.computer s) =
      Action.computer s := ending_of_error hexchange
  rw [houtcome, hending] at hrun
  obtain ⟨e, he, htrap⟩ :=
    Action.run_settle_of_bars hbars signature (Action.counted s (Action.computer s))
  exact ⟨e, hrun.trans he, htrap⟩

/-- Its run leaves the machine at once, as it has found it. -/
theorem run_of_foreign {address : Nat} (signature : Signature)
    (h : Foreign s.vm.store.id k.args) :
    (EngineRun.mk (.call address signature k.args) s false).calls = [] ∧
      ∀ n, (EngineRun.mk (.call address signature k.args) s false).moment n =
        Action.computer s := by
  have hmachine : Foreign (Action.computer s).store.id k.args := h
  refine ⟨?_, fun n => ?_⟩
  · obtain ⟨e, he⟩ := Action.run_toldExchange_of_foreign address signature hmachine
    exact congrArg Prod.snd (ending_of_error (run_bind_of_error he))
  · obtain ⟨stop, -, hexchange⟩ :=
      Action.exchangeVia_of_foreign (Exec.invokeFor n address) signature hmachine
    exact ending_of_error (run_bind_of_error hexchange)

/-- **A reference of another store does not get in as an argument.** -/
theorem bounces (h : Foreign s.vm.store.id k.args) : k.Bounces s := by
  have htrap : ∀ address signature, k.Admitted s.vm address signature →
      Writable s.vm.store.heap k.args →
        ∃ message, outcome k.action s = .error (.execution (.trap message none)) := by
    intro address signature hadmitted hwritable
    obtain ⟨e, hrun, he⟩ := run_action_of_foreign hadmitted h
    obtain ⟨message, rfl⟩ := he hwritable
    exact ⟨message, outcome_of_error hrun⟩
  obtain ⟨e, hrefused⟩ | ⟨address, signature, hadmitted⟩ := refused_or_admitted s.vm k
  · have hrun : EStateM.run k.action s = .error (.execution e) s :=
      (run_via_invoke k s).symm.trans (run_via_of_refused hrefused)
    have hending := ending_of_error hrun
    refine ⟨⟨e, outcome_of_error hrun⟩, by rw [hending], by rw [hending], ?_, htrap⟩
    rw [runs_of_refused hrefused]
    exact List.forall_mem_nil _
  · obtain ⟨e, hrun, -⟩ := run_action_of_foreign hadmitted h
    have hending := ending_of_error hrun
    refine ⟨⟨e, outcome_of_error hrun⟩, by rw [hending]; rfl, by rw [hending]; rfl, ?_, htrap⟩
    rw [runs_of_admitted hadmitted]
    exact List.forall_mem_singleton.mpr (run_of_foreign signature h)

end Call

/-- A host function that returns a reference of another store is the last thing that a run comes
to, and fails the run. -/
theorem EngineRun.perform_of_foreign {run : EngineRun} {c : HostCall} (hc : c ∈ run.calls)
    {b : BodyRun} (hb : b ∈ c.bodies) {returned : List Value} {t : Machine}
    (hbody : EStateM.run b.perform b.machine = .ok returned t)
    (h : Foreign run.setting.vm.store.id returned) :
    ∃ stop, Bars (returned.map Value.kind = c.signature.returns ∧ Writable t.store.heap returned)
        stop ∧ EStateM.run c.perform c.machine = .error stop t := by
  refine HostCall.run_perform_of_foreign hb hbody ?_
  have hid : t.store.id = run.machine.store.id := by
    rw [BodyRun.store_of_ok hbody, (HostCall.runs_of_mem hb).1.machine,
      (run.told witnessed_store).2 c hc]
  rw [hid]
  exact h

namespace Call

variable {s : Setting} {k : Call}

/-- What becomes of a call in which a host function returns such a reference. -/
theorem returned_of_foreign {run : EngineRun} (hr : run ∈ s.runs k.operation) {c : HostCall}
    (hc : c ∈ run.calls) {b : BodyRun} (hb : b ∈ c.bodies) {returned : List Value} {t : Machine}
    (hbody : EStateM.run b.perform b.machine = .ok returned t)
    (h : Foreign s.vm.store.id returned) :
    ∃ stop e, k.EndsAt s run c stop t ∧ outcome k.action s = .error (.execution e) ∧
      (returned.map Value.kind = c.signature.returns → Writable t.store.heap returned →
        ∃ message, e = .trap message none) := by
  obtain ⟨_, _, _, hrun, -⟩ := admitted_of_mem_runs hr
  have hsetting : run.setting = s := by rw [hrun]
  obtain ⟨stop, hbars, hperform⟩ := EngineRun.perform_of_foreign hc hb hbody (hsetting ▸ h)
  obtain ⟨hends, _, signature, -, u, hanswer⟩ := endsAt_of_fails hr hc hperform
  obtain ⟨e, hsettle, htrap⟩ := Action.run_settle_of_bars hbars signature u
  exact ⟨stop, e, hends, hanswer.trans (outcome_of_error hsettle),
    fun hkinds hwritable => htrap ⟨hkinds, hwritable⟩⟩

end Call

/-! ## Machines and references of other stores -/

/-- No store takes in a global with a reference of another store. -/
theorem materialize_of_foreign {id : StoreId} {cap : Option Nat} {g : Host.HostGlobal}
    {ref : FuncRef} (hvalue : g.value = .funcRef (some ref)) (hne : ref.store ≠ id) (t : Store)
    (ht : t.Orderly id cap) (r : Item × Store) :
    (Host.Symbol.global g).materialize t ≠ .ok r := by
  have hown : (Operand.func (some ref)).belongsTo t.id = false := by
    rw [ht.identity]
    exact Bool.eq_false_iff.mpr fun h => hne (Operand.belongsTo_eq_true.mp h ref rfl)
  intro hr
  obtain ⟨item, u⟩ := r
  cases Host.Symbol.makes_of_materialize hr with
  | global hencoded hbelongs =>
    rw [hvalue] at hencoded
    cases hencoded
    rw [hown] at hbelongs
    cases hbelongs

/-- A reference does not get into a machine. -/
structure Rejects (s : Setting) (ref : FuncRef) : Prop where
  /-- Not as an argument. -/
  calls : ∀ k : Call, .funcRef (some ref) ∈ k.args → k.Bounces s
  /-- Not as the value of a global that is registered, which changes nothing. -/
  globals : ∀ (o : Host.ImportObject) name (g : Host.HostGlobal), o.environment = none →
    (name, .global g) ∈ o.symbolList → g.value = .funcRef (some ref) →
    s.after (.registerImport o) = s ∧
      ∃ e, s.answer (.registerImport o) = .error e ∧ (s.vm.isFree o.moduleName = true →
        ∃ place reason, e = .link (.incompatible o.moduleName place reason))
  /-- Not as what a host function returns: the call ends there. -/
  returns : ∀ k : Call, ∀ run ∈ s.runs k.operation, ∀ c ∈ run.calls, ∀ b ∈ c.bodies,
    ∀ returned t, EStateM.run b.perform b.machine = .ok returned t →
    .funcRef (some ref) ∈ returned →
    ∃ stop e, k.EndsAt s run c stop t ∧ outcome k.action s = .error (.execution e) ∧
      (returned.map Value.kind = c.signature.returns → Writable t.store.heap returned →
        ∃ message, e = .trap message none)

/-- **A reference of another store does not get into a machine.** -/
theorem rejects {s : Setting} (h : s.vm.Orderly) {ref : FuncRef}
    (hne : ref.store ≠ s.vm.store.id) : Rejects s ref where
  calls k hmem := Call.bounces ⟨ref, hmem, hne⟩
  globals o name g hnone hmem hvalue := by
    obtain ⟨e, hrun, hlink⟩ :=
      registerImport_refuses h (materialize_of_foreign hvalue hne) hnone hmem
    exact ⟨ending_of_error hrun, e, outcome_of_error hrun, hlink⟩
  returns k run hrun c hc b hb returned t hbody hmem :=
    Call.returned_of_foreign hrun hc hb hbody ⟨ref, hmem, hne⟩

end Vm

end WasmEmbedding
