import WasmEmbedding.Proofs.Engine.Boundary
import WasmEmbedding.Proofs.Vm.Calls

/-! # Calls that end at the boundary

A call that the owner of a machine makes is one run of the engine if it is admitted, and none
otherwise (`Call.runs_of_admitted`, `Call.runs_of_refused`).  In the run, guests call guests and
guests call host functions, and a host function may be called from any depth.  If a host call fails,
nobody in between can catch it: the run and the call end with it (`Call.endsAt_of_fails`), and the
owner is told what it has failed with.  That it is the last thing of the run follows from how a run
is put together, host call after host call, each starting where the one before has left the machine
without having failed.

Which failures there are is a matter of what a call of a host function consists of.  Its number is
looked up, the operands are read as values of the kinds of its parameters, the body is run at most
once, and what it returns is held against the kinds of its results before the guest sees it.  The
main result, `host_calls_end`, puts this together, and adds that the machine takes the same calls as
before: the failure of a host function ends the run of the guest and not the instance.
-/
namespace WasmEmbedding.Vm

open Chronicle Engine Wasm

theorem Retains.symm {s t : Setting} (h : Retains s t) : Retains t s :=
  ⟨h.record.symm, h.linker.symm, h.stale.symm, h.costLimit.symm, h.measures.symm, h.portrait.symm⟩

namespace Call

/-- The call as an operation of the machine. -/
def operation : Call → Operation
  | .main name args => .execute name args
  | .registered moduleName name args => .executeRegistered moduleName name args

variable {s : Setting} {k : Call} {address : Nat} {signature : Signature}

/-! ## The runs of a call -/

/-- The chronicle of a call of a function that has been looked for. -/
def noted (vm : Vm) (k : Call) : Noted (List Value) :=
  match k.target? vm with
  | some address => Noted.call address k.args
  | none => quietly (throw (.execution k.missing))

theorem runs_eq (k : Call) (s : Setting) : s.runs k.operation =
    if k.ready s.vm then (k.noted s.vm).events s else [] := by
  cases k with
  | registered moduleName name args =>
    change (ending (Noted.executeRegistered moduleName name args >>= fun _ => pure ())
      (s, [])).2 = _
    rw [ending_discard]
    rfl
  | main name args =>
    change (ending (Noted.execute name args >>= fun _ => pure ()) (s, [])).2 =
      if decide (s.vm.stage = .instantiated) then _ else _
    rw [ending_discard]
    by_cases ready : s.vm.stage = .instantiated
    · rw [if_pos (decide_eq_true ready)]
      refine congrArg Prod.snd (ending_congr ?_)
      change EStateM.run (if s.vm.stage ≠ .instantiated then _ else _) (s, []) = _
      rw [if_neg (not_not_intro ready)]
      rfl
    · rw [if_neg (by simp [ready])]
      have h : EStateM.run (Noted.execute name args) (s, []) =
          .error (.execution .notInstantiated) (s, []) := by
        change EStateM.run (if s.vm.stage ≠ .instantiated then _ else _) (s, []) = _
        rw [if_pos ready]
        rfl
      rw [ending_of_error h]

theorem run_notedCall (address : Nat) (args : List Value) (s : Setting) :
    EStateM.run (Noted.call address args) (s, []) =
      EStateM.run (quietly (Action.demand (Signature.ofType? (s.vm.liveType address))) >>=
        fun signature => quietly (Action.demand (Value.check args signature.params)) >>=
        fun _ => noting (fun s => ⟨.call address signature args, s, false⟩)
          (Action.engage address signature args)) (s, ([] : List EngineRun)) := rfl

/-- An admitted call is one run of the engine. -/
theorem runs_of_admitted (h : k.Admitted s.vm address signature) :
    s.runs k.operation = [⟨.call address signature k.args, s, false⟩] := by
  have hrun : EStateM.run (Noted.call address k.args) (s, []) =
      withEvents [⟨.call address signature k.args, s, false⟩]
        (EStateM.run (Action.engage address signature k.args) s) := by
    rw [run_notedCall, h.type]
    refine (run_bind_of_ok (t := (s, [])) rfl).trans ?_
    rw [Value.check_eq_ok_iff.mpr h.kinds]
    rfl
  rw [runs_eq, if_pos h.ready, noted, h.found]
  unfold events ending
  rw [hrun]
  cases EStateM.run (Action.engage address signature k.args) s <;> rfl

/-- A refused call is none. -/
theorem runs_of_refused {e : ExecutionError} (h : k.Refused s.vm e) : s.runs k.operation = [] := by
  rw [runs_eq]
  cases h with
  | notInstantiated ready => rw [ready]; rfl
  | notFound ready absent => rw [if_pos ready, noted, absent]; rfl
  | @unsupported ready address found e type =>
    have hrun : EStateM.run (Noted.call address k.args) (s, []) =
        .error (.execution (.value e)) (s, []) := by
      rw [run_notedCall, type]
      rfl
    rw [if_pos ready, noted, found]
    exact congrArg Prod.snd (ending_of_error hrun)
  | @arguments ready address found signature type e mismatch =>
    have hrun : EStateM.run (Noted.call address k.args) (s, []) =
        .error (.execution (.value e)) (s, []) := by
      rw [run_notedCall, type]
      refine (run_bind_of_ok (t := (s, [])) rfl).trans ?_
      rw [mismatch]
      rfl
    rw [if_pos ready, noted, found]
    exact congrArg Prod.snd (ending_of_error hrun)

/-- A call that has a run is admitted, and the run is the only one. -/
theorem admitted_of_mem_runs {r : EngineRun} (hr : r ∈ s.runs k.operation) :
    ∃ address signature, k.Admitted s.vm address signature ∧
      r = ⟨.call address signature k.args, s, false⟩ ∧ s.runs k.operation = [r] := by
  obtain ⟨e, refused⟩ | ⟨address, signature, admitted⟩ := refused_or_admitted s.vm k
  · rw [runs_of_refused refused] at hr
    cases hr
  · rw [runs_of_admitted admitted] at hr
    cases List.mem_singleton.mp hr
    exact ⟨address, signature, admitted, rfl, runs_of_admitted admitted⟩

/-- An admitted call answers what the engine has come to. -/
theorem run_action_of_admitted (h : k.Admitted s.vm address signature) :
    EStateM.run k.action s = EStateM.run
      (Action.report signature (outcome (Action.exchange address signature k.args)
        (Action.computer s)))
      (Action.counted s (ending (Action.exchange address signature k.args)
        (Action.computer s))) := by
  rw [← run_via_invoke, run_via_of_admitted h, Action.run_engageVia]
  rfl

/-- What an admitted call answers and leaves if its run stops. -/
theorem run_action_of_stop (h : k.Admitted s.vm address signature) {stop : Stop}
    (hstop : (EngineRun.mk (.call address signature k.args) s false).outcome = .error stop) :
    EStateM.run k.action s = EStateM.run (Action.settle signature stop)
      (Action.counted s (EngineRun.mk (.call address signature k.args) s false).ending) := by
  rw [Action.outcome_call_eq] at hstop
  obtain ⟨t, ht⟩ := run_of_succeeded_error hstop
  have hending : (EngineRun.mk (.call address signature k.args) s false).ending = t :=
    (ending_discard _ _).trans (ending_of_error ht)
  rw [hending, run_action_of_admitted h, outcome_of_error ht, ending_of_error ht]
  rfl

/-! ## Calls after a call -/

/-- A machine that is the same but for what is in its store admits the same calls. -/
theorem Admitted.of_retains {t : Setting} (h : Retains s t)
    (hcode : t.vm.store.code = s.vm.store.code) (hs : k.Admitted s.vm address signature) :
    k.Admitted t.vm address signature := by
  have functions : t.vm.store.functions = s.vm.store.functions := congrArg Code.functions hcode
  have exported : t.vm.store.exported? = s.vm.store.exported? := by
    funext index name
    have instances : t.vm.store.instances = s.vm.store.instances := congrArg Code.instances hcode
    unfold Store.exported?
    rw [instances]
  have stage : t.vm.stage = s.vm.stage := congrArg Record.stage h.record
  have active : t.vm.active = s.vm.active := congrArg Record.active h.record
  have registered : t.vm.registered = s.vm.registered := congrArg Record.registered h.record
  refine ⟨?_, ?_, ?_, hs.kinds⟩
  · have ready := hs.ready
    cases k with
    | main name args =>
      unfold Call.ready at ready ⊢
      rwa [stage]
    | registered moduleName name args => exact ready
  · rw [← hs.found]
    cases k with
    | main name args =>
      unfold target?
      rw [exported, active]
    | registered moduleName name args =>
      unfold target? registered?
      rw [registered, h.linker]
  · rw [← hs.type, liveType, liveType, Store.functionType?, Store.functionType?, functions]

/-! ## What a host call does to a call -/

/-- The call ends with a host call that fails, which leaves the machine `t`: nothing runs after it,
and the only thing left to do is to count. -/
structure EndsAt (s : Setting) (k : Call) (r : EngineRun) (c : HostCall) (stop : Stop)
    (t : Machine) : Prop where
  only : s.runs k.operation = [r]
  last : r.calls.getLast? = some c
  fails : r.outcome = .error stop
  leaves : r.ending = t
  after : ending k.action s = Action.counted s t

/-- What the owner of a machine is told of a host call in a call. -/
structure Crossed (s : Setting) (k : Call) (r : EngineRun) (c : HostCall) : Prop where
  /-- An error of the body is what the call answers, unless it ends the guest. -/
  fails : ∀ b ∈ c.bodies, ∀ e t, EStateM.run b.perform b.machine = .error (.host e) t →
    k.EndsAt s r c (.host e) t ∧
    (e ≠ .terminate → outcome k.action s = .error (.execution (.hostFunction e))) ∧
    (e = .terminate → ∃ address signature, k.Admitted s.vm address signature ∧
      outcome k.action s = .ok (signature.returns.map Value.zero))
  /-- So is what is wrong with the values that it returns. -/
  mismatch : ∀ b ∈ c.bodies, ∀ returned t e, EStateM.run b.perform b.machine = .ok returned t →
    Value.check returned c.signature.returns = .error e →
    k.EndsAt s r c (.value e) t ∧ outcome k.action s = .error (.execution (.value e))
  /-- A number that stands for nothing is what the call answers. -/
  revoked : ∀ e, c.host.registry.lookup c.id = .error e → c.bodies = [] ∧
    k.EndsAt s r c (.registry (.unknownHostFunction c.id.val)) c.machine ∧
    outcome k.action s = .error (.registry (.unknownHostFunction c.id.val))

variable {r : EngineRun} {c : HostCall} {stop : Stop} {t : Machine}

theorem ending_settle (signature : Signature) (h : ∀ code, stop ≠ .exit code) (u : Setting) :
    ending (Action.settle signature stop) u = u := by
  cases stop with
  | exit code => exact absurd rfl (h code)
  | host e => cases e <;> rfl
  | _ => rfl

/-- A host call that fails ends the call, which answers what the failure comes to. -/
theorem endsAt_of_fails (hr : r ∈ s.runs k.operation) (hc : c ∈ r.calls)
    (h : EStateM.run c.perform c.machine = .error stop t) :
    k.EndsAt s r c stop t ∧ ∃ address signature, k.Admitted s.vm address signature ∧
      ∃ u, outcome k.action s = outcome (Action.settle signature stop) u := by
  obtain ⟨address, signature, admitted, rfl, only⟩ := admitted_of_mem_runs hr
  obtain ⟨last, hfails, leaves⟩ := EngineRun.told witnessed_fatal _ c hc _ _ h
  have hrun := run_action_of_stop admitted hfails
  have asked : ∀ code, stop ≠ .exit code := by
    rintro code rfl
    obtain own | ⟨d, hd, -⟩ | ⟨d, hd, -⟩ := HostCall.run_perform_error h
    · exact own
    · cases hd
    · cases hd
  refine ⟨⟨only, last, hfails, leaves, ?_⟩, address, signature, admitted, _, outcome_congr hrun⟩
  rw [ending_congr hrun, ending_settle signature asked, leaves]

theorem crossed (hr : r ∈ s.runs k.operation) (hc : c ∈ r.calls) : Crossed s k r c where
  fails b hb e t hbody := by
    obtain ⟨ends, address, signature, admitted, u, hanswer⟩ :=
      endsAt_of_fails hr hc (HostCall.run_perform_of_fails hb hbody)
    refine ⟨ends, fun he => hanswer.trans ?_, ?_⟩
    · cases e with
      | terminate => exact absurd rfl he
      | _ => rfl
    · rintro rfl
      exact ⟨address, signature, admitted, hanswer⟩
  mismatch b hb returned t e hbody hcheck := by
    obtain ⟨ends, _, _, _, u, hanswer⟩ :=
      endsAt_of_fails hr hc (HostCall.run_perform_of_mismatch hb hbody hcheck)
    exact ⟨ends, hanswer⟩
  revoked e hdead := by
    obtain rfl : e = .unknownHostFunction c.id.val := by
      unfold Host.Registry.lookup at hdead
      split at hdead
      · cases hdead
      · exact (Except.error.inj hdead).symm
    obtain ⟨ends, _, _, _, u, hanswer⟩ := endsAt_of_fails hr hc (HostCall.run_of_dead hdead)
    exact ⟨HostCall.bodies_of_dead hdead, ends, hanswer⟩

/-- A call that fails is refused, or it is a run that stops. -/
theorem refused_or_stopped {e : RuntimeError} (h : outcome k.action s = .error e) :
    (∃ x, k.Refused s.vm x ∧ e = .execution x) ∨ ∃ r ∈ s.runs k.operation, ∃ stop,
      r.outcome = .error stop ∧
        ∃ signature u, outcome (Action.settle signature stop) u = .error e := by
  obtain ⟨x, refused⟩ | ⟨address, signature, admitted⟩ := refused_or_admitted s.vm k
  · have hrun := (run_via_invoke k s).symm.trans (run_via_of_refused refused)
    exact .inl ⟨x, refused, (Except.error.inj ((outcome_of_error hrun).symm.trans h)).symm⟩
  · have hr := runs_of_admitted admitted ▸ List.mem_singleton_self (EngineRun.mk _ s false)
    cases hstop : (EngineRun.mk (.call address signature k.args) s false).outcome with
    | ok _ =>
      have hanswer := outcome_congr (run_action_of_admitted admitted)
      rw [Action.outcome_call_eq] at hstop
      cases hvalues : outcome (Action.exchange address signature k.args) (Action.computer s) with
      | ok values =>
        rw [hvalues] at hanswer
        cases hanswer.symm.trans h
      | error stop =>
        rw [hvalues] at hstop
        cases hstop
    | error stop =>
      have hanswer := outcome_congr (run_action_of_stop admitted hstop)
      exact .inr ⟨_, hr, stop, hstop, signature, _, hanswer.symm.trans h⟩

/-- An error of a body that the owner is told has been returned by one. -/
theorem body_of_answer {e : HostFunctionError}
    (h : outcome k.action s = .error (.execution (.hostFunction e))) :
    ∃ r ∈ s.runs k.operation, ∃ c ∈ r.calls, ∃ b ∈ c.bodies, ∃ t,
      EStateM.run b.perform b.machine = .error (.host e) t := by
  obtain ⟨x, refused, hx⟩ | ⟨r, hr, stop, hstop, signature, u, hanswer⟩ := refused_or_stopped h
  · cases hx
    cases k <;> cases refused
  · have settled : stop = .host e := by
      cases stop with
      | host d => cases d <;> cases hanswer <;> rfl
      | _ => cases hanswer
    subst settled
    cases EngineRun.told witnessed_stopped r _ hstop with
    | own own => cases own
    | @host c _ last fails =>
      obtain own | ⟨d, hd, -⟩ | ⟨d, -, b, hb, hbody⟩ := HostCall.run_perform_error fails
      · cases own
      · cases hd
      · exact ⟨r, hr, c, List.mem_of_getLast? last, b, hb, _, hbody⟩

/-- A number that the owner is told has been called, and has stood for nothing. -/
theorem revoked_of_answer {e : RegistryError}
    (h : outcome k.action s = .error (.registry e)) :
    ∃ r ∈ s.runs k.operation, ∃ c ∈ r.calls, c.host.registry.lookup c.id = .error e := by
  obtain ⟨x, refused, hx⟩ | ⟨r, hr, stop, hstop, signature, u, hanswer⟩ := refused_or_stopped h
  · cases hx
  · have settled : stop = .registry e := by
      cases stop with
      | host d => cases d <;> cases hanswer
      | registry d => cases hanswer; rfl
      | _ => cases hanswer
    subst settled
    cases EngineRun.told witnessed_stopped r _ hstop with
    | own own => cases own
    | @host c _ last fails =>
      obtain own | ⟨d, hd, hdead⟩ | ⟨d, hd, -⟩ := HostCall.run_perform_error fails
      · cases own
      · cases hd
        exact ⟨r, hr, c, List.mem_of_getLast? last, hdead⟩
      · cases hd

end Call

/-- **Across the boundary and back.**  A host call runs one body at most, only the one that its
number stands for, and only on arguments of the kinds of the parameters; the guest is given what the
body returns if it has the kinds of the results, and nothing otherwise.  In a call that the owner of
a machine makes, a host call that fails is the last thing that happens, and the call answers what it
has failed with: the error of the body (zeros if the body ends the guest), what is wrong with the
values that it has returned, or the number that stands for nothing.  Nothing else is answered as
such an error.  Whatever has happened, the machine takes the same calls as before. -/
theorem host_calls_end (s : Setting) (k : Call) :
    (∀ c : HostCall, c.Bounded) ∧
    (∀ r ∈ s.runs k.operation, ∀ c ∈ r.calls, k.Crossed s r c) ∧
    (∀ e, outcome k.action s = .error (.execution (.hostFunction e)) →
      ∃ r ∈ s.runs k.operation, ∃ c ∈ r.calls, ∃ b ∈ c.bodies, ∃ t,
        EStateM.run b.perform b.machine = .error (.host e) t) ∧
    (∀ e, outcome k.action s = .error (.registry e) →
      ∃ r ∈ s.runs k.operation, ∃ c ∈ r.calls, c.host.registry.lookup c.id = .error e) ∧
    ∀ (d : Call) (address : Nat) (signature : Signature),
      (d.Admitted (ending k.action s).vm address signature ↔
        d.Admitted s.vm address signature) ∧
      (d.Admitted s.vm address signature → (ending k.action s).runs d.operation =
        [⟨.call address signature d.args, ending k.action s, false⟩]) := by
  obtain ⟨-, -, -, -, -, retains, code, -⟩ := call_frame s k
  refine ⟨HostCall.bounded, fun r hr c hc => Call.crossed hr hc,
    fun e h => Call.body_of_answer h, fun e h => Call.revoked_of_answer h,
    fun d address signature => ⟨⟨fun h => ?_, fun h => ?_⟩, fun h => ?_⟩⟩
  · exact h.of_retains retains.symm code.symm
  · exact h.of_retains retains code
  · exact Call.runs_of_admitted (h.of_retains retains code)

/-! ## A body that refuses -/

/-- A host with an import object whose function refuses. -/
def refusingHost : Host :=
  Host.afterAll {} [.create "e" "env" none,
    .addFunction "e" "f" ⟨⟨[], []⟩, fun _ => .finish (.error (.failed "no"))⟩]

/-- The import object. -/
def refusingObject : Host.ImportObject := ⟨"env", some [("f", .function ⟨1⟩ ⟨[], []⟩)], none, none⟩

/-- The bytes of a module whose function calls the one of the import object. -/
def askingBytes : List UInt8 :=
  emptyBytes ++ [1, 4, 1, 0x60, 0, 0] ++ [2, 9, 1, 3, 0x65, 0x6e, 0x76, 1, 0x66, 0, 0] ++
    [3, 2, 1, 0] ++ [7, 5, 1, 1, 0x67, 0, 1] ++ [10, 6, 1, 4, 0, 0x10, 0, 0x0b]

/-- A machine with an instance of the module. -/
def refusing : Setting :=
  ((((⟨empty {} ⟨0⟩, refusingHost.newStore.2⟩ : Setting).after
    (.registerImport refusingObject)).after (.load (.bytes askingBytes))).after .instantiate)

/-- A call of the function of the module ends with the host call that it makes. -/
theorem host_calls_end_refusing :
    ∃ r ∈ refusing.runs (Call.main "g" []).operation, ∃ c ∈ r.calls,
      (Call.main "g" []).EndsAt refusing r c (.host (.failed "no")) r.ending ∧
      outcome (Call.main "g" []).action refusing =
        .error (.execution (.hostFunction (.failed "no"))) := by
  have hanswer : outcome (Call.main "g" []).action refusing =
      .error (.execution (.hostFunction (.failed "no"))) := by decide +kernel
  obtain ⟨-, hcrossed, hbodies, -⟩ := host_calls_end refusing (.main "g" [])
  obtain ⟨r, hr, c, hc, b, hb, t, hbody⟩ := hbodies _ hanswer
  obtain ⟨ends, hfailed, -⟩ := (hcrossed r hr c hc).fails b hb _ t hbody
  exact ⟨r, hr, c, hc, ends.leaves ▸ ends, hfailed nofun⟩

end WasmEmbedding.Vm
