import WasmEmbedding.Proofs.Value.Codec
import WasmEmbedding.Proofs.Vm.Runs

/-! # Calls from the host

A `Call` is a call that the owner of a machine makes, of a function of the main module or of a
registered one.  It is either `Refused` before the engine is let in, or `Admitted` with the address
of the function and its signature (`refused_or_admitted`).

What is true of an admitted call has to be true whatever the engine does with the operands, so calls
are made through an engine that is given (`Call.via`); with `Exec.invoke` for the engine they
are the calls of the machine (`run_via_invoke`).  The main result, `call_frame`, is that a refused
call changes nothing, and that an admitted one changes what the engine has changed, the counts of
the call and the exit code.
-/
namespace WasmEmbedding.Vm

open Engine Wasm

/-- A call that the owner of a machine makes. -/
inductive Call where
  | main (name : String) (args : List Value)
  | registered (moduleName name : String) (args : List Value)

namespace Call

/-- The arguments. -/
def args : Call → List Value
  | .main _ args => args
  | .registered _ _ args => args

/-- What the machine does. -/
def action : Call → Action (List Value)
  | .main name args => Action.execute name args
  | .registered moduleName name args => Action.executeRegistered moduleName name args

/-- Whether there is an instance to call, if one is needed. -/
def ready (vm : Vm) : Call → Bool
  | .main _ _ => vm.stage = .instantiated
  | .registered _ _ _ => true

/-- The address of the function. -/
def target? (vm : Vm) : Call → Option Nat
  | .main name _ => do (← vm.store.exported? (← vm.active).index name).function?
  | .registered moduleName name _ => do
    let _ ← vm.registered? moduleName
    (← vm.linker.get? moduleName name).function?

/-- There is no such function. -/
def missing : Call → ExecutionError
  | .main name _ => .functionNotFound name
  | .registered moduleName name _ => .functionNotFound (moduleName ++ "." ++ name)

/-- The signature of the function, as the machine gives it. -/
def declared? (vm : Vm) : Call → Option Signature
  | .main name _ => vm.functionType? name
  | .registered moduleName name _ => vm.registeredFunctionType? moduleName name

end Call

/-- The type of the function at an address. -/
def liveType (vm : Vm) (address : Nat) : FuncType := (vm.store.functionType? address).getD default

namespace Call

/-- A call is refused before the engine is let in. -/
inductive Refused (vm : Vm) (c : Call) : ExecutionError → Prop
  | notInstantiated (h : c.ready vm = false) : Refused vm c .notInstantiated
  | notFound (h : c.ready vm = true) (absent : c.target? vm = none) : Refused vm c c.missing
  /-- A parameter or a result has no kind. -/
  | unsupported (h : c.ready vm = true) {address : Nat} (found : c.target? vm = some address)
      {e : ValueError} (type : Signature.ofType? (vm.liveType address) = .error e) :
      Refused vm c (.value e)
  /-- The arguments do not have the kinds of the parameters. -/
  | arguments (h : c.ready vm = true) {address : Nat} (found : c.target? vm = some address)
      {signature : Signature} (type : Signature.ofType? (vm.liveType address) = .ok signature)
      {e : ValueError} (mismatch : Value.check c.args signature.params = .error e) :
      Refused vm c (.value e)

/-- The engine is let in for the function at an address, with arguments of the kinds of its
signature. -/
structure Admitted (vm : Vm) (c : Call) (address : Nat) (signature : Signature) : Prop where
  ready : c.ready vm = true
  found : c.target? vm = some address
  type : Signature.ofType? (vm.liveType address) = .ok signature
  kinds : c.args.map Value.kind = signature.params

/-- Every call is refused or admitted. -/
theorem refused_or_admitted (vm : Vm) (c : Call) :
    (∃ e, c.Refused vm e) ∨ ∃ address signature, c.Admitted vm address signature := by
  cases ready : c.ready vm with
  | false => exact .inl ⟨_, .notInstantiated ready⟩
  | true =>
    cases found : c.target? vm with
    | none => exact .inl ⟨_, .notFound ready found⟩
    | some address =>
      cases type : Signature.ofType? (vm.liveType address) with
      | error e => exact .inl ⟨_, .unsupported ready found type⟩
      | ok signature =>
        cases check : Value.check c.args signature.params with
        | error e => exact .inl ⟨_, .arguments ready found type check⟩
        | ok _ =>
          have kinds := Value.check_eq_ok_iff.mp check
          exact .inr ⟨address, signature, ready, found, type, kinds⟩

end Call

/-! ## Calls through an engine -/

/-- What an engine does with the operands of a call of the function at an address. -/
abbrev Caller := Nat → List Operand → Exec (List Operand)

namespace Action

/-- What the engine does for a call: the arguments go in, the results come out. -/
def exchangeVia (engine : List Operand → Exec (List Operand)) (signature : Signature)
    (args : List Value) : Exec (List Value) := do
  let store := (← get).store
  let operands ← Exec.ofValue (Value.encode store.heap args)
  if operands.all (Operand.belongsTo store.id) then
    let results ← engine operands
    Exec.ofValue (Operand.decode results signature.returns)
  else throw (.failure "an argument is a reference of another store")

/-- The part of a call that the engine has to do with. -/
def engageVia (engine : List Operand → Exec (List Operand)) (signature : Signature)
    (args : List Value) : Action (List Value) := do
  let (outcome, fuel) ← compute (exchangeVia engine signature args)
  modifyVm fun vm => { vm with statistics := vm.statistics.recordCall fuel 1 }
  report signature outcome

/-- A value computed from the machine's types or arguments, or the refusal of the call. -/
def demand {α : Type} : Except ValueError α → Action α :=
  ofExcept fun e => .execution (.value e)

/-- Calls a function of the machine's store. -/
def callVia (engine : Caller) (address : Nat) (args : List Value) : Action (List Value) := do
  let signature ← demand (Signature.ofType? ((← vm).liveType address))
  demand (Value.check args signature.params)
  engageVia (engine address) signature args

/-- Calls a function if it has been found. -/
def callFound (call : Nat → Action (List Value)) (e : RuntimeError) :
    Option Nat → Action (List Value)
  | some address => call address
  | none => throw e

/-- What a machine has become by what the engine has done, with the call counted. -/
def counted (s : Setting) (m : Machine) : Setting where
  vm := { s.vm with
    store := m.store
    statistics := s.vm.statistics.recordCall (UInt64.ofNat m.meter.consumed) 1 }
  host := m.host

/-- The guest has ended because it or a host function asked for it. -/
inductive EndsWell : Stop → Prop
  | exit (code : UInt32) : EndsWell (.exit code)
  | terminate : EndsWell (.host .terminate)

/-- The exit code after the engine has stopped. -/
def exitCodeAfter (code : Option UInt32) : Except Stop (List Value) → Option UInt32
  | .error (.exit code) => some code
  | _ => code

/-- What an outcome of the engine comes to: its values, or zeros if the guest has ended well.
Only the exit code changes. -/
theorem report_post (signature : Signature) (r : Except Stop (List Value)) (t : Setting) :
    Post (report signature r) t fun answer u =>
      u = withContext t { t.vm.store.context with exitCode := exitCodeAfter t.vm.exitCode r } ∧
      (∀ vs, r = .ok vs → answer = .ok vs) ∧
      (∀ stop, r = .error stop → EndsWell stop → answer = .ok (signature.returns.map Value.zero)) ∧
      ∀ vs, answer = .ok vs → r = .ok vs ∨
        ∃ stop, r = .error stop ∧ EndsWell stop ∧ vs = signature.returns.map Value.zero := by
  cases r with
  | ok values =>
    exact ⟨rfl, by rintro _ ⟨⟩; rfl, by rintro _ ⟨⟩, by rintro _ ⟨⟩; exact .inl rfl⟩
  | error stop =>
    -- the two ways to end well, and the errors
    have fails {e : RuntimeError} (h : EStateM.run (report signature (.error stop)) t = .error e t)
        (code : exitCodeAfter t.vm.exitCode (.error stop) = t.vm.exitCode)
        (ill : ¬ EndsWell stop) : Post (report signature (.error stop)) t fun answer u =>
          u = withContext t { t.vm.store.context with
            exitCode := exitCodeAfter t.vm.exitCode (.error stop) } ∧
          (∀ vs, (.error stop : Except Stop (List Value)) = .ok vs → answer = .ok vs) ∧
          (∀ stop', (.error stop : Except Stop (List Value)) = .error stop' → EndsWell stop' →
            answer = .ok (signature.returns.map Value.zero)) ∧
          ∀ vs, answer = .ok vs → (.error stop : Except Stop (List Value)) = .ok vs ∨
            ∃ stop', (.error stop : Except Stop (List Value)) = .error stop' ∧ EndsWell stop' ∧
              vs = signature.returns.map Value.zero := by
      refine Post.of_error h ⟨by rw [code]; rfl, nofun, ?_, nofun⟩
      rintro _ ⟨⟩ well
      exact absurd well ill
    cases stop with
    | exit code =>
      refine ⟨rfl, nofun, fun _ _ _ => rfl, ?_⟩
      rintro _ ⟨⟩
      exact .inr ⟨_, rfl, .exit code, rfl⟩
    | host e =>
      cases e with
      | terminate =>
        refine ⟨rfl, nofun, fun _ _ _ => rfl, ?_⟩
        rintro _ ⟨⟩
        exact .inr ⟨_, rfl, .terminate, rfl⟩
      | _ => exact fails rfl rfl nofun
    | _ => exact fails rfl rfl nofun

/-- Calling through an engine is running it on the machine's store, counting the call, and
reporting what it has come to. -/
theorem run_engageVia (engine : List Operand → Exec (List Operand)) (signature : Signature)
    (args : List Value) (s : Setting) :
    EStateM.run (engageVia engine signature args) s =
      EStateM.run (report signature (outcome (exchangeVia engine signature args) (computer s)))
        (counted s (ending (exchangeVia engine signature args) (computer s))) := by
  have h := run_compute (exchangeVia engine signature args) s
  rw [engageVia, run_bind_of_ok h]
  rfl

end Action

namespace Call

/-- A call through an engine. -/
def via (engine : Caller) (c : Call) : Action (List Value) := do
  let vm ← Action.vm
  if c.ready vm then
    Action.callFound (Action.callVia engine · c.args) (.execution c.missing) (c.target? vm)
  else throw (.execution .notInstantiated)

variable {s : Setting} {c : Call} {engine : Caller}

/-- What a call through an engine depends on, read off the machine. -/
theorem run_via : EStateM.run (c.via engine) s = EStateM.run (if c.ready s.vm then
      Action.callFound (Action.callVia engine · c.args) (.execution c.missing) (c.target? s.vm)
    else throw (.execution .notInstantiated)) s := rfl

theorem run_callVia (address : Nat) (args : List Value) :
    EStateM.run (Action.callVia engine address args) s =
      EStateM.run (Action.demand (Signature.ofType? (s.vm.liveType address)) >>= fun signature =>
        Action.demand (Value.check args signature.params) >>= fun _ =>
          Action.engageVia (engine address) signature args) s := rfl

/-- **A refused call does not let the engine in.** -/
theorem run_via_of_refused {e : ExecutionError} (h : c.Refused s.vm e) :
    EStateM.run (c.via engine) s = .error (.execution e) s := by
  rw [run_via]
  cases h with
  | notInstantiated ready => rw [ready]; rfl
  | notFound ready absent => rw [ready, absent]; rfl
  | unsupported ready found type =>
    rw [ready, found, if_pos rfl, Action.callFound, run_callVia, type]
    rfl
  | arguments ready found type mismatch =>
    rw [ready, found, if_pos rfl, Action.callFound, run_callVia, type]
    refine (run_bind_of_ok (t := s) rfl).trans ?_
    rw [mismatch]
    rfl

/-- An admitted call is what the engine does with it. -/
theorem run_via_of_admitted {address : Nat} {signature : Signature}
    (h : c.Admitted s.vm address signature) :
    EStateM.run (c.via engine) s =
      EStateM.run (Action.engageVia (engine address) signature c.args) s := by
  rw [run_via, h.ready, h.found, if_pos rfl, Action.callFound, run_callVia, h.type]
  refine (run_bind_of_ok (t := s) rfl).trans ?_
  rw [Value.check_eq_ok_iff.mpr h.kinds]
  rfl

/-- **The calls of a machine are calls through the engine.** -/
theorem run_via_invoke (c : Call) (s : Setting) :
    EStateM.run (c.via Exec.invoke) s = EStateM.run c.action s := by
  have engaged : Action.callVia Exec.invoke = Action.call := by
    refine funext fun address => funext fun args => congrArg (Action.vm >>= ·) (funext fun vm =>
      congrArg (_ >>= ·) (funext fun signature => congrArg (_ >>= ·) (funext fun _ =>
        congrArg (_ >>= ·) (funext fun r => congrArg (_ >>= ·) (funext fun _ => ?_)))))
    cases r.1 <;> rfl
  rw [run_via, engaged]
  cases c with
  | registered moduleName name args =>
    change EStateM.run (Action.callFound _ _ _) s = EStateM.run (Action.callFound
      (Action.call · args) (.execution (.functionNotFound (moduleName ++ "." ++ name)))
      (target? s.vm (.registered moduleName name args))) s
    rfl
  | main name args =>
    change EStateM.run (if decide (s.vm.stage = .instantiated) then _ else _) s =
      EStateM.run (if s.vm.stage ≠ .instantiated then
        throw (.execution .notInstantiated) >>= fun _ : PUnit => Action.callFound
          (Action.call · args) (.execution (.functionNotFound name))
          (target? s.vm (.main name args))
      else Action.callFound (Action.call · args) (.execution (.functionNotFound name))
        (target? s.vm (.main name args))) s
    by_cases ready : s.vm.stage = .instantiated
    · rw [if_pos (decide_eq_true ready), if_neg (not_not_intro ready)]
      rfl
    · rw [if_neg (by simp [ready]), if_pos ready]
      rfl

end Call

/-! ## What a call leaves as it is -/

/-- What a machine answers about itself. -/
structure Portrait where
  stage : Stage
  moduleNames : List String
  functionNames : List String
  functionList : List (String × Signature)
  functionType? : String → Option Signature
  registeredFunctionNames : String → List String
  registeredFunctionType? : String → String → Option Signature
  wasi : Option Host.ImportObject
  description : String
  storeDescription : String

/-- The answers of a machine. -/
def portrait (vm : Vm) : Portrait where
  stage := vm.stage
  moduleNames := vm.moduleNames
  functionNames := vm.functionNames
  functionList := vm.functionList
  functionType? := vm.functionType?
  registeredFunctionNames := vm.registeredFunctionNames
  registeredFunctionType? := vm.registeredFunctionType?
  wasi := vm.wasi
  description := vm.describe
  storeDescription := vm.describeStore

/-- The main module, the link environment and the limits of a machine are as they were, and so are
its answers; the store and the counts may be others. -/
structure Retains (s t : Setting) : Prop where
  record : t.vm.record = s.vm.record
  linker : t.vm.linker = s.vm.linker
  stale : t.vm.stale = s.vm.stale
  costLimit : t.vm.statistics.costLimit = s.vm.statistics.costLimit
  measures : t.vm.statistics.config = s.vm.statistics.config
  portrait : t.vm.portrait = s.vm.portrait

/-- What an admitted call leaves, given what the engine has come to: what the engine has left, the
counts of the call, and the exit code. -/
def called (s : Setting) (m : Machine) (r : Except Stop (List Value)) : Setting :=
  Action.withContext (Action.counted s m) { m.store.context with
    exitCode := Action.exitCodeAfter m.store.context.exitCode r }

open Vm.Action in
/-- What an admitted call answers and leaves. -/
theorem Call.via_post {s : Setting} {c : Call} {address : Nat} {signature : Signature}
    (h : c.Admitted s.vm address signature) (engine : Caller) :
    let x := exchangeVia (engine address) signature c.args
    Post (c.via engine) s fun answer t =>
      t = called s (ending x (computer s)) (outcome x (computer s)) ∧
      (∀ stop, outcome x (computer s) = .error stop → EndsWell stop →
        answer = .ok (signature.returns.map Value.zero)) ∧
      ∀ vs, answer = .ok vs → outcome x (computer s) = .ok vs ∨
        ∃ stop, outcome x (computer s) = .error stop ∧ EndsWell stop ∧
          vs = signature.returns.map Value.zero := by
  obtain ⟨left, -, zeros, answer⟩ := report_post signature
    (outcome (exchangeVia (engine address) signature c.args) (computer s))
    (counted s (ending (exchangeVia (engine address) signature c.args) (computer s)))
  unfold outcome ending at left zeros answer
  unfold Post outcome ending
  rw [run_via_of_admitted h, run_engageVia]
  exact ⟨left, zeros, answer⟩

theorem retains_called (s : Setting) (m : Machine) (r : Except Stop (List Value)) :
    Retains s (called s m r) :=
  ⟨rfl, rfl, rfl, rfl, rfl, rfl⟩

theorem retains_via (s : Setting) (c : Call) (engine : Caller) :
    Retains s (ending (c.via engine) s) := by
  obtain ⟨e, refused⟩ | ⟨address, signature, admitted⟩ := Call.refused_or_admitted s.vm c
  · rw [ending_of_error (Call.run_via_of_refused refused)]
    exact ⟨rfl, rfl, rfl, rfl, rfl, rfl⟩
  · obtain ⟨left, -⟩ := Call.via_post admitted engine
    rw [left]
    exact retains_called _ _ _

/-! Guests and host functions do not touch the functions and instances of the store, nor the
environments of the system interface. -/

theorem environments_callSystem (call : Wasi.Syscall) (args : List Operand) :
    Keeps (SameBy fun m : Machine => m.host.environments) (Exec.callSystem call args) := by
  refine Exec.keeps_callSystem_of (fun {_} x guest m => ?_) (fun address p => ?_) call args
  · exact congrArg (fun o : Outer => o.host.environments) (guest.toBlind.outer_ending m)
  · exact Keeps.modify fun _ => rfl

theorem witnessed_environments :
    Witnessed fun m _ _ t => t.host.environments = m.host.environments where
  still _ := rfl
  append h h' := h'.trans h
  within hx m := congrArg (fun o : Outer => o.host.environments) (hx.keeps m).outer
  callHost c :=
    (Exec.steady_callHost (C := fun a => a.grounds.environments = c.machine.host.environments)
      c.id c.signature c.args).keeps rfl
  callSystem call args m := environments_callSystem call args m

theorem environments_exchange (address : Nat) (signature : Signature) (args : List Value)
    (s : Setting) :
    (ending (Action.exchange address signature args) (Action.computer s)).host.environments =
      s.host.environments := by
  have h := (EngineRun.mk (.call address signature args) s false).told witnessed_environments
  change (ending (Action.exchange address signature args >>= fun _ => pure ())
    (Action.computer s)).host.environments = s.host.environments at h
  rwa [ending_discard] at h

/-- **Calls leave the machine as it is.**  A call that is refused changes nothing at all, and
whatever the engine is, it does not run.  An admitted call leaves what the engine leaves, its counts
and an exit code; so whatever the engine answers, stage and modules, instance, entries and their
order, linker, environment and limits stay, and the machine answers the same about itself.  The
engine of the machines keeps the functions and instances of the store and the environments of the
system interface as well. -/
theorem call_frame (s : Setting) (c : Call) :
    (∀ e, c.Refused s.vm e →
      EStateM.run c.action s = .error (.execution e) s ∧
      ∀ engine, EStateM.run (c.via engine) s = .error (.execution e) s) ∧
    (∀ address signature, c.Admitted s.vm address signature → ∀ engine,
      let x := Action.exchangeVia (engine address) signature c.args
      ending (c.via engine) s =
        called s (ending x (Action.computer s)) (outcome x (Action.computer s))) ∧
    ((∀ e, ¬ c.Refused s.vm e) → ∃ address signature, c.Admitted s.vm address signature) ∧
    (∀ engine, Retains s (ending (c.via engine) s)) ∧
    EStateM.run c.action s = EStateM.run (c.via Exec.invoke) s ∧
    Retains s (ending c.action s) ∧
    (ending c.action s).vm.store.code = s.vm.store.code ∧
    (ending c.action s).host.environments = s.host.environments := by
  have same : ending c.action s = ending (c.via Exec.invoke) s := by
    unfold ending
    rw [Call.run_via_invoke]
  refine ⟨fun e refused => ⟨?_, fun engine => Call.run_via_of_refused refused⟩,
    fun address signature admitted engine => (Call.via_post admitted engine).1, fun h => ?_,
    retains_via s c, (Call.run_via_invoke c s).symm, same ▸ retains_via s c _, ?_⟩
  · rw [← Call.run_via_invoke]
    exact Call.run_via_of_refused refused
  · exact (Call.refused_or_admitted s.vm c).resolve_left fun ⟨e, refused⟩ => h e refused
  · rw [same]
    obtain ⟨e, refused⟩ | ⟨address, signature, admitted⟩ := Call.refused_or_admitted s.vm c
    · rw [ending_of_error (Call.run_via_of_refused refused)]
      exact ⟨rfl, rfl⟩
    · obtain ⟨left, -⟩ := Call.via_post admitted Exec.invoke
      rw [left]
      exact ⟨Action.keeps_code_exchange address signature c.args (Action.computer s),
        environments_exchange address signature c.args s⟩

end WasmEmbedding.Vm
