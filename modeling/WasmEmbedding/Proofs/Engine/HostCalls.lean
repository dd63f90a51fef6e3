import WasmEmbedding.Proofs.Chronicle
import WasmEmbedding.Proofs.Engine.Instantiation

/-! # The host calls of a run

A `HostCall` is a call of a host function, with the machine as it is when the call is made.  The
pieces of a run have chronicles of their host calls (`Told`), which look like the pieces
themselves and are these without the host calls (`erases_invoke`, `erases_instantiate`).

What holds of a run because of its host calls (`Witnessed`) is put together from what holds of a
host call, of a call of the system interface, and of everything that stays within the guest
(`Within`): see `tells_invoke` and `tells_instantiate`.
-/
namespace WasmEmbedding.Engine

open Chronicle Host Wasm

/-- A call of a host function. -/
structure HostCall where
  id : FunctionId
  signature : Signature
  args : List Operand
  /-- The machine that makes the call. -/
  machine : Machine

/-- What a call does. -/
def HostCall.perform (c : HostCall) : Exec (List Operand) :=
  Exec.callHost c.id c.signature c.args

/-- A piece of a run that writes down its host calls. -/
abbrev Told (α : Type) := Chronicle HostCall Stop Machine α

/-! ## Chronicles of runs -/

namespace Exec

/-- A step where the innermost block has come to its end. -/
def closeBlock (labels : List Label) : Exec Bool := do
  match labels with
  | label :: outer =>
    endBlock label outer
    return false
  | [] =>
    if (← get).callers.isEmpty then return true
    leave
    return false

/-- Takes the next instruction off the frame. -/
def fetch (i : Instr) (rest : List Instr) : Exec Unit :=
  modify fun m => { m with
    frame := { m.frame with code := rest }
    meter := m.meter.charge i.cost }

/-- The results of a run, taken off the host's frame. -/
def takeResults : Exec (List Operand) := do
  let results := (← get).frame.values.reverse
  modifyFrame fun f => { f with values := [] }
  return results

end Exec

namespace Told

/-- Calls a host function, which is written down. -/
def callHost (id : FunctionId) (signature : Signature) (args : List Operand) :
    Told (List Operand) :=
  noting (fun m => ⟨id, signature, args, m⟩) (Exec.callHost id signature args)

/-- Calls a function. -/
def call (address : Nat) (args : List Operand) : Told Unit := do
  match (← quietly get).store.functions[address]? with
  | some (.guest home type body) =>
    quietly (Exec.start home type body args fun m => (m.frame :: m.callers, m.depth + 1))
  | some (.host id signature) =>
    let results ← callHost id signature args
    quietly (Exec.pushMany results)
  | some (.system c) =>
    let results ← quietly (Exec.callSystem c args)
    quietly (Exec.pushMany results)
  | none => quietly Exec.stuck

/-- Calls a function in place of the one that runs. -/
def tailCall (address : Nat) (args : List Operand) : Told Unit := do
  match (← quietly get).store.functions[address]? with
  | some (.guest home type body) =>
    quietly (Exec.start home type body args fun m => (m.callers, m.depth))
  | some (.host id signature) =>
    let results ← callHost id signature args
    quietly (Exec.pushMany results)
    quietly Exec.leave
  | some (.system c) =>
    let results ← quietly (Exec.callSystem c args)
    quietly (Exec.pushMany results)
    quietly Exec.leave
  | none => quietly Exec.stuck

/-- Calls the function that has been found. -/
def callFound (find : Exec Nat) (call : Nat → List Operand → Told Unit) : Told Unit := do
  quietly Exec.settle
  let address ← quietly find
  let args ← quietly (Exec.arguments address)
  call address args

/-- An instruction. -/
def instr (i : Instr) : Told Unit :=
  match i with
  | .call f => callFound (Exec.functionAddress f) call
  | .callIndirect type table => callFound (Exec.indirect type table) call
  | .returnCall f => callFound (Exec.functionAddress f) tailCall
  | .returnCallIndirect type table => callFound (Exec.indirect type table) tailCall
  | i => quietly (Exec.instr i)

/-- One step. -/
def step : Told Bool := do
  let f := (← quietly get).frame
  match f.code with
  | i :: rest =>
    quietly (Exec.fetch i rest)
    instr i
    return false
  | [] => quietly (Exec.closeBlock f.labels)

/-- Steps to the end. -/
def run : Nat → Told Unit
  | 0 => throw (.failure "no end in sight")
  | n + 1 => do if !(← step) then run n

/-- Calls a function from the host and runs to its end. -/
def invoke (address : Nat) (args : List Operand) : Told (List Operand) := do
  call address args
  run Exec.manySteps
  quietly Exec.takeResults

/-- Calls the start function if there is one. -/
def callStart (m : Module) (index : Nat) (i : Instance) : Told Unit := do
  match m.start with
  | some f =>
    quietly (Exec.modifyFrame fun frame => { frame with home := some index })
    let address ← quietly (Exec.ofOption i.functions[f]?)
    let _ ← invoke address []
  | none => pure ()

/-- Makes an instance and answers its index. -/
def instantiate (bulkMemory : Bool) (m : Module) (items : List Item) : Told Nat := do
  let (index, i) ← quietly (Exec.allocate m items)
  quietly (Exec.copySegments bulkMemory m i)
  callStart m index i
  return index

/-! ## The chronicles are chronicles of the runs -/

theorem erases_call (address : Nat) (args : List Operand) :
    Erases (Exec.call address args) (call address args) := by
  refine Erases.after fun m => ?_
  rcases m.store.functions[address]? with _ | ⟨⟩ | ⟨⟩ | ⟨⟩
  · exact .quietly _
  · exact .quietly _
  · exact (Erases.noting _ _).bind fun _ => .quietly _
  · exact Erases.after fun _ => .quietly _

theorem erases_tailCall (address : Nat) (args : List Operand) :
    Erases (Exec.tailCall address args) (tailCall address args) := by
  refine Erases.after fun m => ?_
  rcases m.store.functions[address]? with _ | ⟨⟩ | ⟨⟩ | ⟨⟩
  · exact .quietly _
  · exact .quietly _
  · exact (Erases.noting _ _).bind fun _ => Erases.after fun _ => .quietly _
  · exact Erases.after fun _ => Erases.after fun _ => .quietly _

theorem erases_callFound (find : Exec Nat) {call : Nat → List Operand → Exec Unit}
    {call' : Nat → List Operand → Told Unit} (h : ∀ a args, Erases (call a args) (call' a args)) :
    Erases (do
      Exec.settle
      let address ← find
      call address (← Exec.arguments address)) (callFound find call') :=
  Erases.after fun _ => Erases.after fun address => Erases.after fun args => h address args

theorem erases_instr (i : Instr) : Erases (Exec.instr i) (instr i) := by
  cases i with
  | call f => exact erases_callFound _ erases_call
  | callIndirect type table => exact erases_callFound _ erases_call
  | returnCall f => exact erases_callFound _ erases_tailCall
  | returnCallIndirect type table => exact erases_callFound _ erases_tailCall
  | _ => exact .quietly _

theorem erases_step : Erases Exec.step step := by
  refine Erases.after fun m => ?_
  dsimp only
  cases m.frame.code with
  | nil => exact .quietly (Exec.closeBlock m.frame.labels)
  | cons i rest => exact Erases.after fun _ => (erases_instr i).bind fun _ => .pure _

theorem erases_run (n : Nat) : Erases (Exec.run n) (run n) := by
  induction n with
  | zero => exact .throw _
  | succ n ih =>
    refine erases_step.bind fun done => ?_
    split
    · exact ih
    · exact .pure _

theorem erases_invoke (address : Nat) (args : List Operand) :
    Erases (Exec.invoke address args) (invoke address args) :=
  (erases_call address args).bind fun _ => (erases_run _).bind fun _ => .quietly Exec.takeResults

theorem erases_callStart (m : Module) (index : Nat) (i : Instance) :
    Erases (Exec.callStart m index i) (callStart m index i) := by
  unfold Exec.callStart callStart
  cases m.start with
  | none => exact .pure _
  | some f =>
    refine Erases.after fun _ => Erases.after fun address => ?_
    exact (erases_invoke address []).bind fun _ => .pure _

theorem erases_instantiate (bulkMemory : Bool) (m : Module) (items : List Item) :
    Erases (Exec.instantiate bulkMemory m items) (instantiate bulkMemory m items) :=
  Erases.after fun x => Erases.after fun _ =>
    (erases_callStart m x.1 x.2).bind fun _ => .pure _

end Told

/-! ## What stays within the guest -/

/-- What surrounds the machine is the same, and so is its store, into which no function of the host
has come. -/
structure Within (m t : Machine) : Prop where
  outer : t.outer = m.outer
  store : t.store.id = m.store.id
  hosts : ∀ (a : Nat) (id : FunctionId) (signature : Signature),
    t.store.functions[a]? = some (.host id signature) →
      m.store.functions[a]? = some (.host id signature)

instance : IsPreorder Machine Within where
  refl _ := ⟨rfl, rfl, fun _ _ _ h => h⟩
  trans _ _ _ h h' := ⟨h'.outer.trans h.outer, h'.store.trans h.store,
    fun a id s hs => h.hosts a id s (h'.hosts a id s hs)⟩

/-- A piece of a run that stays within the guest. -/
structure Inner {α : Type} (x : Exec α) : Prop where
  keeps : Keeps Within x
  metered : Metered x
  own : Throws Stop.Own x

namespace Inner

variable {α β : Type}

theorem of_guest {x : Exec α} (hx : Guest x) : Inner x where
  keeps m := by
    have hcode : (ending x m).code = m.code := hx.keeps m
    refine ⟨hx.toBlind.outer_ending m, congrArg Code.id hcode, fun a id signature h => ?_⟩
    have hfunctions : (ending x m).store.functions = m.store.functions :=
      congrArg Code.functions hcode
    rwa [hfunctions] at h
  metered := hx.metered
  own := hx.own

protected theorem get : Inner (get : Exec Machine) := ⟨Keeps.get, Metered.get, Throws.get⟩

protected theorem bind {x : Exec α} {f : α → Exec β} (hx : Inner x) (hf : ∀ a, Inner (f a)) :
    Inner (x >>= f) :=
  ⟨hx.keeps.bind fun a => (hf a).keeps, hx.metered.bind fun a => (hf a).metered,
    hx.own.bind fun a => (hf a).own⟩

protected theorem mapM {f : α → Exec β} (hf : ∀ a, Inner (f a)) (l : List α) :
    Inner (l.mapM f) := by
  induction l with
  | nil =>
    rw [List.mapM_nil]
    exact .of_guest inferInstance
  | cons a l ih =>
    rw [List.mapM_cons]
    exact (hf a).bind fun _ => ih.bind fun _ => .of_guest inferInstance

end Inner

namespace Exec

/-! The memory of the caller is all that a host function gets to see of the guest. -/

instance : Guest callerMemory := .get (fun _ => inferInstance) fun _ _ => rfl

instance : Guest hostMemory := by
  refine .seq inferInstance fun a => ?_
  split
  · exact .get (fun _ => inferInstance) fun _ _ => rfl
  · infer_instance

instance (offset length : UInt32) : Guest (hostRead offset length) := by
  refine .seq inferInstance fun r => ?_
  split
  · split <;> infer_instance
  · infer_instance

instance (offset : UInt32) (bytes : List UInt8) : Guest (hostWrite offset bytes) := by
  refine .seq inferInstance fun r => ?_
  split
  · split <;> infer_instance
  · infer_instance

theorem inner_add {α : Type} {f : Store → α × Store} (hcontext : ∀ s, (f s).2.context = s.context)
    (hid : ∀ s, (f s).2.id = s.id)
    (hhosts : ∀ s (a : Nat) id signature, (f s).2.functions[a]? = some (.host id signature) →
      s.functions[a]? = some (.host id signature)) : Inner (add f) where
  keeps m := ⟨congrArg (Outer.mk · m.host) (hcontext m.store), hid m.store, hhosts m.store⟩
  metered _ := ⟨rfl, fun _ => nofun⟩
  own := fun _ _ _ => nofun

theorem inner_modifyStore {f : Store → Store} (hcontext : ∀ s, (f s).context = s.context)
    (hid : ∀ s, (f s).id = s.id) (hfunctions : ∀ s, (f s).functions = s.functions) :
    Inner (modifyStore f) where
  keeps m := by
    refine ⟨congrArg (Outer.mk · m.host) (hcontext m.store), hid m.store,
      fun a id signature h => ?_⟩
    change (f m.store).functions[a]? = _ at h
    rwa [hfunctions] at h
  metered _ := ⟨rfl, fun _ => nofun⟩
  own := Throws.modify

theorem inner_addFunctions (m : Module) (index : Nat) (i : Instance) :
    Inner (addFunctions m index i) := by
  refine (Inner.of_guest inferInstance).bind fun types => ?_
  refine (Inner.mapM (fun x => ?_) _).bind fun addresses => .of_guest inferInstance
  -- What comes behind the functions of the store is no function of the host.
  refine inner_add (fun _ => rfl) (fun _ => rfl) fun s a id signature h => ?_
  change (s.functions.push (.guest index x.1 x.2))[a]? = _ at h
  rw [Array.getElem?_push] at h
  split at h
  · cases h
  · exact h

theorem inner_allocate (m : Module) (items : List Item) : Inner (allocate m items) := by
  have push : Inner (add fun s =>
      (s.instances.size, { s with instances := s.instances.push {} })) :=
    inner_add (fun _ => rfl) (fun _ => rfl) fun _ _ _ _ h => h
  refine push.bind fun index => (inner_addFunctions m index _).bind fun i => ?_
  refine (Inner.of_guest inferInstance).bind fun i => ?_
  refine (Inner.of_guest inferInstance).bind fun i => ?_
  refine (Inner.of_guest inferInstance).bind fun i => ?_
  refine (Inner.of_guest inferInstance).bind fun i => ?_
  refine (Inner.of_guest inferInstance).bind fun i => ?_
  refine (Inner.of_guest inferInstance).bind fun exports => Inner.bind ?_ fun _ =>
    .of_guest inferInstance
  exact inner_modifyStore (fun _ => rfl) (fun _ => rfl) fun _ => rfl

end Exec

/-! ## What holds of a run because of its host calls -/

/-- A relation that holds of runs if it holds of their host calls. -/
structure Witnessed (R : Machine → List HostCall → Except Stop Unit → Machine → Prop) : Prop
    extends History R where
  within : ∀ {α : Type} {x : Exec α}, Inner x → ∀ m, R m [] (succeeded (outcome x m)) (ending x m)
  callHost : ∀ c : HostCall,
    R c.machine [c] (succeeded (outcome c.perform c.machine)) (ending c.perform c.machine)
  callSystem : ∀ (c : Wasi.Syscall) (args : List Operand) (m : Machine),
    R m [] (succeeded (outcome (Exec.callSystem c args) m)) (ending (Exec.callSystem c args) m)

namespace Witnessed

variable {R : Machine → List HostCall → Except Stop Unit → Machine → Prop} (hR : Witnessed R)
variable {α β : Type}

include hR

theorem inner {x : Exec α} (hx : Inner x) : Tells R (quietly x) := Tells.quietly (hR.within hx)

theorem guest (x : Exec α) [hx : Guest x] : Tells R (quietly x) := hR.inner (.of_guest hx)

theorem pure (a : α) : Tells R (Pure.pure a : Told α) := Tells.pure hR.toHistory a

theorem bind {c : Told α} {d : α → Told β} (hc : Tells R c) (hd : ∀ a, Tells R (d a)) :
    Tells R (c >>= d) :=
  Tells.bind hR.toHistory hc hd

theorem tells_callHost (id : FunctionId) (signature : Signature) (args : List Operand) :
    Tells R (Told.callHost id signature args) :=
  Tells.noting fun m => hR.callHost ⟨id, signature, args, m⟩

theorem tells_callSystem (c : Wasi.Syscall) (args : List Operand) :
    Tells R (quietly (Exec.callSystem c args)) :=
  Tells.quietly (hR.callSystem c args)

theorem tells_call (address : Nat) (args : List Operand) : Tells R (Told.call address args) := by
  refine hR.bind (hR.inner Inner.get) fun m => ?_
  rcases m.store.functions[address]? with _ | ⟨home, type, body⟩ | ⟨id, signature⟩ | c
  · exact hR.guest _
  · exact hR.inner (.of_guest (Exec.guest_start _ _ _ _ fun _ _ => rfl))
  · exact hR.bind (hR.tells_callHost id signature args) fun _ => hR.guest _
  · exact hR.bind (hR.tells_callSystem c args) fun _ => hR.guest _

theorem tells_tailCall (address : Nat) (args : List Operand) :
    Tells R (Told.tailCall address args) := by
  refine hR.bind (hR.inner Inner.get) fun m => ?_
  rcases m.store.functions[address]? with _ | ⟨home, type, body⟩ | ⟨id, signature⟩ | c
  · exact hR.guest _
  · exact hR.inner (.of_guest (Exec.guest_start _ _ _ _ fun _ _ => rfl))
  · refine hR.bind (hR.tells_callHost id signature args) fun _ => ?_
    exact hR.bind (hR.guest _) fun _ => hR.guest _
  · refine hR.bind (hR.tells_callSystem c args) fun _ => ?_
    exact hR.bind (hR.guest _) fun _ => hR.guest _

theorem tells_callFound (find : Exec Nat) [Guest find] {call : Nat → List Operand → Told Unit}
    (hcall : ∀ a args, Tells R (call a args)) : Tells R (Told.callFound find call) := by
  refine hR.bind (hR.guest _) fun _ => hR.bind (hR.guest _) fun address => ?_
  exact hR.bind (hR.guest _) fun args => hcall address args

theorem tells_instr (i : Instr) : Tells R (Told.instr i) := by
  cases i with
  | call f => exact hR.tells_callFound _ hR.tells_call
  | callIndirect type table => exact hR.tells_callFound _ hR.tells_call
  | returnCall f => exact hR.tells_callFound _ hR.tells_tailCall
  | returnCallIndirect type table => exact hR.tells_callFound _ hR.tells_tailCall
  | _ =>
    unfold Told.instr Exec.instr
    exact hR.guest _

theorem tells_step : Tells R Told.step := by
  refine hR.bind (hR.inner Inner.get) fun m => ?_
  dsimp only
  cases m.frame.code with
  | nil =>
    have closed : Guest (Exec.closeBlock m.frame.labels) := by
      unfold Exec.closeBlock
      split
      · infer_instance
      · exact .get (fun _ => inferInstance) fun _ _ => rfl
    exact hR.guest _
  | cons i rest =>
    have fetched : Guest (Exec.fetch i rest) := .modify (fun _ => ⟨rfl, rfl⟩) fun _ _ => rfl
    exact hR.bind (hR.guest _) fun _ => hR.bind (hR.tells_instr i) fun _ => hR.pure _

theorem tells_run (n : Nat) : Tells R (Told.run n) := by
  induction n with
  | zero =>
    have ended : Inner (throw (.failure "no end in sight") : Exec Unit) := .of_guest inferInstance
    exact Tells.throw (hR.within ended)
  | succ n ih =>
    refine hR.bind hR.tells_step fun done => ?_
    split
    · exact ih
    · exact hR.pure _

/-- **A run is told by its host calls.** -/
theorem tells_invoke (address : Nat) (args : List Operand) :
    Tells R (Told.invoke address args) := by
  refine hR.bind (hR.tells_call address args) fun _ => hR.bind (hR.tells_run _) fun _ => ?_
  have taken : Guest Exec.takeResults := .get (fun _ => inferInstance) fun _ _ => rfl
  exact hR.guest _

theorem tells_callStart (m : Module) (index : Nat) (i : Instance) :
    Tells R (Told.callStart m index i) := by
  unfold Told.callStart
  cases m.start with
  | none => exact hR.pure _
  | some f =>
    refine hR.bind (hR.guest _) fun _ => hR.bind (hR.guest _) fun address => ?_
    exact hR.bind (hR.tells_invoke address []) fun _ => hR.pure _

/-- **An instantiation is told by the host calls of its start function.** -/
theorem tells_instantiate (bulkMemory : Bool) (m : Module) (items : List Item) :
    Tells R (Told.instantiate bulkMemory m items) := by
  refine hR.bind (hR.inner (Exec.inner_allocate m items)) fun x => hR.bind (hR.guest _) fun _ => ?_
  exact hR.bind (hR.tells_callStart m x.1 x.2) fun _ => hR.pure _

end Witnessed

end WasmEmbedding.Engine
