import WasmEmbedding.Proofs.Engine.HostCalls

/-! # What host functions record

The log that the guests of a machine share grows only where the body of a host function asks for
it.  `HostCall.recorded` is what one call of a host function records, read off its body, and the
log after a run is the log before it with what its host calls have recorded, in the order of the
calls (`witnessed_logged`).
-/
namespace WasmEmbedding.Engine

open Chronicle Host Wasm

/-- The log of a machine. -/
def Machine.logs (m : Machine) : List LogEntry := m.store.context.logs

/-- Machines with the same surroundings have the same log. -/
theorem Machine.logs_of_outer {m t : Machine} (h : t.outer = m.outer) : t.logs = m.logs :=
  congrArg (fun o : Outer => o.context.logs) h

/-- A piece of a run that writes down what is recorded. -/
abbrev Recorded (α : Type) := Chronicle LogEntry Stop Machine α

namespace Exec

/-- The host function of a number, or the end of the computation. -/
def ofLookup : Except RegistryError Registration → Exec Registration
  | .ok entry => pure entry
  | .error e => throw (.registry e)

/-- Holds what a body has returned against its signature and hands it to the guest. -/
def deliver (signature : Signature) (returned : List Value) : Exec (List Operand) := do
  ofValue (Value.check returned signature.returns)
  let store := (← get).store
  let results ← ofValue (Value.encode store.heap returned)
  if results.all (Operand.belongsTo store.id) then return results
  else throw (.failure "a host function returned a reference of another store")

/-- Sets shared data, if there is any to be set. -/
def share (key : Option ContextKey) (data : SharedData) : Exec Unit :=
  match key with
  | some key => modifyHost fun h => h.setContext key data
  | none => pure ()

/-- Makes an import object and lets go of it. -/
def makeObject (moduleName : String) : Exec Bool := do
  let (made, host) := (← get).host.makeObject moduleName
  modifyHost fun _ => host
  return made

end Exec

namespace Recorded

/-- Runs the body of a host function. -/
def answer (key : Option ContextKey) : Program → Recorded (List Value)
  | .finish (.ok values) => pure values
  | .finish (.error e) => throw (.host e)
  | .readMemory offset length next => do
    let r ← quietly (Exec.hostRead offset length)
    answer key (next r)
  | .writeMemory offset bytes next => do
    let r ← quietly (Exec.hostWrite offset bytes)
    answer key (next r)
  | .log entry next => do
    noting (fun _ => entry) (Exec.log entry)
    answer key next
  | .inspect next => do
    let context := (← quietly get).store.context
    answer key (next context.logs.length context.exitCode)
  | .shared next => do
    let host := (← quietly get).host
    answer key (next (key.bind host.context?))
  | .share data next => do
    quietly (Exec.share key data)
    answer key next
  | .note text next => do
    quietly (Exec.modifyHost fun h => h.note text)
    answer key next
  | .deleteObject name next => do
    quietly (Exec.modifyHost fun h => h.deleteObject name)
    answer key next
  | .dropObject name next => do
    quietly (Exec.modifyHost fun h => h.dropObject name)
    answer key next
  | .makeObject moduleName next => do
    let made ← quietly (Exec.makeObject moduleName)
    answer key (next made)

/-- Calls a host function. -/
def callHost (id : FunctionId) (signature : Signature) (args : List Operand) :
    Recorded (List Operand) := do
  let m ← quietly get
  let entry ← quietly (Exec.ofLookup (m.host.registry.lookup id))
  let values ← quietly (Exec.ofValue (Operand.decode args signature.params))
  let returned ← answer entry.context (entry.body values)
  quietly (Exec.deliver signature returned)

end Recorded

/-- What a call of a host function records, the first entry first. -/
def HostCall.recorded (c : HostCall) : List LogEntry :=
  (Recorded.callHost c.id c.signature c.args).events c.machine

/-! ## One call -/

namespace Exec

theorem callHost_eq (id : FunctionId) (signature : Signature) (args : List Operand) :
    callHost id signature args = get >>= fun m =>
      ofLookup (m.host.registry.lookup id) >>= fun entry =>
        ofValue (Operand.decode args signature.params) >>= fun values =>
          answer entry.context (entry.body values) >>= deliver signature := by
  refine congrArg (get >>= ·) (funext fun m => ?_)
  cases m.host.registry.lookup id <;> rfl

end Exec

namespace Recorded

theorem erases_answer (key : Option ContextKey) (p : Program) :
    Erases (Exec.answer key p) (answer key p) := by
  induction p with
  | finish result =>
    cases result with
    | ok values => exact .pure values
    | error e => exact .throw _
  | readMemory offset length next ih => exact Erases.after ih
  | writeMemory offset bytes next ih => exact Erases.after ih
  | log entry next ih => exact (Erases.noting _ _).bind fun _ => ih
  | inspect next ih => exact Erases.after fun _ => ih _ _
  | shared next ih => exact Erases.after fun _ => ih _
  | share data next ih =>
    cases key with
    | none => exact Erases.after (x := Pure.pure ()) fun _ => ih
    | some key => exact Erases.after (x := Exec.share (some key) data) fun _ => ih
  | note text next ih => exact Erases.after fun _ => ih
  | deleteObject name next ih => exact Erases.after fun _ => ih
  | dropObject name next ih => exact Erases.after fun _ => ih
  | makeObject moduleName next ih => exact Erases.after (x := Exec.makeObject moduleName) ih

theorem erases_callHost (id : FunctionId) (signature : Signature) (args : List Operand) :
    Erases (Exec.callHost id signature args) (callHost id signature args) := by
  rw [Exec.callHost_eq]
  refine Erases.after fun m => Erases.after fun entry => Erases.after fun values => ?_
  exact (erases_answer _ _).bind fun _ => .quietly _

/-- The log has grown by what was written down. -/
def Grown (m : Machine) (entries : List LogEntry) (_ : Except Stop Unit) (t : Machine) : Prop :=
  t.logs = m.logs ++ entries

theorem history_grown : History Grown where
  still m := (List.append_nil m.logs).symm
  append {s t u l l' _} (h : t.logs = s.logs ++ l) (h' : u.logs = t.logs ++ l') := by
    change u.logs = s.logs ++ (l ++ l')
    rw [h', h, List.append_assoc]

variable {α : Type}

/-- What leaves the log as it is records nothing. -/
theorem tells_quietly {x : Exec α} (h : Keeps (SameBy Machine.logs) x) :
    Tells Grown (quietly x) :=
  Tells.quietly fun m => (h m).trans (List.append_nil m.logs).symm

theorem keeps_guest {x : Exec α} (hx : Guest x) : Keeps (SameBy Machine.logs) x :=
  fun m => Machine.logs_of_outer (hx.toBlind.outer_ending m)

theorem keeps_modifyHost (f : Host → Host) : Keeps (SameBy Machine.logs) (Exec.modifyHost f) :=
  Keeps.modify fun _ => rfl

theorem tells_answer (key : Option ContextKey) (p : Program) : Tells Grown (answer key p) := by
  induction p with
  | finish result =>
    cases result with
    | ok values => exact Tells.pure history_grown values
    | error e => exact Tells.throw history_grown.still
  | readMemory offset length next ih =>
    exact (tells_quietly (keeps_guest inferInstance)).bind history_grown ih
  | writeMemory offset bytes next ih =>
    exact (tells_quietly (keeps_guest inferInstance)).bind history_grown ih
  | log entry next ih => exact (Tells.noting fun _ => rfl).bind history_grown fun _ => ih
  | inspect next ih => exact (tells_quietly Keeps.get).bind history_grown fun _ => ih _ _
  | shared next ih => exact (tells_quietly Keeps.get).bind history_grown fun _ => ih _
  | share data next ih =>
    refine (tells_quietly ?_).bind history_grown fun _ => ih
    cases key with
    | none => exact Keeps.pure _
    | some key => exact keeps_modifyHost fun h => h.setContext key data
  | note text next ih => exact (tells_quietly (keeps_modifyHost _)).bind history_grown fun _ => ih
  | deleteObject name next ih =>
    exact (tells_quietly (keeps_modifyHost _)).bind history_grown fun _ => ih
  | dropObject name next ih =>
    exact (tells_quietly (keeps_modifyHost _)).bind history_grown fun _ => ih
  | makeObject moduleName next ih =>
    refine (tells_quietly ?_).bind history_grown ih
    exact Keeps.get.bind fun _ => (keeps_modifyHost _).bind fun _ => Keeps.pure _

theorem tells_callHost (id : FunctionId) (signature : Signature) (args : List Operand) :
    Tells Grown (callHost id signature args) := by
  refine (tells_quietly Keeps.get).bind history_grown fun m => ?_
  have found : Keeps (SameBy Machine.logs) (Exec.ofLookup (m.host.registry.lookup id)) := by
    cases m.host.registry.lookup id with
    | ok entry => exact Keeps.pure entry
    | error e => exact Keeps.throw _
  refine (tells_quietly found).bind history_grown fun entry => ?_
  refine (tells_quietly (keeps_guest inferInstance)).bind history_grown fun values => ?_
  refine (tells_answer _ _).bind history_grown fun returned => tells_quietly ?_
  refine (keeps_guest inferInstance).bind fun _ => Keeps.get.bind fun m => ?_
  refine (keeps_guest inferInstance).bind fun results => ?_
  split
  · exact Keeps.pure _
  · exact Keeps.throw _

end Recorded

/-- **A host call appends what it records to the log.** -/
theorem HostCall.logs_ending (c : HostCall) :
    (ending c.perform c.machine).logs = c.machine.logs ++ c.recorded :=
  (Recorded.tells_callHost _ _ _).events (Recorded.erases_callHost _ _ _) c.machine

/-! ## Runs -/

/-- The log has grown by what the host calls record. -/
def Logged (m : Machine) (calls : List HostCall) (_ : Except Stop Unit) (t : Machine) : Prop :=
  t.logs = m.logs ++ calls.flatMap HostCall.recorded

theorem witnessed_logged : Witnessed Logged where
  still m := (List.append_nil m.logs).symm
  append {s t u l l' _} (h : t.logs = s.logs ++ _) (h' : u.logs = t.logs ++ _) := by
    change u.logs = s.logs ++ (l ++ l').flatMap HostCall.recorded
    rw [h', h, List.flatMap_append, List.append_assoc]
  within hx m := (Machine.logs_of_outer (hx.keeps m).outer).trans (List.append_nil m.logs).symm
  callHost c := by
    change _ = c.machine.logs ++ [c].flatMap HostCall.recorded
    rw [List.flatMap_singleton]
    exact c.logs_ending
  callSystem c args m :=
    (Exec.keeps_callSystem_of (fun _ hx => Recorded.keeps_guest hx)
      (fun _ _ => Keeps.modify fun _ => rfl) c args m).trans (List.append_nil m.logs).symm

end WasmEmbedding.Engine
