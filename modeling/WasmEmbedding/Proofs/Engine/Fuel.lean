import WasmEmbedding.Proofs.Engine.HostCalls

/-! # The fuel of a run

Nobody gives a run more fuel than it starts with, and a run for which nobody counts does not
run out of it, whatever guests, host functions and functions of the system interface do
(`witnessed_keepsBudget`).  What a run has spent is therefore at most what it was given, and nothing
where nobody counts.
-/
namespace WasmEmbedding.Engine

open Chronicle Host Wasm

variable {α β : Type}

namespace Exec

/-! ## Host functions and the system interface -/

theorem metered_modifyHost (f : Host → Host) : Metered (modifyHost f) :=
  Metered.modify fun _ => rfl

theorem metered_answer (key : Option ContextKey) (p : Program) : Metered (answer key p) := by
  induction p with
  | finish result =>
    cases result with
    | ok values => exact .pure _
    | error e => exact .throw nofun
  | readMemory offset length next ih => exact Guest.metered.bind ih
  | writeMemory offset bytes next ih => exact Guest.metered.bind ih
  | log entry next ih => exact Metered.bind (.modify fun _ => rfl) fun _ => ih
  | inspect next ih => exact Metered.get.bind fun _ => ih _ _
  | shared next ih => exact Metered.get.bind fun _ => ih _
  | share data next ih =>
    cases key with
    | none => exact (Metered.pure ()).bind fun _ => ih
    | some key => exact (metered_modifyHost _).bind fun _ => ih
  | note text next ih => exact (metered_modifyHost _).bind fun _ => ih
  | deleteObject name next ih => exact (metered_modifyHost _).bind fun _ => ih
  | dropObject name next ih => exact (metered_modifyHost _).bind fun _ => ih
  | makeObject moduleName next ih =>
    exact Metered.get.bind fun _ => (metered_modifyHost _).bind fun _ => ih _

theorem metered_callHost (id : FunctionId) (signature : Signature) (args : List Operand) :
    Metered (callHost id signature args) := by
  refine Metered.get.bind fun m => ?_
  cases m.host.registry.lookup id with
  | error e => exact .throw nofun
  | ok entry =>
    refine (Metered.pure entry).bind fun entry => Guest.metered.bind fun values => ?_
    refine (metered_answer _ _).bind fun returned => Guest.metered.bind fun _ => ?_
    refine Metered.get.bind fun m => Guest.metered.bind fun results => ?_
    split
    · exact .pure _
    · exact .throw nofun

theorem metered_callSystem (c : Wasi.Syscall) (args : List Operand) :
    Metered (callSystem c args) := by
  refine Guest.metered.bind fun r => ?_
  split
  · refine (Metered.pure _).bind fun address => Metered.get.bind fun m => ?_
    refine Guest.metered.bind fun memory => (Metered.get.bind fun _ => .pure _).bind fun p => ?_
    refine Metered.bind (.modify fun _ => rfl) fun _ => ?_
    split
    · exact .pure _
    · exact .pure _
    · exact .throw (by rintro ⟨⟩)
    · exact .throw (by rintro ⟨⟩)
  · exact Metered.throw (e := .failure "missing required memory export") (by rintro ⟨⟩)

end Exec

/-! ## Runs -/

/-- What keeps a computation metered, told of a piece of a run. -/
def KeepsBudget (m : Machine) (_ : List HostCall) (r : Except Stop Unit) (t : Machine) : Prop :=
  t.meter.budget = m.meter.budget ∧ (m.meter.budget = none → r ≠ .error .outOfFuel)

theorem keepsBudget_of_metered {x : Exec α} (h : Metered x) (m : Machine) (calls : List HostCall) :
    KeepsBudget m calls (succeeded (outcome x m)) (ending x m) := by
  obtain ⟨hbudget, hfuel⟩ := h m
  refine ⟨hbudget, fun hnone hr => hfuel hnone ?_⟩
  cases hx : outcome x m with
  | ok a =>
    rw [hx] at hr
    cases hr
  | error e =>
    rw [hx] at hr
    cases hr
    rfl

/-- **A run keeps its budget**, whatever it calls. -/
theorem witnessed_keepsBudget : Witnessed KeepsBudget where
  still _ := ⟨rfl, fun _ => nofun⟩
  append h h' := ⟨h'.1.trans h.1, fun hnone => h'.2 (h.1.trans hnone)⟩
  within hx m := keepsBudget_of_metered hx.metered m []
  callHost _ := keepsBudget_of_metered (Exec.metered_callHost _ _ _) _ _
  callSystem c args m := keepsBudget_of_metered (Exec.metered_callSystem c args) m []

end WasmEmbedding.Engine
