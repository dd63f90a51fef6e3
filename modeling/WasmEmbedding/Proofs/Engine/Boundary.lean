import WasmEmbedding.Proofs.Engine.Trail
import WasmEmbedding.Proofs.Value.Codec
import WasmEmbedding.Proofs.Wasi.Texts

/-! # Across the boundary and back

A call of a host function looks its number up, reads the operands by the kinds of the parameters,
runs the body, and holds what the body returns against the kinds of the results.  The bodies that a
call runs (`HostCall.bodies`) are read off a chronicle of it: there is one at most
(`HostCall.runs_of_mem`), and the guest is given what this one returns or nothing
(`HostCall.run_perform_eq_ok`).

A run that stops has stopped for a reason of the guest's own, or with the last call that has left
the guest (`witnessed_stopped`): a host call that fails, or the call that ends the guest.  Nothing
runs after it: the run leaves the machine that this call has left.
-/
namespace WasmEmbedding.Engine

open Chronicle Host Wasm

/-! ## Bodies -/

/-- A run of the body of a host function. -/
structure BodyRun where
  entry : Registration
  values : List Value
  /-- The machine that the body starts from. -/
  machine : Machine

/-- What the body does. -/
def BodyRun.perform (b : BodyRun) : Exec (List Value) :=
  Exec.answer b.entry.context (b.entry.body b.values)

namespace HostCall

/-- The call, with the bodies that it runs. -/
def chronicled (c : HostCall) : Chronicle BodyRun Stop Machine (List Operand) := do
  let m ← quietly get
  let entry ← quietly (Exec.ofLookup (m.host.registry.lookup c.id))
  let values ← quietly (Exec.ofValue (Operand.decode c.args c.signature.params))
  let returned ← noting (fun m => ⟨entry, values, m⟩)
    (Exec.answer entry.context (entry.body values))
  quietly (Exec.deliver c.signature returned)

/-- The bodies that the call runs, the first one first. -/
def bodies (c : HostCall) : List BodyRun := c.chronicled.events c.machine

/-- The call is to run a body: the one that its number stands for, on its operands, which have the
kinds of the parameters. -/
structure Runs (c : HostCall) (b : BodyRun) : Prop where
  lookup : c.host.registry.lookup c.id = .ok b.entry
  decode : Operand.decode c.args c.signature.params = .ok b.values
  kinds : b.values.map Value.kind = c.signature.params
  machine : b.machine = c.machine

/-- What a call makes of a body and of what this returns. -/
def round (c : HostCall) (b : BodyRun) : Exec (List Operand) := do
  let returned ← b.perform
  Exec.deliver c.signature returned

variable {c : HostCall} {b : BodyRun}

theorem run_chronicled (c : HostCall) : EStateM.run c.chronicled (c.machine, []) =
    EStateM.run (quietly (Exec.ofLookup (c.host.registry.lookup c.id)) >>= fun entry =>
      quietly (Exec.ofValue (Operand.decode c.args c.signature.params)) >>= fun values =>
        noting (fun m => ⟨entry, values, m⟩) (Exec.answer entry.context (entry.body values)) >>=
          fun returned => quietly (Exec.deliver c.signature returned)) (c.machine, []) := rfl

/-- A call of a number that stands for nothing runs no body. -/
theorem bodies_of_dead {e : RegistryError} (h : c.host.registry.lookup c.id = .error e) :
    c.bodies = [] := by
  have hrun := c.run_chronicled
  rw [h] at hrun
  exact congrArg Prod.snd (ending_of_error hrun)

/-- A call whose operands do not have the kinds of the parameters runs no body. -/
theorem of_unread {entry : Registration} {e : ValueError}
    (hlookup : c.host.registry.lookup c.id = .ok entry)
    (hdecode : Operand.decode c.args c.signature.params = .error e) :
    c.bodies = [] ∧ EStateM.run c.perform c.machine = .error (.value e) c.machine := by
  have hrun := c.run_chronicled
  rw [hlookup, hdecode] at hrun
  rw [run_of_live hlookup, serve, hdecode]
  exact ⟨congrArg Prod.snd (ending_of_error hrun), rfl⟩

/-- Any other call runs one body. -/
theorem Runs.bodies_eq (h : c.Runs b) : c.bodies = [b] := by
  have hrun := c.run_chronicled
  rw [h.lookup, h.decode] at hrun
  refine (congrArg Prod.snd (ending_congr (hrun.trans rfl))).trans
    ((events_noting _ _ fun returned => Exec.deliver c.signature returned).trans ?_)
  rw [← h.machine]

theorem Runs.run_perform (h : c.Runs b) :
    EStateM.run c.perform c.machine = EStateM.run (c.round b) b.machine := by
  rw [run_of_live h.lookup, serve, h.decode, h.machine]
  rfl

/-- Every call runs one body at most. -/
theorem cases (c : HostCall) : (∃ e, c.host.registry.lookup c.id = .error e) ∨
    (∃ entry e, c.host.registry.lookup c.id = .ok entry ∧
      Operand.decode c.args c.signature.params = .error e) ∨ ∃ b, c.Runs b := by
  cases lookup : c.host.registry.lookup c.id with
  | error e => exact .inl ⟨e, rfl⟩
  | ok entry =>
    cases decode : Operand.decode c.args c.signature.params with
    | error e => exact .inr (.inl ⟨entry, e, rfl, rfl⟩)
    | ok values =>
      exact .inr (.inr ⟨⟨entry, values, c.machine⟩, lookup, decode,
        (Operand.eq_of_decode decode).2, rfl⟩)

end HostCall

/-! ## What comes back -/

namespace Exec

/-- A body stops with an error that it returns, or because it is stuck. -/
theorem throws_answer (key : Option ContextKey) (p : Program) :
    Throws (fun e => e.Own ∨ ∃ h, e = .host h) (answer key p) := by
  have guest : ∀ {α : Type} (x : Exec α) [Guest x],
      Throws (fun e => e.Own ∨ ∃ h, e = .host h) x := fun x hx => hx.own.mono fun _ => .inl
  induction p with
  | finish result =>
    cases result with
    | ok values => exact .pure _
    | error e => exact .throw (.inr ⟨e, rfl⟩)
  | readMemory offset length next ih => exact (guest _).bind ih
  | writeMemory offset bytes next ih => exact (guest _).bind ih
  | log entry next ih => exact Throws.bind (x := log entry) .modify fun _ => ih
  | inspect next ih => exact Throws.get.bind fun _ => ih _ _
  | shared next ih => exact Throws.get.bind fun _ => ih _
  | share data next ih =>
    cases key with
    | none => exact (Throws.pure ()).bind fun _ => ih
    | some key => exact Throws.bind (x := modifyHost _) .modify fun _ => ih
  | note text next ih => exact Throws.bind (x := modifyHost _) .modify fun _ => ih
  | deleteObject name next ih => exact Throws.bind (x := modifyHost _) .modify fun _ => ih
  | dropObject name next ih => exact Throws.bind (x := modifyHost _) .modify fun _ => ih
  | makeObject moduleName next ih =>
    exact Throws.get.bind fun _ => Throws.bind (x := modifyHost _) .modify fun _ => ih _

variable {signature : Signature} {returned : List Value} {t : Machine}

/-- What is delivered is looked at in the store that the body has left. -/
theorem run_deliver (signature : Signature) (returned : List Value) (t : Machine) :
    EStateM.run (deliver signature returned) t =
      EStateM.run (ofValue (Value.check returned signature.returns) >>= fun _ =>
        ofValue (Value.encode t.store.heap returned) >>= fun results =>
          if results.all (Operand.belongsTo t.store.id) then pure results
          else throw (.failure "a host function returned a reference of another store")) t := by
  unfold deliver
  cases Value.check returned signature.returns <;> rfl

theorem throws_own_deliver (signature : Signature) (returned : List Value) :
    Throws Stop.Own (deliver signature returned) := by
  have guest : ∀ {α : Type} (x : Exec α) [Guest x], Throws Stop.Own x := fun x hx => hx.own
  intro t e u h
  rw [run_deliver] at h
  refine ((guest _).bind fun _ => (guest _).bind fun results => ?_) t e u h
  split
  · exact .pure _
  · exact .throw trivial

/-- The guest is given what has the kinds of the results, and can be written as operands of the
guest's store. -/
theorem run_deliver_eq_ok {results : List Operand} {u : Machine} :
    EStateM.run (deliver signature returned) t = .ok results u ↔
      u = t ∧ returned.map Value.kind = signature.returns ∧
        Value.encode t.store.heap returned = .ok results ∧
        results.all (Operand.belongsTo t.store.id) = true := by
  rw [run_deliver, ← Value.check_eq_ok_iff]
  cases Value.check returned signature.returns with
  | error e => exact ⟨nofun, fun h => nomatch h.2.1⟩
  | ok _ =>
    cases Value.encode t.store.heap returned with
    | error e => exact ⟨nofun, fun h => nomatch h.2.2.1⟩
    | ok operands =>
      change EStateM.run (if operands.all _ then _ else _) t = _ ↔ _
      cases own : operands.all (Operand.belongsTo t.store.id) with
      | false =>
        refine ⟨nofun, ?_⟩
        rintro ⟨-, -, ⟨⟩, h⟩
        exact nomatch own.symm.trans h
      | true =>
        constructor
        · rintro ⟨⟩
          exact ⟨rfl, rfl, rfl, own⟩
        · rintro ⟨rfl, -, ⟨⟩, -⟩
          rfl

theorem run_deliver_of_mismatch {e : ValueError}
    (h : Value.check returned signature.returns = .error e) :
    EStateM.run (deliver signature returned) t = .error (.value e) t := by
  rw [run_deliver, h]
  rfl

end Exec

namespace HostCall

variable {c : HostCall} {b : BodyRun}

/-- What runs is what the call is to run. -/
theorem runs_of_mem (hb : b ∈ c.bodies) : c.Runs b ∧ c.bodies = [b] := by
  obtain ⟨e, hdead⟩ | ⟨entry, e, hlookup, hdecode⟩ | ⟨d, hd⟩ := c.cases
  · rw [bodies_of_dead hdead] at hb
    cases hb
  · rw [(of_unread hlookup hdecode).1] at hb
    cases hb
  · rw [hd.bodies_eq] at hb
    cases List.mem_singleton.mp hb
    exact ⟨hd, hd.bodies_eq⟩

/-- **The guest is given what the body returns**, and nothing else. -/
theorem run_perform_eq_ok {results : List Operand} {t : Machine} :
    EStateM.run c.perform c.machine = .ok results t ↔
      ∃ b ∈ c.bodies, ∃ returned, EStateM.run b.perform b.machine = .ok returned t ∧
        returned.map Value.kind = c.signature.returns ∧
        Value.encode t.store.heap returned = .ok results ∧
        results.all (Operand.belongsTo t.store.id) = true := by
  constructor
  · intro h
    obtain ⟨e, hdead⟩ | ⟨entry, e, hlookup, hdecode⟩ | ⟨b, hb⟩ := c.cases
    · cases (run_of_dead hdead).symm.trans h
    · cases (of_unread hlookup hdecode).2.symm.trans h
    · rw [hb.run_perform] at h
      obtain ⟨returned, u, hbody, hdeliver⟩ := run_bind_eq_ok.mp h
      obtain ⟨rfl, hreturned⟩ := Exec.run_deliver_eq_ok.mp hdeliver
      exact ⟨b, hb.bodies_eq ▸ List.mem_singleton_self b, returned, hbody, hreturned⟩
  · rintro ⟨b, hb, returned, hbody, hreturned⟩
    rw [(runs_of_mem hb).1.run_perform]
    exact run_bind_eq_ok.mpr ⟨returned, t, hbody, Exec.run_deliver_eq_ok.mpr ⟨rfl, hreturned⟩⟩

/-- What is true of every call of a host function. -/
structure Bounded (c : HostCall) : Prop where
  /-- One body runs at most, and only one that the number stands for, on arguments of the kinds of
  the parameters. -/
  bodies : c.bodies = [] ∨ ∃ b, c.bodies = [b] ∧ c.Runs b
  /-- The guest is given operands only if the body returns values of the kinds of the results, and
  then it is given theirs. -/
  results : ∀ results t, EStateM.run c.perform c.machine = .ok results t ↔
    ∃ b ∈ c.bodies, ∃ returned, EStateM.run b.perform b.machine = .ok returned t ∧
      returned.map Value.kind = c.signature.returns ∧
      Value.encode t.store.heap returned = .ok results ∧
      results.all (Operand.belongsTo t.store.id) = true

theorem bounded (c : HostCall) : c.Bounded where
  bodies := by
    cases hbodies : c.bodies with
    | nil => exact .inl rfl
    | cons b rest =>
      obtain ⟨runs, only⟩ := runs_of_mem (hbodies ▸ List.mem_cons_self : b ∈ c.bodies)
      exact .inr ⟨b, hbodies.symm.trans only, runs⟩
  results _ _ := run_perform_eq_ok

/-- A call fails with what its body fails with. -/
theorem run_perform_of_fails (hb : b ∈ c.bodies) {e : Stop} {t : Machine}
    (h : EStateM.run b.perform b.machine = .error e t) :
    EStateM.run c.perform c.machine = .error e t := by
  rw [(runs_of_mem hb).1.run_perform]
  exact run_bind_of_error h

/-- A call fails if its body returns values of other kinds. -/
theorem run_perform_of_mismatch (hb : b ∈ c.bodies) {returned : List Value} {t : Machine}
    (h : EStateM.run b.perform b.machine = .ok returned t) {e : ValueError}
    (hcheck : Value.check returned c.signature.returns = .error e) :
    EStateM.run c.perform c.machine = .error (.value e) t := by
  rw [(runs_of_mem hb).1.run_perform]
  exact (run_bind_of_ok h).trans (Exec.run_deliver_of_mismatch hcheck)

/-- What a call fails with that is no reason of the guest's own: its number stands for nothing, or
its body returns the error. -/
theorem run_perform_error {e : Stop} {t : Machine}
    (h : EStateM.run c.perform c.machine = .error e t) :
    e.Own ∨ (∃ d, e = .registry d ∧ c.host.registry.lookup c.id = .error d) ∨
      ∃ d, e = .host d ∧ ∃ b ∈ c.bodies, EStateM.run b.perform b.machine = .error e t := by
  obtain ⟨d, hdead⟩ | ⟨entry, d, hlookup, hdecode⟩ | ⟨b, hb⟩ := c.cases
  · cases (run_of_dead hdead).symm.trans h
    exact .inr (.inl ⟨d, rfl, hdead⟩)
  · cases (of_unread hlookup hdecode).2.symm.trans h
    exact .inl trivial
  · rw [hb.run_perform] at h
    obtain hbody | ⟨returned, u, hbody, hdeliver⟩ := run_bind_eq_error.mp h
    · obtain own | ⟨d, rfl⟩ := Exec.throws_answer _ _ _ _ _ hbody
      · exact .inl own
      · exact .inr (.inr ⟨d, rfl, b, hb.bodies_eq ▸ List.mem_singleton_self b, hbody⟩)
    · exact .inl (Exec.throws_own_deliver _ _ _ _ _ hdeliver)

end HostCall

/-! ## Why a run stops -/

/-- Why a run with these calls has stopped, and where. -/
inductive Stopped (calls : List HostCall) (t : Machine) : Stop → Prop
  /-- The guest has come to it by itself. -/
  | own {e : Stop} (h : e.Own) : Stopped calls t e
  /-- The last host call has failed. -/
  | host {c : HostCall} {e : Stop} (last : calls.getLast? = some c)
      (fails : EStateM.run c.perform c.machine = .error e t) : Stopped calls t e
  /-- The guest has asked to end. -/
  | exit {m : Machine} {args : List Operand} {n : Nat} (h : n < 126)
      (asks : EStateM.run (Exec.callSystem .procExit args) m = .error (.exit (UInt32.ofNat n)) t) :
      Stopped calls t (.exit (UInt32.ofNat n))

namespace Exec

open Wasi

/-- A function of the system interface stops the guest for no reason but its own, unless it is the
one that the guest asks to end with. -/
theorem callSystem_error {c : Syscall} {args : List Operand} {m t : Machine} {e : Stop}
    (h : EStateM.run (callSystem c args) m = .error e t) :
    e.Own ∨ c = .procExit ∧ ∃ n < 126, e = .exit (UInt32.ofNat n) := by
  cases haddress : m.frame.home.bind m.store.callerMemory? with
  | none =>
    rw [run_callSystem_of_memoryless haddress] at h
    cases h
    exact .inl trivial
  | some address =>
    cases hmemory : m.store.memories[address]? with
    | none =>
      rw [run_callSystem_of_unmapped haddress hmemory] at h
      cases h
      exact .inl trivial
    | some memory =>
      rw [run_callSystem haddress hmemory] at h
      have hconclude := (run_bind_of_ok (x := adopt address _) rfl).symm.trans h
      cases hr : (c.run (args.map argument)).result (processOf m memory) with
      | ok _ =>
        rw [hr] at hconclude
        cases hconclude
      | error halt =>
        rw [hr] at hconclude
        cases halt with
        | errno e => cases hconclude
        | failure message =>
          cases hconclude
          exact .inl trivial
        | exit code =>
          cases hconclude
          obtain ⟨hc, n, -, hn, rfl⟩ := Syscall.exits_run hr
          exact .inr ⟨hc, n, hn, rfl⟩

end Exec

theorem witnessed_stopped :
    Witnessed fun _ calls r t => ∀ e, r = .error e → Stopped calls t e where
  still _ := nofun
  append _ h' e he := by
    cases h' e he with
    | own h => exact .own h
    | host last fails => exact .host (List.mem_getLast?_append_of_mem_getLast? last) fails
    | exit h asks => exact .exit h asks
  within hx m e he := .own (hx.own.succeeded he)
  callHost c e he := by
    obtain ⟨t, ht⟩ := run_of_succeeded_error he
    rw [ending_of_error ht]
    exact .host rfl ht
  callSystem c args m e he := by
    obtain ⟨t, ht⟩ := run_of_succeeded_error he
    rw [ending_of_error ht]
    obtain h | ⟨rfl, n, hn, rfl⟩ := Exec.callSystem_error ht
    · exact .own h
    · exact .exit hn ht

end WasmEmbedding.Engine
