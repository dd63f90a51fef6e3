import WasmEmbedding.Proofs.Engine.Effects
import WasmEmbedding.Proofs.Host.Revocation

/-! # What host calls meet

Guests leave the host alone, and the body of a host function changes import objects by deeds only.
So the hosts that the calls of a run meet come one after the other, from the host before the run to
the one after it (`witnessed_trails`).  A call looks its number up on the host that it meets:
`HostCall.run_of_live` and `HostCall.run_of_dead` say what it comes to, and a call that fails is
the last one of its run (`witnessed_fatal`).
-/
namespace WasmEmbedding.Engine

open Chronicle Host Wasm

/-- The host that a call meets. -/
def HostCall.host (c : HostCall) : Host := c.machine.host

/-! ## From host to host -/

/-- Whatever a run does to the host leads on. -/
theorem effects_leads : Effects (fun _ => True) (fun _ => True) Leads where
  note _ _ := .elsewhere rfl rfl (Nat.le_refl _)
  share _ _ _ _ := .elsewhere rfl rfl (Nat.le_of_eq Array.size_setIfInBounds.symm)
  delete h name _ := .deed h (.delete name)
  drop h name _ := .deed h (.drop name)
  make h moduleName := .deed h (.make moduleName)
  adopt _ _ _ _ _ := .elsewhere rfl rfl (Nat.le_refl _)

/-- The hosts that the calls meet come one after the other. -/
def Trails (m : Machine) (calls : List HostCall) (_ : Except Stop Unit) (t : Machine) : Prop :=
  Along m.host (calls.map HostCall.host) t.host

theorem witnessed_trails : Witnessed Trails where
  still m := .last (Std.Refl.refl m.host)
  append {s t u l l' _} (h : Along s.host _ t.host) (h' : Along t.host _ u.host) := by
    change Along s.host ((l ++ l').map HostCall.host) u.host
    rw [List.map_append]
    exact h.append h'
  within {_ x} hx m := by
    have hhost : (ending x m).host = m.host := congrArg Outer.host (hx.keeps m).outer
    change Along m.host [] (ending x m).host
    rw [hhost]
    exact .last (Std.Refl.refl m.host)
  callHost c := .next (Std.Refl.refl c.machine.host)
    (.last (Exec.host_callHost effects_leads (fun entry _ => entry.minds_all) _ _))
  callSystem c args m := .last (Exec.keeps_host_callSystem effects_leads c args m)

/-! ## What a call comes to -/

/-- What a call comes to with a body and the key of the data that it shares: the body is given the
arguments, and what it returns goes to the guest. -/
def HostCall.serve (c : HostCall) (entry : Registration) : Exec (List Operand) := do
  let values ← Exec.ofValue (Operand.decode c.args c.signature.params)
  let returned ← Exec.answer entry.context (entry.body values)
  Exec.deliver c.signature returned

/-- A call looks its number up first. -/
theorem HostCall.run_perform (c : HostCall) :
    EStateM.run c.perform c.machine =
      EStateM.run (Exec.ofLookup (c.host.registry.lookup c.id) >>= c.serve) c.machine := by
  unfold HostCall.perform
  rw [Exec.callHost_eq]
  rfl

/-- A call of a number that is live runs the body that it stands for to its end, whatever becomes of
the number meanwhile. -/
theorem HostCall.run_of_live {c : HostCall} {entry : Registration}
    (h : c.host.registry.lookup c.id = .ok entry) :
    EStateM.run c.perform c.machine = EStateM.run (c.serve entry) c.machine := by
  rw [c.run_perform, h]
  rfl

/-- A call of any other number comes to nothing. -/
theorem HostCall.run_of_dead {c : HostCall} {e : RegistryError}
    (h : c.host.registry.lookup c.id = .error e) :
    EStateM.run c.perform c.machine = .error (.registry e) c.machine := by
  rw [c.run_perform, h]
  rfl

/-- Where a host call fails, it is the last one, and the run fails with it and leaves what it has
left. -/
def Fatal (_ : Machine) (calls : List HostCall) (r : Except Stop Unit) (t : Machine) : Prop :=
  ∀ c ∈ calls, ∀ e u, EStateM.run c.perform c.machine = .error e u →
    calls.getLast? = some c ∧ r = .error e ∧ t = u

theorem witnessed_fatal : Witnessed Fatal where
  still _ := nofun
  append {_ _ _ l l' _} h h' := by
    intro c hc e u he
    rcases List.mem_append.mp hc with hc | hc
    · cases (h c hc e u he).2.1
    · obtain ⟨hlast, hr⟩ := h' c hc e u he
      exact ⟨List.mem_getLast?_append_of_mem_getLast? hlast, hr⟩
  within _ _ := nofun
  callHost c := by
    intro d hd e u he
    cases List.mem_singleton.mp hd
    refine ⟨rfl, ?_, ending_of_error he⟩
    rw [outcome_of_error he]
    rfl
  callSystem _ _ _ := nofun

end WasmEmbedding.Engine
