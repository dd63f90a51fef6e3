import WasmEmbedding.Proofs.Engine.GuestLogs
import WasmEmbedding.Proofs.Vm.GuestMemory
import WasmEmbedding.Proofs.Vm.Trail

/-! # Guests that log

The logging function of the host is given three numbers by a guest: a level, and where in the memory
of the guest the message is.  Nothing that a guest can give is an error.  A number may be negative,
the range may begin inside of the memory and end outside, the bytes may be no text, there may be no
memory at all, and in each case the guest goes on as if it had logged (`HostCall.Logs`).

What is shown is that, and exactly which entry there is.  In every run of every operation of a
reachable machine the layout is sound where the function is called, so that the bytes of the message
are what the caller's memory has there, or the range does not fit.  The owner of the machine may
call the function as well, by the name under which it is registered, and is answered.  As no guest
calls it then, there is no memory to take a message from, and the log stays as it is: the run of the
engine ends before its first step (`run_exchange_of_logging`).  `guest_logs_exactly` puts the two
kinds of calls together.
-/
namespace WasmEmbedding.Vm

open Engine Wasm

/-- The call is one of the logging function, without a guest in between. -/
structure Call.AsksToLog (k : Call) (s : Setting) (level pointer length : UInt32) : Prop where
  function : ∃ address id context, k.Admitted s.vm address Host.Logging.function.signature ∧
    s.vm.store.functions[address]? = some (.host id Host.Logging.function.signature) ∧
    s.host.registry.lookup id = .ok ⟨Host.Logging.body, context⟩
  args : k.args = [.i32 level, .i32 pointer, .i32 length]

namespace Action

/-- Where no guest is running there is nothing to run. -/
theorem run_idle (s : Setting) :
    EStateM.run (Exec.run Exec.manySteps) (computer s) = .ok () (computer s) := by
  obtain ⟨n, hn⟩ : ∃ n, Exec.manySteps = n + 1 := ⟨Nat.pow 2 62 - 1, rfl⟩
  rw [hn]
  rfl

theorem run_exchange_of_logging {s : Setting} (hsound : s.vm.store.layout.Sound) {address : Nat}
    {id : Host.FunctionId}
    (hfunction : s.vm.store.functions[address]? = some (.host id Host.Logging.function.signature))
    {context : Option Host.ContextKey}
    (hlookup : s.host.registry.lookup id = .ok ⟨Host.Logging.body, context⟩)
    (level pointer length : UInt32) : EStateM.run (exchange address Host.Logging.function.signature
      [.i32 level, .i32 pointer, .i32 length]) (computer s) = .ok [] (computer s) := by
  let c : HostCall := ⟨id, Host.Logging.function.signature,
    [.i32 level, .i32 pointer, .i32 length], computer s⟩
  have asks : c.AsksToLog level pointer length := ⟨⟨context, hlookup⟩, rfl, rfl⟩
  have alone : ∀ bytes, ¬ Message c.machine pointer length bytes := by
    rintro bytes ⟨-, -, address, memory, lent, -⟩
    cases lent
  have hcall := (HostCall.logs_of_sound (c := c) hsound asks).absent alone
  have hinvoke : EStateM.run (Exec.invoke address [.i32 level, .i32 pointer, .i32 length])
      (computer s) = .ok [] (computer s) := by
    have hfound : (computer s).store.functions[address]? =
        some (.host id Host.Logging.function.signature) := hfunction
    have hpushed : EStateM.run (Exec.call address [.i32 level, .i32 pointer, .i32 length])
        (computer s) = .ok () (computer s) := by
      unfold Exec.call
      rw [run_bind_of_ok (x := get) (a := computer s) (t := computer s) rfl, hfound]
      exact run_bind_of_ok hcall
    refine (run_bind_of_ok hpushed).trans ?_
    exact (run_bind_of_ok (run_idle s)).trans rfl
  exact (run_bind_of_ok hinvoke).trans rfl

end Action

/-- The owner of a machine that calls the logging function is answered, and only counts change. -/
theorem Call.run_action_of_logging {s : Setting} {k : Call} {level pointer length : UInt32}
    (hsound : s.vm.store.layout.Sound) (h : k.AsksToLog s level pointer length) :
    ∃ statistics, EStateM.run k.action s = .ok [] ⟨{ s.vm with statistics }, s.host⟩ := by
  obtain ⟨address, id, context, admitted, hfunction, hlookup⟩ := h.function
  have hrun := run_action_of_admitted admitted
  rw [h.args] at hrun
  have hexchange := Action.run_exchange_of_logging hsound hfunction hlookup level pointer length
  rw [outcome_of_ok hexchange, ending_of_ok hexchange] at hrun
  exact ⟨_, hrun⟩

/-- **Guest logging is total and exact.**  In a reachable machine, no call of the logging function
fails: it records one entry if neither number is negative and the range lies in the memory that the
caller lends, with the text of these bytes or the remark that they are none, at the level that the
number means, and nothing otherwise; nothing but the log changes.  Whoever calls the function
without a guest lends no memory, and records nothing. -/
theorem guest_logs_exactly {s : Setting} (h : Reachable s) :
    (∀ (o : Operation), ∀ r ∈ s.runs o, ∀ c ∈ r.calls, ∀ level pointer length,
      c.AsksToLog level pointer length → c.Logs level pointer length) ∧
    ∀ (k : Call) level pointer length, k.AsksToLog s level pointer length →
      ∃ statistics, EStateM.run k.action s = .ok [] ⟨{ s.vm with statistics }, s.host⟩ := by
  have hsound : s.vm.store.layout.Sound := invariant_layout.reachable h
  exact ⟨fun o r hr c hc level pointer length asks =>
      HostCall.logs_of_sound (sound_of_mem_calls hsound hr hc) asks,
    fun k level pointer length asks => Call.run_action_of_logging hsound asks⟩

/-- A host that offers the logging function. -/
def loggingHost : Host :=
  Host.afterAll {} [.create "log" "env" none, .addFunction "log" "log" Host.Logging.function]

/-- The import object. -/
def loggingObject : Host.ImportObject :=
  ⟨"env", some [("log", .function ⟨1⟩ Host.Logging.function.signature)], none, none⟩

/-- The bytes of a module with a memory of one page, whose start function logs what is at the very
end of it, which is nothing, and then one byte too many. -/
def loggingBytes : List UInt8 :=
  emptyBytes ++ [1, 10, 2, 0x60, 3, 0x7f, 0x7f, 0x7f, 0, 0x60, 0, 0] ++
    [2, 0x0b, 1, 3, 0x65, 0x6e, 0x76, 3, 0x6c, 0x6f, 0x67, 0, 0] ++ [3, 2, 1, 1] ++
    [5, 3, 1, 0, 1] ++ [7, 10, 1, 6, 0x6d, 0x65, 0x6d, 0x6f, 0x72, 0x79, 2, 0] ++ [8, 1, 1] ++
    [10, 0x18, 1, 0x16, 0, 0x41, 2, 0x41, 0x80, 0x80, 4, 0x41, 0, 0x10, 0, 0x41, 0, 0x41, 0xff,
      0xff, 3, 0x41, 2, 0x10, 0, 0x0b]

/-- A new machine. -/
def unlinked : Setting := ⟨empty {} ⟨0⟩, loggingHost.newStore.2⟩

/-- The machine when it has linked the import object and loaded the module. -/
def logging : Setting :=
  (unlinked.after (.registerImport loggingObject)).after (.load (.bytes loggingBytes))

theorem reachable_logging : Reachable logging := by
  have hnew : Vm.new loggingHost {} = (.ok (empty {} ⟨0⟩), loggingHost.newStore.2) := rfl
  exact .operate (.operate (.new hnew) _) _

/-- The arguments of the calls. -/
def loggingArgs : List (UInt32 × UInt32 × UInt32) := [(2, 65536, 0), (0, 65535, 2)]

/-- What there is to see of a call with these arguments: the call itself, what the object offers,
and the size of the memory that is lent. -/
def loggingCall (x : UInt32 × UInt32 × UInt32) :
    (Host.FunctionId × Signature × List Operand) × Option (List Host.FunctionId) × Option Nat :=
  ((⟨1⟩, Host.Logging.function.signature, [.i32 x.1, .i32 x.2.1, .i32 x.2.2]), some [⟨1⟩],
    some 65536)

/-- The number that the host has given the function. -/
def loggingGrant : Host.Grant := ⟨⟨1⟩, some "log", "env", "log", Host.Logging.function, none⟩

theorem owned_loggingHost : Host.Owned loggingHost [loggingGrant] :=
  (Host.Owned.new rfl rfl).deeds _

/-- The start function makes these calls. -/
theorem asks_logging {x : UInt32 × UInt32 × UInt32} (hx : x ∈ loggingArgs) :
    ∃ r ∈ logging.runs .instantiate, ∃ c ∈ r.calls, c.AsksToLog x.1 x.2.1 x.2.2 ∧
      ∃ address memory, c.machine.hostMemory? = some (address, memory) ∧ memory.size = 65536 := by
  have hcalls : ((logging.runs .instantiate).flatMap fun r => r.calls.map fun c =>
      ((c.id, c.signature, c.args), (c.host.objects.lookup "log").map Host.ImportObject.functionIds,
        c.machine.hostMemory?.map fun x => x.2.size)) = loggingArgs.map loggingCall := by
    decide +kernel
  have hmem := List.mem_map_of_mem (f := loggingCall) hx
  rw [← hcalls] at hmem
  obtain ⟨r, hr, hmem⟩ := List.mem_flatMap.mp hmem
  obtain ⟨c, hc, hmem⟩ := List.mem_map.mp hmem
  simp only [loggingCall, Prod.mk.injEq] at hmem
  obtain ⟨⟨hid, hsignature, hargs⟩, hobjects, hsize⟩ := hmem
  obtain ⟨⟨address, memory⟩, lent, hsize⟩ := Option.map_eq_some_iff.mp hsize
  refine ⟨r, hr, c, hc, ⟨⟨none, ?_⟩, hsignature, hargs⟩, address, memory, lent, hsize⟩
  -- The object still offers the function when it is called.
  have hnew : Host.Leads loggingHost unlinked.host := .elsewhere rfl rfl (Nat.le_refl _)
  have hlinked := (trail_after unlinked (.registerImport loggingObject)).leads
  have hloaded : Host.Leads _ logging.host := (trail_after _ (.load (.bytes loggingBytes))).leads
  have hleads := IsTrans.trans _ _ _ hnew (IsTrans.trans _ _ _ hlinked hloaded)
  obtain ⟨more, hmore⟩ := IsTrans.trans _ _ _ hleads (leads_call hr hc)
  obtain ⟨o, ho, hids⟩ := Option.map_eq_some_iff.mp hobjects
  have hoffers : c.host.Offers "log" loggingGrant.id :=
    ⟨o, mem_of_lookup ho, hids ▸ List.mem_singleton_self _⟩
  rw [hid]
  exact (owned_loggingHost.proceeds hmore).holds.lookup_of_offers
    (List.mem_append_left _ (List.mem_singleton_self _)) hoffers

/-- What is at the end of the memory is logged, and what goes past it is not. -/
theorem guest_logs_exactly_edge :
    Reachable logging ∧
    (∃ r ∈ logging.runs .instantiate, ∃ c ∈ r.calls, c.AsksToLog 2 65536 0 ∧
      EStateM.run c.perform c.machine = .ok [] (c.machine.withEntry ⟨.warn, ""⟩)) ∧
    ∃ r ∈ logging.runs .instantiate, ∃ c ∈ r.calls, c.AsksToLog 0 65535 2 ∧
      EStateM.run c.perform c.machine = .ok [] c.machine := by
  obtain ⟨hlogs, -⟩ := guest_logs_exactly reachable_logging
  refine ⟨reachable_logging, ?_, ?_⟩
  · obtain ⟨r, hr, c, hc, asks, address, memory, lent, hsize⟩ := asks_logging (x := (2, 65536, 0))
      (by decide)
    have hmessage : Message c.machine 65536 0 [] :=
      ⟨by decide, by decide, address, memory, lent, by rw [hsize]; decide, rfl⟩
    obtain ⟨⟨level, message⟩, he, hrun⟩ := (hlogs _ r hr c hc 2 65536 0 asks).there [] hmessage
    cases he.warn rfl
    cases he.text "" (Text.Utf8.encode_eq "")
    exact ⟨r, hr, c, hc, asks, hrun⟩
  · obtain ⟨r, hr, c, hc, asks, address, memory, lent, hsize⟩ := asks_logging (x := (0, 65535, 2))
      (by decide)
    have hmessage : ∀ bytes, ¬ Message c.machine 65535 2 bytes := by
      rintro bytes ⟨-, -, other, found, hfound, hle, -⟩
      cases lent.symm.trans hfound
      rw [hsize] at hle
      exact absurd hle (by decide)
    exact ⟨r, hr, c, hc, asks, (hlogs _ r hr c hc 0 65535 2 asks).absent hmessage⟩

end WasmEmbedding.Vm
