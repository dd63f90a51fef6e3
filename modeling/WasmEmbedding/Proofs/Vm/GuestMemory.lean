import WasmEmbedding.Proofs.Engine.CallerMemory
import WasmEmbedding.Proofs.Vm.Boundary
import WasmEmbedding.Proofs.Vm.Layout

/-! # Host functions in the memory of a guest

A host function has no memory of its own.  What it reads and writes is the memory that its caller
exports, and the caller is whatever instance happens to have called it: the main module, a
registered one, or one that is being started.  That there is a memory behind what the caller exports
is no matter of course.  An instance exports addresses, and a body that asked for the bytes at an
address where there is nothing would get stuck, so that nothing could be said of its accesses.

So the argument has two parts.  In every run of every operation of a reachable machine the layout of
the store is sound where a host function is called (`sound_of_mem_calls`): an instantiation makes
the memories before it exports them, and nothing takes a memory away.  And where the layout is
sound, the accesses of a body are exact one by one and together (`BodyRun.exact_of_sound`), with
offset and length added up as numbers, not modulo the largest address.  `host_accesses_exact` puts
the parts together, for any body of any host function and any number of accesses in one call.

The example has writes that overlap at the very end of a memory, with one in between that does not
fit: it leaves no trace, and what is read then is what the other two have left.
-/
namespace WasmEmbedding.Vm

open Engine Wasm

/-- **Host functions read and write the memory of their caller exactly.**  Whatever a body asks
for, it gets at the bytes of a range if the range lies inside, and otherwise it is told that it does
not and nothing changes; a caller that lends no memory has none.  A write changes the bytes of its
range and no others, and every read is given what the last writes before it have left. -/
theorem host_accesses_exact {s : Setting} (h : Reachable s) {o : Operation} {r : EngineRun}
    (hr : r ∈ s.runs o) {c : HostCall} (hc : c ∈ r.calls) {b : BodyRun} (hb : b ∈ c.bodies) :
    b.Exact := by
  have hsound : c.machine.layout.Sound := sound_of_mem_calls (invariant_layout.reachable h) hr hc
  rw [← (HostCall.runs_of_mem hb).1.machine] at hsound
  exact BodyRun.exact_of_sound hsound

/-- Writes that overlap, and one in between that does not fit. -/
def scribbles : List HostAccess :=
  [.write 65534 [1, 2], .write 65535 [9, 9], .write 65533 [7, 8]]

/-- A host with an import object whose function makes these writes before it reads. -/
def scribblingHost : Host :=
  Host.afterAll {} [.create "e" "env" none,
    .addFunction "e" "f" ⟨⟨[], []⟩, fun _ =>
      .writeMemory 65534 [1, 2] fun _ => .writeMemory 65535 [9, 9] fun _ =>
        .writeMemory 65533 [7, 8] fun _ => .readMemory 65533 3 fun _ => .finish (.ok [])⟩]

/-- The bytes of a module with a memory of one page, whose start function calls the one of the
object. -/
def lendingBytes : List UInt8 :=
  emptyBytes ++ [1, 4, 1, 0x60, 0, 0] ++ [2, 9, 1, 3, 0x65, 0x6e, 0x76, 1, 0x66, 0, 0] ++
    [3, 2, 1, 0] ++ [5, 3, 1, 0, 1] ++ [7, 10, 1, 6, 0x6d, 0x65, 0x6d, 0x6f, 0x72, 0x79, 2, 0] ++
    [8, 1, 1] ++ [10, 6, 1, 4, 0, 0x10, 0, 0x0b]

/-- A machine that has loaded the module. -/
def lending : Setting :=
  ((⟨empty {} ⟨0⟩, scribblingHost.newStore.2⟩ : Setting).after
    (.registerImport refusingObject)).after (.load (.bytes lendingBytes))

theorem reachable_lending : Reachable lending := by
  have hnew : Vm.new scribblingHost {} = (.ok (empty {} ⟨0⟩), scribblingHost.newStore.2) := rfl
  exact .operate (.operate (.new hnew) _) _

/-- The function reads what it has written last. -/
theorem host_accesses_exact_scribbles :
    Reachable lending ∧ ∃ r ∈ lending.runs .instantiate, ∃ c ∈ r.calls, ∃ b ∈ c.bodies, b.Exact ∧
      ∃ x ∈ b.accesses, EStateM.run (Exec.hostRead 65533 3) x.machine =
        .ok (.ok [7, 8, 2]) x.machine := by
  have hbodies : ((lending.runs .instantiate).flatMap fun r => r.calls.flatMap fun c =>
      c.bodies.map fun b => (b.machine.hostMemory?.map fun x => x.2.size,
        b.accesses.map AccessRun.access)) =
      [(some 65536, scribbles ++ [.read 65533 3])] := by decide +kernel
  have hmem := List.mem_singleton_self (some 65536, scribbles ++ [HostAccess.read 65533 3])
  rw [← hbodies] at hmem
  obtain ⟨r, hr, hmem⟩ := List.mem_flatMap.mp hmem
  obtain ⟨c, hc, hmem⟩ := List.mem_flatMap.mp hmem
  obtain ⟨b, hb, hb'⟩ := List.mem_map.mp hmem
  obtain ⟨hsize, haccesses⟩ := Prod.mk.inj hb'
  obtain ⟨⟨address, memory⟩, hm, hsize⟩ := Option.map_eq_some_iff.mp hsize
  obtain ⟨past, last, hsplit, hpast, hlast⟩ := List.map_eq_append_iff.mp haccesses
  obtain ⟨x, rest, rfl, hx, -⟩ := List.map_eq_cons_iff.mp hlast
  have hexact := host_accesses_exact reachable_lending hr hc hb
  have hread := (hexact.each address memory hm past x rest hsplit).reads 65533 3 hx
    (by rw [hsize]; decide)
  rw [hpast, hsize] at hread
  refine ⟨reachable_lending, r, hr, c, hc, b, hb, hexact, x, ?_, hread⟩
  rw [hsplit]
  exact List.mem_append_right past List.mem_cons_self

end WasmEmbedding.Vm
