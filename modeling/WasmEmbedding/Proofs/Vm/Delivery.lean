import WasmEmbedding.Proofs.Vm.Handover

/-! # What a guest finds of the data that it is handed

A guest is told where its data is by a string of its environment.  That string comes behind those of
the caller, and whoever looks a key up takes the first string that has it.  So the path is found
under the key of the data if and only if no string of the caller has that key with another value
(`World.staged_data`); where one has, it is what the import object answers and what the guest finds
in its memory (`World.staged_data_shadowed`).

Everything else is as a caller would have it: the caller's texts and preopens are there as they were
given and in their order, and the directory of the file is preopened under its own name.  The
directory is never parsed, so its name may have any character in it; the system of temporary files
chooses it (`Wasi.TemporaryFiles.create`), and nothing is assumed of it but that the file is there.

There are two places where the environment can be seen.  One is the import object, whose environment
stays what it is until the run is over, at every call of a host function too, since nothing that
guests or their host functions do replaces an environment (`going_abides`).  The other is the
session of the guest.  It begins under the environment when the engine is asked to make an instance,
and it keeps its texts; the call that follows is made in the same session (`informed_of_runs`).
-/
namespace WasmEmbedding

open Chronicle Engine Host Wasm

namespace Wasi.TemporaryFiles

/-- A system that keeps temporary files in a directory with a colon in its name, and refuses
nothing. -/
def withColon : TemporaryFiles where
  create fs := .ok (["c:", "data.bin"], fs.put ["c:", "data.bin"] (.file []))
  write := obliging.write
  remove := obliging.remove
  create_get? {fs made p} h := by
    cases h
    exact ⟨FileSystem.get?_put (List.cons_ne_nil _ _) _, FileSystem.elsewhere_put fs _ _⟩
  write_get? := obliging.write_get?
  remove_get? := obliging.remove_get?

end Wasi.TemporaryFiles

namespace World

/-- **A guest finds the data that it is handed, unless the caller has used the key.**  On a system
that makes the file and fills it, a run with data is a run in which the environment of the
built-in import object has the texts and preopens of the caller as they are, and behind them the
path of the file and its directory.

The object has this environment throughout.  So has the guest: the session that the attempt begins
is one under it, and whatever the engine does anew in the run, from the start of the instance to the
call of the function, is done with its texts.  The path is what the key is looked up as, by the
object and in the guest's own list, if and only if no string of the caller has the key with another
value; for the first string of the caller that has it goes before.

The file holds the data when the run begins and is gone afterwards, unless the system refuses to
take it away.  On the system that refuses nothing this is what a machine does. -/
theorem staged_data (d : Wasi.TemporaryFiles) {w : World} {given : Ledger} (H : w.Records given)
    {i : Nat} {vm : Vm} (hvm : w.vms[i]? = some vm) {o : ImportObject} {key : EnvironmentKey}
    (hbuiltIn : vm.Equipped o key) {args envs preopens : List String} {e : Wasi.Environment}
    (he : Wasi.Environment.ofStrings args envs preopens = .ok e) {path : Wasi.Path}
    {made : Wasi.FileSystem} (hcreate : d.create w.host.files = .ok (path, made))
    {data : List UInt8} (hwrite : (d.write made path data).1 = .ok ())
    (source : Source) (name : String) (params : List Value) :
    let s : Vm.Setting := ⟨vm, w.host⟩
    let x := Vm.Action.runWithDataOn d source name data args envs preopens params
    let run := Vm.Operation.run source name params
    let t := s.handing d key e path made data
    let staged := t.host.environment key
    staged.HandsOver args envs preopens path ∧
    (staged.get? Vm.dataKey = some path.text ↔
      ∀ value, e.get? Vm.dataKey = some value → value = path.text) ∧
    (∀ value, e.get? Vm.dataKey = some value → staged.get? Vm.dataKey = some value) ∧
    (∀ r ∈ t.attempts run, r.Under staged) ∧
    (∀ r ∈ t.runs run, r.replayed = false → r.Informed staged ∧
      Wasi.Environment.get? ⟨[], r.machine.session.envs, []⟩ Vm.dataKey =
        staged.get? Vm.dataKey) ∧
    (∀ c ∈ Vm.hostCalls (t.runs run), c.machine.host.environment key = staged) ∧
    (t.after run).host.environment key = staged ∧
    t.host.files.get? path = some (.file data) ∧
    outcome x s = outcome (Vm.Action.run source name params) t ∧
    ending x s = (t.after run).discarding d path ∧
    (d.remove (t.after run).host.files path ≠ none → (ending x s).host.files.get? path = none) ∧
    EStateM.run (Vm.Action.runWithData source name data args envs preopens params) s =
      EStateM.run (Vm.Action.runWithDataOn .obliging source name data args envs preopens params)
        s := by
  intro s x run t staged
  have hmem := List.mem_of_getElem? hvm
  obtain ⟨linked, functions, hentry, hsystem⟩ := hbuiltIn.entry
  have hlinked : vm.environment = some key :=
    ((H.current.linked vm hmem).attached _ linked functions key hentry hsystem).1
  have hmade : key.val < w.host.environments.size := H.current.made vm hmem key hlinked
  have hstaged : staged = e.withFile path := environment_setEnvironment hmade _
  have hget := Wasi.Environment.get?_withFile e path
  obtain ⟨hhost, hcalls⟩ := Vm.going_abides t run
  obtain ⟨houtcome, hending⟩ := Vm.Action.runWithDataOn_of_filled (s := s) source name data args
    envs preopens params hbuiltIn.wasi hbuiltIn.system hcreate hwrite he
  have hafter : t.after run = ending (Vm.Action.run source name params) t := ending_discard _ _
  have hlast : ending x s = (t.after run).discarding d path := hafter ▸ hending
  refine ⟨hstaged ▸ Wasi.Environment.handsOver_withFile he path, ?_, fun value hvalue => ?_,
    fun r hr => Vm.under_of_attempts hlinked hr, fun r hr hanew => ?_, fun c hc => ?_, ?_,
    Vm.Setting.get?_handing hwrite key e, houtcome, hlast,
    fun hremove => hlast ▸ Vm.Setting.get?_discarding hremove,
    (Vm.Action.run_runWithDataOn_obliging source name data args envs preopens params s).symm⟩
  · rw [hstaged, hget]
    cases e.get? Vm.dataKey with
    | none => exact iff_of_true rfl nofun
    | some value => simp
  · rw [hstaged, hget, hvalue]
    rfl
  · have hinformed : r.Informed staged := Vm.informed_of_runs hlinked rfl hr hanew
    refine ⟨hinformed, ?_⟩
    have henvs : r.machine.session.envs = staged.envs := congrArg Prod.snd hinformed.begins.texts
    rw [henvs]
    rfl
  · exact environment_congr (hcalls c hc).environments key
  · exact environment_congr hhost.environments key

/-- A caller that has not used the key, and a directory that no string could be parsed to. -/
theorem staged_data_equipped :
    let path : Wasi.Path := ["c:", "data.bin"]
    let made := equipped.host.files.put path (.file [])
    let t := equipped.handing .withColon ⟨0⟩ ⟨["reader"], ["MODE=test"], []⟩ path made [1, 2, 3]
    let staged := t.host.environment ⟨0⟩
    staged.HandsOver ["reader"] ["MODE=test"] [] path ∧
      staged.preopens = [⟨"/c:", "/c:"⟩] ∧ staged.get? "MODE" = some "test" ∧
      staged.get? Vm.dataKey = some "/c:/data.bin" ∧
      t.host.files.get? path = some (.file [1, 2, 3]) := by
  intro path made t staged
  have he : Wasi.Environment.ofStrings ["reader"] ["MODE=test"] [] =
      .ok ⟨["reader"], ["MODE=test"], []⟩ := by decide +kernel
  have hcreate : Wasi.TemporaryFiles.withColon.create equipped.host.files = .ok (path, made) := rfl
  have hwrite : (Wasi.TemporaryFiles.withColon.write made path [1, 2, 3]).1 = .ok () := rfl
  obtain ⟨hhands, hfound, -, -, -, -, -, hfile, -⟩ :=
    staged_data .withColon records_equipped (i := 0) rfl builtIn_equipped he hcreate hwrite
      (.bytes Vm.emptyBytes) "f" []
  have hnone : Wasi.Environment.get? ⟨["reader"], ["MODE=test"], []⟩ Vm.dataKey = none := by
    decide +kernel
  refine ⟨hhands, by decide +kernel, by decide +kernel, hfound.mpr fun value hvalue => ?_, hfile⟩
  cases hnone.symm.trans hvalue

/-- A caller's string with the key goes before the path: it is what the object and the guest have
under the key throughout the run. -/
theorem staged_data_shadowed :
    let e : Wasi.Environment := ⟨[], ["WasmEdge_DATA_TO_CALLEE=decoy"], []⟩
    let x := Vm.Action.runWithData (.bytes Vm.emptyBytes) "f" [1, 2, 3] []
      ["WasmEdge_DATA_TO_CALLEE=decoy"] [] []
    let run := Vm.Operation.run (.bytes Vm.emptyBytes) "f" []
    let path := equipped.stagedPath [1, 2, 3]
    let made := (equipped.host.files.writeTemporary "tmp." ".bin" []).2
    let t := equipped.handing .obliging ⟨0⟩ e path made [1, 2, 3]
    equipped.vm.Equipped (.wasi ⟨0⟩) ⟨0⟩ ∧
    Wasi.Environment.ofStrings [] ["WasmEdge_DATA_TO_CALLEE=decoy"] [] = .ok e ∧
    ending x equipped = (t.after run).discarding .obliging path ∧
    path.text = "/tmp/tmp.000000.bin" ∧
    (t.host.environment ⟨0⟩).get? Vm.dataKey = some "decoy" ∧
    ((t.after run).host.environment ⟨0⟩).get? Vm.dataKey = some "decoy" ∧
    (t.attempts run).length = 1 ∧
    ∀ r ∈ t.runs run, r.replayed = false →
      Wasi.Environment.get? ⟨[], r.machine.session.envs, []⟩ Vm.dataKey = some "decoy" := by
  intro e x run path made t
  have he : Wasi.Environment.ofStrings [] ["WasmEdge_DATA_TO_CALLEE=decoy"] [] = .ok e := by
    decide +kernel
  have hget : (t.host.environment ⟨0⟩).get? Vm.dataKey = some "decoy" := by decide +kernel
  have hafter : (t.after run).host.environment ⟨0⟩ = t.host.environment ⟨0⟩ :=
    environment_congr (Vm.abides_after t run).environments ⟨0⟩
  have hobliging := Vm.Action.run_runWithDataOn_obliging (.bytes Vm.emptyBytes) "f" [1, 2, 3] []
    ["WasmEdge_DATA_TO_CALLEE=decoy"] [] [] equipped
  have hcreate : Wasi.TemporaryFiles.obliging.create equipped.host.files = .ok (path, made) := rfl
  have hwrite : (Wasi.TemporaryFiles.obliging.write made path [1, 2, 3]).1 = .ok () := rfl
  obtain ⟨-, hending⟩ := Vm.Action.runWithDataOn_of_filled (s := equipped)
    (.bytes Vm.emptyBytes) "f" [1, 2, 3] [] ["WasmEdge_DATA_TO_CALLEE=decoy"] [] []
    builtIn_equipped.wasi rfl hcreate hwrite he
  refine ⟨builtIn_equipped, he, ?_, by decide +kernel, hget, hafter ▸ hget, by decide +kernel,
    fun r hr hanew => ?_⟩
  · rw [← ending_congr hobliging, hending, Vm.Setting.after, Vm.Operation.perform, ending_discard]
  · have hinformed := Vm.informed_of_runs (s := t) environment_equipped rfl hr hanew
    have henvs : r.machine.session.envs = (t.host.environment ⟨0⟩).envs :=
      congrArg Prod.snd hinformed.begins.texts
    rw [henvs]
    exact hget

end World

end WasmEmbedding
