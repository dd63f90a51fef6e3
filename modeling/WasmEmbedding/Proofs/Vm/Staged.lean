import WasmEmbedding.Proofs.Vm.Environments

/-! # Environments that name a file

A run with data puts the data into a new file, names the file in the environment of the object that
is built in and preopens its directory there.  This module is about the environment that comes of it
(`Wasi.Environment.withFile`), in which the texts and preopens of the caller stay as they are and
come first (`handsOver_withFile`), and about the built-in object that has it: a machine that has
been made with the system interface keeps the object whatever is done with it (`Equipped.after`).
-/
namespace WasmEmbedding

open Chronicle Engine Host Wasm

namespace Wasi

namespace FileSystem

theorem get?_put {fs : FileSystem} {p : Path} (hp : p ≠ []) (n : Node) :
    (fs.put p n).get? p = some n := by
  unfold get? put
  rw [if_neg (by simpa using hp), List.lookup_cons, beq_self_eq_true]

theorem get?_erase {fs : FileSystem} {p : Path} (hp : p ≠ []) : (fs.erase p).get? p = none := by
  unfold get? erase
  rw [if_neg (by simpa using hp), List.lookup_eq_none_iff]
  intro e he
  have hne := (List.mem_filter.mp he).2
  rw [bne_iff_ne]
  exact fun h => by simp [h] at hne

end FileSystem

namespace Environment

/-- The environment with a file named and its directory preopened. -/
def withFile (e : Environment) (path : Path) : Environment where
  args := e.args
  envs := e.envs ++ [Vm.dataKey ++ "=" ++ path.text]
  preopens := e.preopens ++ [⟨Path.text path.dropLast, Path.text path.dropLast⟩]

theorem dataKey_toList : '=' ∉ Vm.dataKey.toList := by decide

theorem toList_entry (path : Path) :
    (Vm.dataKey ++ "=" ++ path.text).toList = Vm.dataKey.toList ++ '=' :: path.text.toList := by
  rw [String.toList_append, String.toList_append, List.append_assoc]
  rfl

/-- The staged environment is the environment of the texts with the file named; what is wrong with
the texts is what is wrong with it. -/
theorem stagedEnvironment_eq (args envs preopens : List String) (path : Path) :
    Vm.stagedEnvironment args envs preopens path =
      (ofStrings args envs preopens).map fun e => e.withFile path := by
  have hnamed : isVariable (Vm.dataKey ++ "=" ++ path.text) = true := by
    unfold isVariable
    rw [splitVariable_eq_some.mpr ⟨toList_entry path, dataKey_toList⟩]
    change (!Vm.dataKey.toList.isEmpty) = true
    decide
  unfold Vm.stagedEnvironment
  rw [ofStrings_append hnamed]
  cases ofStrings args envs preopens <;> rfl

theorem stagedEnvironment_eq_ok {args envs preopens : List String} {e : Environment}
    (he : ofStrings args envs preopens = .ok e) (path : Path) :
    Vm.stagedEnvironment args envs preopens path = .ok (e.withFile path) := by
  rw [stagedEnvironment_eq, he]
  rfl

/-- An environment hands a file over: it has texts and preopens as they are, and behind them the
path of the file and its directory, which the guest knows by the same name. -/
structure HandsOver (staged : Environment) (args envs preopens : List String) (path : Path) :
    Prop where
  args : staged.args = args
  envs : staged.envs = envs ++ [Vm.dataKey ++ "=" ++ path.text]
  preopens : ∃ ps, preopens.mapM Preopen.parse = .ok ps ∧
    staged.preopens = ps ++ [⟨Path.text path.dropLast, Path.text path.dropLast⟩]

theorem handsOver_withFile {args envs preopens : List String} {e : Environment}
    (he : ofStrings args envs preopens = .ok e) (path : Path) :
    (e.withFile path).HandsOver args envs preopens path := by
  obtain ⟨-, ps, hps, rfl⟩ := ofStrings_eq_ok.mp he
  exact ⟨rfl, rfl, ps, hps, rfl⟩

/-- The first string with the key decides, so those of the caller come before the path. -/
theorem get?_withFile (e : Environment) (path : Path) :
    (e.withFile path).get? Vm.dataKey = (e.get? Vm.dataKey).or (some path.text) := by
  have happend :=
    get?_append e.args e.envs [Vm.dataKey ++ "=" ++ path.text] (e.withFile path).preopens
    Vm.dataKey
  rw [get?_singleton dataKey_toList] at happend
  exact happend

end Environment

end Wasi

namespace Vm

/-! ## The built-in import object -/

/-- A machine has the built-in import object, and has registered it. -/
structure Equipped (vm : Vm) (o : ImportObject) (key : EnvironmentKey) : Prop where
  wasi : vm.wasi = some o
  system : o.environment = some key
  entry : ∃ linked functions, (o.moduleName, .imports linked functions) ∈ vm.entries ∧
    linked.environment = some key

theorem wasi_attempt {s v w : Setting} {m : Module} (ready : Ready s v m)
    (begins : EStateM.run Action.refresh v = .ok () w) :
    (w.attempt m).after.vm.wasi = s.vm.wasi := by
  have hbuilds := Action.keeps_instance? m w.marked
  rw [Action.ending_instance?] at hbuilds
  have hw : w.vm.wasi = v.vm.wasi := congrArg Record.wasi (Action.keeps_refresh.ok begins).record
  exact (congrArg Record.wasi hbuilds.record).trans (hw.trans ready.approaches.wasi)

/-- Instantiating a main module leaves the built-in import object. -/
theorem Undertakes.wasi {s t : Setting} {l l' : List EngineRun} {r : Except RuntimeError Unit}
    (h : Undertakes s l l' r t) : t.vm.wasi = s.vm.wasi := by
  cases h with
  | falls approaches => exact approaches.wasi
  | fails ready begins => exact wasi_attempt ready begins
  | makes ready begins _ serves =>
    have hmade := wasi_attempt ready begins
    exact serves.works.wasi.trans hmade

/-- So does registering a module. -/
theorem wasi_register (name : String) (source : Source) (s : Setting) :
    (ending (Action.register name source) s).vm.wasi = s.vm.wasi := by
  cases hrun : EStateM.run (Action.register name source) s with
  | ok _ t =>
    obtain ⟨-, -, image, m, u, -, -, hlinks, rfl⟩ := (Action.register_post name source s).ok hrun
    rw [ending_of_ok hrun]
    exact congrArg Record.wasi hlinks.record
  | error e t =>
    obtain ⟨hbuilds, -⟩ := (Action.register_post name source s).error hrun
    rw [ending_of_error hrun]
    exact congrArg Record.wasi hbuilds.record

/-- Operations leave the built-in import object, unless they are to change it. -/
theorem wasi_after {s : Setting} {o : Operation} (h : ∀ f, o ≠ .amendWasi f) :
    (s.after o).vm.wasi = s.vm.wasi := by
  have of_works : ∀ {α : Type} {x : Action α}, Keeps Works x →
      (ending (x >>= fun _ => pure ()) s).vm.wasi = s.vm.wasi := fun hx => by
    rw [ending_discard]
    exact congrArg Record.wasi (hx s).record
  cases ho : o.instantiates with
  | true => exact (undertakes ho s).wasi
  | false =>
    cases o with
    | instantiate => cases ho
    | run source name args => cases ho
    | load source => exact (Action.approaches_load source s).wasi
    | cleanup => exact (Action.approaches_reset s).wasi
    | validate => exact (Action.approaches_validate s).wasi
    | execute name args => exact of_works (Action.keeps_execute name args)
    | executeRegistered moduleName name args =>
      exact of_works (Action.keeps_executeRegistered moduleName name args)
    | register name source => exact wasi_register name source s
    | registerImport object =>
      change (ending (Action.registerImport object) s).vm.wasi = _
      have hstep := importStep s object
      generalize outcome (Action.registerImport object) s = r,
        ending (Action.registerImport object) s = t at hstep ⊢
      cases hstep <;> rfl
    | amendStatistics f => rfl
    | amendContext f => rfl
    | amendWasi f => exact absurd rfl (h f)

/-- **A machine keeps its built-in import object**, whatever is done with it, as long as the object
keeps its name and environment. -/
theorem Equipped.after {s : Setting} {object : ImportObject} {key : EnvironmentKey}
    (h : s.vm.Equipped object key) (hlisted : s.vm.Listed) {o : Operation}
    (hamends : ∀ f, o = .amendWasi f → (f object).environment = object.environment ∧
      (f object).moduleName = object.moduleName) :
    ∃ object, (s.after o).vm.Equipped object key := by
  obtain ⟨linked, functions, hentry, hlinked⟩ := h.entry
  have hentry' : (object.moduleName, .imports linked functions) ∈ (s.after o).vm.entries := by
    rcases entries_after hlisted o with heq | ⟨e, -, -, heq⟩
    · exact heq ▸ hentry
    · exact heq ▸ List.mem_append_left _ hentry
  by_cases hwasi : ∃ f, o = .amendWasi f
  · obtain ⟨f, rfl⟩ := hwasi
    obtain ⟨hsystem, hname⟩ := hamends f rfl
    exact ⟨f object, congrArg (Option.map f) h.wasi, hsystem.trans h.system, linked, functions,
      hname ▸ hentry', hlinked⟩
  · have hsame := wasi_after (s := s) fun f hf => hwasi ⟨f, hf⟩
    exact ⟨object, hsame.trans h.wasi, h.system, linked, functions, hentry', hlinked⟩

/-- A new machine with the system interface has the built-in import object. -/
theorem equipped_new {host after : Host} {config : VmConfig} {vm : Vm}
    (h : Vm.new host config = (.ok vm, after)) (hwasi : config.hostRegistrations.wasi = true) :
    vm.Equipped (.wasi ⟨host.environments.size⟩) ⟨host.environments.size⟩ := by
  have hrun := new_ok h
  rw [if_pos hwasi] at hrun
  obtain ⟨v, hv, ht⟩ := enableWasi_ok hrun
  cases ht
  obtain ⟨linked, store, linker, c, functions, hsnap, -, rfl⟩ := Action.link_ok hv
  obtain ⟨symbols, -, rfl⟩ := Host.ImportObject.snapshot_eq_ok_iff.mp hsnap
  exact ⟨rfl, rfl, _, functions, List.mem_cons_self, rfl⟩

/-! ## Runs with data -/

/-- The file that data is put into. -/
def Setting.stagedPath (s : Setting) (data : List UInt8) : Wasi.Path :=
  (s.host.files.writeTemporary "tmp." ".bin" data).1

/-- The setting with the data in a file. -/
def Setting.filed (s : Setting) (data : List UInt8) : Setting :=
  { s with host := { s.host with files := (s.host.files.writeTemporary "tmp." ".bin" data).2 } }

/-- The setting without a file. -/
def Setting.without (s : Setting) (path : Wasi.Path) : Setting :=
  { s with host := { s.host with files := s.host.files.erase path } }

/-- Names a file in the environment of an import object and runs a function. -/
def Action.stageAndRun (source : Source) (name : String) (path : Wasi.Path)
    (args envs preopens : List String) (params : List Value) (o : ImportObject) :
    Action (List Value) := do
  let e ← ofExcept .wasi (stagedEnvironment args envs preopens path)
  let host ← ofExcept .wasi ((← get).host.replaceEnvironment o e)
  modifyHost fun _ => host
  run source name params

theorem run_stageAndRun {s : Setting} {o : ImportObject} {key : EnvironmentKey}
    {args envs preopens : List String} {e : Wasi.Environment} (hkey : o.environment = some key)
    (he : Wasi.Environment.ofStrings args envs preopens = .ok e) (source : Source) (name : String)
    (path : Wasi.Path) (params : List Value) :
    EStateM.run (Action.stageAndRun source name path args envs preopens params o) s =
      EStateM.run (Action.run source name params)
        { s with host := s.host.setEnvironment key (e.withFile path) } := by
  have hstaged : EStateM.run (Action.ofExcept .wasi (stagedEnvironment args envs preopens path)) s =
      .ok (e.withFile path) s := by
    rw [Wasi.Environment.stagedEnvironment_eq_ok he]
    rfl
  have hreplaced : EStateM.run
      (Action.ofExcept .wasi (s.host.replaceEnvironment o (e.withFile path))) s =
      .ok (s.host.setEnvironment key (e.withFile path)) s := by
    rw [replaceEnvironment_eq_ok.mpr ⟨key, hkey, rfl⟩]
    rfl
  unfold Action.stageAndRun
  rw [run_bind_of_ok hstaged, run_bind_of_ok (x := get) (a := s) (t := s) rfl,
    run_bind_of_ok hreplaced]
  rfl

/-- A run with data takes the file away in any case. -/
theorem run_runWithData_of_wasi {s : Setting} {o : ImportObject} (hwasi : s.vm.wasi = some o)
    (source : Source) (name : String) (data : List UInt8) (args envs preopens : List String)
    (params : List Value) :
    EStateM.run (Action.runWithData source name data args envs preopens params) s =
      EStateM.run (tryFinally (Action.stageAndRun source name (s.stagedPath data) args envs preopens
        params o) (Action.removeFile (s.stagedPath data))) (s.filed data) := by
  unfold Action.runWithData
  rw [run_bind_of_ok (x := Action.vm) (a := s.vm) (t := s) rfl, hwasi]
  exact run_bind_of_ok (x := Action.writeTemporary data) (a := s.stagedPath data)
    (t := s.filed data) rfl

theorem Setting.stagedPath_ne_nil (s : Setting) (data : List UInt8) : s.stagedPath data ≠ [] :=
  List.append_ne_nil_of_right_ne_nil _ (List.cons_ne_nil _ _)

end Vm

namespace World

theorem records_equipped : (ofSetting equipped).Records [(⟨0⟩, .empty)] :=
  .step (.start (h := {}) rfl) (.new new_equipped)

theorem builtIn_equipped : equipped.vm.Equipped (.wasi ⟨0⟩) ⟨0⟩ :=
  Vm.equipped_new new_equipped rfl

theorem environment_equipped : equipped.vm.environment = some ⟨0⟩ := by decide +kernel

end World

end WasmEmbedding
