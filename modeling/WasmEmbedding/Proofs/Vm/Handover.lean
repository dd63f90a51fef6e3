import WasmEmbedding.Proofs.Vm.Staged

/-! # Files that are handed over and taken away

A run with data makes a file, fills it, names it in the environment of the built-in import object,
does what any run does, and takes the file away.  Each of these can fail.  A system of temporary
files (`Wasi.TemporaryFiles`) is one that may refuse to make a file, to fill it and to take it
away; `Action.runWithDataOn` is a run with data on such a system, and `Action.runWithData` is the
run on the system that refuses nothing (`run_runWithDataOn_obliging`).

`handed_over` says for every stage what is answered and what is left if it fails: the machine is
touched only once the file is filled and the texts have been found to be in order, and from there
on it is the machine of a run under the staged environment.  The file is taken away in every case.
-/
namespace WasmEmbedding

open Engine Host

namespace Wasi

/-- Nothing is different but what is at a path. -/
def FileSystem.Elsewhere (p : Path) (fs left : FileSystem) : Prop :=
  ∀ q, q ≠ p → left.get? q = fs.get? q

/-- How a system keeps temporary files.  What it does to a file it does to no other. -/
structure TemporaryFiles where
  /-- Makes an empty file, or says why not. -/
  create : FileSystem → Except String (Path × FileSystem)
  /-- Fills a file, or says why not; the file may be left in any state then. -/
  write : FileSystem → Path → List UInt8 → Except String Unit × FileSystem
  /-- Takes a file away, unless the system refuses. -/
  remove : FileSystem → Path → Option FileSystem
  create_get? {fs made : FileSystem} {p : Path} : create fs = .ok (p, made) →
    made.get? p = some (.file []) ∧ fs.Elsewhere p made
  write_get? (fs : FileSystem) (p : Path) (bytes : List UInt8) :
    ((write fs p bytes).1 = .ok () → (write fs p bytes).2.get? p = some (.file bytes)) ∧
      fs.Elsewhere p (write fs p bytes).2
  remove_get? {fs left : FileSystem} {p : Path} : remove fs p = some left →
    left.get? p = none ∧ fs.Elsewhere p left

namespace FileSystem

theorem elsewhere_put (fs : FileSystem) (p : Path) (n : Node) : Elsewhere p fs (fs.put p n) := by
  intro q hq
  have hlookup : (fs.put p n).nodes.lookup q = fs.nodes.lookup q := by
    unfold put
    rw [List.lookup_cons, beq_false_of_ne hq]
    exact lookup_filter_ne hq fs.nodes
  unfold get?
  rw [hlookup]

/-- A temporary file that is filled later has been filled at once. -/
theorem put_writeTemporary (fs : FileSystem) (data : List UInt8) :
    (fs.writeTemporary "tmp." ".bin" []).2.put (fs.writeTemporary "tmp." ".bin" data).1
      (.file data) =
      (fs.writeTemporary "tmp." ".bin" data).2 := by
  unfold writeTemporary put
  simp

theorem elsewhere_erase (fs : FileSystem) (p : Path) : Elsewhere p fs (fs.erase p) := by
  intro q hq
  have hlookup : (fs.erase p).nodes.lookup q = fs.nodes.lookup q :=
    lookup_filter_ne hq fs.nodes
  unfold get?
  rw [hlookup]

end FileSystem

namespace TemporaryFiles

/-- The system that refuses nothing, as long as it is about files. -/
def obliging : TemporaryFiles where
  create fs := .ok (fs.writeTemporary "tmp." ".bin" [])
  write fs p bytes :=
    if p = [] then (.error FileFault.isADirectory.message, fs) else (.ok (), fs.put p (.file bytes))
  remove fs p := if p = [] then none else some (fs.erase p)
  create_get? {fs made p} h := by
    cases h
    exact ⟨FileSystem.get?_put (List.append_ne_nil_of_right_ne_nil _ (List.cons_ne_nil _ _)) _,
      FileSystem.elsewhere_put fs _ _⟩
  write_get? fs p bytes := by
    split
    · exact ⟨nofun, fun _ _ => rfl⟩
    · rename_i hp
      exact ⟨fun _ => FileSystem.get?_put hp _, FileSystem.elsewhere_put fs p _⟩
  remove_get? {fs left p} h := by
    split at h
    · cases h
    · rename_i hp
      cases h
      exact ⟨FileSystem.get?_erase hp, FileSystem.elsewhere_erase fs p⟩

end TemporaryFiles

end Wasi

namespace Vm

open Wasi (Path TemporaryFiles FileSystem)

/-- The setting with other files. -/
def Setting.withFiles (s : Setting) (files : FileSystem) : Setting :=
  { s with host := { s.host with files } }

/-- The setting after a system has been asked to take a file away. -/
def Setting.discarding (s : Setting) (d : TemporaryFiles) (path : Path) : Setting :=
  s.withFiles ((d.remove s.host.files path).getD s.host.files)

/-- The setting in which a guest finds data in a file: the file has been made and filled, and an
environment names it. -/
def Setting.handing (s : Setting) (d : TemporaryFiles) (key : EnvironmentKey)
    (e : Wasi.Environment) (path : Path) (made : FileSystem) (data : List UInt8) : Setting :=
  let filled := s.withFiles (d.write made path data).2
  { filled with host := filled.host.setEnvironment key (e.withFile path) }

/-- The file is there when the run begins. -/
theorem Setting.get?_handing {s : Setting} {d : TemporaryFiles} {path : Path} {made : FileSystem}
    {data : List UInt8} (hwrite : (d.write made path data).1 = .ok ()) (key : EnvironmentKey)
    (e : Wasi.Environment) :
    (s.handing d key e path made data).host.files.get? path = some (.file data) :=
  (d.write_get? made path data).1 hwrite

/-- A file is gone unless the system has refused to take it away. -/
theorem Setting.get?_discarding {s : Setting} {d : TemporaryFiles} {path : Path}
    (h : d.remove s.host.files path ≠ none) :
    (s.discarding d path).host.files.get? path = none := by
  obtain ⟨left, hleft⟩ := Option.ne_none_iff_exists'.mp h
  unfold discarding
  rw [hleft]
  exact (d.remove_get? hleft).1

namespace Action

variable (d : TemporaryFiles)

/-- Makes a temporary file. -/
def createFile : Action Path := do
  let (path, files) ← ofExcept .io (d.create (← get).host.files)
  modify fun s => s.withFiles files
  return path

/-- Fills a file. -/
def fillFile (path : Path) (data : List UInt8) : Action Unit := do
  let (filled, files) := d.write (← get).host.files path data
  modify fun s => s.withFiles files
  ofExcept .io filled

/-- Asks the system to take a file away, and goes on if it refuses. -/
def discardFile (path : Path) : Action Unit := modify fun s => s.discarding d path

/-- Fills a file and runs a function of a guest that finds it. -/
def fillAndRun (source : Source) (name : String) (path : Path) (data : List UInt8)
    (args envs preopens : List String) (params : List Value) (o : ImportObject) :
    Action (List Value) := do
  fillFile d path data
  stageAndRun source name path args envs preopens params o

/-- Runs a function of a guest that finds data in a file, on a system that may refuse. -/
def runWithDataOn (source : Source) (name : String) (data : List UInt8)
    (args envs preopens : List String) (params : List Value) : Action (List Value) := do
  match (← vm).wasi with
  | none => throw (.wasi .notEnabled)
  | some o =>
    let path ← createFile d
    try
      fillAndRun d source name path data args envs preopens params o
    finally
      discardFile d path

variable {d} {s : Setting} {o : ImportObject} {path : Path} {made : FileSystem}
  (source : Source) (name : String) (data : List UInt8) (args envs preopens : List String)
  (params : List Value)

theorem run_runWithDataOn_of_unable {reason : String} (ho : s.vm.wasi = some o)
    (hcreate : d.create s.host.files = .error reason) :
    EStateM.run (runWithDataOn d source name data args envs preopens params) s =
      .error (.io reason) s := by
  have hrefused : EStateM.run (ofExcept .io (d.create s.host.files)) s = .error (.io reason) s := by
    rw [hcreate]
    rfl
  have hcreated : EStateM.run (createFile d) s = .error (.io reason) s :=
    (run_bind_of_ok (x := get) (a := s) (t := s) rfl).trans (run_bind_of_error hrefused)
  unfold runWithDataOn
  rw [run_bind_of_ok (x := Action.vm) (a := s.vm) (t := s) rfl, ho]
  exact run_bind_of_error hcreated

/-- Once there is a file, the run is what it comes to with the file, and the file is discarded. -/
theorem run_runWithDataOn_of_created (ho : s.vm.wasi = some o)
    (hcreate : d.create s.host.files = .ok (path, made)) :
    EStateM.run (runWithDataOn d source name data args envs preopens params) s =
      EStateM.run (tryFinally (fillAndRun d source name path data args envs preopens params o)
        (discardFile d path)) (s.withFiles made) := by
  have hgiven : EStateM.run (ofExcept .io (d.create s.host.files)) s = .ok (path, made) s := by
    rw [hcreate]
    rfl
  have hcreated : EStateM.run (createFile d) s = .ok path (s.withFiles made) :=
    (run_bind_of_ok (x := get) (a := s) (t := s) rfl).trans (run_bind_of_ok hgiven)
  unfold runWithDataOn
  rw [run_bind_of_ok (x := Action.vm) (a := s.vm) (t := s) rfl, ho]
  exact run_bind_of_ok hcreated

theorem run_fillFile (s : Setting) (path : Path) (data : List UInt8) :
    EStateM.run (fillFile d path data) s =
      EStateM.run (ofExcept .io (d.write s.host.files path data).1)
        (s.withFiles (d.write s.host.files path data).2) := rfl

theorem run_fillAndRun_of_unable {reason : String}
    (hwrite : (d.write s.host.files path data).1 = .error reason) :
    EStateM.run (fillAndRun d source name path data args envs preopens params o) s =
      .error (.io reason) (s.withFiles (d.write s.host.files path data).2) := by
  refine run_bind_of_error ?_
  rw [run_fillFile, hwrite]
  rfl

theorem run_fillAndRun_of_filled (hwrite : (d.write s.host.files path data).1 = .ok ()) :
    EStateM.run (fillAndRun d source name path data args envs preopens params o) s =
      EStateM.run (stageAndRun source name path args envs preopens params o)
        (s.withFiles (d.write s.host.files path data).2) := by
  refine run_bind_of_ok (a := ()) ?_
  rw [run_fillFile, hwrite]
  rfl

theorem run_stageAndRun_of_malformed {w : WasiError}
    (hw : Wasi.Environment.ofStrings args envs preopens = .error w) :
    EStateM.run (stageAndRun source name path args envs preopens params o) s =
      .error (.wasi w) s := by
  refine run_bind_of_error ?_
  rw [Wasi.Environment.stagedEnvironment_eq, hw]
  rfl

/-- The error of an object that is not one of the system interface. -/
theorem run_stageAndRun_of_plain {e : Wasi.Environment} (ho : o.environment = none)
    (he : Wasi.Environment.ofStrings args envs preopens = .ok e) :
    EStateM.run (stageAndRun source name path args envs preopens params o) s =
      .error (.wasi (.environmentError
        ("'" ++ o.moduleName ++ "' is not a WASI import object"))) s := by
  have hstaged : EStateM.run (ofExcept .wasi (stagedEnvironment args envs preopens path)) s =
      .ok (e.withFile path) s := by
    rw [Wasi.Environment.stagedEnvironment_eq_ok he]
    rfl
  unfold stageAndRun
  rw [run_bind_of_ok hstaged, run_bind_of_ok (x := get) (a := s) (t := s) rfl]
  refine run_bind_of_error ?_
  unfold Host.replaceEnvironment
  rw [ho]
  rfl

/-- **If nothing is refused and the texts are in order, a run with data is any run**, with a file
that the guest finds, and the system is asked to take the file away. -/
theorem runWithDataOn_of_filled {key : EnvironmentKey} {e : Wasi.Environment}
    (ho : s.vm.wasi = some o) (hkey : o.environment = some key)
    (hcreate : d.create s.host.files = .ok (path, made))
    (hwrite : (d.write made path data).1 = .ok ())
    (he : Wasi.Environment.ofStrings args envs preopens = .ok e) :
    outcome (runWithDataOn d source name data args envs preopens params) s =
        outcome (run source name params) (s.handing d key e path made data) ∧
      ending (runWithDataOn d source name data args envs preopens params) s =
        (ending (run source name params) (s.handing d key e path made data)).discarding d path := by
  have hrun := run_runWithDataOn_of_created source name data args envs preopens params ho hcreate
  have hbody := (run_fillAndRun_of_filled (s := s.withFiles made) (o := o) source name data args
    envs preopens params hwrite).trans (run_stageAndRun hkey he source name path params)
  constructor
  · exact (outcome_congr hrun).trans ((outcome_tryFinally _ (fun t => ⟨(), _, rfl⟩) _).trans
      (outcome_congr hbody))
  · rw [ending_congr hrun, ending_tryFinally, ending_congr hbody]
    rfl

theorem discardFile_obliging (hpath : path ≠ []) :
    discardFile .obliging path = removeFile path := by
  funext t
  have hremove : TemporaryFiles.obliging.remove t.host.files path =
      some (t.host.files.erase path) := if_neg hpath
  have hdiscard : t.discarding .obliging path = t.without path := by
    unfold Setting.discarding
    rw [hremove]
    rfl
  exact congrArg (EStateM.Result.ok ()) hdiscard

/-- On the system that refuses nothing a run with data is what a machine does. -/
theorem run_runWithDataOn_obliging (s : Setting) :
    EStateM.run (runWithDataOn .obliging source name data args envs preopens params) s =
      EStateM.run (runWithData source name data args envs preopens params) s := by
  cases ho : s.vm.wasi with
  | none =>
    unfold runWithDataOn runWithData
    rw [run_bind_of_ok (x := Action.vm) (a := s.vm) (t := s) rfl,
      run_bind_of_ok (x := Action.vm) (a := s.vm) (t := s) rfl, ho]
  | some o =>
    have hpath := s.stagedPath_ne_nil data
    have hwrite (fs : FileSystem) : TemporaryFiles.obliging.write fs (s.stagedPath data) data =
        (.ok (), fs.put (s.stagedPath data) (.file data)) := by
      simp only [TemporaryFiles.obliging, if_neg hpath]
    have hfiled : ((s.withFiles (s.host.files.writeTemporary "tmp." ".bin" []).2).withFiles
        ((s.host.files.writeTemporary "tmp." ".bin" []).2.put (s.stagedPath data) (.file data))) =
          s.filed data := by
      exact congrArg s.withFiles (s.host.files.put_writeTemporary data)
    have hcreate : TemporaryFiles.obliging.create s.host.files = .ok
        (s.stagedPath data, (s.host.files.writeTemporary "tmp." ".bin" []).2) := rfl
    rw [run_runWithDataOn_of_created source name data args envs preopens params ho hcreate,
      run_runWithData_of_wasi ho, discardFile_obliging hpath, run_tryFinally,
      run_tryFinally, run_fillAndRun_of_filled source name data args envs preopens params
        (congrArg Prod.fst (hwrite _)), congrArg Prod.snd (hwrite _)]
    exact hfiled ▸ rfl

end Action

open WasmEmbedding.Vm.Action in
/-- **A run with data is refused before it touches the machine, or is a run under the staged
environment, and the file is taken away in any case.**  Without the built-in import object nothing
happens.  If there is no file to be had nothing has happened either.  If the file cannot be filled,
or the texts are malformed, that is the error, and only what is at the path of the file has changed.
Otherwise outcome and machine are those of the run in which the object has the staged environment.
Whatever has come of it, nothing is at the path afterwards unless the system has refused to take it
away. -/
theorem handed_over (d : TemporaryFiles) (s : Setting) (source : Source) (name : String)
    (data : List UInt8) (args envs preopens : List String) (params : List Value) :
    let x := runWithDataOn d source name data args envs preopens params
    EStateM.run (runWithData source name data args envs preopens params) s =
      EStateM.run (runWithDataOn .obliging source name data args envs preopens params) s ∧
    (s.vm.wasi = none → outcome x s = .error (.wasi .notEnabled) ∧ ending x s = s) ∧
    ∀ o, s.vm.wasi = some o →
      (∀ reason, d.create s.host.files = .error reason →
        outcome x s = .error (.io reason) ∧ ending x s = s) ∧
      ∀ path made, d.create s.host.files = .ok (path, made) →
        let filled := s.withFiles (d.write made path data).2
        s.host.files.Elsewhere path filled.host.files ∧
        ∃ last : Setting, ending x s = last.discarding d path ∧
          (d.remove last.host.files path ≠ none → (ending x s).host.files.get? path = none) ∧
          (∀ reason, (d.write made path data).1 = .error reason →
            outcome x s = .error (.io reason) ∧ last = filled) ∧
          ((d.write made path data).1 = .ok () →
            (∀ w, Wasi.Environment.ofStrings args envs preopens = .error w →
              outcome x s = .error (.wasi w) ∧ last = filled) ∧
            ∀ e, Wasi.Environment.ofStrings args envs preopens = .ok e →
              (o.environment = none →
                outcome x s = .error (.wasi (.environmentError
                  ("'" ++ o.moduleName ++ "' is not a WASI import object"))) ∧
                last = filled) ∧
              ∀ key, o.environment = some key →
                let staged := { filled with
                  host := filled.host.setEnvironment key (e.withFile path) }
                staged.host.files.get? path = some (.file data) ∧
                outcome x s = outcome (run source name params) staged ∧
                last = ending (run source name params) staged) := by
  intro x
  refine ⟨(run_runWithDataOn_obliging source name data args envs preopens params s).symm,
    fun hwasi => ?_, fun o ho => ⟨fun reason hcreate => ?_, fun path made hcreate => ?_⟩⟩
  · have hrun : EStateM.run x s = .error (.wasi .notEnabled) s := by
      unfold x runWithDataOn
      rw [run_bind_of_ok (x := Action.vm) (a := s.vm) (t := s) rfl, hwasi]
      rfl
    exact ⟨outcome_of_error hrun, ending_of_error hrun⟩
  · have hrun := run_runWithDataOn_of_unable source name data args envs preopens params ho hcreate
    exact ⟨outcome_of_error hrun, ending_of_error hrun⟩
  · intro filled
    let body := fillAndRun d source name path data args envs preopens params o
    have hrun := run_runWithDataOn_of_created source name data args envs preopens params ho hcreate
    have hx : outcome x s = outcome body (s.withFiles made) :=
      (outcome_congr hrun).trans (outcome_tryFinally body (fun t => ⟨(), _, rfl⟩) _)
    have hlast : ending x s = (ending body (s.withFiles made)).discarding d path :=
      (ending_congr hrun).trans (ending_tryFinally body (discardFile d path) _)
    obtain ⟨-, hmade⟩ := d.create_get? hcreate
    obtain ⟨hcontent, hfilled⟩ := d.write_get? made path data
    refine ⟨fun q hq => (hfilled q hq).trans (hmade q hq), ending body (s.withFiles made), hlast,
      fun hremove => hlast ▸ Setting.get?_discarding hremove, fun reason hwrite => ?_,
      fun hwrite => ?_⟩
    · have hbody := run_fillAndRun_of_unable (s := s.withFiles made) (o := o) source name data
        args envs preopens params hwrite
      exact ⟨hx.trans (outcome_of_error hbody), ending_of_error hbody⟩
    · have hbody := run_fillAndRun_of_filled (s := s.withFiles made) (o := o) source name data
        args envs preopens params hwrite
      refine ⟨fun w hw => ?_, fun e he => ⟨fun hplain => ?_, fun key hkey => ?_⟩⟩
      · have hstage := hbody.trans
          (run_stageAndRun_of_malformed source name args envs preopens params hw)
        exact ⟨hx.trans (outcome_of_error hstage), ending_of_error hstage⟩
      · have hstage := hbody.trans
          (run_stageAndRun_of_plain source name args envs preopens params hplain he)
        exact ⟨hx.trans (outcome_of_error hstage), ending_of_error hstage⟩
      · have hstage := hbody.trans (run_stageAndRun hkey he source name path params)
        exact ⟨hcontent hwrite, hx.trans (outcome_congr hstage), ending_congr hstage⟩

/-- A caller's string without an equals sign: the machine is as it was, and the file is gone. -/
theorem handed_over_malformed :
    let x := Action.runWithData (.bytes emptyBytes) "f" [1, 2, 3] [] ["NOKEY"] [] []
    let path := World.equipped.stagedPath [1, 2, 3]
    outcome x World.equipped =
        .error (.wasi (.environmentError "Expected KEY=VALUE, got 'NOKEY'")) ∧
      (ending x World.equipped).vm = World.equipped.vm ∧
      (ending x World.equipped).host.files.get? path = none := by
  intro x path
  obtain ⟨heq, -, hrest⟩ :=
    handed_over .obliging World.equipped (.bytes emptyBytes) "f" [1, 2, 3] [] ["NOKEY"] [] []
  obtain ⟨-, last, hlast, hgone, -, hfilled⟩ :=
    (hrest _ World.builtIn_equipped.wasi).2 path _ rfl
  obtain ⟨hmalformed, -⟩ := hfilled rfl
  obtain ⟨houtcome, hsame⟩ := hmalformed (.environmentError "Expected KEY=VALUE, got 'NOKEY'")
    (by decide +kernel)
  rw [outcome_congr heq, ending_congr heq]
  refine ⟨houtcome, ?_, hgone ?_⟩
  · rw [hlast, hsame]
    rfl
  · rw [hsame]
    nofun

end Vm

end WasmEmbedding
