import WasmEmbedding.Proofs.Engine.Boundary
import WasmEmbedding.Proofs.Vm.Calls
import WasmEmbedding.Proofs.Vm.Late

/-! # The exit code

A life of a machine (`Lived`) is what has happened to it since it was new: the runs of the engine,
and the registration of the import object for the system interface.  Each moment leaves a mark on
the exit code or none (`Moment.mark`): a session that begins wipes it out, and a call leaves the
code that its guest ends with.  The runs of a rebuild leave none, as a rebuilt store takes the exit
code of the old one over, whatever has become of the new one.  So the exit code is what the last
mark says (`exit_codes`).

The start function of a module that is instantiated or registered is no call: what it quits with is
lost (`start_exit_unreported`).
-/
namespace WasmEmbedding.Vm

open Chronicle Engine Wasm

/-! ## What becomes of the exit code in a run -/

/-- Neither guests nor host functions change the exit code. -/
theorem witnessed_exitCode :
    Witnessed fun m _ _ t => t.store.context.exitCode = m.store.context.exitCode where
  still _ := rfl
  append h h' := h'.trans h
  within hx m := congrArg (fun o : Outer => o.context.exitCode) (hx.keeps m).outer
  callHost c :=
    (Exec.steady_callHost (C := fun a => a.exitCode = c.machine.store.context.exitCode)
      c.id c.signature c.args).keeps rfl
  callSystem call args m := by
    refine Exec.keeps_callSystem_of (R := SameBy fun m : Machine => m.store.context.exitCode)
      (fun {_} x guest m => ?_) (fun address p => ?_) call args m
    · exact congrArg (fun o : Outer => o.context.exitCode) (guest.toBlind.outer_ending m)
    · exact Keeps.modify fun _ => rfl

namespace EngineRun

/-- The code that the guest of a run ends with, if it asks to end. -/
def exit? (r : EngineRun) : Option UInt32 :=
  match r.outcome with
  | .error (.exit code) => some code
  | _ => none

/-- What a run makes of the exit code: an instantiation begins a session, if there is an environment
for it, and a session begins without one; a call leaves the code that its guest ends with.  What a
rebuild runs makes nothing of it. -/
def mark (r : EngineRun) : Option (Option UInt32) :=
  if r.replayed then none
  else match r.task with
    | .build _ => r.setting.vm.environment.map fun _ => none
    | .call _ _ _ => r.exit?.map some

theorem exit?_eq_some {r : EngineRun} {code : UInt32} :
    r.exit? = some code ↔ r.outcome = .error (.exit code) := by
  unfold exit?
  split
  · rename_i h
    rw [h]
    exact ⟨fun e => congrArg _ (congrArg _ (Option.some.inj e)), fun e => by cases e; rfl⟩
  · rename_i h
    exact ⟨nofun, fun e => absurd e (h code)⟩

theorem after_exitCode (r : EngineRun) : r.after.vm.exitCode = r.setting.vm.exitCode :=
  r.told witnessed_exitCode

theorem mark_again (r : EngineRun) : r.again.mark = none := rfl

end EngineRun

/-- The code after marks. -/
def remark {ω : Type} (mark : ω → Option (Option UInt32)) (code : Option UInt32) (l : List ω) :
    Option UInt32 :=
  l.foldl (fun code e => (mark e).getD code) code

/-- The exit code has become what the runs have made of it. -/
def Marking (s : Setting) (runs : List EngineRun) (_ : Except RuntimeError Unit) (t : Setting) :
    Prop :=
  t.vm.exitCode = remark EngineRun.mark s.vm.exitCode runs

/-- Without a mark, the code stays. -/
theorem remark_of_unmarked {ω : Type} {mark : ω → Option (Option UInt32)} {l : List ω}
    (h : ∀ e ∈ l, mark e = none) (code : Option UInt32) : remark mark code l = code := by
  induction l with
  | nil => rfl
  | cons e l ih =>
    obtain ⟨he, hl⟩ := List.forall_mem_cons.mp h
    change remark mark ((mark e).getD code) l = code
    rw [he]
    exact ih hl

/-- Where everything is replayed, the exit code stays. -/
theorem marking_again {s t : Setting} {l : List EngineRun} {r : Except RuntimeError Unit}
    (h : t.vm.exitCode = s.vm.exitCode) : Marking s (l.map EngineRun.again) r t := by
  refine h.trans (remark_of_unmarked (fun e he => ?_) s.vm.exitCode).symm
  obtain ⟨r, -, rfl⟩ := List.mem_map.mp he
  exact r.mark_again

/-- An instantiation in a session that has just begun leaves no exit code; without an environment,
it leaves the one that there is. -/
theorem marking_build {s u v : Setting} (hu : EStateM.run Action.refresh s = .ok () u)
    (hcode : v.vm.exitCode = u.vm.exitCode) (henvironment : v.vm.environment = u.vm.environment)
    (m : Module) (r : Except RuntimeError Unit) :
    Marking s [⟨.build m, v, false⟩] r (ending (Action.instance? m) v) := by
  rw [Action.ending_instance?]
  refine (EngineRun.after_exitCode _).trans (hcode.trans ?_)
  change u.vm.exitCode = (v.vm.environment.map fun _ => none).getD s.vm.exitCode
  rw [henvironment]
  cases h : s.vm.environment with
  | none =>
    cases (Action.run_refresh_of_none h).symm.trans hu
    rw [h]
    rfl
  | some key =>
    obtain ⟨session, -, rfl⟩ := (Action.run_refresh_eq_ok h).mp hu
    have hkey : (Action.begun s session).vm.environment = some key := h
    rw [hkey]
    rfl

/-- An instantiation is told with the session that it begins in. -/
theorem tells_session {d : Unit → Noted Nat} (m : Module) (v : Setting → Setting)
    (hcode : ∀ u, (v u).vm.exitCode = u.vm.exitCode)
    (henvironment : ∀ u, (v u).vm.environment = u.vm.environment)
    (hd : ∀ u l, EStateM.run (d ()) (u, l) =
      withEvents (l ++ [⟨.build m, v u, false⟩]) (EStateM.run (Action.instance? m) (v u))) :
    Tells Marking (quietly Action.refresh >>= d) := by
  intro s l
  have hquiet := run_quietly (x := Action.refresh) (s := s) l
  cases hu : EStateM.run Action.refresh s with
  | error e u =>
    rw [hu] at hquiet
    refine Post.of_error (run_bind_of_error hquiet) ⟨[], (List.append_nil l).symm, ?_⟩
    rw [(Action.refresh_post s).error hu]
    rfl
  | ok _ u =>
    rw [hu] at hquiet
    refine Tells.withEvents ((run_bind_of_ok hquiet).trans (hd u l)) ?_
    exact marking_build hu (hcode u) (henvironment u) m _

/-- A call leaves the code that its guest ends with, or the one that there is. -/
theorem marking_call (address : Nat) (signature : Signature) (args : List Value) (s : Setting)
    (r : Except RuntimeError Unit) :
    Marking s [⟨.call address signature args, s, false⟩] r
      (ending (Action.engage address signature args) s) := by
  let run : EngineRun := ⟨.call address signature args, s, false⟩
  have hreport := (Action.report_post signature
    (outcome (Action.exchange address signature args) (Action.computer s)) run.after).1
  rw [ending_congr (Action.run_engage address signature args s), hreport]
  change Action.exitCodeAfter run.after.vm.exitCode _ = (run.exit?.map some).getD s.vm.exitCode
  rw [run.after_exitCode, EngineRun.exit?, Action.outcome_call_eq]
  cases outcome (Action.exchange address signature args) (Action.computer s) with
  | ok values => rfl
  | error stop => cases stop <;> rfl

theorem recountable_marking : Recountable Marking where
  still _ := rfl
  append {s t u l l' _} h h' := by
    refine (h' : u.vm.exitCode = _).trans ?_
    rw [(h : t.vm.exitCode = _)]
    exact List.foldl_append.symm
  quiet hx s := hx.exitCode s
  define {s _ linked _} _ := by
    change (ending (Action.define linked) s).vm.exitCode = s.vm.exitCode
    unfold ending
    rw [Action.run_define]
    cases h : linked.define s.vm.store s.vm.linker with
    | error e => rfl
    | ok r => exact congrArg Context.exitCode (LinkedImports.context_define h)
  house m := tells_session m id (fun _ => rfl) (fun _ => rfl) fun _ _ => rfl
  attempt m := tells_session m (fun u => { u with vm := { u.vm with stale := true } })
    (fun _ => rfl) (fun _ => rfl) fun _ _ => rfl
  call address signature args s := marking_call address signature args s _
  rebuilt _ := marking_again rfl
  restored _ := marking_again rfl

/-! ## What becomes of the exit code beside the runs -/

namespace Action

/-- Linking an import object for the system interface begins a session, and linking any other one
leaves the exit code as it is. -/
theorem link_exitCode (o : Host.ImportObject) (s : Setting) :
    Post (link o) s fun r t => t.vm.exitCode =
      if r.isOk && o.environment.isSome then none else s.vm.exitCode := by
  have hrun := run_link o s
  cases hsnap : o.snapshot with
  | error e =>
    rw [hsnap] at hrun
    exact Post.of_error hrun rfl
  | ok linked =>
    rw [hsnap] at hrun
    dsimp only at hrun
    obtain ⟨symbols, -, rfl⟩ := Host.ImportObject.snapshot_eq_ok_iff.mp hsnap
    cases hd : LinkedImports.define ⟨o.moduleName, symbols, o.environment⟩ s.vm.store
        s.vm.linker with
    | error e =>
      rw [hd] at hrun
      exact Post.of_error hrun rfl
    | ok r =>
      have hcontext : r.1.context = s.vm.store.context := LinkedImports.context_define hd
      rw [hd] at hrun
      dsimp only at hrun
      rw [run_commit] at hrun
      cases ho : o.environment with
      | none =>
        rw [ho] at hrun
        exact Post.of_ok hrun (congrArg Context.exitCode hcontext)
      | some key =>
        rw [ho] at hrun
        dsimp only at hrun
        split at hrun
        · rename_i hrefresh
          obtain ⟨session, -, rfl⟩ := (run_refresh_eq_ok rfl).mp hrefresh
          exact Post.of_ok hrun rfl
        · rename_i hrefresh
          obtain ⟨w, -, rfl, rfl⟩ := (run_refresh_eq_error rfl).mp hrefresh
          exact Post.of_error hrun (congrArg Context.exitCode hcontext)

theorem registerImport_exitCode (o : Host.ImportObject) (s : Setting) :
    Post (registerImport o) s fun r t => t.vm.exitCode =
      if r.isOk && o.environment.isSome then none else s.vm.exitCode := by
  refine Post.bind (fun _ t ht => ?_) fun e t ht => ?_
  · obtain ⟨rfl, -⟩ := (checkName_post _ _).ok ht
    exact link_exitCode o _
  · obtain ⟨rfl, -⟩ := (checkName_post _ _).error ht
    rfl

/-- A rebuild takes the exit code over, or puts it back. -/
theorem exitCode_rebuild : Keeps (SameBy fun s : Setting => s.vm.exitCode) rebuild := by
  intro s
  unfold SameBy ending
  rw [run_rebuild]
  cases EStateM.run replayAll (blank s) <;> rfl

theorem exitCode_reset : Keeps (SameBy fun s : Setting => s.vm.exitCode) reset := by
  intro s
  unfold SameBy
  rw [ending_of_ok (run_reset s)]
  split
  · exact exitCode_rebuild _
  · rfl

end Action

/-- A new machine has no exit code. -/
theorem exitCode_new {host after : Host} {config : VmConfig} {vm : Vm}
    (h : Vm.new host config = (.ok vm, after)) : vm.exitCode = none := by
  have hrun := new_ok h
  split at hrun
  · obtain ⟨u, hlink, hu⟩ := enableWasi_ok hrun
    cases hu
    refine ((Action.link_exitCode _ _).ok hlink).trans ?_
    split <;> rfl
  · cases hrun
    rfl

/-! ## Histories -/

/-- Something that has happened to a machine. -/
inductive Moment where
  | run (r : EngineRun)
  /-- An import object for the system interface has been registered. -/
  | joined

namespace Moment

/-- What becomes of the exit code. -/
def mark : Moment → Option (Option UInt32)
  | .run r => r.mark
  | .joined => some none

/-- A guest has ended with a code because it has asked to, while the owner of the machine called it,
or while the machine made an instance of it for the first time. -/
def Ends (code : UInt32) : Moment → Prop
  | .run r => r.replayed = false ∧ r.outcome = .error (.exit code)
  | .joined => False

/-- The same, but for the start functions of new instances. -/
def Quits (code : UInt32) : Moment → Prop
  | .run r => r.replayed = false ∧ r.outcome = .error (.exit code) ∧
    ∃ address signature args, r.task = .call address signature args
  | .joined => False

/-- A session of the system interface has begun. -/
def Begins : Moment → Prop
  | .run r => r.replayed = false ∧ r.setting.vm.environment.isSome = true ∧
    ∃ m, r.task = .build m
  | .joined => True

theorem mark_eq_some_some {e : Moment} {n : UInt32} : e.mark = some (some n) ↔ e.Quits n := by
  cases e with
  | joined => exact ⟨nofun, nofun⟩
  | run r =>
    obtain ⟨task, s, replayed⟩ := r
    cases replayed with
    | true => exact ⟨nofun, nofun⟩
    | false =>
      cases task with
      | build m =>
        refine ⟨fun h => ?_, fun ⟨_, _, _, _, _, h⟩ => nomatch h⟩
        obtain ⟨_, _, h⟩ := Option.map_eq_some_iff.mp (h : Option.map _ s.vm.environment = _)
        cases h
      | call address signature args =>
        change Option.map some (EngineRun.exit? _) = _ ↔ _
        rw [Option.map_eq_some_iff]
        constructor
        · rintro ⟨_, h, ⟨⟩⟩
          exact ⟨rfl, EngineRun.exit?_eq_some.mp h, _, _, _, rfl⟩
        · rintro ⟨-, h, -⟩
          exact ⟨n, EngineRun.exit?_eq_some.mpr h, rfl⟩

theorem mark_eq_some_none {e : Moment} : e.mark = some none ↔ e.Begins := by
  cases e with
  | joined => exact ⟨fun _ => trivial, fun _ => rfl⟩
  | run r =>
    obtain ⟨task, s, replayed⟩ := r
    cases replayed with
    | true => exact ⟨nofun, nofun⟩
    | false =>
      cases task with
      | build m =>
        change Option.map (fun _ => none) s.vm.environment = _ ↔ _
        constructor
        · intro h
          obtain ⟨key, hkey, -⟩ := Option.map_eq_some_iff.mp h
          exact ⟨rfl, Option.isSome_iff_exists.mpr ⟨key, hkey⟩, m, rfl⟩
        · rintro ⟨-, h, -⟩
          obtain ⟨key, hkey⟩ := Option.isSome_iff_exists.mp h
          exact Option.map_eq_some_iff.mpr ⟨key, hkey, rfl⟩
      | call address signature args =>
        refine ⟨fun h => ?_, fun ⟨_, _, _, h⟩ => nomatch h⟩
        obtain ⟨_, _, h⟩ := Option.map_eq_some_iff.mp
          (h : Option.map some (EngineRun.exit? _) = some none)
        cases h

theorem mark_eq_none {e : Moment} : e.mark = none ↔ ¬ e.Begins ∧ ∀ n, ¬ e.Quits n := by
  rw [← mark_eq_some_none]
  simp only [← mark_eq_some_some]
  cases e.mark with
  | none => exact ⟨fun _ => ⟨nofun, nofun⟩, fun _ => rfl⟩
  | some code =>
    refine ⟨nofun, fun ⟨hnone, hsome⟩ => ?_⟩
    cases code with
    | none => exact absurd rfl hnone
    | some n => exact absurd rfl (hsome n)

end Moment

section Last

variable {ω : Type} {P Q : ω → Prop}

/-- There is an element that satisfies `P`, behind which none satisfies `Q`. -/
def Last (P Q : ω → Prop) (l : List ω) : Prop :=
  ∃ before e after, l = before ++ e :: after ∧ P e ∧ ∀ d ∈ after, ¬ Q d

theorem Last.mono {P' Q' : ω → Prop} {l : List ω} (h : Last P Q l) (hP : ∀ e ∈ l, P e → P' e)
    (hQ : ∀ e ∈ l, Q' e → Q e) : Last P' Q' l := by
  obtain ⟨before, e, after, rfl, he, hafter⟩ := h
  refine ⟨before, e, after, rfl, hP e (by simp) he, fun d hd hd' => hafter d hd ?_⟩
  exact hQ d (by simp [hd]) hd'

theorem last_cons {x : ω} {l : List ω} :
    Last P Q (x :: l) ↔ (P x ∧ ∀ d ∈ l, ¬ Q d) ∨ Last P Q l := by
  constructor
  · rintro ⟨before, e, after, hl, he, hafter⟩
    cases before with
    | nil =>
      cases hl
      exact .inl ⟨he, hafter⟩
    | cons y before =>
      cases hl
      exact .inr ⟨before, e, after, rfl, he, hafter⟩
  · rintro (⟨hx, hl⟩ | ⟨before, e, after, rfl, he, hafter⟩)
    · exact ⟨[], x, l, rfl, hx, hl⟩
    · exact ⟨x :: before, e, after, rfl, he, hafter⟩

/-- What is left is what the last mark says, or what there was if there is no mark. -/
theorem remark_eq_some {mark : ω → Option (Option UInt32)} {n : UInt32} {l : List ω}
    {code : Option UInt32} : remark mark code l = some n ↔
      Last (mark · = some (some n)) (mark · ≠ none) l ∨
        code = some n ∧ ∀ d ∈ l, ¬ mark d ≠ none := by
  induction l generalizing code with
  | nil =>
    refine ⟨fun h => .inr ⟨h, List.forall_mem_nil _⟩, ?_⟩
    rintro (⟨before, e, after, hl, -⟩ | ⟨h, -⟩)
    · cases before <;> cases hl
    · exact h
  | cons x l ih =>
    refine (@ih ((mark x).getD code)).trans ?_
    rw [last_cons, List.forall_mem_cons]
    cases hx : mark x with
    | none =>
      constructor
      · rintro (h | ⟨h, hl⟩)
        · exact .inl (.inr h)
        · exact .inr ⟨h, fun h => h rfl, hl⟩
      · rintro ((⟨h, -⟩ | h) | ⟨h, -, hl⟩)
        · cases h
        · exact .inl h
        · exact .inr ⟨h, hl⟩
    | some c =>
      constructor
      · rintro (h | ⟨h, hl⟩)
        · exact .inl (.inr h)
        · exact .inl (.inl ⟨congrArg some h, hl⟩)
      · rintro ((⟨h, hl⟩ | h) | ⟨-, h, -⟩)
        · exact .inr ⟨Option.some.inj h, hl⟩
        · exact .inl h
        · exact absurd nofun h

end Last

/-- The operation registers an import object for the system interface. -/
def Operation.joins (s : Setting) : Operation → Bool
  | .registerImport o => (s.answer (.registerImport o)).isOk && o.environment.isSome
  | _ => false

/-- What happens in an operation. -/
def Setting.moments (s : Setting) (o : Operation) : List Moment :=
  (s.runs o).map .run ++ if o.joins s then [.joined] else []

theorem moments_of_not_joins {s : Setting} {o : Operation} (h : o.joins s = false) :
    s.moments o = (s.runs o).map .run := by
  rw [Setting.moments, h]
  exact List.append_nil _

/-- The runs of an operation make of the exit code what they make of it one by one. -/
theorem remark_runs (code : Option UInt32) (runs : List EngineRun) :
    remark Moment.mark code (runs.map .run) = remark EngineRun.mark code runs :=
  List.foldl_map

theorem runs_registerImport (o : Host.ImportObject) (s : Setting) :
    s.runs (.registerImport o) = [] := by
  change (ending (quietly (Action.registerImport o)) (s, ([] : List EngineRun))).2 = []
  have hrun := run_quietly (x := Action.registerImport o) (s := s) ([] : List EngineRun)
  unfold ending
  rw [hrun]
  cases EStateM.run (Action.registerImport o) s <;> rfl

/-- **What an operation makes of the exit code**: what the moments make of it. -/
theorem exitCode_after {o : Operation}
    (ho : ∀ f, o = .amendContext f → ∀ c : Context, (f c).exitCode = c.exitCode) (s : Setting) :
    (s.after o).vm.exitCode = remark Moment.mark s.vm.exitCode (s.moments o) := by
  have told (h : o.amends = false) (hregister : ∀ object, o ≠ .registerImport object)
      (hjoins : o.joins s = false) :
      (s.after o).vm.exitCode = remark Moment.mark s.vm.exitCode (s.moments o) := by
    rw [moments_of_not_joins hjoins, remark_runs]
    exact recountable_marking.perform h (fun object _ h => absurd h (hregister object))
      (fun _ {_ _ _ _} _ => marking_again rfl) s
  cases o with
  | amendStatistics f => rfl
  | amendContext f => exact ho f rfl _
  | registerImport object =>
    have hpost : (s.after (.registerImport object)).vm.exitCode =
        if (Operation.registerImport object).joins s then none else s.vm.exitCode :=
      Action.registerImport_exitCode object s
    rw [hpost, Setting.moments, runs_registerImport]
    cases (Operation.registerImport object).joins s <;> rfl
  | _ => exact told rfl nofun rfl

/-- A machine with what has happened to it since it was new. -/
inductive Lived : List Moment → Setting → Prop
  | new {host after : Host} {config : VmConfig} {vm : Vm}
      (h : Vm.new host config = (.ok vm, after)) : Lived [] ⟨vm, after⟩
  /-- Whoever amends the context leaves the exit code. -/
  | operate {past : List Moment} {s : Setting} (h : Lived past s) (o : Operation)
      (ho : ∀ f, o = .amendContext f → ∀ c : Context, (f c).exitCode = c.exitCode) :
      Lived (past ++ s.moments o) (s.after o)
  /-- Something else happens on the host. -/
  | elsewhere {past : List Moment} {s : Setting} (h : Lived past s) (host : Host) :
      Lived past { s with host }

theorem Lived.ofConfigFile {host after : Host} {file : ConfigFile} {vm : Vm}
    (h : Vm.ofConfigFile host file = (.ok vm, after)) : Lived [] ⟨vm, after⟩ := by
  obtain ⟨made, hnew, -⟩ := new_of_ofConfigFile h
  exact .elsewhere (.new hnew) after

/-- A life goes on. -/
def LivesOn (s t : Setting) : Prop := ∀ past, Lived past s → ∃ more, Lived (past ++ more) t

instance : IsPreorder Setting LivesOn where
  refl _ past h := ⟨[], (List.append_nil past).symm ▸ h⟩
  trans _ _ _ h h' past hs := by
    obtain ⟨more, ht⟩ := h past hs
    obtain ⟨later, hu⟩ := h' _ ht
    exact ⟨more ++ later, (List.append_assoc past more later) ▸ hu⟩

/-- Running a module with data is a part of a life like any other. -/
theorem livesOn_runWithData (source : Source) (name : String) (data : List UInt8)
    (args envs preopens : List String) (params : List Value) :
    Keeps LivesOn (Action.runWithData source name data args envs preopens params) :=
  keeps_runWithData (fun _ _ _ _ _ _ past h => ⟨[], (List.append_nil past).symm ▸ h.elsewhere _⟩)
    (fun _ _ h => ⟨_, h.operate _ nofun⟩) data args envs preopens

/-- The exit code of a machine with a history. -/
theorem Lived.exitCode {past : List Moment} {s : Setting} (h : Lived past s) :
    s.vm.exitCode = remark Moment.mark none past := by
  induction h with
  | new h => exact exitCode_new h
  | operate _ o ho ih =>
    rw [exitCode_after ho, ih]
    exact List.foldl_append.symm
  | elsewhere _ _ ih => exact ih

/-- A run in which a guest asks to end, and does, ends with it. -/
theorem EngineRun.exit_asked {r : EngineRun} {code : UInt32} (h : r.outcome = .error (.exit code)) :
    code.toNat < 126 ∧ ∃ m args,
      EStateM.run (Exec.callSystem .procExit args) m = .error (.exit code) r.ending := by
  have stopped := r.told witnessed_stopped _ h
  generalize hstop : Stop.exit code = stop at stopped
  cases stopped with
  | own own =>
    cases hstop
    cases own
  | host last fails =>
    cases hstop
    obtain own | ⟨d, hd, -⟩ | ⟨d, hd, -⟩ := HostCall.run_perform_error fails
    · cases own
    · cases hd
    · cases hd
  | @exit m args n hn asks =>
    cases hstop
    refine ⟨?_, m, args, asks⟩
    rw [UInt32.toNat_ofNat_of_lt' (Nat.lt_trans hn (by decide))]
    exact hn

/-! ## The law -/

/-- The exit code is that of the last guest that has ended, in a way that counts, unless a session
has begun since. -/
def Reports (Ends : UInt32 → Moment → Prop) (past : List Moment) (code : Option UInt32) : Prop :=
  ∀ n, code = some n ↔ Last (Ends n) (fun d => d.Begins ∨ ∃ k, Ends k d) past

theorem Lived.reports {past : List Moment} {s : Setting} (h : Lived past s) :
    Reports Moment.Quits past s.vm.exitCode := by
  have unmarked : ∀ d : Moment, d.mark ≠ none ↔ d.Begins ∨ ∃ k, d.Quits k := by
    intro d
    rw [ne_eq, Moment.mark_eq_none, not_and_or, not_not, not_forall_not]
  intro n
  rw [h.exitCode, remark_eq_some]
  simp only [unmarked, Moment.mark_eq_some_some]
  exact ⟨fun h => h.resolve_right nofun, .inl⟩

/-- What counts is a matter of the moments that there are. -/
theorem Reports.congr {P Q : UInt32 → Moment → Prop} {past : List Moment} {code : Option UInt32}
    (h : ∀ e ∈ past, ∀ n, P n e ↔ Q n e) (hP : Reports P past code) : Reports Q past code := by
  have begun : ∀ d ∈ past, (d.Begins ∨ ∃ k, P k d) ↔ (d.Begins ∨ ∃ k, Q k d) :=
    fun d hd => or_congr_right (exists_congr fun k => h d hd k)
  refine fun n => (hP n).trans ⟨fun hlast => ?_, fun hlast => ?_⟩
  · exact hlast.mono (fun e he => (h e he n).mp) fun d hd => (begun d hd).mpr
  · exact hlast.mono (fun e he => (h e he n).mpr) fun d hd => (begun d hd).mp

/-- **The exit code is that of the last call whose guest has ended by asking for it**, unless a
session has begun since; as long as no start function has done so, it is that of the last guest at
all.  A guest ends with a code only if it has asked for it, and then the code is below 126.  An
operation in which no call ends in this way and no session begins leaves the exit code as it is, and
so does whatever lets go of the main module or rebuilds the store. -/
theorem exit_codes {past : List Moment} {s : Setting} (h : Lived past s) :
    Reports Moment.Quits past s.vm.exitCode ∧
    ((∀ e ∈ past, ∀ n, e.Ends n → e.Quits n) → Reports Moment.Ends past s.vm.exitCode) ∧
    (∀ r : EngineRun, ∀ code, r.outcome = .error (.exit code) → code.toNat < 126 ∧ ∃ m args,
      EStateM.run (Exec.callSystem .procExit args) m = .error (.exit code) r.ending) ∧
    (∀ o : Operation, (∀ f, o ≠ .amendContext f) →
      (∀ e ∈ s.moments o, ¬ e.Begins ∧ ∀ n, ¬ e.Quits n) →
      (s.after o).vm.exitCode = s.vm.exitCode) ∧
    (∀ source, (s.after (.load source)).vm.exitCode = s.vm.exitCode) ∧
    (s.after .cleanup).vm.exitCode = s.vm.exitCode ∧
    (ending Action.rebuild s).vm.exitCode = s.vm.exitCode := by
  have ends_of_quits : ∀ (e : Moment) n, e.Quits n → e.Ends n := by
    rintro (r | _) n h
    · exact ⟨h.1, h.2.1⟩
    · exact h
  refine ⟨h.reports, fun hstart => ?_, fun r code => EngineRun.exit_asked, fun o ho hnone => ?_,
    fun source => ?_, Action.exitCode_reset s, Action.exitCode_rebuild s⟩
  · exact h.reports.congr fun e he n => ⟨ends_of_quits e n, hstart e he n⟩
  · rw [exitCode_after fun f hf => absurd hf (ho f)]
    exact remark_of_unmarked (fun e he => Moment.mark_eq_none.mpr (hnone e he)) _
  · exact (Action.exitCode_reset.bind fun _ => (Quiet.takeUp source).exitCode) s

/-! ## Two ways to quit -/

theorem lived_served : Lived [] served := by
  have hnew : Vm.new {} {} = (.ok (empty {} ⟨0⟩), (Host.newStore {}).2) := rfl
  exact .elsewhere (.new hnew) _

/-- The module quits when it is called. -/
theorem exit_codes_quitting :
    ∃ past, Lived past (quitting.after (.execute "quit" [])) ∧
      (quitting.after (.execute "quit" [])).vm.exitCode = some 7 ∧
      Last (Moment.Quits 7) (fun d => d.Begins ∨ ∃ k, Moment.Quits k d) past := by
  obtain ⟨past, hquitting⟩ : ∃ past, Lived past quitting := by
    rw [quitting, ← after_validate_offered]
    have hoffered : Lived _ offered :=
      .operate (.operate lived_served (.registerImport (.wasi ⟨0⟩)) (by rintro _ ⟨⟩))
        (.load (.bytes quitterBytes)) (by rintro _ ⟨⟩)
    exact ⟨_, .operate (.operate hoffered .validate (by rintro _ ⟨⟩)) .instantiate
      (by rintro _ ⟨⟩)⟩
  have hlived := hquitting.operate (.execute "quit" []) (by rintro _ ⟨⟩)
  have hcode : (quitting.after (.execute "quit" [])).vm.exitCode = some 7 := by decide +kernel
  exact ⟨_, hlived, hcode, ((exit_codes hlived).1 7).mp hcode⟩

/-- The bytes of a module whose start function quits with the code 7. -/
def startQuitterBytes : List UInt8 :=
  emptyBytes ++ [1, 8, 2, 0x60, 1, 0x7f, 0, 0x60, 0, 0] ++
    [2, 0x24, 1] ++
    [0x16, 0x77, 0x61, 0x73, 0x69, 0x5f, 0x73, 0x6e, 0x61, 0x70, 0x73, 0x68, 0x6f, 0x74, 0x5f,
      0x70, 0x72, 0x65, 0x76, 0x69, 0x65, 0x77, 0x31] ++
    [9, 0x70, 0x72, 0x6f, 0x63, 0x5f, 0x65, 0x78, 0x69, 0x74, 0, 0] ++
    [3, 2, 1, 1] ++ [5, 3, 1, 0, 0] ++ [7, 0x0a, 1, 6, 0x6d, 0x65, 0x6d, 0x6f, 0x72, 0x79, 2, 0] ++
    [8, 1, 1] ++ [0x0a, 8, 1, 6, 0, 0x41, 7, 0x10, 0, 0x0b]

/-- The machine with the module loaded. -/
def startQuitting : Setting :=
  (served.after (.registerImport (.wasi ⟨0⟩))).after (.load (.bytes startQuitterBytes))

/-- There is a machine whose main module quits in its start function, and the exit code is not the
one that it quits with. -/
theorem start_exit_unreported :
    ∃ past, Lived past (startQuitting.after .instantiate) ∧
      (startQuitting.after .instantiate).vm.exitCode = none ∧
      (∃ before r, past = before ++ [.run r] ∧ Moment.Ends 7 (.run r)) ∧
      ¬ Reports Moment.Ends past (startQuitting.after .instantiate).vm.exitCode := by
  have hlived : Lived _ startQuitting :=
    .operate (.operate lived_served (.registerImport (.wasi ⟨0⟩)) nofun)
      (.load (.bytes startQuitterBytes)) nofun
  have hcode : (startQuitting.after .instantiate).vm.exitCode = none := by decide +kernel
  have hruns : ((startQuitting.runs .instantiate).map fun r => (r.replayed, r.exit?)) =
      [(false, some 7)] := by decide +kernel
  obtain ⟨r, hr, hfields⟩ := List.map_eq_singleton_iff.mp hruns
  obtain ⟨hreplayed, hexit⟩ := Prod.mk.inj hfields
  have hends : Moment.Ends 7 (.run r) := ⟨hreplayed, EngineRun.exit?_eq_some.mp hexit⟩
  have hmoments : startQuitting.moments .instantiate = [.run r] := by
    rw [moments_of_not_joins rfl, hr]
    rfl
  refine ⟨_, hlived.operate .instantiate nofun, hcode, ⟨_, r, congrArg _ hmoments, hends⟩,
    fun hreports => ?_⟩
  have hlast := (hreports 7).mpr ⟨_, .run r, [], congrArg _ hmoments, hends, List.forall_mem_nil _⟩
  rw [hcode] at hlast
  cases hlast

end WasmEmbedding.Vm
