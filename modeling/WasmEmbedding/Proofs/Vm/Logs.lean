import Mathlib.Data.List.Flatten
import WasmEmbedding.Proofs.Engine.Transcript
import WasmEmbedding.Proofs.Vm.Runs

/-! # What becomes of the guest log

What host functions record while the engine runs comes behind what the log has (`Recording`), and
the log belongs to the store, whose contexts come and go.  A rebuild makes a new store and replays
the registrations on it, in the course of which start functions run again and record again.  Then it
takes the log of the old store over, and puts it in place of what has been recorded meanwhile.

So the log after an operation is the log before it with the entries of all runs that are not
replayed, in their order (`logs_after`).  This is one law for all operations, as it goes on from
step to step: `throughout_recording` has one case for each kind of step, and a rebuild that fails is
no exception, since it goes back to the old log as well.  Nothing is lost exactly if no replayed run
has recorded anything.  `cleanup_loses_greeting` is a machine that loses an entry: a module that
records a greeting when it is started, and that is replayed by a cleanup.
-/
namespace WasmEmbedding.Vm

open Engine Wasm

/-- What host functions record during a run, the first entry first. -/
def EngineRun.recorded (r : EngineRun) : List Host.LogEntry := r.calls.flatMap HostCall.recorded

/-- What is recorded in the runs that are not replayed. -/
def recordedAnew (runs : List EngineRun) : List Host.LogEntry :=
  (runs.filter fun r => !r.replayed).flatMap EngineRun.recorded

/-- The log has grown by what the runs record that are not replayed. -/
def Recording (s : Setting) (runs : List EngineRun) (_ : Except RuntimeError Unit) (t : Setting) :
    Prop :=
  t.vm.logs = s.vm.logs ++ recordedAnew runs

theorem recordedAnew_append (l l' : List EngineRun) :
    recordedAnew (l ++ l') = recordedAnew l ++ recordedAnew l' := by
  unfold recordedAnew
  rw [List.filter_append, List.flatMap_append]

/-- Nothing is recorded anew where everything is replayed. -/
theorem recordedAnew_again (l : List EngineRun) : recordedAnew (l.map EngineRun.again) = [] := by
  have hnone : (l.map EngineRun.again).filter (fun r => !r.replayed) = [] := by
    refine List.filter_eq_nil_iff.mpr fun r hr => ?_
    obtain ⟨r, -, rfl⟩ := List.mem_map.mp hr
    exact Bool.false_ne_true
  rw [recordedAnew, hnone, List.flatMap_nil]

/-- **A run appends what it records.** -/
theorem EngineRun.after_logs (r : EngineRun) :
    r.after.vm.logs = r.setting.vm.logs ++ r.recorded :=
  r.told witnessed_logged

theorem recording_of_unspent {s t : Setting} (h : Unspent s t) (r : Except RuntimeError Unit) :
    Recording s [] r t :=
  h.logs.trans (List.append_nil s.vm.logs).symm

theorem recording_again {s t : Setting} {l : List EngineRun} {r : Except RuntimeError Unit}
    (h : t.vm.logs = s.vm.logs) : Recording s (l.map EngineRun.again) r t := by
  change t.vm.logs = s.vm.logs ++ recordedAnew (l.map EngineRun.again)
  rw [recordedAnew_again, List.append_nil, h]

theorem throughout_recording : Throughout Recording where
  still s := recording_of_unspent (Std.Refl.refl s) _
  append {s t u l l' _} (h : t.vm.logs = _) (h' : u.vm.logs = _) := by
    change u.vm.logs = s.vm.logs ++ recordedAnew (l ++ l')
    rw [h', h, recordedAnew_append, List.append_assoc]
  beside hx s := recording_of_unspent (hx.keeps s).toUnspent _
  define _ := recording_of_unspent (Action.keeps_unspent_define _ _) _
  registerImport _ _ := recording_of_unspent (Action.keeps_unspent_registerImport _ _) _
  build m s := by
    rw [Action.ending_instance?]
    exact (EngineRun.after_logs _).trans (congrArg _ (List.append_nil _).symm)
  call address signature args s := by
    obtain ⟨code, hending⟩ := Action.ending_engage address signature args s
    rw [hending]
    exact (EngineRun.after_logs _).trans (congrArg _ (List.append_nil _).symm)
  rebuilt _ := recording_again rfl
  restored _ := recording_again rfl
  putOff _ := recording_again rfl

namespace Action

/-- Takes the log away. -/
def takeLogs : Action (List Host.LogEntry) := do
  let logs := (← vm).logs
  modifyVm clearLogs
  return logs

end Action

theorem recordedAnew_cons (r : EngineRun) (l : List EngineRun) :
    recordedAnew (r :: l) =
      if r.replayed then recordedAnew l else r.recorded ++ recordedAnew l := by
  unfold recordedAnew
  cases hr : r.replayed with
  | false =>
    rw [List.filter_cons_of_pos (by rw [hr]; rfl), List.flatMap_cons]
    rfl
  | true =>
    rw [List.filter_cons_of_neg (by rw [hr]; exact Bool.false_ne_true)]
    rfl

theorem length_recordedAnew_le (l : List EngineRun) :
    (recordedAnew l).length ≤ (l.flatMap EngineRun.recorded).length :=
  (List.filter_sublist.flatMap _).length_le

/-- Everything that is recorded is recorded anew exactly if no replayed run records anything. -/
theorem recordedAnew_eq_iff (l : List EngineRun) :
    recordedAnew l = l.flatMap EngineRun.recorded ↔
      ∀ r ∈ l, r.replayed = true → r.recorded = [] := by
  induction l with
  | nil => exact iff_of_true rfl fun _ h => absurd h List.not_mem_nil
  | cons r l ih =>
    rw [List.forall_mem_cons, ← ih, recordedAnew_cons, List.flatMap_cons]
    cases r.replayed with
    | false =>
      rw [if_neg Bool.false_ne_true, List.append_cancel_left_eq]
      exact ⟨fun h => ⟨nofun, h⟩, And.right⟩
    | true =>
      rw [if_pos rfl]
      constructor
      · intro h
        have hle := length_recordedAnew_le l
        have hlength := congrArg List.length h
        rw [List.length_append] at hlength
        have hnil : r.recorded = [] := List.length_eq_zero_iff.mp (by omega)
        rw [hnil, List.nil_append] at h
        exact ⟨fun _ => hnil, h⟩
      · rintro ⟨hnil, h⟩
        rw [hnil rfl, List.nil_append]
        exact h

/-- **The log after an operation is the log before it with what host functions have recorded in the
runs that are not replayed, in the order of recording**, however the operation went; so no entry
is lost exactly if no replayed run has recorded one.  A run with data is no exception.  Whoever
takes the log gets all of it and leaves nothing. -/
theorem logs_after (s : Setting) :
    (∀ o : Operation, (∀ f, o ≠ .amendContext f) →
      (s.after o).vm.logs = s.vm.logs ++ recordedAnew (s.runs o) ∧
      ((s.after o).vm.logs = s.vm.logs ++ (s.runs o).flatMap EngineRun.recorded ↔
        ∀ r ∈ s.runs o, r.replayed = true → r.recorded = [])) ∧
    (∀ source name data args envs preopens params,
      Post (Action.runWithData source name data args envs preopens params) s fun _ t =>
        t.vm.logs =
          s.vm.logs ++ recordedAnew (s.runsWithData source name data args envs preopens params)) ∧
    EStateM.run Action.takeLogs s = .ok s.vm.logs { s with vm := s.vm.clearLogs } ∧
    s.vm.clearLogs.logs = [] := by
  have hlogs : ∀ (s : Setting) (o : Operation), (∀ f, o ≠ .amendContext f) →
      (s.after o).vm.logs = s.vm.logs ++ recordedAnew (s.runs o) := by
    intro s o ho
    cases hamends : o.amends with
    | false => exact throughout_recording.perform hamends s
    | true =>
      cases o with
      | amendStatistics f => exact (List.append_nil s.vm.logs).symm
      | amendContext f => exact absurd rfl (ho f)
      | _ => cases hamends
  refine ⟨fun o ho => ⟨hlogs s o ho, ?_⟩, ?_, rfl, rfl⟩
  · rw [hlogs s o ho, List.append_cancel_left_eq]
    exact recordedAnew_eq_iff _
  · intro source name data args envs preopens params
    unfold Setting.runsWithData
    rcases runWithData_post source name data args envs preopens params s with
      ⟨e, hsupplied, -, hvm⟩ | ⟨host, hsupplied, -, hvm, -⟩
    · rw [hsupplied]
      exact (congrArg Vm.logs hvm).trans (List.append_nil s.vm.logs).symm
    · rw [hsupplied]
      exact (congrArg Vm.logs hvm).trans (hlogs _ _ fun _ => nofun)

/-! ## A greeting -/

/-- What the guest below records. -/
def greeting : Host.LogEntry := ⟨.info, "hi"⟩

/-- A host with a function that records a greeting. -/
def greetingHost : Host where
  registry := { next := 2, entries := [(⟨1⟩, ⟨fun _ => .log greeting (.finish (.ok [])), none⟩)] }

/-- An import object with the function. -/
def greetingObject : Host.ImportObject :=
  ⟨"env", some [("log", .function ⟨1⟩ ⟨[], []⟩)], none, none⟩

/-- The bytes of a module that imports the function and starts with it. -/
def greeterBytes : List UInt8 :=
  emptyBytes ++ [1, 4, 1, 0x60, 0, 0] ++
    [2, 0x0b, 1, 3, 0x65, 0x6e, 0x76, 3, 0x6c, 0x6f, 0x67, 0, 0] ++ [8, 1, 0]

/-- Registers the module. -/
def registerGreeter : Operation := .register "greeter" (.bytes greeterBytes)

/-- A new machine with the import object. -/
def greeted : Setting :=
  Setting.after ⟨empty {} ⟨0⟩, greetingHost.newStore.2⟩ (.registerImport greetingObject)

/-- The machine when the greeter has been registered and a main module instantiated. -/
def greetedStale : Setting :=
  ((greeted.after registerGreeter).after (.load (.bytes emptyBytes))).after .instantiate

theorem reachable_greetedStale : Reachable greetedStale := by
  have hnew : Vm.new greetingHost {} = (.ok (empty {} ⟨0⟩), greetingHost.newStore.2) := rfl
  exact .operate (.operate (.operate (.operate (.new hnew) _) _) _) _

/-- The greeter is registered, and its greeting comes into the log. -/
theorem logs_after_registerGreeter :
    (greeted.after registerGreeter).vm.logs =
        greeted.vm.logs ++ recordedAnew (greeted.runs registerGreeter) ∧
      (greeted.after registerGreeter).vm.logs = [greeting] :=
  ⟨((logs_after greeted).1 registerGreeter fun _ => nofun).1, by decide +kernel⟩

/-- There is a reachable machine whose cleanup succeeds and loses an entry that a host function has
recorded. -/
theorem cleanup_loses_greeting :
    ∃ s : Setting, Reachable s ∧ s.answer .cleanup = .ok () ∧
      (s.runs .cleanup).flatMap EngineRun.recorded = [greeting] ∧
      (s.after .cleanup).vm.logs ≠
        s.vm.logs ++ (s.runs .cleanup).flatMap EngineRun.recorded := by
  have hanswer : (greetedStale.answer .cleanup).isOk = true := by decide +kernel
  have hruns : (greetedStale.runs .cleanup).flatMap EngineRun.recorded = [greeting] := by
    decide +kernel
  refine ⟨greetedStale, reachable_greetedStale, ?_, hruns, ?_⟩
  · cases h : greetedStale.answer .cleanup with
    | ok => rfl
    | error e =>
      rw [h] at hanswer
      cases hanswer
  · rw [hruns]
    decide +kernel

end WasmEmbedding.Vm
