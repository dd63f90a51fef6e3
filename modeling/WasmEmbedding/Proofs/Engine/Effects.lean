import WasmEmbedding.Proofs.Engine.Transcript

/-! # What runs do to the host

Guests leave the host alone.  The body of a host function changes it in a few ways only, of which
there are fewer still if it is known which import objects the body deletes (`Program.Minds`) and
which data it shares; a function of the system interface changes files and streams.  So a relation
of hosts that covers these changes (`Host.Effects`) holds between the host before a call and the
host after it (`Exec.host_callHost`), and between those before and after a run (`witnessed_host`).
-/
namespace WasmEmbedding

namespace Host

/-- A body deletes, or lets go of, import objects under certain names only. -/
def Program.Minds (names : String → Prop) : Program → Prop
  | .finish _ => True
  | .readMemory _ _ next => ∀ r, (next r).Minds names
  | .writeMemory _ _ next => ∀ r, (next r).Minds names
  | .log _ next => next.Minds names
  | .inspect next => ∀ count code, (next count code).Minds names
  | .shared next => ∀ data, (next data).Minds names
  | .share _ next => next.Minds names
  | .note _ next => next.Minds names
  | .deleteObject name next => names name ∧ next.Minds names
  | .dropObject name next => names name ∧ next.Minds names
  | .makeObject _ next => ∀ made, (next made).Minds names

/-- Any body minds all names. -/
theorem Program.minds_all (p : Program) : p.Minds fun _ => True := by
  induction p with
  | finish => trivial
  | readMemory _ _ _ ih => exact ih
  | writeMemory _ _ _ ih => exact ih
  | log _ _ ih => exact ih
  | inspect _ ih => exact ih
  | shared _ ih => exact ih
  | share _ _ ih => exact ih
  | note _ _ ih => exact ih
  | deleteObject _ _ ih => exact ⟨trivial, ih⟩
  | dropObject _ _ ih => exact ⟨trivial, ih⟩
  | makeObject _ _ ih => exact ih

/-- A relation of hosts that covers what runs do: bodies delete import objects under certain names
and share data under certain keys. -/
structure Effects (names : String → Prop) (keys : ContextKey → Prop) (Q : Host → Host → Prop) :
    Prop where
  note : ∀ h text, Q h (h.note text)
  share : ∀ h key data, keys key → Q h (h.setContext key data)
  delete : ∀ h name, names name → Q h (h.deleteObject name)
  drop : ∀ h name, names name → Q h (h.dropObject name)
  make : ∀ h moduleName, Q h (h.makeObject moduleName).2
  /-- What a call of the system interface leaves. -/
  adopt : ∀ (h : Host) files stdin stdout stderr, Q h { h with files, stdin, stdout, stderr }

/-- A body minds names, and the data that it shares is kept under one of the keys. -/
structure Registration.Minds (names : String → Prop) (keys : ContextKey → Prop)
    (entry : Registration) : Prop where
  body : ∀ values, (entry.body values).Minds names
  context : ∀ key, entry.context = some key → keys key

theorem Registration.minds_all (entry : Registration) :
    entry.Minds (fun _ => True) fun _ => True :=
  ⟨fun values => (entry.body values).minds_all, fun _ _ => trivial⟩

end Host

namespace Engine

open Host Wasm

variable {names : String → Prop} {keys : ContextKey → Prop} {Q : Host → Host → Prop}

namespace Exec

theorem keeps_host_modify {f : Host → Host} (hf : ∀ h, Q h (f h)) :
    Keeps (InvImage Q Machine.host) (modifyHost f) :=
  Keeps.modify fun m => hf m.host

variable [IsPreorder Host Q]

theorem keeps_host_guest {α : Type} {x : Exec α} (hx : Guest x) :
    Keeps (InvImage Q Machine.host) x := by
  intro m
  have hhost : (ending x m).host = m.host := congrArg Outer.host (hx.toBlind.outer_ending m)
  change Q m.host (ending x m).host
  rw [hhost]
  exact Std.Refl.refl m.host

theorem keeps_host_answer (hQ : Effects names keys Q) {key : Option ContextKey}
    (hkey : ∀ k, key = some k → keys k) {p : Program} (hp : p.Minds names) :
    Keeps (InvImage Q Machine.host) (answer key p) := by
  -- One constructor is one change, and the rest of the body comes by induction.
  induction p with
  | finish result =>
    cases result with
    | ok values => exact Keeps.pure values
    | error e => exact Keeps.throw _
  | readMemory offset length next ih =>
    exact (keeps_host_guest inferInstance).bind fun r => ih r (hp r)
  | writeMemory offset bytes next ih =>
    exact (keeps_host_guest inferInstance).bind fun r => ih r (hp r)
  | log entry next ih =>
    have logged : Keeps (InvImage Q Machine.host) (log entry) :=
      Keeps.modify fun m => Std.Refl.refl m.host
    exact logged.bind fun _ => ih hp
  | inspect next ih => exact Keeps.get.bind fun _ => ih _ _ (hp _ _)
  | shared next ih => exact Keeps.get.bind fun _ => ih _ (hp _)
  | share data next ih =>
    have shared : Keeps (InvImage Q Machine.host) (share key data) := by
      cases key with
      | none => exact Keeps.pure _
      | some k => exact keeps_host_modify fun h => hQ.share h k data (hkey k rfl)
    cases key <;> exact shared.bind fun _ => ih hp
  | note text next ih =>
    exact (keeps_host_modify fun h => hQ.note h text).bind fun _ => ih hp
  | deleteObject name next ih =>
    exact (keeps_host_modify fun h => hQ.delete h name hp.1).bind fun _ => ih hp.2
  | dropObject name next ih =>
    exact (keeps_host_modify fun h => hQ.drop h name hp.1).bind fun _ => ih hp.2
  | makeObject moduleName next ih =>
    have made : Keeps (InvImage Q Machine.host) (makeObject moduleName) :=
      fun m => hQ.make m.host moduleName
    exact made.bind fun r => ih r (hp r)

theorem keeps_host_deliver (signature : Signature) (returned : List Value) :
    Keeps (InvImage Q Machine.host) (deliver signature returned) := by
  refine (keeps_host_guest inferInstance).bind fun _ => Keeps.get.bind fun m => ?_
  refine (keeps_host_guest inferInstance).bind fun results => ?_
  split
  · exact Keeps.pure _
  · exact Keeps.throw _

/-- **A call of a host function does to the host what its body may do.** -/
theorem host_callHost (hQ : Effects names keys Q) {id : FunctionId} {m : Machine}
    (hentry : ∀ entry, m.host.registry.lookup id = .ok entry → entry.Minds names keys)
    (signature : Signature) (args : List Operand) :
    Q m.host (ending (callHost id signature args) m).host := by
  have hrun : EStateM.run (callHost id signature args) m =
      EStateM.run (ofLookup (m.host.registry.lookup id) >>= fun entry =>
        ofValue (Operand.decode args signature.params) >>= fun values =>
          answer entry.context (entry.body values) >>= deliver signature) m := by
    rw [callHost_eq]
    rfl
  cases hlookup : m.host.registry.lookup id with
  | error e =>
    rw [hlookup] at hrun
    rw [ending_of_error hrun]
    exact Std.Refl.refl m.host
  | ok entry =>
    rw [hlookup] at hrun
    have minds := hentry entry hlookup
    have served : Keeps (InvImage Q Machine.host)
        (ofValue (Operand.decode args signature.params) >>= fun values =>
          answer entry.context (entry.body values) >>= deliver signature) :=
      (keeps_host_guest inferInstance).bind fun values =>
        (keeps_host_answer hQ minds.context (minds.body values)).bind
          (keeps_host_deliver signature)
    exact served.of_run_eq hrun

theorem keeps_host_callSystem (hQ : Effects names keys Q) (c : Wasi.Syscall)
    (args : List Operand) : Keeps (InvImage Q Machine.host) (callSystem c args) :=
  keeps_callSystem_of (R := InvImage Q Machine.host) (fun _ hx => keeps_host_guest hx)
    (fun _ _ => Keeps.modify fun m => hQ.adopt m.host _ _ _ _) c args

end Exec

/-- **Runs do to the host what their host calls and calls of the system interface do**, up to each
host call and to the end. -/
theorem witnessed_host [IsPreorder Host Q]
    (hQ : Effects (fun _ => True) (fun _ => True) Q) :
    Witnessed fun m calls _ t => Q m.host t.host ∧ ∀ c ∈ calls, Q m.host c.machine.host where
  still m := ⟨Std.Refl.refl m.host, List.forall_mem_nil _⟩
  append h h' := by
    refine ⟨IsTrans.trans _ _ _ h.1 h'.1, fun c hc => ?_⟩
    exact (List.mem_append.mp hc).elim (h.2 c) fun hc => IsTrans.trans _ _ _ h.1 (h'.2 c hc)
  within {_ x} hx m := by
    have hhost : (ending x m).host = m.host := congrArg Outer.host (hx.keeps m).outer
    rw [hhost]
    exact ⟨Std.Refl.refl m.host, List.forall_mem_nil _⟩
  callHost c := by
    refine ⟨Exec.host_callHost hQ (fun entry _ => entry.minds_all) c.signature c.args,
      fun d hd => ?_⟩
    rw [List.mem_singleton.mp hd]
    exact Std.Refl.refl c.machine.host
  callSystem c args m := ⟨Exec.keeps_host_callSystem hQ c args m, List.forall_mem_nil _⟩

end Engine

end WasmEmbedding
