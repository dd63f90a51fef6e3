import WasmEmbedding.Proofs.Engine.Transcript
import WasmEmbedding.Proofs.Host.Woven
import WasmEmbedding.Proofs.Wasi.Texts

/-! # Runs on a host of one's own

A machine that runs on a host of its own has a companion on any host that this one is woven into
(`Shadows`): the same machine, except that its store has the host functions under the numbers that
they have there.  Every piece of a run comes to the same for both, and they stay companions
(`Echoes`).  Only where a run stops because the host does not know a function may the two numbers
differ (`Stop.Like`).

Guest code cannot tell the two apart.  What is left are the calls of host functions, whose bodies do
on the one host what they do on the other, and the functions that an instantiation adds.
-/
namespace WasmEmbedding.Engine

open Host Wasi Wasm

/-- Two stops are the same but for the number of a function that is not known. -/
inductive Stop.Like : Stop → Stop → Prop
  | refl (e : Stop) : Like e e
  | unknown (a b : Nat) :
    Like (.registry (.unknownHostFunction a)) (.registry (.unknownHostFunction b))

/-- The numbers of the host functions in a store are known. -/
def Store.Known (s : Store) (σ : Renaming) : Prop :=
  ∀ (a : Nat) (id : FunctionId) (signature : Signature),
    s.functions[a]? = some (.host id signature) → σ.functions.known id.val

/-- The second machine is the first on a host that its host is woven into. -/
inductive Shadows (names others : String → Prop) (σ τ : Renaming) (k : Host) :
    Machine → Machine → Prop
  | intro {m : Machine} {h : Host} (known : m.store.Known σ)
      (hosts : Woven names others σ τ k m.host h) :
    Shadows names others σ τ k m (m.withOuter ⟨⟨m.store.context, h⟩, σ.id⟩)

/-- A computation that comes to the same for companions. -/
def Echoes (names others : String → Prop) (σ τ : Renaming) (k : Host) {α : Type} (x : Exec α) :
    Prop :=
  Tallies (Shadows names others σ τ k) Stop.Like Eq x x

variable {α β : Type} {names others : String → Prop} {σ τ : Renaming} {k : Host}

theorem getElem?_functions_withOuter (m : Machine) (o : Guise) (a : Nat) :
    (m.withOuter o).store.functions[a]? = m.store.functions[a]?.map (·.rename o.names) :=
  Array.getElem?_map

/-- A guest function brings no number. -/
theorem Store.Known.addFunction {s : Store} (h : s.Known σ) (home : Nat) (type : FuncType)
    (body : FunctionBody) : (s.addFunction (.guest home type body)).2.Known σ := by
  intro a id signature ha
  change (s.functions.push _)[a]? = _ at ha
  rw [Array.getElem?_push] at ha
  split at ha
  · cases ha
  · exact h a id signature ha

namespace Echoes

theorem of_guest {x : Exec α} (hx : Guest x) : Echoes names others σ τ k x := by
  rintro m _ ⟨known, hosts⟩
  rename_i h
  have hrun := hx.respects ⟨⟨m.store.context, h⟩, σ.id⟩ m _ rfl
  have hkeeps := hx.keeps m
  have houter := hx.toBlind.outer_ending m
  unfold ending at hkeeps houter
  -- Neither run changes what is around it, nor the functions of its store.
  have shadows : ∀ n : Machine, n.code = m.code → n.outer = m.outer →
      Shadows names others σ τ k n (n.withOuter ⟨⟨m.store.context, h⟩, σ.id⟩) := by
    intro n hn ho
    have hcontext : n.store.context = m.store.context := congrArg Outer.context ho
    have hhost : n.host = m.host := congrArg Outer.host ho
    have hfunctions : n.store.functions = m.store.functions := congrArg Code.functions hn
    rw [← hcontext]
    refine .intro (fun a id signature ha => known a id signature ?_) (hhost ▸ hosts)
    rwa [hfunctions] at ha
  generalize EStateM.run x m = r,
    EStateM.run x (m.withOuter ⟨⟨m.store.context, h⟩, σ.id⟩) = r' at hrun hkeeps houter ⊢
  cases hrun with
  | @ok n n' a hn =>
    rw [show n' = _ from hn]
    exact .ok rfl (shadows n hkeeps houter)
  | @error n n' e hn =>
    rw [show n' = _ from hn]
    exact .error (.refl e) (shadows n hkeeps houter)

theorem guest (x : Exec α) [hx : Guest x] : Echoes names others σ τ k x := of_guest hx

protected theorem bind {x : Exec α} {f : α → Exec β} (hx : Echoes names others σ τ k x)
    (hf : ∀ a, Echoes names others σ τ k (f a)) : Echoes names others σ τ k (x >>= f) :=
  Tallies.seq hx hf

protected theorem throw (e : Stop) : Echoes names others σ τ k (throw e : Exec α) :=
  Tallies.throw (.refl e)

/-- Looking at anything but the surroundings. -/
protected theorem get {f : Machine → Exec β} (hf : ∀ m, Echoes names others σ τ k (f m))
    (h : ∀ m o, f (m.withOuter o) = f m) : Echoes names others σ τ k (get >>= f) := by
  refine Tallies.get ?_
  rintro m _ ⟨known, hosts⟩
  rw [h]
  exact hf m

/-- Changing anything but the host and the host functions of the store. -/
protected theorem modify {f : Machine → Machine} (hhost : ∀ m, (f m).host = m.host)
    (hknown : ∀ m, m.store.Known σ → (f m).store.Known σ)
    (h : ∀ (m : Machine) (h : Host), f (m.withOuter ⟨⟨m.store.context, h⟩, σ.id⟩) =
      (f m).withOuter ⟨⟨(f m).store.context, h⟩, σ.id⟩) :
    Echoes names others σ τ k (modify f : Exec PUnit) := by
  refine Tallies.modify ?_
  rintro m _ ⟨known, hosts⟩
  rw [h]
  exact .intro (hknown m known) (hhost m ▸ hosts)

end Echoes

namespace Exec

/-! ## Host functions -/

/-- A change of the one host, and what comes to the same on the other. -/
theorem tallies_modifyHost {f f' : Host → Host}
    (h : ∀ g h, Woven names others σ τ k g h → Woven names others σ τ k (f g) (f' h)) :
    Tallies (Shadows names others σ τ k) Stop.Like Eq (modifyHost f) (modifyHost f') := by
  refine Tallies.modify ?_
  rintro m _ ⟨known, hosts⟩
  exact .intro (m := { m with host := f m.host }) known (h _ _ hosts)

theorem echoes_log (entry : LogEntry) : Echoes names others σ τ k (log entry) :=
  .modify (fun _ => rfl) (fun _ h => h) fun _ _ => rfl

/-- **The body of a host function does the same on both hosts.** -/
theorem tallies_answer {key : Option ContextKey}
    (hkey : ∀ a, key = some a → σ.contexts.known a.val) {p : Program} (hp : p.Minds names) :
    Tallies (Shadows names others σ τ k) Stop.Like Eq (answer key p)
      (answer (key.map σ.key) p) := by
  -- One constructor is one request, and the rest of the body comes by induction.
  induction p with
  | finish result =>
    cases result with
    | ok values => exact Tallies.pure rfl
    | error e => exact Tallies.throw (.refl _)
  | readMemory offset length next ih => exact (Echoes.guest _).seq fun r => ih r (hp r)
  | writeMemory offset bytes next ih => exact (Echoes.guest _).seq fun r => ih r (hp r)
  | log entry next ih => exact (echoes_log entry).seq fun _ => ih hp
  | inspect next ih =>
    refine Tallies.get ?_
    rintro m _ ⟨known, hosts⟩
    exact ih _ _ (hp _ _)
  | shared next ih =>
    refine Tallies.get ?_
    rintro m _ ⟨known, hosts⟩
    rename_i h
    have hdata : (key.map σ.key).bind h.context? = key.bind m.host.context? := by
      cases key with
      | none => rfl
      | some a => exact hosts.own.context? a (hkey a rfl)
    change Tallies _ _ _ (answer key (next (key.bind m.host.context?)))
      (answer (key.map σ.key) (next ((key.map σ.key).bind h.context?)))
    rw [hdata]
    exact ih _ (hp _)
  | share data next ih =>
    cases key with
    | none => exact (Echoes.guest (pure ())).seq fun _ => ih hp
    | some a =>
      exact (tallies_modifyHost fun _ _ H => H.setContext (hkey a rfl) data).seq fun _ => ih hp
  | note text next ih => exact (tallies_modifyHost fun _ _ H => H.note text).seq fun _ => ih hp
  | deleteObject name next ih =>
    exact (tallies_modifyHost fun _ _ H => H.deleteObject hp.1).seq fun _ => ih hp.2
  | dropObject name next ih =>
    exact (tallies_modifyHost fun _ _ H => H.dropObject hp.1).seq fun _ => ih hp.2
  | makeObject moduleName next ih =>
    have made : Echoes names others σ τ k (makeObject moduleName) := by
      rintro m _ ⟨known, hosts⟩
      obtain ⟨hmade, hosts⟩ := hosts.makeObject moduleName
      exact .ok hmade.symm (.intro (m := { m with host := (m.host.makeObject moduleName).2 })
        known hosts)
    exact made.seq fun r => ih r (hp r)

theorem echoes_deliver (signature : Signature) (returned : List Value) :
    Echoes names others σ τ k (deliver signature returned) := by
  refine (Echoes.guest _).bind fun _ => .get (fun m => (Echoes.guest _).bind fun results => ?_)
    fun _ _ => rfl
  exact .guest _

/-- **A call of a host function comes to the same under the number that it has on the other
host.** -/
theorem tallies_callHost {id : FunctionId} (hid : σ.functions.known id.val) (signature : Signature)
    (args : List Operand) :
    Tallies (Shadows names others σ τ k) Stop.Like Eq (callHost id signature args)
      (callHost (σ.id id) signature args) := by
  rw [callHost_eq, callHost_eq]
  refine Tallies.get ?_
  rintro m _ ⟨known, hosts⟩
  rename_i h
  have hlookup := hosts.own.lookup id hid
  change Tallies _ _ _ (ofLookup (m.host.registry.lookup id) >>= _)
    (ofLookup (h.registry.lookup (σ.id id)) >>= _)
  unfold Registry.lookup
  rw [hlookup]
  cases hentry : m.host.registry.entries.lookup id with
  | none => exact Tallies.throw (.unknown _ _)
  | some entry =>
    have minds := hosts.own.minds id entry hid hentry
    refine (Echoes.guest (ofValue (Operand.decode args signature.params))).seq fun values => ?_
    exact (tallies_answer minds.context (minds.body values)).seq (echoes_deliver signature)

/-! ## Functions of the system interface -/

theorem tallies_process (memory : Memory) :
    Tallies (Shadows names others σ τ k) Stop.Like (fun p q => p.Alike p.session.texts q)
      (process memory) (process memory) := by
  rintro m _ ⟨known, hosts⟩
  have hfiles := congrArg Surroundings.files hosts.surroundings
  have hstdin := congrArg Surroundings.stdin hosts.surroundings
  exact .ok ⟨rfl, rfl, hfiles, hstdin, rfl⟩ (.intro known hosts)

theorem tallies_adopt (address : Nat) {texts : List String × List String} {p q : Process}
    (h : p.Alike texts q) :
    Tallies (Shadows names others σ τ k) Stop.Like Eq (adopt address p) (adopt address q) := by
  refine Tallies.modify ?_
  rintro m _ ⟨known, hosts⟩
  rw [h.session, h.memory, h.files, h.stdin]
  exact .intro (m := { m with
    store := { m.store with
      memories := m.store.memories.modify address fun _ => p.memory
      context := { m.store.context with session := p.session } }
    host := { m.host with
      files := p.files
      stdin := p.stdin
      stdout := p.stdout
      stderr := p.stderr } })
    known ((hosts.withInput p.files p.stdin).streams p.stdout p.stderr q.stdout q.stderr)

theorem echoes_callSystem (c : Syscall) (args : List Operand) :
    Echoes names others σ τ k (callSystem c args) := by
  have hmemory : Echoes names others σ τ k callerMemory :=
    .get (fun m => .guest _) fun _ _ => rfl
  refine hmemory.bind fun r => ?_
  split
  · refine (Echoes.guest _).bind fun address => .get (fun m => ?_) fun _ _ => rfl
    refine (Echoes.guest _).bind fun memory => (tallies_process memory).bind fun p q hpq => ?_
    -- What has been written may differ, but what the function comes to does not depend on it.
    obtain ⟨hresult, hleft⟩ := c.alike_run (args.map argument) hpq
    change Tallies _ _ _
      (adopt address ((c.run (args.map argument)).process p) >>= fun _ =>
        conclude c ((c.run (args.map argument)).result p))
      (adopt address ((c.run (args.map argument)).process q) >>= fun _ =>
        conclude c ((c.run (args.map argument)).result q))
    rw [hresult]
    refine (tallies_adopt address hleft).seq fun _ => ?_
    unfold conclude
    split
    · exact Echoes.guest _
    · exact Echoes.guest _
    · exact Echoes.throw _
    · exact Echoes.throw _
  · exact Tallies.throw (.refl _)

/-! ## Calls, steps and runs -/

theorem echoes_call (address : Nat) (args : List Operand) :
    Echoes names others σ τ k (call address args) := by
  refine Tallies.get ?_
  rintro m _ ⟨known, hosts⟩
  rename_i h
  rw [getElem?_functions_withOuter]
  cases hf : m.store.functions[address]? with
  | none => exact Echoes.guest _
  | some f =>
    cases f with
    | guest home type body => exact Echoes.of_guest (guest_start _ _ _ _ fun _ _ => rfl)
    | host id signature =>
      exact (tallies_callHost (known address id signature hf) signature args).seq fun _ =>
        Echoes.guest _
    | system c => exact (echoes_callSystem c args).bind fun _ => .guest _

theorem echoes_tailCall (address : Nat) (args : List Operand) :
    Echoes names others σ τ k (tailCall address args) := by
  refine Tallies.get ?_
  rintro m _ ⟨known, hosts⟩
  rename_i h
  rw [getElem?_functions_withOuter]
  cases hf : m.store.functions[address]? with
  | none => exact Echoes.guest _
  | some f =>
    cases f with
    | guest home type body => exact Echoes.of_guest (guest_start _ _ _ _ fun _ _ => rfl)
    | host id signature =>
      exact (tallies_callHost (known address id signature hf) signature args).seq fun _ =>
        Echoes.guest _
    | system c => exact (echoes_callSystem c args).bind fun _ => .guest _

theorem echoes_instr (i : Instr) : Echoes names others σ τ k (instr i) := by
  cases i with
  | call f =>
    refine (Echoes.guest _).bind fun _ => (Echoes.guest _).bind fun address => ?_
    exact (Echoes.guest _).bind fun args => echoes_call address args
  | callIndirect type table =>
    refine (Echoes.guest _).bind fun _ => (Echoes.guest _).bind fun address => ?_
    exact (Echoes.guest _).bind fun args => echoes_call address args
  | returnCall f =>
    refine (Echoes.guest _).bind fun _ => (Echoes.guest _).bind fun address => ?_
    exact (Echoes.guest _).bind fun args => echoes_tailCall address args
  | returnCallIndirect type table =>
    refine (Echoes.guest _).bind fun _ => (Echoes.guest _).bind fun address => ?_
    exact (Echoes.guest _).bind fun args => echoes_tailCall address args
  | _ => unfold instr; exact .guest _

theorem echoes_step : Echoes names others σ τ k step := by
  refine .get (fun m => ?_) fun _ _ => rfl
  dsimp only
  split
  · refine Echoes.bind ?_ fun _ => (echoes_instr _).bind fun _ => .guest _
    exact .modify (fun _ => rfl) (fun _ h => h) fun _ _ => rfl
  · split
    · exact .guest _
    · exact .get (fun m => .guest _) fun _ _ => rfl

theorem echoes_run (n : Nat) : Echoes names others σ τ k (run n) := by
  induction n with
  | zero => exact Echoes.throw _
  | succ n ih =>
    refine echoes_step.bind fun done => ?_
    split
    · exact ih
    · exact .guest _

/-- **A call of the host comes to the same on both hosts.** -/
theorem echoes_invoke (address : Nat) (args : List Operand) :
    Echoes names others σ τ k (invoke address args) := by
  refine (echoes_call address args).bind fun _ => (echoes_run _).bind fun _ => ?_
  exact .get (fun m => .guest _) fun _ _ => rfl

/-! ## Instantiation -/

theorem echoes_addFunction (home : Nat) (type : FuncType) (body : FunctionBody) :
    Echoes names others σ τ k (add fun s => s.addFunction (.guest home type body)) := by
  rintro m _ ⟨known, hosts⟩
  rename_i h
  have hsize : (m.store.functions.map (·.rename σ.id)).size = m.store.functions.size :=
    Array.size_map
  have hpush : (m.store.functions.map (·.rename σ.id)).push (.guest home type body) =
      (m.store.functions.push (.guest home type body)).map (·.rename σ.id) := by
    rw [Array.map_push]
    rfl
  have hshadows : Shadows names others σ τ k _ _ :=
    .intro (m := { m with store := (m.store.addFunction (.guest home type body)).2 }) (h := h)
      (known.addFunction home type body) hosts
  refine .ok hsize.symm ?_
  unfold Machine.withOuter at hshadows
  unfold Store.rename at hshadows
  dsimp only [Store.addFunction] at hshadows
  rw [← hpush] at hshadows
  exact hshadows

theorem echoes_addFunctions (m : Module) (index : Nat) (i : Instance) :
    Echoes names others σ τ k (addFunctions m index i) := by
  refine (Echoes.guest _).bind fun types => ?_
  refine Tallies.seq (Tallies.mapM (fun x => ?_) _) fun addresses => Echoes.guest _
  exact echoes_addFunction index x.1 x.2

theorem echoes_allocate (m : Module) (items : List Item) :
    Echoes names others σ τ k (allocate m items) := by
  unfold allocate
  rw [add_bind]
  refine .get (fun n => ?_) fun _ _ => rfl
  dsimp only
  refine Echoes.bind (.modify (fun _ => rfl) (fun _ h => h) fun _ _ => rfl) fun _ => ?_
  refine (echoes_addFunctions m _ _).bind fun i => (Echoes.guest _).bind fun i => ?_
  refine (Echoes.guest _).bind fun i => (Echoes.guest _).bind fun i => ?_
  refine (Echoes.guest _).bind fun i => (Echoes.guest _).bind fun i => ?_
  refine (Echoes.guest _).bind fun exports => Echoes.bind ?_ fun _ => .guest _
  exact .modify (fun _ => rfl) (fun _ h => h) fun _ _ => rfl

theorem echoes_callStart (m : Module) (index : Nat) (i : Instance) :
    Echoes names others σ τ k (callStart m index i) := by
  unfold callStart
  cases m.start with
  | none => exact .guest _
  | some f =>
    refine (Echoes.guest _).bind fun _ => (Echoes.guest _).bind fun address => ?_
    exact (echoes_invoke address []).bind fun _ => .guest _

/-- **An instantiation comes to the same on both hosts.** -/
theorem echoes_instantiate (bulkMemory : Bool) (m : Module) (items : List Item) :
    Echoes names others σ τ k (instantiate bulkMemory m items) := by
  refine (echoes_allocate m items).bind fun ⟨index, i⟩ => (Echoes.guest _).bind fun _ => ?_
  exact (echoes_callStart m index i).bind fun _ => .guest _

end Exec

end WasmEmbedding.Engine
