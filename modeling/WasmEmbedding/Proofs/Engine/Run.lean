import WasmEmbedding.Proofs.Engine.Guest

/-! # Runs of a machine

Two machines are `Alike` if they differ in the session of the system interface at most.
`Steady C S x` says that `x` comes to the same from machines that are alike, and leaves them
alike; on the way the `Scene` of the run keeps satisfying `C` and the sessions stay related
by `S`.

Guest code is steady for every `C` and `S`, and so are host functions.  A function of the
system interface is steady if the sessions are equal, there is none to be called in a store
without such functions, and without an instance there is no memory it could work on.  So runs
of a machine are steady in these three cases (`Permits`):

* with equal sessions, a run keeps the functions and instances of the store (`keeps_invoke`);
* without functions of the system interface, a run does not depend on the session, and it
  keeps the session and what sessions start from;
* without instances, a run does not depend on the session either.
-/
namespace WasmEmbedding

/-- What the host starts sessions from. -/
structure Host.Grounds where
  files : Wasi.FileSystem
  environments : Array Wasi.Environment

/-- What a host starts sessions from. -/
def Host.grounds (h : Host) : Host.Grounds := ⟨h.files, h.environments⟩

@[simp] theorem Host.grounds_note (h : Host) (text : String) : (h.note text).grounds = h.grounds :=
  rfl

@[simp] theorem Host.grounds_setContext (h : Host) (key : Host.ContextKey)
    (data : Host.SharedData) : (h.setContext key data).grounds = h.grounds := rfl

@[simp] theorem Host.grounds_deleteObject (h : Host) (name : String) :
    (h.deleteObject name).grounds = h.grounds := by
  unfold Host.deleteObject
  split <;> rfl

@[simp] theorem Host.grounds_dropObject (h : Host) (name : String) :
    (h.dropObject name).grounds = h.grounds := h.grounds_deleteObject name

@[simp] theorem Host.grounds_makeObject (h : Host) (moduleName : String) :
    (h.makeObject moduleName).2.grounds = h.grounds := by
  unfold Host.makeObject
  split <;> rfl

namespace Engine

open Host Wasi Wasm

/-- No function is one of the system interface. -/
def Code.SystemFree (c : Code) : Prop :=
  ∀ (address : Nat) (call : Syscall), c.functions[address]? ≠ some (.system call)

/-- What a run leaves as it finds it, unless it calls the system interface. -/
structure Scene where
  code : Code
  grounds : Grounds
  exitCode : Option UInt32

/-- The scene of a run. -/
def Machine.scene (m : Machine) : Scene := ⟨m.code, m.host.grounds, m.store.context.exitCode⟩

/-- The session of the system interface. -/
def Machine.session (m : Machine) : Session := m.store.context.session

/-- The same machine in another session. -/
def Machine.withSession (m : Machine) (s : Session) : Machine :=
  { m with store := { m.store with context := { m.store.context with session := s } } }

/-- Two machines that differ in the session at most. -/
inductive Alike (C : Scene → Prop) (S : Session → Session → Prop) : Machine → Machine → Prop
  | intro {m : Machine} {s : Session} (hc : C m.scene) (hs : S m.session s) :
      Alike C S m (m.withSession s)

theorem Alike.scene {C : Scene → Prop} {S : Session → Session → Prop} {m n : Machine}
    (h : Alike C S m n) : C m.scene := by
  cases h
  assumption

/-- A computation that comes to the same from machines that are alike. -/
def Steady {α : Type} (C : Scene → Prop) (S : Session → Session → Prop) (x : Exec α) : Prop :=
  Respects (Alike C S) x x

/-- A property of scenes that is one of their code. -/
def OfCode (C : Scene → Prop) : Prop := ∀ a b : Scene, b.code = a.code → C a → C b

/-- Functions of the system interface see equal sessions, or are not there, or there is no instance
whose memory they could work on. -/
inductive Permits (C : Scene → Prop) : (Session → Session → Prop) → Prop
  | equal (h : OfCode C) : Permits C Eq
  | systemFree {S : Session → Session → Prop} (h : ∀ a, C a → a.code.SystemFree) : Permits C S
  | uninhabited {S : Session → Session → Prop} (h : ∀ a, C a → a.code.instances = #[]) : Permits C S

variable {α β : Type} {C : Scene → Prop} {S : Session → Session → Prop}

/-- Another session is other surroundings. -/
def Machine.inSession (m : Machine) (s : Session) : Guise :=
  ⟨⟨{ m.store.context with session := s }, m.host⟩, fun id => id⟩

theorem Machine.withOuter_session {m n : Machine} (h : n.outer = m.outer) (s : Session) :
    n.withOuter (m.inSession s) = n.withSession s := by
  have hcontext : n.store.context = m.store.context := congrArg Outer.context h
  have hhost : n.host = m.host := congrArg Outer.host h
  unfold withOuter inSession
  rw [Store.rename_self, ← hcontext, ← hhost]
  rfl

namespace Steady

theorem of_guest {x : Exec α} (hx : Guest x) : Steady C S x := by
  rintro m _ ⟨hscene, hs⟩
  rename_i s
  -- The other session is other surroundings, and neither run changes those it is in.
  have hrun := hx.respects (m.inSession s) m _ (Machine.withOuter_session rfl s).symm
  have hkeeps := hx.keeps m
  have houter := hx.toBlind.outer_ending m
  change Agree _ (EStateM.run x m) (EStateM.run x (m.withSession s)) at hrun
  unfold ending at hkeeps houter
  have alike : ∀ n : Machine, n.code = m.code → n.outer = m.outer →
      Alike C S n (n.withSession s) := by
    intro n hn ho
    have hsession : n.session = m.session := congrArg (·.context.session) ho
    have hhost : n.host = m.host := congrArg Outer.host ho
    have hexit : n.store.context.exitCode = m.store.context.exitCode :=
      congrArg (·.context.exitCode) ho
    have hn' : n.scene = m.scene := by rw [Machine.scene, hn, hhost, hexit, Machine.scene]
    exact .intro (hn' ▸ hscene) (hsession ▸ hs)
  generalize EStateM.run x m = r, EStateM.run x (m.withSession s) = r' at hrun hkeeps houter ⊢
  cases hrun with
  | @ok n n' a h =>
    rw [show n' = n.withSession s from h.trans (Machine.withOuter_session houter s)]
    exact .ok a (alike n hkeeps houter)
  | @error n n' e h =>
    rw [show n' = n.withSession s from h.trans (Machine.withOuter_session houter s)]
    exact .error e (alike n hkeeps houter)

theorem guest (x : Exec α) [hx : Guest x] : Steady C S x := of_guest hx

protected theorem bind {x : Exec α} {f : α → Exec β} (hx : Steady C S x)
    (hf : ∀ a, Steady C S (f a)) : Steady C S (x >>= f) :=
  Respects.bind hx hf

/-- Looking at anything but the session. -/
protected theorem get {f : Machine → Exec β} (hf : ∀ m, C m.scene → Steady C S (f m))
    (h : ∀ m s, f (m.withSession s) = f m) : Steady C S (get >>= f) := by
  refine Respects.get ?_
  rintro m _ ⟨hscene, -⟩
  rw [h]
  exact hf m hscene

/-- Changing anything but the session, whatever the session is. -/
protected theorem modify {f : Machine → Machine} (hc : ∀ m, C m.scene → C (f m).scene)
    (hs : ∀ m, (f m).session = m.session)
    (h : ∀ m s, f (m.withSession s) = (f m).withSession s) :
    Steady C S (modify f : Exec PUnit) := by
  refine Respects.modify ?_
  rintro m _ ⟨hscene, hsession⟩
  rw [h]
  exact .intro (hc m hscene) (hs m ▸ hsession)

/-- What a steady computation keeps, read off one machine. -/
theorem keeps {x : Exec α} (hx : Steady C Eq x) {m : Machine} (hm : C m.scene) :
    C (ending x m).scene := by
  have hrun := hx m m (.intro hm rfl)
  unfold ending
  generalize EStateM.run x m = r at hrun ⊢
  cases hrun with
  | ok a h => exact h.scene
  | error e h => exact h.scene

end Steady

namespace Exec

/-! ## Host functions -/

theorem steady_hostMemory : Steady C S hostMemory := by
  refine Steady.bind (x := callerMemory) (.get (fun m _ => .guest _) fun _ _ => rfl) fun a => ?_
  split
  · exact .get (fun m _ => .guest _) fun _ _ => rfl
  · exact .guest _

theorem steady_hostRead (offset length : UInt32) : Steady C S (hostRead offset length) := by
  refine steady_hostMemory.bind fun r => ?_
  split
  · split <;> exact .guest _
  · exact .guest _

theorem steady_hostWrite (offset : UInt32) (bytes : List UInt8) :
    Steady C S (hostWrite offset bytes) := by
  refine steady_hostMemory.bind fun r => ?_
  split
  · split <;> exact .guest _
  · exact .guest _

theorem steady_modifyHost {f : Host → Host} (hf : ∀ h, (f h).grounds = h.grounds) :
    Steady C S (modifyHost f) := by
  refine .modify (fun m hm => ?_) (fun _ => rfl) fun _ _ => rfl
  have h : Machine.scene { m with host := f m.host } = m.scene := by
    rw [Machine.scene, hf, Machine.scene]
    rfl
  exact h ▸ hm

theorem steady_log (entry : LogEntry) : Steady C S (log entry) :=
  .modify (fun _ h => h) (fun _ => rfl) fun _ _ => rfl

theorem steady_answer (key : Option ContextKey) (p : Program) : Steady C S (answer key p) := by
  -- Every step of a host function is one constructor, and the rest comes by induction.
  induction p with
  | finish result =>
    cases result with
    | ok values => exact .guest (pure values)
    | error e => exact Respects.throw (Stop.host e)
  | readMemory offset length next ih => exact (steady_hostRead offset length).bind ih
  | writeMemory offset bytes next ih => exact (steady_hostWrite offset bytes).bind ih
  | log entry next ih => exact (steady_log entry).bind fun _ => ih
  | inspect next ih => exact .get (fun m _ => ih _ _) fun _ _ => rfl
  | shared next ih => exact .get (fun m _ => ih _) fun _ _ => rfl
  | share data next ih =>
    cases key with
    | none => exact (Steady.guest (pure ())).bind fun _ => ih
    | some key => exact (steady_modifyHost fun h => h.grounds_setContext key data).bind fun _ => ih
  | note text next ih => exact (steady_modifyHost fun h => h.grounds_note text).bind fun _ => ih
  | deleteObject name next ih =>
    exact (steady_modifyHost fun h => h.grounds_deleteObject name).bind fun _ => ih
  | dropObject name next ih =>
    exact (steady_modifyHost fun h => h.grounds_dropObject name).bind fun _ => ih
  | makeObject moduleName next ih =>
    -- The host is looked at first and replaced afterwards, which is one change of it.
    have made : Steady C S (answer key (.makeObject moduleName next)) := by
      rintro m _ ⟨hscene, hs⟩
      rename_i s
      have hm : C (Machine.scene { m with host := (m.host.makeObject moduleName).2 }) := by
        rw [Machine.scene, Host.grounds_makeObject]
        exact hscene
      exact ih _ _ _ (.intro hm hs)
    exact made

instance (r : Except ValueError α) : Guest (ofValue r) := by
  unfold ofValue
  split <;> infer_instance

theorem steady_callHost (id : FunctionId) (signature : Signature) (args : List Operand) :
    Steady C S (callHost id signature args) := by
  refine .get (fun m _ => ?_) fun _ _ => rfl
  cases m.host.registry.lookup id with
  | error e => exact Respects.throw (Stop.registry e)
  | ok entry =>
    refine (Steady.guest (pure entry)).bind fun entry => (Steady.guest _).bind fun values => ?_
    refine (steady_answer _ _).bind fun returned => (Steady.guest _).bind fun _ => ?_
    exact .get (fun m _ => .guest _) fun _ _ => rfl

/-! ## Functions of the system interface -/

theorem keeps_adopt (address : Nat) (p : Process) : Keeps (SameBy Machine.code) (adopt address p) :=
  Keeps.modify fun _ => rfl

/-- What guest code keeps and taking over keeps, a function of the system interface keeps. -/
theorem keeps_callSystem_of {R : Machine → Machine → Prop} [IsPreorder Machine R]
    (hguest : ∀ {γ : Type} (x : Exec γ) [Guest x], Keeps R x)
    (hadopt : ∀ address p, Keeps R (adopt address p)) (c : Syscall) (args : List Operand) :
    Keeps R (callSystem c args) := by
  refine Keeps.bind (Keeps.get.bind fun _ => Keeps.pure _) fun r => ?_
  split
  · refine (Keeps.pure _).bind fun address => Keeps.get.bind fun m => ?_
    refine (hguest _).bind fun memory => ?_
    refine (Keeps.get.bind fun _ => Keeps.pure _).bind fun p => (hadopt _ _).bind fun _ => ?_
    split
    · exact Keeps.pure _
    · exact Keeps.pure _
    · exact Keeps.throw _
    · exact Keeps.throw _
  · exact Keeps.throw _

theorem keeps_callSystem (c : Syscall) (args : List Operand) :
    Keeps (SameBy Machine.code) (callSystem c args) :=
  keeps_callSystem_of (fun _ => Guest.keeps) keeps_adopt c args

/-- In equal sessions everything that keeps the code is steady. -/
theorem steady_of_keeps (hC : OfCode C) {x : Exec α} (hx : Keeps (SameBy Machine.code) x) :
    Steady C Eq x := by
  rintro m _ ⟨hscene, rfl⟩
  -- With equal sessions the two machines are one, which runs once.
  have hm := hx m
  change Agree _ (EStateM.run x m) (EStateM.run x m)
  unfold ending at hm
  generalize EStateM.run x m = r at hm ⊢
  have alike : ∀ n : Machine, n.code = m.code → Alike C Eq n n :=
    fun n hn => .intro (s := n.session) (hC m.scene n.scene hn hscene) rfl
  cases r with
  | ok a n => exact .ok a (alike n hm)
  | error e n => exact .error e (alike n hm)

/-- A function of the system interface needs a memory of its caller to work on. -/
theorem run_callSystem_of_memoryless {m : Machine}
    (h : m.frame.home.bind m.store.callerMemory? = none) (c : Syscall) (args : List Operand) :
    EStateM.run (callSystem c args) m =
      .error (.failure "missing required memory export") m := by
  have hmemory : EStateM.run callerMemory m = .ok none m := by
    rw [← h]
    rfl
  exact run_bind_of_ok hmemory

/-- Without instances there is no such memory. -/
theorem run_callSystem_of_uninhabited {m : Machine} (h : m.store.instances = #[]) (c : Syscall)
    (args : List Operand) : EStateM.run (callSystem c args) m =
      .error (.failure "missing required memory export") m := by
  refine run_callSystem_of_memoryless ?_ c args
  cases m.frame.home with
  | none => rfl
  | some i =>
    change m.store.callerMemory? i = none
    rw [Store.callerMemory?, Store.exported?, h]
    rfl

theorem steady_callSystem_of_uninhabited (h : ∀ a, C a → a.code.instances = #[]) (c : Syscall)
    (args : List Operand) : Steady C S (callSystem c args) := by
  rintro m _ ⟨hscene, hs⟩
  rename_i other
  have hm : m.store.instances = #[] := h _ hscene
  have hn : (m.withSession other).store.instances = #[] := hm
  rw [run_callSystem_of_uninhabited hm, run_callSystem_of_uninhabited hn]
  exact .error _ (.intro hscene hs)

/-! ## Calls, steps and runs -/

/-- Where the store has a function of the system interface, it may be called. -/
theorem steady_callSystem (h : Permits C S) {m : Machine} (hm : C m.scene) {address : Nat}
    {c : Syscall} (hc : m.store.functions[address]? = some (.system c)) (args : List Operand) :
    Steady C S (callSystem c args) := by
  cases h with
  | equal hC => exact steady_of_keeps hC (keeps_callSystem _ _)
  | systemFree hfree => exact absurd hc (hfree _ hm address c)
  | uninhabited hnone => exact steady_callSystem_of_uninhabited hnone c args

theorem steady_call (h : Permits C S) (address : Nat) (args : List Operand) :
    Steady C S (call address args) := by
  refine .get (fun m hm => ?_) fun _ _ => rfl
  split
  · exact .of_guest (guest_start _ _ _ _ fun _ _ => rfl)
  · exact (steady_callHost _ _ _).bind fun _ => .guest _
  · rename_i hc
    exact (steady_callSystem h hm hc args).bind fun _ => .guest _
  · exact .guest _

theorem steady_tailCall (h : Permits C S) (address : Nat) (args : List Operand) :
    Steady C S (tailCall address args) := by
  refine .get (fun m hm => ?_) fun _ _ => rfl
  split
  · exact .of_guest (guest_start _ _ _ _ fun _ _ => rfl)
  · exact (steady_callHost _ _ _).bind fun _ => .guest _
  · rename_i hc
    exact (steady_callSystem h hm hc args).bind fun _ => .guest _
  · exact .guest _

theorem steady_instr (h : Permits C S) (i : Instr) : Steady C S (instr i) := by
  cases i with
  | call f =>
    refine (Steady.guest _).bind fun _ => (Steady.guest _).bind fun address => ?_
    exact (Steady.guest _).bind fun args => steady_call h address args
  | callIndirect type table =>
    refine (Steady.guest _).bind fun _ => (Steady.guest _).bind fun address => ?_
    exact (Steady.guest _).bind fun args => steady_call h address args
  | returnCall f =>
    refine (Steady.guest _).bind fun _ => (Steady.guest _).bind fun address => ?_
    exact (Steady.guest _).bind fun args => steady_tailCall h address args
  | returnCallIndirect type table =>
    refine (Steady.guest _).bind fun _ => (Steady.guest _).bind fun address => ?_
    exact (Steady.guest _).bind fun args => steady_tailCall h address args
  | _ => unfold instr; exact .guest _

theorem steady_step (h : Permits C S) : Steady C S step := by
  refine .get (fun m _ => ?_) fun _ _ => rfl
  dsimp only
  split
  · refine Steady.bind ?_ fun _ => (steady_instr h _).bind fun _ => .guest _
    exact .modify (fun _ h => h) (fun _ => rfl) fun _ _ => rfl
  · split
    · exact .guest _
    · exact .get (fun m _ => .guest _) fun _ _ => rfl

theorem steady_run (h : Permits C S) (n : Nat) : Steady C S (run n) := by
  induction n with
  | zero => exact Respects.throw _
  | succ n ih =>
    refine (steady_step h).bind fun done => ?_
    split
    · exact ih
    · exact .guest _

theorem steady_invoke (h : Permits C S) (address : Nat) (args : List Operand) :
    Steady C S (invoke address args) := by
  refine (steady_call h address args).bind fun _ => (steady_run h _).bind fun _ => ?_
  exact .get (fun m _ => .guest _) fun _ _ => rfl

/-- **A run keeps the functions and the instances of the store**, whatever it calls. -/
theorem keeps_invoke (address : Nat) (args : List Operand) :
    Keeps (SameBy Machine.code) (invoke address args) := by
  intro m
  -- The property to be kept is to have the code that the run starts with.
  have hp : Permits (·.code = m.code) Eq := .equal fun a b h ha => h.trans ha
  exact (steady_invoke hp address args).keeps rfl

end Exec

end Engine

end WasmEmbedding
