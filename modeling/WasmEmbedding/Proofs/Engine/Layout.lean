import WasmEmbedding.Proofs.Engine.Exports
import WasmEmbedding.Proofs.Engine.HostCalls
import WasmEmbedding.Proofs.Engine.Orderly
import WasmEmbedding.Proofs.Keyed

/-! # What instances refer to is there

An instance knows what belongs to it by addresses: its functions, tables, memories and globals,
those of its imports among them, and its segments.  What it exports it exports by its address.  In
a sound layout there is something behind every such address (`Layout.Sound`).  So code that looks
for what its instance refers to finds it, and what a host function finds under the name of its
caller's memory is a memory.

The layout of a store is its instances and how many there are of everything else, and hardly
anything changes it.  Code leaves it as it is, and so do the functions that code calls: a memory
that grows or is written takes its own place, and so does a table.  This is shown once for each
instruction, as a property of computations that goes from parts to wholes (`Anchored`).  Only an
instantiation changes the layout.  It makes an instance that refers to nothing first, then adds to
the store what the module defines, one thing after the other (`Appends`), and lets the instance
refer to it last (`Machine.Holds`), so that the layout is sound at every moment in between, and
still is when the start function is called.  So the layout is sound at every host call of a run that
starts with a sound one (`tells_invoke`, `tells_grounded_instantiate`).
-/
namespace WasmEmbedding.Engine

open Chronicle Host Wasi Wasm

/-- How many there are of everything that instances refer to. -/
structure Rows where
  functions : Nat
  tables : Nat
  memories : Nat
  globals : Nat
  elements : Nat
  datas : Nat

namespace Rows

/-- There is something at the address of an item. -/
def Has (r : Rows) : Item → Prop
  | .function a => a < r.functions
  | .table a => a < r.tables
  | .memory a => a < r.memories
  | .global a => a < r.globals

/-- Everything that an instance refers to is there. -/
structure Holds (r : Rows) (i : Instance) : Prop where
  functions : ∀ a ∈ i.functions, a < r.functions
  tables : ∀ a ∈ i.tables, a < r.tables
  memories : ∀ a ∈ i.memories, a < r.memories
  globals : ∀ a ∈ i.globals, a < r.globals
  elements : ∀ a ∈ i.elements, a < r.elements
  datas : ∀ a ∈ i.datas, a < r.datas
  exports : ∀ x ∈ i.exports, r.Has x.2

/-- There may be more of everything. -/
structure Grows (r r' : Rows) : Prop where
  functions : r.functions ≤ r'.functions
  tables : r.tables ≤ r'.tables
  memories : r.memories ≤ r'.memories
  globals : r.globals ≤ r'.globals
  elements : r.elements ≤ r'.elements
  datas : r.datas ≤ r'.datas

variable {r r' : Rows} {i : Instance}

theorem Grows.refl (r : Rows) : r.Grows r := by
  constructor <;> exact Nat.le_refl _

theorem Grows.of_eq (h : r' = r) : r.Grows r' := h ▸ .refl r

theorem Grows.trans {r'' : Rows} (h : r.Grows r') (h' : r'.Grows r'') : r.Grows r'' where
  functions := Nat.le_trans h.functions h'.functions
  tables := Nat.le_trans h.tables h'.tables
  memories := Nat.le_trans h.memories h'.memories
  globals := Nat.le_trans h.globals h'.globals
  elements := Nat.le_trans h.elements h'.elements
  datas := Nat.le_trans h.datas h'.datas

theorem Has.mono {x : Item} (hx : r.Has x) (h : r.Grows r') : r'.Has x := by
  cases x with
  | function a => exact Nat.lt_of_lt_of_le hx h.functions
  | table a => exact Nat.lt_of_lt_of_le hx h.tables
  | memory a => exact Nat.lt_of_lt_of_le hx h.memories
  | global a => exact Nat.lt_of_lt_of_le hx h.globals

theorem Holds.mono (hi : r.Holds i) (h : r.Grows r') : r'.Holds i where
  functions a ha := Nat.lt_of_lt_of_le (hi.functions a ha) h.functions
  tables a ha := Nat.lt_of_lt_of_le (hi.tables a ha) h.tables
  memories a ha := Nat.lt_of_lt_of_le (hi.memories a ha) h.memories
  globals a ha := Nat.lt_of_lt_of_le (hi.globals a ha) h.globals
  elements a ha := Nat.lt_of_lt_of_le (hi.elements a ha) h.elements
  datas a ha := Nat.lt_of_lt_of_le (hi.datas a ha) h.datas
  exports x hx := (hi.exports x hx).mono h

/-- An instance that refers to nothing. -/
theorem holds_empty (r : Rows) : r.Holds {} where
  functions _ ha := absurd ha (Array.not_mem_empty _)
  tables _ ha := absurd ha (Array.not_mem_empty _)
  memories _ ha := absurd ha (Array.not_mem_empty _)
  globals _ ha := absurd ha (Array.not_mem_empty _)
  elements _ ha := absurd ha (Array.not_mem_empty _)
  datas _ ha := absurd ha (Array.not_mem_empty _)
  exports := List.forall_mem_nil _

end Rows

/-- The instances of a store, and how many there are of everything else. -/
structure Layout where
  instances : Array Instance
  rows : Rows

/-- Everything that instances refer to is there. -/
def Layout.Sound (l : Layout) : Prop := ∀ i ∈ l.instances, l.rows.Holds i

theorem Layout.Sound.mono {l l' : Layout} (h : l.Sound) (hi : l'.instances = l.instances)
    (hr : l.rows.Grows l'.rows) : l'.Sound :=
  fun i hmem => (h i (hi ▸ hmem)).mono hr

def Store.rows (s : Store) : Rows where
  functions := s.functions.size
  tables := s.tables.size
  memories := s.memories.size
  globals := s.globals.size
  elements := s.elements.size
  datas := s.datas.size

def Store.layout (s : Store) : Layout := ⟨s.instances, s.rows⟩

theorem Store.layout_congr {s t : Store} (hinstances : t.instances = s.instances)
    (hrows : t.rows = s.rows) : t.layout = s.layout := by
  rw [layout, layout, hinstances, hrows]

def Machine.layout (m : Machine) : Layout := m.store.layout

/-- A memory that a caller exports is there. -/
theorem Store.lt_of_callerMemory? {s : Store} (h : s.layout.Sound) {index a : Nat}
    (ha : s.callerMemory? index = some a) : a < s.memories.size := by
  unfold Store.callerMemory? at ha
  split at ha
  · rename_i b hb
    cases ha
    unfold Store.exported? at hb
    cases hi : s.instances[index]? with
    | none =>
      rw [hi] at hb
      cases hb
    | some i =>
      rw [hi] at hb
      exact (h i (Array.mem_of_getElem? hi)).exports _ (mem_of_lookup hb)
  · cases ha

/-- A computation that leaves the layout of the store as it is. -/
class Anchored {α : Type} (x : Exec α) : Prop where
  keeps : Keeps (SameBy Machine.layout) x

variable {α β : Type}

namespace Anchored

instance pure (a : α) : Anchored (pure a : Exec α) := ⟨Keeps.pure a⟩

instance throw (e : Stop) : Anchored (throw e : Exec α) := ⟨Keeps.throw e⟩

instance get : Anchored (get : Exec Machine) := ⟨Keeps.get⟩

instance bind (x : Exec α) (f : α → Exec β) [hx : Anchored x] [hf : ∀ a, Anchored (f a)] :
    Anchored (x >>= f) :=
  ⟨hx.keeps.bind fun a => (hf a).keeps⟩

theorem seq {x : Exec α} {f : α → Exec β} (hx : Anchored x) (hf : ∀ a, Anchored (f a)) :
    Anchored (x >>= f) :=
  bind x f

protected theorem modify {f : Machine → Machine} (h : ∀ m, (f m).layout = m.layout) :
    Anchored (modify f : Exec PUnit) :=
  ⟨Keeps.modify h⟩

instance ite (c : Prop) [Decidable c] (x y : Exec α) [Anchored x] [Anchored y] :
    Anchored (if c then x else y) := by
  split <;> infer_instance

instance mapM (f : α → Exec β) [hf : ∀ a, Anchored (f a)] (l : List α) : Anchored (l.mapM f) :=
  ⟨Keeps.mapM (fun a => (hf a).keeps) l⟩

instance forM (f : α → Exec PUnit) [hf : ∀ a, Anchored (f a)] (l : List α) :
    Anchored (l.forM f) :=
  ⟨Keeps.forM (fun a => (hf a).keeps) l⟩

end Anchored

namespace Exec

/-! ## Instructions -/

instance (f : Frame → Frame) : Anchored (modifyFrame f) := .modify fun _ => rfl

/-- A table takes the place of one that has been there. -/
instance (address : Nat) (f : Table → Table) : Anchored (modifyTable address f) :=
  .modify fun m => Store.layout_congr rfl <|
    congrArg (fun n => { m.store.rows with tables := n }) Array.size_modify

/-- A memory takes the place of one that has been there. -/
instance (address : Nat) (f : Memory → Memory) : Anchored (modifyMemory address f) :=
  .modify fun m => Store.layout_congr rfl <|
    congrArg (fun n => { m.store.rows with memories := n }) Array.size_modify

instance (code : TrapCode) : Anchored (trap code : Exec α) := inferInstanceAs (Anchored (throw _))

instance : Anchored (stuck : Exec α) := inferInstanceAs (Anchored (throw _))

instance (r : Except Fault α) : Anchored (ofFault r) := by
  unfold ofFault
  split <;> infer_instance

instance (a : Option α) : Anchored (ofOption a) := by
  unfold ofOption
  split <;> infer_instance

instance (x : Operand) : Anchored (push x) := inferInstanceAs (Anchored (modifyFrame _))

instance (xs : List Operand) : Anchored (pushMany xs) := inferInstanceAs (Anchored (modifyFrame _))

instance : Anchored pop := by
  refine .seq inferInstance fun m => ?_
  split <;> infer_instance

instance : Anchored popWord := by
  refine .seq inferInstance fun x => ?_
  split <;> infer_instance

instance : Anchored popVector := by
  refine .seq inferInstance fun x => ?_
  split <;> infer_instance

instance (n : Nat) : Anchored (popMany n) := inferInstanceAs (Anchored (_ >>= _))

instance : Anchored home := inferInstanceAs (Anchored (_ >>= _))

instance (i : Nat) : Anchored (functionAddress i) := inferInstanceAs (Anchored (_ >>= _))

instance (i : Nat) : Anchored (tableAddress i) := inferInstanceAs (Anchored (_ >>= _))

instance (i : Nat) : Anchored (memoryAddress i) := inferInstanceAs (Anchored (_ >>= _))

instance (i : Nat) : Anchored (globalAddress i) := inferInstanceAs (Anchored (_ >>= _))

instance (address : Nat) : Anchored (table address) := inferInstanceAs (Anchored (_ >>= _))

instance (address start count : Nat) : Anchored (checkBytes address start count) := by
  refine .seq inferInstance fun m => ?_
  split <;> infer_instance

instance (address start count : Nat) : Anchored (readBytes address start count) := by
  refine .seq inferInstance fun m => ?_
  split
  · split <;> infer_instance
  · infer_instance

instance (address start : Nat) (bytes : List UInt8) : Anchored (writeBytes address start bytes) :=
  inferInstanceAs (Anchored (_ >>= _))

instance : Anchored popNumber := by
  refine .seq inferInstance fun x => ?_
  split <;> infer_instance

instance (a : Access) (n : Nat) : Anchored (pushNumber a n) := inferInstanceAs (Anchored (push _))

instance (arg : MemArg) : Anchored (popAddress arg) := inferInstanceAs (Anchored (_ >>= _))

instance (address bytes : Nat) : Anchored (checkAligned address bytes) :=
  inferInstanceAs (Anchored (ite _ _ _))

instance (arg : MemArg) (bytes : Nat) : Anchored (popAligned arg bytes) :=
  inferInstanceAs (Anchored (_ >>= _))

instance (memory address : Nat) (a : Access) (f : Nat → Nat) :
    Anchored (replaceNumber memory address a f) :=
  inferInstanceAs (Anchored (_ >>= _))

instance (o : AtomicOp) (arg : MemArg) : Anchored (atomic o arg) := by
  refine .seq inferInstance fun memory => ?_
  cases o with
  | wait w =>
    refine .seq inferInstance fun _ => .seq inferInstance fun _ => .seq inferInstance fun _ => ?_
    split
    · exact .seq inferInstance fun _ => .seq inferInstance fun _ => inferInstance
    · exact .seq inferInstance fun _ => inferInstance
  | _ => infer_instance

instance (o : MemoryOp) (arg : MemArg) : Anchored (access o arg) := by
  cases o <;> (unfold access; infer_instance)

instance (m : LaneMove) (l : Lane) (arg : MemArg) (lane : Nat) :
    Anchored (moveLane m l arg lane) := by
  cases m <;> (unfold moveLane; infer_instance)

instance : Anchored popThree := inferInstanceAs (Anchored (_ >>= _))

instance (i : Nat) : Anchored (memorySize i) := inferInstanceAs (Anchored (_ >>= _))

instance (i : Nat) : Anchored (memoryGrow i) := by
  refine .seq inferInstance fun _ => .seq inferInstance fun _ => .seq inferInstance fun _ => ?_
  refine .seq inferInstance fun memory => ?_
  split <;> infer_instance

instance (i : Nat) : Anchored (memoryFill i) := inferInstanceAs (Anchored (_ >>= _))

instance (i j : Nat) : Anchored (memoryCopy i j) := inferInstanceAs (Anchored (_ >>= _))

instance (i : Nat) : Anchored (data i) := inferInstanceAs (Anchored (_ >>= _))

instance (segment i : Nat) : Anchored (memoryInit segment i) := by
  refine .seq inferInstance fun _ => .seq inferInstance fun _ => ?_
  split <;> infer_instance

instance (segment : Nat) : Anchored (modifyStore fun s =>
    { s with datas := s.datas.setIfInBounds segment [] }) :=
  .modify fun m => Store.layout_congr rfl <|
    congrArg (fun n => { m.store.rows with datas := n }) Array.size_setIfInBounds

instance (segment : Nat) : Anchored (modifyStore fun s =>
    { s with elements := s.elements.setIfInBounds segment [] }) :=
  .modify fun m => Store.layout_congr rfl <|
    congrArg (fun n => { m.store.rows with elements := n }) Array.size_setIfInBounds

instance (segment : Nat) : Anchored (dataDrop segment) := inferInstanceAs (Anchored (_ >>= _))

instance (i : Nat) : Anchored (tableGet i) := by
  refine .seq inferInstance fun _ => .seq inferInstance fun _ => .seq inferInstance fun _ => ?_
  split <;> infer_instance

instance (address start count : Nat) : Anchored (checkItems address start count) :=
  inferInstanceAs (Anchored (_ >>= _))

instance (address start : Nat) (items : List Operand) : Anchored (writeItems address start items) :=
  inferInstanceAs (Anchored (_ >>= _))

instance (i : Nat) : Anchored (tableSet i) := inferInstanceAs (Anchored (_ >>= _))

instance (i : Nat) : Anchored (tableSize i) := inferInstanceAs (Anchored (_ >>= _))

instance (i : Nat) : Anchored (tableGrow i) := by
  refine .seq inferInstance fun _ => .seq inferInstance fun _ => .seq inferInstance fun _ => ?_
  refine .seq inferInstance fun t => ?_
  split <;> infer_instance

instance (i : Nat) : Anchored (tableFill i) := inferInstanceAs (Anchored (_ >>= _))

instance (i j : Nat) : Anchored (tableCopy i j) := inferInstanceAs (Anchored (_ >>= _))

instance (i : Nat) : Anchored (element i) := inferInstanceAs (Anchored (_ >>= _))

instance (segment i : Nat) : Anchored (tableInit segment i) := by
  refine .seq inferInstance fun _ => .seq inferInstance fun _ => ?_
  split <;> infer_instance

instance (segment : Nat) : Anchored (elemDrop segment) := inferInstanceAs (Anchored (_ >>= _))

instance (o : Op) : Anchored (op o) := by
  cases o with
  | globalSet i =>
    refine .seq inferInstance fun _ => .seq inferInstance fun _ => .modify fun m => ?_
    exact Store.layout_congr rfl <|
      congrArg (fun n => { m.store.rows with globals := n }) Array.size_modify
  | refIsNull =>
    refine .seq inferInstance fun x => ?_
    split <;> infer_instance
  | _ => unfold op; infer_instance

/-! ## Frames and blocks -/

instance : Anchored settle := .modify fun _ => rfl

instance : Anchored checkFuel := by
  refine .seq inferInstance fun m => ?_
  split <;> infer_instance

instance (home : Nat) (type : FuncType) (body : FunctionBody) (args : List Operand)
    (callers : Machine → List Frame × Nat) : Anchored (start home type body args callers) := by
  have entered : Anchored (modify fun m : Machine =>
      { m with
        frame :=
          { home := some home, arity := type.results.length, locals := localsOf body args
            code := body.code }
        callers := (callers m).1
        depth := (callers m).2
        meter := m.meter.charge 1 } : Exec PUnit) := .modify fun _ => rfl
  refine .seq inferInstance fun m => ?_
  split
  · exact .throw _
  · exact .seq entered fun _ => inferInstance

instance : Anchored leave := by
  rw [leave_eq]
  refine .seq inferInstance fun _ => .modify ?_
  rintro ⟨store, host, meter, frame, callers, depth⟩
  cases callers <;> rfl

instance (address : Nat) : Anchored (arguments address) := inferInstanceAs (Anchored (_ >>= _))

instance (type table : Nat) : Anchored (indirect type table) := by
  refine .seq inferInstance fun index => .seq inferInstance fun address => ?_
  refine .seq inferInstance fun t => ?_
  split <;> infer_instance

instance (type : BlockType) : Anchored (blockArity type) := by
  cases type <;> (unfold blockArity; infer_instance)

instance (params arity : Nat) (again : Option (List Instr)) (body : List Instr) :
    Anchored (enter params arity again body) := inferInstanceAs (Anchored (modifyFrame _))

instance (l : Nat) : Anchored (branch l) := by
  refine .seq inferInstance fun m => ?_
  dsimp only
  split
  · infer_instance
  · split <;> infer_instance

instance (label : Label) (outer : List Label) : Anchored (endBlock label outer) :=
  inferInstanceAs (Anchored (modifyFrame _))

/-! ## Functions outside the guest -/

instance : Anchored callerMemory := inferInstanceAs (Anchored (_ >>= _))

instance : Anchored hostMemory := by
  refine .seq inferInstance fun found => ?_
  split
  · infer_instance
  · infer_instance

instance (offset length : UInt32) : Anchored (hostRead offset length) := by
  refine .seq inferInstance fun r => ?_
  split
  · split <;> infer_instance
  · infer_instance

instance (offset : UInt32) (bytes : List UInt8) : Anchored (hostWrite offset bytes) := by
  refine .seq inferInstance fun r => ?_
  split
  · split <;> infer_instance
  · infer_instance

instance (f : Host → Host) : Anchored (modifyHost f) := .modify fun _ => rfl

instance (entry : LogEntry) : Anchored (log entry) := .modify fun _ => rfl

instance (key : Option ContextKey) (p : Program) : Anchored (answer key p) := by
  induction p with
  | finish result => cases result <;> (unfold answer; infer_instance)
  | readMemory offset length next ih => exact .seq inferInstance ih
  | writeMemory offset bytes next ih => exact .seq inferInstance ih
  | log entry next ih => exact .seq inferInstance fun _ => ih
  | inspect next ih => exact .seq inferInstance fun m => ih _ _
  | shared next ih => exact .seq inferInstance fun m => ih _
  | share data next ih =>
    cases key with
    | none => exact .seq (.pure ()) fun _ => ih
    | some key => exact .seq inferInstance fun _ => ih
  | note text next ih => exact .seq inferInstance fun _ => ih
  | deleteObject name next ih => exact .seq inferInstance fun _ => ih
  | dropObject name next ih => exact .seq inferInstance fun _ => ih
  | makeObject moduleName next ih =>
    exact .seq inferInstance fun m => .seq inferInstance fun _ => ih _

instance (r : Except ValueError α) : Anchored (ofValue r) := by
  unfold ofValue
  split <;> infer_instance

instance (id : FunctionId) (signature : Signature) (args : List Operand) :
    Anchored (callHost id signature args) := by
  refine .seq inferInstance fun m => ?_
  cases m.host.registry.lookup id with
  | error e => exact .throw _
  | ok entry => exact .seq (.pure entry) fun entry => inferInstance

instance (memory : Memory) : Anchored (process memory) := inferInstanceAs (Anchored (_ >>= _))

instance (address : Nat) (p : Process) : Anchored (adopt address p) :=
  .modify fun m => Store.layout_congr rfl <|
    congrArg (fun n => { m.store.rows with memories := n }) Array.size_modify

instance (c : Syscall) (args : List Operand) : Anchored (callSystem c args) := by
  refine .seq inferInstance fun found => ?_
  split
  · refine .seq (.pure _) fun address => .seq inferInstance fun m => ?_
    refine .seq inferInstance fun memory => ?_
    refine .seq inferInstance fun p => .seq inferInstance fun _ => ?_
    split <;> infer_instance
  · exact .throw _

end Exec

/-! ## Runs -/

/-- The layout is the same at the end, and at every host call on the way. -/
def Unmoved (m : Machine) (calls : List HostCall) (_ : Except Stop Unit) (t : Machine) : Prop :=
  t.layout = m.layout ∧ ∀ c ∈ calls, c.machine.layout = m.layout

theorem history_unmoved : History Unmoved where
  still _ := ⟨rfl, List.forall_mem_nil _⟩
  append h h' := by
    refine ⟨h'.1.trans h.1, fun c hc => ?_⟩
    rcases List.mem_append.mp hc with hc | hc
    · exact h.2 c hc
    · exact (h'.2 c hc).trans h.1

namespace Anchored

theorem quiet (x : Exec α) [hx : Anchored x] : Tells Unmoved (quietly x) :=
  Tells.quietly fun m => ⟨hx.keeps m, List.forall_mem_nil _⟩

theorem told {c : Told α} {d : α → Told β} (hc : Tells Unmoved c)
    (hd : ∀ a, Tells Unmoved (d a)) : Tells Unmoved (c >>= d) :=
  Tells.bind history_unmoved hc hd

/-- What comes after a part that is not a host call. -/
theorem andThen {x : Exec α} [Anchored x] {d : α → Told β} (hd : ∀ a, Tells Unmoved (d a)) :
    Tells Unmoved (quietly x >>= d) :=
  told (quiet x) hd

theorem tells_callHost (id : FunctionId) (signature : Signature) (args : List Operand) :
    Tells Unmoved (Told.callHost id signature args) :=
  Tells.noting fun m => ⟨Anchored.keeps m, List.forall_mem_singleton.mpr rfl⟩

theorem tells_call (address : Nat) (args : List Operand) :
    Tells Unmoved (Told.call address args) := by
  refine andThen fun m => ?_
  rcases m.store.functions[address]? with _ | ⟨home, type, body⟩ | ⟨id, signature⟩ | c
  · exact quiet _
  · exact quiet _
  · exact told (tells_callHost id signature args) fun _ => quiet _
  · exact andThen fun _ => quiet _

theorem tells_tailCall (address : Nat) (args : List Operand) :
    Tells Unmoved (Told.tailCall address args) := by
  refine andThen fun m => ?_
  rcases m.store.functions[address]? with _ | ⟨home, type, body⟩ | ⟨id, signature⟩ | c
  · exact quiet _
  · exact quiet _
  · exact told (tells_callHost id signature args) fun _ => andThen fun _ => quiet _
  · exact andThen fun _ => andThen fun _ => quiet _

theorem tells_callFound (find : Exec Nat) [Anchored find] {call : Nat → List Operand → Told Unit}
    (hcall : ∀ a args, Tells Unmoved (call a args)) : Tells Unmoved (Told.callFound find call) :=
  andThen fun _ => andThen fun address => andThen fun args => hcall address args

theorem tells_instr (i : Instr) : Tells Unmoved (Told.instr i) := by
  cases i with
  | call f => exact tells_callFound _ tells_call
  | callIndirect type table => exact tells_callFound _ tells_call
  | returnCall f => exact tells_callFound _ tells_tailCall
  | returnCallIndirect type table => exact tells_callFound _ tells_tailCall
  | _ =>
    unfold Told.instr Exec.instr
    exact quiet _

theorem tells_step : Tells Unmoved Told.step := by
  refine andThen fun m => ?_
  dsimp only
  cases m.frame.code with
  | nil =>
    have closed : Anchored (Exec.closeBlock m.frame.labels) := by
      unfold Exec.closeBlock
      split <;> infer_instance
    exact quiet _
  | cons i rest =>
    have fetched : Anchored (Exec.fetch i rest) := .modify fun _ => rfl
    exact andThen fun _ => told (tells_instr i) fun _ => Tells.pure history_unmoved _

theorem tells_run (n : Nat) : Tells Unmoved (Told.run n) := by
  induction n with
  | zero => exact Tells.throw fun _ => ⟨rfl, List.forall_mem_nil _⟩
  | succ n ih =>
    refine told tells_step fun done => ?_
    split
    · exact ih
    · exact Tells.pure history_unmoved _

/-- What leaves the layout as it is between host calls leaves it as it is. -/
theorem of_tells {x : Exec α} {c : Told α} (hx : Erases x c) (hc : Tells Unmoved c) : Anchored x :=
  ⟨fun m => (hc.events hx m).1⟩

instance (address : Nat) (args : List Operand) : Anchored (Exec.call address args) :=
  of_tells (Told.erases_call address args) (tells_call address args)

instance (address : Nat) (args : List Operand) : Anchored (Exec.tailCall address args) :=
  of_tells (Told.erases_tailCall address args) (tells_tailCall address args)

instance (i : Instr) : Anchored (Exec.instr i) := of_tells (Told.erases_instr i) (tells_instr i)

instance : Anchored Exec.step := of_tells Told.erases_step tells_step

instance (n : Nat) : Anchored (Exec.run n) := of_tells (Told.erases_run n) (tells_run n)

/-- **A run leaves the layout as it is**, from one host call to the next. -/
theorem tells_invoke (address : Nat) (args : List Operand) :
    Tells Unmoved (Told.invoke address args) := by
  have taken : Anchored Exec.takeResults := inferInstanceAs (Anchored (_ >>= _))
  exact told (tells_call address args) fun _ => told (tells_run _) fun _ => quiet _

instance (address : Nat) (args : List Operand) : Anchored (Exec.invoke address args) :=
  of_tells (Told.erases_invoke address args) (tells_invoke address args)

theorem tells_callStart (m : Module) (index : Nat) (i : Instance) :
    Tells Unmoved (Told.callStart m index i) := by
  unfold Told.callStart
  cases m.start with
  | none => exact Tells.pure history_unmoved _
  | some f =>
    refine andThen fun _ => andThen fun address => ?_
    exact told (tells_invoke address []) fun _ => Tells.pure history_unmoved _

end Anchored

/-! ## Instantiation -/

/-- In the middle of an instantiation: the layout is sound, there is as much of everything as there
was or more, and what the instance refers to that is being made is there. -/
structure Machine.Holds (least : Rows) (i : Instance) (m : Machine) : Prop where
  sound : m.layout.Sound
  grown : least.Grows m.layout.rows
  holds : m.layout.rows.Holds i

variable {least : Rows} {i : Instance}

theorem Machine.Holds.blank {m : Machine} (h : m.Holds least i) : m.Holds least {} :=
  { h with holds := m.layout.rows.holds_empty }

/-- Instances stay, and something may come behind what is there. -/
theorem Machine.Holds.mono {m t : Machine} (h : m.Holds least i)
    (hi : t.layout.instances = m.layout.instances) (hl : m.layout.rows.Grows t.layout.rows) :
    t.Holds least i :=
  ⟨h.sound.mono hi hl, h.grown.trans hl, h.holds.mono hl⟩

theorem Machine.Holds.of_layout {m t : Machine} (h : m.Holds least i) (ht : t.layout = m.layout) :
    t.Holds least i :=
  h.mono (congrArg Layout.instances ht) (.of_eq (congrArg Layout.rows ht))

/-- A part of an instantiation that goes on from one instance to the next. -/
def Makes (least : Rows) (i : Instance) (x : Exec Instance) : Prop :=
  ∀ m, m.Holds least i → Post x m fun r t => t.Holds least {} ∧ ∀ j, r = .ok j → t.Holds least j

theorem Makes.seq {x : Exec Instance} (hx : Makes least i x) {f : Instance → Exec β} {m : Machine}
    (hm : m.Holds least i)
    (hf : ∀ j t, t.Holds least j → Post (f j) t fun _ u => u.Holds least {}) :
    Post (x >>= f) m fun _ t => t.Holds least {} :=
  Post.bind (fun j t ht => hf j t (((hx m hm).ok ht).2 j rfl)) fun _ _ ht => ((hx m hm).error ht).1

/-- What leaves the layout as it is may come before. -/
theorem Makes.after {x : Exec α} [hx : Anchored x] {f : α → Exec Instance}
    (hf : ∀ a, Makes least i (f a)) : Makes least i (x >>= f) := by
  intro m hm
  refine Post.bind (fun a t ht => hf a t (hm.of_layout (hx.keeps.ok ht))) fun e t ht => ?_
  exact ⟨(hm.of_layout (hx.keeps.error ht)).blank, nofun⟩

/-- Something is added to the store, if anything is, and its address is one of a row. -/
def Appends (row : Rows → Nat) (x : Exec Nat) : Prop :=
  ∀ m, Post x m fun r t =>
    t.layout.instances = m.layout.instances ∧ m.layout.rows.Grows t.layout.rows ∧
      ∀ a, r = .ok a → a < row t.layout.rows

namespace Appends

variable {row : Rows → Nat}

theorem after {x : Exec α} [hx : Anchored x] {f : α → Exec Nat} (hf : ∀ a, Appends row (f a)) :
    Appends row (x >>= f) := by
  intro m
  refine Post.bind (fun a t ht => ?_) fun e t ht => ?_
  · have hsame : t.layout = m.layout := hx.keeps.ok ht
    rw [← hsame]
    exact hf a t
  · have hsame : t.layout = m.layout := hx.keeps.error ht
    exact ⟨congrArg Layout.instances hsame, .of_eq (congrArg Layout.rows hsame), nofun⟩

/-- What is added stays while more is. -/
theorem mapM (hrow : ∀ r r' : Rows, r.Grows r' → row r ≤ row r') {f : α → Exec Nat}
    (hf : ∀ a, Appends row (f a)) (xs : List α) (m : Machine) :
    Post (xs.mapM f) m fun r t =>
      t.layout.instances = m.layout.instances ∧ m.layout.rows.Grows t.layout.rows ∧
        ∀ own, r = .ok own → ∀ a ∈ own, a < row t.layout.rows := by
  induction xs generalizing m with
  | nil =>
    rw [List.mapM_nil]
    refine ⟨rfl, .refl _, ?_⟩
    rintro _ ⟨⟩
    exact List.forall_mem_nil _
  | cons x xs ih =>
    rw [List.mapM_cons]
    refine Post.bind (fun a t ht => ?_) fun e t ht => ?_
    · obtain ⟨hinstances, hgrows, ha⟩ := (hf x m).ok ht
      refine Post.bind (fun own u hu => ?_) fun e u hu => ?_
      · obtain ⟨hinstances', hgrows', hown⟩ := (ih t).ok hu
        refine ⟨hinstances'.trans hinstances, hgrows.trans hgrows', ?_⟩
        rintro _ ⟨⟩
        exact List.forall_mem_cons.mpr
          ⟨Nat.lt_of_lt_of_le (ha a rfl) (hrow _ _ hgrows'), hown own rfl⟩
      · obtain ⟨hinstances', hgrows', -⟩ := (ih t).error hu
        exact ⟨hinstances'.trans hinstances, hgrows.trans hgrows', nofun⟩
    · obtain ⟨hinstances, hgrows, -⟩ := (hf x m).error ht
      exact ⟨hinstances, hgrows, nofun⟩

/-- An instance is given the addresses of what has been added. -/
theorem makes (hrow : ∀ r r' : Rows, r.Grows r' → row r ≤ row r') {f : α → Exec Nat}
    (hf : ∀ a, Appends row (f a)) (xs : List α) {g : List Nat → Instance}
    (hg : ∀ r : Rows, r.Holds i → ∀ own, (∀ a ∈ own, a < row r) → r.Holds (g own)) :
    Makes least i (xs.mapM f >>= fun own => Pure.pure (g own)) := by
  intro s hs
  refine Post.bind (fun own t ht => ?_) fun e t ht => ?_
  · obtain ⟨hinstances, hgrows, hown⟩ := (mapM hrow hf xs s).ok ht
    have ht := hs.mono hinstances hgrows
    refine ⟨ht.blank, ?_⟩
    rintro _ ⟨⟩
    exact { ht with holds := hg _ ht.holds own (hown own rfl) }
  · obtain ⟨hinstances, hgrows, -⟩ := (mapM hrow hf xs s).error ht
    exact ⟨(hs.mono hinstances hgrows).blank, nofun⟩

end Appends

namespace Exec

theorem appends_add {f : Store → Nat × Store} {row : Rows → Nat}
    (h : ∀ s : Store, (f s).2.instances = s.instances ∧ s.rows.Grows (f s).2.rows ∧
      (f s).1 < row (f s).2.rows) : Appends row (add f) := by
  intro m
  obtain ⟨hinstances, hgrows, hlt⟩ := h m.store
  refine ⟨hinstances, hgrows, ?_⟩
  rintro _ ⟨⟩
  exact hlt

instance (s : Store) (home : Instance) (e : ConstExpr) (stack : List Operand) :
    Anchored (constant s home e stack) := by
  fun_induction constant s home e stack with
  | case1 x => infer_instance
  | case2 x rest stack ih => exact ih
  | case3 heap rest stack ih => exact ih
  | case4 i rest stack ih => exact .seq inferInstance ih
  | case5 i rest stack ih => exact .seq inferInstance ih
  | case6 op rest y x stack ih => exact .seq inferInstance ih
  | case7 e stack => infer_instance

instance (home : Instance) (e : ConstExpr) : Anchored (eval home e) :=
  inferInstanceAs (Anchored (_ >>= _))

instance (home : Instance) (e : ConstExpr) : Anchored (evalWord home e) := by
  refine .seq inferInstance fun x => ?_
  split <;> infer_instance

instance (i : Instance) (e : ElementSegment) : Anchored (references i e) := by
  refine @Anchored.mapM _ _ _ (fun item => ?_) _
  cases item <;> infer_instance

instance (i : Instance) (target : Nat) (offset : ConstExpr) :
    Anchored (elementTarget i target offset) :=
  inferInstanceAs (Anchored (_ >>= _))

instance (i : Instance) (target : Nat) (offset : ConstExpr) :
    Anchored (dataTarget i target offset) :=
  inferInstanceAs (Anchored (_ >>= _))

instance (m : Module) (i : Instance) : Anchored (checkSegments m i) := by
  refine .seq (@Anchored.forM _ _ (fun e => ?_) _) fun _ => @Anchored.forM _ _ (fun d => ?_) _
  · split <;> infer_instance
  · split <;> infer_instance

instance (i : Instance) (e : ElementSegment) (segment : Nat) :
    Anchored (copyElement i e segment) := by
  unfold copyElement
  split <;> infer_instance

instance (i : Instance) (d : DataSegment) (segment : Nat) : Anchored (copyData i d segment) := by
  unfold copyData
  split <;> infer_instance

instance (bulkMemory : Bool) (m : Module) (i : Instance) :
    Anchored (copySegments bulkMemory m i) := by
  unfold copySegments
  infer_instance

/-! Whatever is added is the last one of its row. -/

theorem appends_function (x : Function) :
    Appends Rows.functions (add fun s => s.addFunction x) := by
  refine appends_add fun s => ⟨rfl, ?_, by simp [Store.rows, Store.addFunction]⟩
  constructor <;> simp [Store.rows, Store.addFunction]

theorem appends_table (x : Table) : Appends Rows.tables (add fun s => s.addTable x) := by
  refine appends_add fun s => ⟨rfl, ?_, by simp [Store.rows, Store.addTable]⟩
  constructor <;> simp [Store.rows, Store.addTable]

theorem appends_global (x : Global) : Appends Rows.globals (add fun s => s.addGlobal x) := by
  refine appends_add fun s => ⟨rfl, ?_, by simp [Store.rows, Store.addGlobal]⟩
  constructor <;> simp [Store.rows, Store.addGlobal]

theorem appends_element (items : List Operand) : Appends Rows.elements (add fun s =>
    (s.elements.size, { s with elements := s.elements.push items })) := by
  refine appends_add fun s => ⟨rfl, ?_, by simp [Store.rows]⟩
  constructor <;> simp [Store.rows]

theorem appends_data (bytes : List UInt8) : Appends Rows.datas (add fun s =>
    (s.datas.size, { s with datas := s.datas.push bytes })) := by
  refine appends_add fun s => ⟨rfl, ?_, by simp [Store.rows]⟩
  constructor <;> simp [Store.rows]

/-- A memory is added, unless the store may not have it. -/
theorem appends_memory (type : MemoryType) : Appends Rows.memories (addMemory type) := by
  have added : Appends Rows.memories (add fun s => (s.memories.size, { s with
      memories := s.memories.push (.zeros type.limits.min type.limits.max type.shared) })) := by
    refine appends_add fun s => ⟨rfl, ?_, by simp [Store.rows]⟩
    constructor <;> simp [Store.rows]
  rw [addMemory_eq]
  refine Appends.after fun m => ?_
  split
  · exact added
  · exact fun _ => ⟨rfl, .refl _, nofun⟩

/-! An instance is given what has been added for it. -/

theorem forall_mem_append_toArray {P : Nat → Prop} {xs : Array Nat} (h : ∀ a ∈ xs, P a)
    {own : List Nat} (hown : ∀ a ∈ own, P a) : ∀ a ∈ xs ++ own.toArray, P a :=
  forall_mem_append h fun a ha => hown a (List.mem_toArray.mp ha)

theorem makes_addFunctions (m : Module) (index : Nat) : Makes least i (addFunctions m index i) :=
  Makes.after fun _ => Appends.makes (fun _ _ h => h.functions) (fun _ => appends_function _) _
    fun _ hl _ hown =>
      { hl with functions := forall_mem_append_toArray hl.functions hown }

theorem makes_addTables (m : Module) : Makes least i (addTables m i) :=
  Appends.makes (fun _ _ h => h.tables) (fun _ => appends_table _) _ fun _ hl _ hown =>
    { hl with tables := forall_mem_append_toArray hl.tables hown }

theorem makes_addMemories (m : Module) : Makes least i (addMemories m i) :=
  Appends.makes (fun _ _ h => h.memories) appends_memory _ fun _ hl _ hown =>
    { hl with memories := forall_mem_append_toArray hl.memories hown }

theorem makes_addGlobals (m : Module) : Makes least i (addGlobals m i) :=
  Appends.makes (fun _ _ h => h.globals) (fun _ => Appends.after fun _ => appends_global _) _
    fun _ hl _ hown => { hl with globals := forall_mem_append_toArray hl.globals hown }

theorem makes_addElements (m : Module) : Makes least i (addElements m i) :=
  Appends.makes (fun _ _ h => h.elements) (fun _ => Appends.after fun _ => appends_element _) _
    fun _ hl _ hown => { hl with elements := fun a ha => hown a (List.mem_toArray.mp ha) }

theorem makes_addDatas (m : Module) : Makes least i (addDatas m i) :=
  Appends.makes (fun _ _ h => h.datas) (fun _ => appends_data _) _ fun _ hl _ hown =>
    { hl with datas := fun a ha => hown a (List.mem_toArray.mp ha) }

/-- What an instance exports is something that it refers to. -/
theorem has_of_exported {r : Rows} (hr : r.Holds i) {e : Export} {x : String × Item}
    (h : i.exported e = some x) : r.Has x.2 := by
  unfold Instance.exported at h
  cases hkind : e.kind with
  | function =>
    rw [hkind] at h
    obtain ⟨a, ha, rfl⟩ := Option.map_eq_some_iff.mp h
    exact hr.functions a (Array.mem_of_getElem? ha)
  | table =>
    rw [hkind] at h
    obtain ⟨a, ha, rfl⟩ := Option.map_eq_some_iff.mp h
    exact hr.tables a (Array.mem_of_getElem? ha)
  | memory =>
    rw [hkind] at h
    obtain ⟨a, ha, rfl⟩ := Option.map_eq_some_iff.mp h
    exact hr.memories a (Array.mem_of_getElem? ha)
  | global =>
    rw [hkind] at h
    obtain ⟨a, ha, rfl⟩ := Option.map_eq_some_iff.mp h
    exact hr.globals a (Array.mem_of_getElem? ha)
  | tag =>
    rw [hkind] at h
    cases h

/-- Before anything is added, an instance refers to the items of its imports. -/
theorem holds_imported {r : Rows} {items : List Item} (hitems : ∀ x ∈ items, r.Has x)
    (m : Module) : r.Holds (imported m items) := by
  refine { r.holds_empty with functions := ?_, tables := ?_, memories := ?_, globals := ?_ }
  all_goals
    intro a ha
    obtain ⟨item, hmem, hitem⟩ := List.mem_filterMap.mp (List.mem_toArray.mp ha)
    split at hitem
    · cases hitem
      exact hitems _ hmem
    · cases hitem

/-- **What an instantiation makes is there before it is referred to.** -/
theorem holds_allocate {m : Module} {items : List Item} {s : Machine} (hs : s.layout.Sound)
    (hitems : ∀ x ∈ items, s.layout.rows.Has x) :
    Post (allocate m items) s fun _ t => t.Holds s.layout.rows {} := by
  refine Post.bind (fun index t ht => ?_) fun e t ht => nomatch ht
  cases ht
  have placed : Machine.Holds s.layout.rows (imported m items)
      { s with store := { s.store with instances := s.store.instances.push {} } } := by
    exact ⟨forall_mem_push hs (Rows.holds_empty _), .refl _, holds_imported hitems m⟩
  refine (makes_addFunctions m _).seq placed fun i t ht => ?_
  refine (makes_addTables m).seq ht fun i t ht => ?_
  refine (makes_addMemories m).seq ht fun i t ht => ?_
  refine (makes_addGlobals m).seq ht fun i t ht => ?_
  refine (makes_addElements m).seq ht fun i t ht => ?_
  refine (makes_addDatas m).seq ht fun i t ht => ?_
  rw [exportItems_eq]
  refine Post.bind (fun exports u hu => ?_) fun e u hu => ?_
  · obtain ⟨hexports, rfl⟩ := run_ofOption_eq_ok.mp hu
    have hall : t.layout.rows.Holds { i with exports } := by
      refine { ht.holds with exports := fun x hx => ?_ }
      obtain ⟨e, -, hexported⟩ := forall₂_mem_right (forall₂_of_mapM hexports) hx
      exact has_of_exported ht.holds hexported
    exact { ht.blank with sound := forall_mem_setIfInBounds ht.sound _ hall }
  · exact ht.blank.of_layout (Anchored.keeps.error hu)

end Exec

/-- The layout is sound, and the items are there. -/
structure Machine.Offers (items : List Item) (m : Machine) : Prop where
  sound : m.layout.Sound
  items : ∀ x ∈ items, m.layout.rows.Has x

theorem Machine.Offers.of_layout {items : List Item} {m t : Machine} (h : m.Offers items)
    (ht : t.layout = m.layout) : t.Offers items := by
  constructor <;> rw [ht]
  · exact h.sound
  · exact h.items

/-- A property of the machine goes on, and the layout is sound at every host call. -/
def Grounded (C : Machine → Prop) (m : Machine) (calls : List HostCall) (_ : Except Stop Unit)
    (t : Machine) : Prop :=
  C m → C t ∧ ∀ c ∈ calls, c.machine.layout.Sound

theorem history_grounded (C : Machine → Prop) : History (Grounded C) where
  still _ h := ⟨h, List.forall_mem_nil _⟩
  append h h' hs := by
    obtain ⟨ht, hcalls⟩ := h hs
    obtain ⟨hu, hcalls'⟩ := h' ht
    exact ⟨hu, List.forall_mem_append.mpr ⟨hcalls, hcalls'⟩⟩

/-- Where the layout stays, it stays sound. -/
theorem Unmoved.grounded {C : Machine → Prop} (hC : ∀ m, C m → m.layout.Sound)
    (hsame : ∀ m t, C m → t.layout = m.layout → C t) {m : Machine} {calls : List HostCall}
    {r : Except Stop Unit} {t : Machine} (h : Unmoved m calls r t) : Grounded C m calls r t :=
  fun hm => ⟨hsame m t hm h.1, fun c hc => (h.2 c hc).symm ▸ hC m hm⟩

/-- **The layout is sound at every host call of an instantiation, and at its end.** -/
theorem tells_grounded_instantiate (bulkMemory : Bool) (m : Module) (items : List Item) :
    Tells (Grounded (Machine.Offers items)) (Told.instantiate bulkMemory m items) := by
  have hunmoved : ∀ {α : Type} {c : Told α}, Tells Unmoved c →
      Tells (Grounded (Machine.Offers items)) c := fun hc => hc.mono fun _ _ _ _ h =>
    h.grounded (fun _ h => h.sound) fun _ _ h ht => h.of_layout ht
  have allocated : Tells (Grounded (Machine.Offers items)) (quietly (Exec.allocate m items)) := by
    refine Tells.quietly fun s hs => ?_
    obtain ⟨hsound, hgrown, -⟩ := Exec.holds_allocate (m := m) hs.sound hs.items
    exact ⟨⟨hsound, fun x hx => (hs.items x hx).mono hgrown⟩, List.forall_mem_nil _⟩
  have hhistory := history_grounded (Machine.Offers items)
  refine Tells.bind hhistory allocated fun x => ?_
  refine Tells.bind hhistory (hunmoved (Anchored.quiet _)) fun _ => ?_
  exact Tells.bind hhistory (hunmoved (Anchored.tells_callStart m x.1 x.2)) fun _ =>
    Tells.pure hhistory _

end WasmEmbedding.Engine
