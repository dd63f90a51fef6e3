import WasmEmbedding.Engine.Control
import WasmEmbedding.Proofs.Computation

/-! # What guests cannot reach

Guest code works on operands, memories, tables, globals and segments.  The context that the
guests of a machine share, and the host, are out of its reach: it neither changes them
nor goes another way because of them (`Blind`), not even where the functions of the host have
other numbers, so that surroundings come with the numbers in use there (`Guise`).  It does not
change the functions and instances of a store either, although it looks at them (`Store.code`).

A computation of which both are true is a `Guest`.  Every instruction is one but those that
call functions; which of the instructions an `Op` is makes no difference, so that
`Guest (op o)` is all that later modules use.
-/
namespace WasmEmbedding.Engine

open Host (FunctionId)

/-- What is out of reach of guest code. -/
structure Outer where
  context : Context
  host : Host

/-- What guest code looks at and leaves as it is. -/
structure Code where
  id : StoreId
  memoryCap : Option Nat
  heap : ExternHeap
  functions : Array Function
  instances : Array Instance

/-- The code of a store. -/
def Store.code (s : Store) : Code := ⟨s.id, s.memoryCap, s.heap, s.functions, s.instances⟩

/-- The code of a machine's store. -/
def Machine.code (m : Machine) : Code := m.store.code

/-- The same function under the number that another host has for it. -/
def Function.rename (names : FunctionId → FunctionId) : Function → Function
  | .guest home type body => .guest home type body
  | .host id signature => .host (names id) signature
  | .system call => .system call

@[simp] theorem Function.type_rename (names : FunctionId → FunctionId) (f : Function) :
    (f.rename names).type = f.type := by
  cases f <;> rfl

theorem Function.rename_self (f : Function) : f.rename (fun id => id) = f := by
  cases f <;> rfl

/-- The same store, in which the host functions have other numbers. -/
def Store.rename (s : Store) (names : FunctionId → FunctionId) : Store :=
  { s with functions := s.functions.map (·.rename names) }

@[simp] theorem Store.rename_self (s : Store) : s.rename (fun id => id) = s := by
  have h : (s.functions.map fun f => f.rename fun id => id) = s.functions := by
    simp [Function.rename_self]
  unfold rename
  rw [h]

@[simp] theorem Store.functionType?_rename (s : Store) (names : FunctionId → FunctionId)
    (address : Nat) : (s.rename names).functionType? address = s.functionType? address := by
  simp [functionType?, rename, Function.comp_def]

/-- Surroundings for a machine, and the numbers that the host functions have there. -/
structure Guise extends Outer where
  names : FunctionId → FunctionId

/-- The same machine among other surroundings. -/
def Machine.withOuter (m : Machine) (o : Guise) : Machine :=
  { m with store := { m.store.rename o.names with context := o.context }, host := o.host }

/-- The surroundings of a machine. -/
def Machine.outer (m : Machine) : Outer := ⟨m.store.context, m.host⟩

/-- A machine is among its own surroundings. -/
theorem Machine.withOuter_outer (m : Machine) : m.withOuter ⟨m.outer, fun id => id⟩ = m := by
  unfold withOuter
  rw [Store.rename_self]
  rfl

@[simp] theorem Machine.functionType?_withOuter (m : Machine) (o : Guise) (address : Nat) :
    (m.withOuter o).store.functionType? address = m.store.functionType? address :=
  m.store.functionType?_rename o.names address

/-- The second machine is the first among the surroundings `o`. -/
def Among (o : Guise) (m n : Machine) : Prop := n = m.withOuter o

/-- A computation that goes the same way whatever surrounds the machine. -/
class Blind {α : Type} (x : Exec α) : Prop where
  respects : ∀ o, Respects (Among o) x x

/-- A computation that nobody gives more fuel, and that does not run out of it where nobody
counts. -/
def Metered {α : Type} (x : Exec α) : Prop :=
  ∀ m, Post x m fun r t => t.meter.budget = m.meter.budget ∧
    (m.meter.budget = none → r ≠ .error .outOfFuel)

/-- A stop that guest code comes to by itself: nobody outside has asked for it. -/
def Stop.Own : Stop → Prop
  | .exit _ => False
  | .host _ => False
  | .registry _ => False
  | _ => True

/-- A computation of guest code. -/
class Guest {α : Type} (x : Exec α) : Prop extends Blind x where
  keeps : Keeps (SameBy Machine.code) x
  metered : Metered x
  own : Throws Stop.Own x

variable {α β : Type}

/-! ## Parts of blind computations -/

namespace Blind

instance pure (a : α) : Blind (pure a : Exec α) := ⟨fun _ => Respects.pure a⟩

instance throw (e : Stop) : Blind (throw e : Exec α) := ⟨fun _ => Respects.throw e⟩

instance bind (x : Exec α) (f : α → Exec β) [hx : Blind x] [hf : ∀ a, Blind (f a)] :
    Blind (x >>= f) :=
  ⟨fun o => (hx.respects o).bind fun a => (hf a).respects o⟩

protected theorem get {f : Machine → Exec β} (hf : ∀ m, Blind (f m))
    (h : ∀ m o, f (m.withOuter o) = f m) : Blind (get >>= f) := by
  refine ⟨fun o => Respects.get ?_⟩
  rintro m _ rfl
  rw [h]
  exact (hf m).respects o

protected theorem modify {f : Machine → Machine}
    (h : ∀ m o, f (m.withOuter o) = (f m).withOuter o) : Blind (modify f : Exec PUnit) := by
  refine ⟨fun o => Respects.modify ?_⟩
  rintro m _ rfl
  exact h m o

/-- A blind computation leaves the surroundings as they are. -/
theorem outer_ending {x : Exec α} (hx : Blind x) (m : Machine) : (ending x m).outer = m.outer := by
  -- Among its own surroundings the machine is its own companion.
  have h := hx.respects ⟨m.outer, fun id => id⟩ m m m.withOuter_outer.symm
  unfold ending
  generalize EStateM.run x m = r at h ⊢
  cases h with
  | @ok n _ a h =>
    have h : n.outer = (n.withOuter ⟨m.outer, fun id => id⟩).outer := congrArg Machine.outer h
    exact h
  | @error n _ e h =>
    have h : n.outer = (n.withOuter ⟨m.outer, fun id => id⟩).outer := congrArg Machine.outer h
    exact h

end Blind

/-! ## Parts of metered computations -/

namespace Metered

protected theorem pure (a : α) : Metered (pure a : Exec α) := fun _ => ⟨rfl, fun _ => nofun⟩

protected theorem throw {e : Stop} (he : e ≠ .outOfFuel) : Metered (throw e : Exec α) := by
  refine fun m => ⟨rfl, fun _ h => he ?_⟩
  cases h
  rfl

protected theorem get : Metered (get : Exec Machine) := fun _ => ⟨rfl, fun _ => nofun⟩

protected theorem modify {f : Machine → Machine} (h : ∀ m, (f m).meter.budget = m.meter.budget) :
    Metered (modify f : Exec PUnit) := fun m => ⟨h m, fun _ => nofun⟩

protected theorem bind {x : Exec α} {f : α → Exec β} (hx : Metered x) (hf : ∀ a, Metered (f a)) :
    Metered (x >>= f) := by
  refine fun m => Post.bind (fun a t ht => ?_) fun e t ht => ?_
  · obtain ⟨hbudget, -⟩ := (hx m).ok ht
    have h := hf a t
    unfold Post at h ⊢
    rwa [hbudget] at h
  · obtain ⟨hbudget, hfuel⟩ := (hx m).error ht
    exact ⟨hbudget, fun hm h => hfuel hm (by cases h; rfl)⟩

end Metered

/-! ## Parts of guest computations -/

/-- A stop of its own that a guest comes to for any other reason than a lack of fuel. -/
class Stop.Fair (e : Stop) : Prop where
  ne : e ≠ .outOfFuel
  own : e.Own

instance (code : TrapCode) : (Stop.trap code).Fair := ⟨nofun, trivial⟩

instance (e : ValueError) : (Stop.value e).Fair := ⟨nofun, trivial⟩

instance (message : String) : (Stop.failure message).Fair := ⟨nofun, trivial⟩

namespace Guest

instance pure (a : α) : Guest (pure a : Exec α) := ⟨Keeps.pure a, Metered.pure a, Throws.pure a⟩

instance throw (e : Stop) [he : e.Fair] : Guest (throw e : Exec α) :=
  ⟨Keeps.throw e, Metered.throw he.ne, Throws.throw he.own⟩

instance bind (x : Exec α) (f : α → Exec β) [hx : Guest x] [hf : ∀ a, Guest (f a)] :
    Guest (x >>= f) :=
  ⟨hx.keeps.bind fun a => (hf a).keeps, hx.metered.bind fun a => (hf a).metered,
    hx.own.bind fun a => (hf a).own⟩

theorem seq {x : Exec α} {f : α → Exec β} (hx : Guest x) (hf : ∀ a, Guest (f a)) :
    Guest (x >>= f) :=
  bind x f

protected theorem get {f : Machine → Exec β} (hf : ∀ m, Guest (f m))
    (h : ∀ m o, f (m.withOuter o) = f m) : Guest (get >>= f) where
  respects := (Blind.get (fun m => (hf m).toBlind) h).respects
  keeps := Keeps.get.bind fun m => (hf m).keeps
  metered := Metered.get.bind fun m => (hf m).metered
  own := Throws.get.bind fun m => (hf m).own

protected theorem modify {f : Machine → Machine}
    (hc : ∀ m, (f m).code = m.code ∧ (f m).meter.budget = m.meter.budget)
    (hb : ∀ m o, f (m.withOuter o) = (f m).withOuter o) : Guest (modify f : Exec PUnit) where
  respects := (Blind.modify hb).respects
  keeps := Keeps.modify fun m => (hc m).1
  metered := Metered.modify fun m => (hc m).2
  own := Throws.modify

instance ite (c : Prop) [Decidable c] (x y : Exec α) [Guest x] [Guest y] :
    Guest (if c then x else y) := by
  split <;> infer_instance

end Guest

namespace Exec

open Wasm

/-! ## Machines -/

instance (f : Frame → Frame) : Guest (modifyFrame f) :=
  .modify (fun _ => ⟨rfl, rfl⟩) fun _ _ => rfl

instance (code : TrapCode) : Guest (trap code : Exec α) := inferInstanceAs (Guest (throw _))

instance : Guest (stuck : Exec α) := inferInstanceAs (Guest (throw _))

instance (r : Except Fault α) : Guest (ofFault r) := by
  unfold ofFault
  split <;> infer_instance

instance (a : Option α) : Guest (ofOption a) := by
  unfold ofOption
  split <;> infer_instance

instance (x : Operand) : Guest (push x) := inferInstanceAs (Guest (modifyFrame _))

instance (xs : List Operand) : Guest (pushMany xs) := inferInstanceAs (Guest (modifyFrame _))

instance : Guest pop := by
  refine .get (fun m => ?_) fun _ _ => rfl
  split <;> infer_instance

instance : Guest popWord := by
  refine .seq inferInstance fun x => ?_
  split <;> infer_instance

instance : Guest popVector := by
  refine .seq inferInstance fun x => ?_
  split <;> infer_instance

instance (n : Nat) : Guest (popMany n) := .get (fun _ => inferInstance) fun _ _ => rfl

instance : Guest home := .get (fun _ => inferInstance) fun _ _ => rfl

instance (i : Nat) : Guest (functionAddress i) := .seq inferInstance fun _ => inferInstance

instance (i : Nat) : Guest (tableAddress i) := .seq inferInstance fun _ => inferInstance

instance (i : Nat) : Guest (memoryAddress i) := .seq inferInstance fun _ => inferInstance

instance (i : Nat) : Guest (globalAddress i) := .seq inferInstance fun _ => inferInstance

instance (address : Nat) : Guest (table address) := .get (fun _ => inferInstance) fun _ _ => rfl

instance (address : Nat) (f : Table → Table) : Guest (modifyTable address f) :=
  .modify (fun _ => ⟨rfl, rfl⟩) fun _ _ => rfl

instance (address : Nat) (f : Memory → Memory) : Guest (modifyMemory address f) :=
  .modify (fun _ => ⟨rfl, rfl⟩) fun _ _ => rfl

instance (address start count : Nat) : Guest (checkBytes address start count) := by
  refine .get (fun m => ?_) fun _ _ => rfl
  split
  · infer_instance
  · infer_instance

instance (address start count : Nat) : Guest (readBytes address start count) := by
  refine .get (fun m => ?_) fun _ _ => rfl
  split
  · split <;> infer_instance
  · infer_instance

instance (address start : Nat) (bytes : List UInt8) : Guest (writeBytes address start bytes) :=
  .seq inferInstance fun _ => inferInstance

/-! ## Loads and stores -/

instance : Guest popNumber := by
  refine .seq inferInstance fun x => ?_
  split <;> infer_instance

instance (a : Access) (n : Nat) : Guest (pushNumber a n) := inferInstanceAs (Guest (push _))

instance (arg : MemArg) : Guest (popAddress arg) := .seq inferInstance fun _ => inferInstance

instance (address bytes : Nat) : Guest (checkAligned address bytes) :=
  inferInstanceAs (Guest (ite _ _ _))

instance (arg : MemArg) (bytes : Nat) : Guest (popAligned arg bytes) :=
  .seq inferInstance fun _ => inferInstance

instance (memory address : Nat) (a : Access) (f : Nat → Nat) :
    Guest (replaceNumber memory address a f) :=
  .seq inferInstance fun _ => inferInstance

instance (op : AtomicOp) (arg : MemArg) : Guest (atomic op arg) := by
  refine .seq inferInstance fun memory => ?_
  cases op with
  | notify => infer_instance
  | wait w =>
    refine .seq inferInstance fun _ => .seq inferInstance fun _ => .seq inferInstance fun _ => ?_
    split
    · exact .seq inferInstance fun _ => .get (fun _ => inferInstance) fun _ _ => rfl
    · exact .get (fun _ => inferInstance) fun _ _ => rfl
  | load a => infer_instance
  | store a => infer_instance
  | update op a => infer_instance
  | compareExchange a => infer_instance

instance (op : MemoryOp) (arg : MemArg) : Guest (access op arg) := by
  cases op <;> (unfold access; infer_instance)

instance (m : LaneMove) (l : Lane) (arg : MemArg) (lane : Nat) : Guest (moveLane m l arg lane) := by
  cases m <;> (unfold moveLane; infer_instance)

/-! ## Whole runs of bytes and references -/

instance : Guest popThree := inferInstanceAs (Guest (_ >>= _))

instance (i : Nat) : Guest (memorySize i) := by
  refine .get (fun m => ?_) fun _ _ => rfl
  infer_instance

instance (i : Nat) : Guest (memoryGrow i) := by
  refine .seq inferInstance fun count => .seq inferInstance fun address => ?_
  refine .get (fun m => .seq inferInstance fun memory => ?_) fun _ _ => rfl
  split
  · infer_instance
  · infer_instance

instance (i : Nat) : Guest (memoryFill i) := .seq inferInstance fun _ => inferInstance

instance (i j : Nat) : Guest (memoryCopy i j) := .seq inferInstance fun _ => inferInstance

instance (i : Nat) : Guest (data i) := by
  refine .seq inferInstance fun home => .seq inferInstance fun address => ?_
  exact .get (fun _ => inferInstance) fun _ _ => rfl

instance (segment i : Nat) : Guest (memoryInit segment i) := by
  refine .seq inferInstance fun _ => .seq inferInstance fun _ => ?_
  split <;> infer_instance

instance (segment : Nat) : Guest (dataDrop segment) := by
  refine .seq inferInstance fun _ => ?_
  exact .modify (fun _ => ⟨rfl, rfl⟩) fun _ _ => rfl

instance (i : Nat) : Guest (tableGet i) := by
  refine .seq inferInstance fun _ => .seq inferInstance fun _ => .seq inferInstance fun _ => ?_
  split <;> infer_instance

instance (address start count : Nat) : Guest (checkItems address start count) :=
  .seq inferInstance fun _ => inferInstance

instance (address start : Nat) (items : List Operand) : Guest (writeItems address start items) :=
  .seq inferInstance fun _ => inferInstance

instance (i : Nat) : Guest (tableSet i) := inferInstanceAs (Guest (_ >>= _))

instance (i : Nat) : Guest (tableSize i) := inferInstanceAs (Guest (_ >>= _))

instance (i : Nat) : Guest (tableGrow i) := by
  refine .seq inferInstance fun _ => .seq inferInstance fun _ => .seq inferInstance fun _ => ?_
  refine .seq inferInstance fun t => ?_
  split <;> infer_instance

instance (i : Nat) : Guest (tableFill i) := inferInstanceAs (Guest (_ >>= _))

instance (i j : Nat) : Guest (tableCopy i j) := inferInstanceAs (Guest (_ >>= _))

instance (i : Nat) : Guest (element i) := by
  refine .seq inferInstance fun home => .seq inferInstance fun address => ?_
  exact .get (fun _ => inferInstance) fun _ _ => rfl

instance (segment i : Nat) : Guest (tableInit segment i) := by
  refine .seq inferInstance fun _ => .seq inferInstance fun _ => ?_
  split <;> infer_instance

instance (segment : Nat) : Guest (elemDrop segment) := by
  refine .seq inferInstance fun _ => ?_
  exact .modify (fun _ => ⟨rfl, rfl⟩) fun _ _ => rfl

/-! ## Instructions that go on to the next one -/

instance (o : Op) : Guest (op o) := by
  cases o with
  | localGet i => exact .get (fun _ => inferInstance) fun _ _ => rfl
  | globalGet i => exact .get (fun _ => inferInstance) fun _ _ => rfl
  | globalSet i =>
    refine .seq inferInstance fun _ => .seq inferInstance fun _ => ?_
    exact .modify (fun _ => ⟨rfl, rfl⟩) fun _ _ => rfl
  | refIsNull =>
    refine .seq inferInstance fun x => ?_
    split <;> infer_instance
  | refFunc i =>
    refine .seq inferInstance fun address => ?_
    exact .get (fun _ => inferInstance) fun _ _ => rfl
  | _ => unfold op; infer_instance

/-! ## Frames and blocks -/

instance : Guest settle := .modify (fun _ => ⟨rfl, rfl⟩) fun _ _ => rfl

/-- Where nobody counts there is fuel left. -/
theorem metered_checkFuel : Metered checkFuel := by
  intro m
  have hrun : EStateM.run checkFuel m = EStateM.run (if m.meter.isExhausted then
      settle >>= fun _ => throw .outOfFuel else pure ()) m := rfl
  refine Post.of_run_eq hrun ?_
  by_cases h : m.meter.isExhausted = true
  · rw [if_pos h]
    refine ⟨rfl, fun hnone => ?_⟩
    rw [Meter.isExhausted, hnone] at h
    cases h
  · rw [if_neg h]
    exact ⟨rfl, fun _ => nofun⟩

instance : Guest checkFuel where
  respects := by
    refine (Blind.get (fun m => ?_) fun _ _ => rfl).respects
    split <;> infer_instance
  keeps := by
    refine Keeps.get.bind fun m => ?_
    split
    · exact Guest.keeps.bind fun _ => Keeps.throw _
    · exact Keeps.pure _
  metered := metered_checkFuel
  own := by
    refine Throws.get.bind fun m => ?_
    split
    · exact Guest.own.bind fun _ => Throws.throw trivial
    · exact Throws.pure _

/-- Entering a body is guest code if the frames that wait for it do not depend on the
surroundings. -/
theorem guest_start (home : Nat) (type : FuncType) (body : FunctionBody) (args : List Operand)
    {callers : Machine → List Frame × Nat} (h : ∀ m o, callers (m.withOuter o) = callers m) :
    Guest (start home type body args callers) := by
  have entered : Guest (modify fun m : Machine =>
      { m with
        frame :=
          { home := some home, arity := type.results.length, locals := localsOf body args
            code := body.code }
        callers := (callers m).1
        depth := (callers m).2
        meter := m.meter.charge 1 } : Exec PUnit) := by
    refine .modify (fun _ => ⟨rfl, rfl⟩) fun m o => ?_
    simp only [h]
    rfl
  refine .get (fun m => ?_) fun m o => by rw [h]
  split
  · infer_instance
  · exact .seq entered fun _ => inferInstance

/-- The frame that a function leaves to, written as one change of the machine. -/
theorem leave_eq : leave = settle >>= fun _ => modify fun m =>
    match m.callers with
    | caller :: callers =>
      { m with
        frame := { caller with values := m.frame.values.take m.frame.arity ++ caller.values }
        callers := callers
        depth := m.depth - 1 }
    | [] => { m with frame := { m.frame with code := [], labels := [] } } := by
  refine congrArg (settle >>= ·) (funext fun _ => funext fun m => ?_)
  obtain ⟨store, host, meter, frame, callers, depth⟩ := m
  cases callers <;> rfl

instance : Guest leave := by
  rw [leave_eq]
  -- Whether a frame is waiting does not depend on the surroundings.
  refine .seq inferInstance fun _ => .modify ?_ ?_
  · rintro ⟨store, host, meter, frame, callers, depth⟩
    cases callers <;> exact ⟨rfl, rfl⟩
  · rintro ⟨store, host, meter, frame, callers, depth⟩ o
    cases callers <;> rfl

instance (address : Nat) : Guest (arguments address) := by
  refine .get (fun m => ?_) fun m o => by rw [m.functionType?_withOuter]
  infer_instance

instance (type table : Nat) : Guest (indirect type table) := by
  refine .seq inferInstance fun index => .seq inferInstance fun address => ?_
  refine .seq inferInstance fun t => ?_
  split
  · infer_instance
  · refine .seq inferInstance fun home => .seq inferInstance fun expected => ?_
    exact .get (fun _ => inferInstance) fun m o => by rw [m.functionType?_withOuter]
  · infer_instance
  · infer_instance

instance (type : BlockType) : Guest (blockArity type) := by
  cases type <;> (unfold blockArity; infer_instance)

instance (params arity : Nat) (again : Option (List Instr)) (body : List Instr) :
    Guest (enter params arity again body) := inferInstanceAs (Guest (modifyFrame _))

instance (l : Nat) : Guest (branch l) := by
  refine .get (fun m => ?_) fun _ _ => rfl
  dsimp only
  split
  · infer_instance
  · split <;> infer_instance

instance (label : Label) (outer : List Label) : Guest (endBlock label outer) :=
  inferInstanceAs (Guest (modifyFrame _))

end Exec

end WasmEmbedding.Engine
