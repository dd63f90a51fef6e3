import WasmEmbedding.Proofs.Engine.Guest
import WasmEmbedding.Proofs.Engine.Layout

/-! # Stores with more in them

A store can get more functions, tables, memories, globals and instances while guests hold on to the
addresses of what was there before.  `Wider m n` says that the machine `n` is the machine `m` on
a store that has everything in the same places, and perhaps more; the environments of the system
interface, which no run looks at, may be others.

A computation is `Scoped` if it comes to the same in the wider machine.  It looks at addresses only,
and where there is something at an address the wider store has the same there.  So more could be
seen only by looking at an address with nothing there yet.  In a sound layout the addresses that an
instance has are not like that, and they are where code gets its addresses from.  Where one has been
looked up, what comes after it need be scoped only for the numbers below the end of its row
(`follows_address`).

There is one other source of addresses.  A reference to a function says where the function is, and
a caller or a host function can make one up.  Code uses it when it calls through a table, and gets
stuck if there is no such function.  This is the one way in which more may be seen, and the table,
which still holds the reference, is there to tell it by (`Store.leads`).  Whatever else gets stuck
gets stuck in both machines.

The main result, `scoped_invoke`, is that calls are scoped.
-/
namespace WasmEmbedding

open EStateM (Result)

namespace Host

/-- The host without the environments of the system interface. -/
def aside (h : Host) : Host := { h with environments := #[] }

/-! What host functions do with the host has nothing to do with these environments. -/

theorem aside_note (h : Host) (text : String) : (h.note text).aside = h.aside.note text := rfl

theorem aside_setContext (h : Host) (key : ContextKey) (data : SharedData) :
    (h.setContext key data).aside = h.aside.setContext key data := rfl

theorem aside_deleteObject (h : Host) (name : String) :
    (h.deleteObject name).aside = h.aside.deleteObject name := by
  have found : h.aside.object? name = h.object? name := rfl
  unfold deleteObject
  rw [found]
  cases h.object? name <;> rfl

theorem aside_dropObject (h : Host) (name : String) :
    (h.dropObject name).aside = h.aside.dropObject name := by
  unfold dropObject
  rw [← aside_deleteObject]
  rfl

theorem aside_makeObject (h : Host) (moduleName : String) :
    h.aside.makeObject moduleName =
      ((h.makeObject moduleName).1, (h.makeObject moduleName).2.aside) := by
  unfold makeObject
  dsimp only [aside]
  cases ImportObject.new moduleName none >>= fun o => o.addFunction h.registry "f" echo <;> rfl

end Host

namespace Engine

open Host Wasi Wasm

/-! ## Rows in the same places -/

section Rows

variable {α : Type} {a b c : Array α}

/-- Everything in one array is in another in the same place. -/
def Kept (a b : Array α) : Prop := ∀ (i : Nat) (x : α), a[i]? = some x → b[i]? = some x

theorem Kept.refl (a : Array α) : Kept a a := fun _ _ h => h

theorem Kept.trans (h : Kept a b) (h' : Kept b c) : Kept a c := fun i x hx => h' i x (h i x hx)

theorem Kept.size_le (h : Kept a b) : a.size ≤ b.size := by
  refine Nat.le_of_not_lt fun hlt => ?_
  have hlast := h b.size _ (Array.getElem?_eq_getElem hlt)
  rw [Array.getElem?_eq_none (Nat.le_refl _)] at hlast
  cases hlast

theorem Kept.getElem?_of_lt (h : Kept a b) {i : Nat} (hi : i < a.size) : b[i]? = a[i]? := by
  rw [Array.getElem?_eq_getElem hi]
  exact h i _ (Array.getElem?_eq_getElem hi)

/-- Where something is known to be, both arrays have the same. -/
theorem Kept.same (h : Kept a b) {count : Nat} (i : Fin count) (hcount : a.size = count) :
    b[i.val]? = a[i.val]? :=
  h.getElem?_of_lt (hcount ▸ i.isLt)

theorem Kept.push (a : Array α) (x : α) : Kept a (a.push x) := by
  intro i y hy
  obtain ⟨hi, -⟩ := Array.getElem?_eq_some_iff.mp hy
  rw [Array.getElem?_push_lt hi, ← hy, Array.getElem?_eq_getElem hi]

theorem Kept.modify (h : Kept a b) (i : Nat) (f : α → α) :
    Kept (a.modify i f) (b.modify i f) := by
  intro j x hx
  rw [Array.getElem?_modify] at hx ⊢
  split at hx
  · rename_i hij
    obtain ⟨y, hy, rfl⟩ := Option.map_eq_some_iff.mp hx
    rw [if_pos hij, h j y hy]
    rfl
  · rename_i hij
    rw [if_neg hij]
    exact h j x hx

theorem Kept.setIfInBounds (h : Kept a b) (i : Nat) (y : α) :
    Kept (a.setIfInBounds i y) (b.setIfInBounds i y) := by
  intro j x hx
  rw [Array.getElem?_setIfInBounds] at hx ⊢
  split at hx
  · rename_i hij
    rw [if_pos hij]
    split at hx
    · rename_i hi
      rw [if_pos (Nat.lt_of_lt_of_le hi h.size_le)]
      exact hx
    · cases hx
  · rename_i hij
    rw [if_neg hij]
    exact h j x hx

end Rows

/-! ## Wider machines -/

/-- A store has everything of another in the same places, and is otherwise the same. -/
structure Store.Within (s t : Store) : Prop where
  id : t.id = s.id
  memoryCap : t.memoryCap = s.memoryCap
  heap : t.heap = s.heap
  functions : Kept s.functions t.functions
  tables : Kept s.tables t.tables
  memories : Kept s.memories t.memories
  globals : Kept s.globals t.globals
  instances : Kept s.instances t.instances
  elements : Kept s.elements t.elements
  datas : Kept s.datas t.datas
  context : t.context = s.context

theorem Store.Within.mapContext {s t : Store} (h : s.Within t) (f : Context → Context) :
    Store.Within { s with context := f s.context } { t with context := f t.context } :=
  { h with context := congrArg f h.context }

/-- The functions that are guest code belong to instances. -/
def Code.Housed (c : Code) : Prop :=
  ∀ (a home : Nat) type body, c.functions[a]? = some (.guest home type body) →
    home < c.instances.size

/-- What a frame runs belongs to an instance, or to nobody. -/
def Frame.Housed (c : Code) (f : Frame) : Prop :=
  ∀ home, f.home = some home → home < c.instances.size

/-- The same machine on a store with more in it. -/
structure Wider (m n : Machine) : Prop where
  store : m.store.Within n.store
  host : n.host.aside = m.host.aside
  meter : n.meter = m.meter
  frame : n.frame = m.frame
  callers : n.callers = m.callers
  depth : n.depth = m.depth
  functionsHoused : m.code.Housed
  frameHoused : m.frame.Housed m.code
  callersHoused : ∀ f ∈ m.callers, f.Housed m.code

/-- If this is a reference to a function, it leads to one in a store with so many functions. -/
def Operand.leads (count : Nat) : Operand → Bool
  | .func (some r) => decide (r.index < count)
  | _ => true

/-- All references to functions in tables lead to functions. -/
def Store.leads (s : Store) : Bool :=
  s.tables.all fun t => t.items.all (Operand.leads s.functions.size)

theorem Store.leads_eq_false {s : Store} {t : Table} (ht : t ∈ s.tables) {r : FuncRef}
    (hr : .func (some r) ∈ t.items) (h : s.functions.size ≤ r.index) : s.leads = false := by
  refine Bool.eq_false_iff.mpr fun hleads => Nat.not_lt.mpr h ?_
  have hitems := Array.all_eq_true'.mp hleads t ht
  exact of_decide_eq_true (Array.all_eq_true'.mp hitems _ hr)

/-- What the wider machine comes to follows what the other one comes to, unless that is stuck over
a reference that does not lead anywhere. -/
inductive Tracks {α : Type} : Result Stop Machine α → Result Stop Machine α → Prop
  | ok {m n : Machine} (a : α) (h : Wider m n) : Tracks (.ok a m) (.ok a n)
  | error {m n : Machine} (e : Stop) (h : Wider m n) : Tracks (.error e m) (.error e n)
  | stuck {m : Machine} (h : m.store.leads = false) (r : Result Stop Machine α) :
      Tracks (.error (.failure "ill-typed code") m) r

/-- From a sound layout, a computation of the wider machine follows one of the other machine. -/
def Follows {α : Type} (l : Layout) (x y : Exec α) : Prop :=
  l.Sound → ∀ ⦃m n : Machine⦄, Wider m n → m.layout = l →
    Tracks (EStateM.run x m) (EStateM.run y n)

/-- A computation that comes to the same in a wider machine, from a sound layout. -/
class Scoped {α : Type} (l : Layout) (x : Exec α) : Prop where
  follows : Follows l x x

variable {α β : Type} {l : Layout}

/-! Where the layout has something, both machines have the same. -/

section At

variable {m n : Machine} (h : Wider m n) (hm : m.layout = l)

include h hm

theorem Wider.function_at (a : Fin l.rows.functions) :
    n.store.functions[a.val]? = m.store.functions[a.val]? :=
  h.store.functions.same a (congrArg (·.rows.functions) hm)

theorem Wider.table_at (a : Fin l.rows.tables) :
    n.store.tables[a.val]? = m.store.tables[a.val]? :=
  h.store.tables.same a (congrArg (·.rows.tables) hm)

theorem Wider.memory_at (a : Fin l.rows.memories) :
    n.store.memories[a.val]? = m.store.memories[a.val]? :=
  h.store.memories.same a (congrArg (·.rows.memories) hm)

theorem Wider.global_at (a : Fin l.rows.globals) :
    n.store.globals[a.val]? = m.store.globals[a.val]? :=
  h.store.globals.same a (congrArg (·.rows.globals) hm)

theorem Wider.element_at (a : Fin l.rows.elements) :
    n.store.elements[a.val]? = m.store.elements[a.val]? :=
  h.store.elements.same a (congrArg (·.rows.elements) hm)

theorem Wider.data_at (a : Fin l.rows.datas) : n.store.datas[a.val]? = m.store.datas[a.val]? :=
  h.store.datas.same a (congrArg (·.rows.datas) hm)

end At

namespace Follows

protected theorem throw (e : Stop) : Follows l (throw e : Exec α) (throw e) :=
  fun _ _ _ hw _ => .error e hw

protected theorem bind {x y : Exec α} [hkeeps : Anchored x] {f g : α → Exec β} (hx : Follows l x y)
    (hf : ∀ a, Follows l (f a) (g a)) : Follows l (x >>= f) (y >>= g) := by
  intro hl m n hw hm
  have hrun := hx hl hw hm
  have hsame : ∀ a t, EStateM.run x m = .ok a t → t.layout = m.layout :=
    fun _ _ => hkeeps.keeps.ok
  rw [EStateM.run_bind, EStateM.run_bind]
  generalize EStateM.run x m = r, EStateM.run y n = r' at hrun hsame
  cases hrun with
  | ok a hw => exact hf a hl hw ((hsame a _ rfl).trans hm)
  | error e hw => exact .error e hw
  | stuck h => exact .stuck h _

protected theorem get {f g : Machine → Exec β}
    (h : ∀ m n, Wider m n → m.layout = l → Follows l (f m) (g n)) :
    Follows l (get >>= f) (get >>= g) := fun hl m n hw hm => h m n hw hm hl hw hm

protected theorem modify {f g : Machine → Machine} (h : ∀ m n, Wider m n → Wider (f m) (g n)) :
    Follows l (modify f : Exec PUnit) (modify g) := fun _ _ _ hw _ => .ok _ (h _ _ hw)

/-- Both machines find the same, or neither finds anything. -/
theorem ofOption {a b : Option α} (h : b = a) :
    Follows l (Exec.ofOption a) (Exec.ofOption b) := by
  rw [h]
  cases a with
  | none => exact .throw _
  | some x => exact fun _ _ _ hw _ => .ok x hw

end Follows

namespace Scoped

instance pure (a : α) : Scoped l (pure a : Exec α) := ⟨fun _ _ _ hw _ => .ok a hw⟩

instance throw (e : Stop) : Scoped l (throw e : Exec α) := ⟨.throw e⟩

instance bind (x : Exec α) (f : α → Exec β) [Anchored x] [hx : Scoped l x]
    [hf : ∀ a, Scoped l (f a)] : Scoped l (x >>= f) :=
  ⟨hx.follows.bind fun a => (hf a).follows⟩

theorem seq {x : Exec α} {f : α → Exec β} [Anchored x] (hx : Scoped l x)
    (hf : ∀ a, Scoped l (f a)) : Scoped l (x >>= f) :=
  bind x f

/-- Looking at what is the same in the wider machine. -/
protected theorem get {f : Machine → Exec β} (hf : ∀ m, Scoped l (f m))
    (h : ∀ m n, Wider m n → f n = f m) : Scoped l (get >>= f) := by
  refine ⟨.get fun m n hw _ => ?_⟩
  rw [h m n hw]
  exact (hf m).follows

/-- Looking for what the wider machine has in the same place. -/
protected theorem look {f : Machine → Option α} {g : α → Exec β} (hg : ∀ a, Scoped l (g a))
    (h : ∀ m n, Wider m n → m.layout = l → f n = f m) :
    Scoped l (get >>= fun m => Exec.ofOption (f m) >>= g) :=
  ⟨.get fun m n hw hm => (Follows.ofOption (h m n hw hm)).bind fun a => (hg a).follows⟩

/-- What follows a look at a machine, started from this machine. -/
protected theorem getAt {f : Machine → Exec β}
    (h : ∀ m n, Wider m n → m.layout = l → l.Sound →
      Tracks (EStateM.run (f m) m) (EStateM.run (f n) n)) :
    Scoped l (get >>= f) :=
  ⟨fun hl m n hw hm => h m n hw hm hl⟩

protected theorem modify {f : Machine → Machine} (h : ∀ m n, Wider m n → Wider (f m) (f n)) :
    Scoped l (modify f : Exec PUnit) :=
  ⟨.modify h⟩

instance ite (c : Prop) [Decidable c] (x y : Exec α) [Scoped l x] [Scoped l y] :
    Scoped l (if c then x else y) := by
  split <;> infer_instance

end Scoped

namespace Exec

/-! ## Machines -/

/-- Changing anything in the frame but its instance. -/
theorem scoped_modifyFrame {f : Frame → Frame} (h : ∀ frame, (f frame).home = frame.home) :
    Scoped l (modifyFrame f) := by
  refine .modify fun m n hw => { hw with frame := congrArg f hw.frame, frameHoused := ?_ }
  intro home hhome
  exact hw.frameHoused home ((h m.frame).symm.trans hhome)

instance (locals : Frame → Array Operand) (values : Frame → List Operand)
    (labels : Frame → List Label) (code : Frame → List Instr) :
    Scoped l (modifyFrame fun f =>
      { f with locals := locals f, values := values f, labels := labels f, code := code f }) :=
  scoped_modifyFrame fun _ => rfl

instance (code : TrapCode) : Scoped l (trap code : Exec α) := inferInstanceAs (Scoped l (throw _))

instance : Scoped l (stuck : Exec α) := inferInstanceAs (Scoped l (throw _))

instance (r : Except Fault α) : Scoped l (ofFault r) := by
  unfold ofFault
  split <;> infer_instance

instance (a : Option α) : Scoped l (ofOption a) := by
  unfold ofOption
  split <;> infer_instance

instance (r : Except ValueError α) : Scoped l (ofValue r) := by
  unfold ofValue
  split <;> infer_instance

instance (x : Operand) : Scoped l (push x) := scoped_modifyFrame fun _ => rfl

instance (xs : List Operand) : Scoped l (pushMany xs) := scoped_modifyFrame fun _ => rfl

instance : Scoped l pop := by
  refine .get (fun m => ?_) fun m n hw => by rw [hw.frame]
  split <;> infer_instance

instance : Scoped l popWord := by
  refine .seq inferInstance fun x => ?_
  split <;> infer_instance

instance : Scoped l popVector := by
  refine .seq inferInstance fun x => ?_
  split <;> infer_instance

instance (n : Nat) : Scoped l (popMany n) :=
  .get (fun _ => inferInstance) fun m n hw => by rw [hw.frame]

/-- The instance that the code belongs to, which has addresses of what is there. -/
theorem follows_home {f g : Instance → Exec β}
    (h : ∀ i, l.rows.Holds i → Follows l (f i) (g i)) : Follows l (home >>= f) (home >>= g) := by
  intro hl m n hw hm
  have same : (n.frame.home.bind fun i => n.store.instances[i]?) =
      m.frame.home.bind fun i => m.store.instances[i]? := by
    rw [hw.frame]
    cases hhome : m.frame.home with
    | none => rfl
    | some home => exact hw.store.instances.getElem?_of_lt (hw.frameHoused home hhome)
  change Tracks
    (EStateM.run (ofOption (m.frame.home.bind fun i => m.store.instances[i]?) >>= f) m)
    (EStateM.run (ofOption (n.frame.home.bind fun i => n.store.instances[i]?) >>= g) n)
  rw [same]
  cases hfound : m.frame.home.bind fun i => m.store.instances[i]? with
  | none => exact .error _ hw
  | some i =>
    obtain ⟨home, -, hi⟩ := Option.bind_eq_some_iff.mp hfound
    have hholds : l.rows.Holds i := hl i (hm ▸ Array.mem_of_getElem? hi)
    exact h i hholds hl hw hm

instance : Scoped l home :=
  ⟨(bind_pure home) ▸ follows_home fun i _ => (inferInstance : Scoped l (Pure.pure i)).follows⟩

/-- Looking up an address of the instance. -/
theorem follows_address {addresses : Instance → Array Nat} {count : Nat}
    (hcount : ∀ i, l.rows.Holds i → ∀ a ∈ addresses i, a < count) (k : Nat) {f g : Nat → Exec β}
    (h : ∀ a : Fin count, Follows l (f a) (g a)) :
    Follows l ((home >>= fun i => ofOption (addresses i)[k]?) >>= f)
      ((home >>= fun i => ofOption (addresses i)[k]?) >>= g) := by
  rw [bind_assoc, bind_assoc]
  refine follows_home fun i hi => ?_
  cases ha : (addresses i)[k]? with
  | none => exact fun _ _ _ hw _ => .error _ hw
  | some a =>
    exact h ⟨a, hcount i hi a (Array.mem_of_getElem? ha)⟩

instance (i : Nat) : Scoped l (functionAddress i) := .seq inferInstance fun _ => inferInstance

instance (i : Nat) : Scoped l (tableAddress i) := .seq inferInstance fun _ => inferInstance

instance (i : Nat) : Scoped l (memoryAddress i) := .seq inferInstance fun _ => inferInstance

instance (i : Nat) : Scoped l (globalAddress i) := .seq inferInstance fun _ => inferInstance

/-! What comes after an address may rely on there being something. -/

instance (i : Nat) (f : Nat → Exec β) [h : ∀ a : Fin l.rows.functions, Scoped l (f a)] :
    Scoped l (functionAddress i >>= f) :=
  ⟨follows_address (fun _ hi => hi.functions) i fun a => (h a).follows⟩

theorem scoped_tableAddress (i : Nat) {f : Nat → Exec β}
    (h : ∀ a : Fin l.rows.tables, Scoped l (f a)) : Scoped l (tableAddress i >>= f) :=
  ⟨follows_address (fun _ hi => hi.tables) i fun a => (h a).follows⟩

instance (i : Nat) (f : Nat → Exec β) [h : ∀ a : Fin l.rows.tables, Scoped l (f a)] :
    Scoped l (tableAddress i >>= f) :=
  scoped_tableAddress i h

theorem scoped_memoryAddress (i : Nat) {f : Nat → Exec β}
    (h : ∀ a : Fin l.rows.memories, Scoped l (f a)) : Scoped l (memoryAddress i >>= f) :=
  ⟨follows_address (fun _ hi => hi.memories) i fun a => (h a).follows⟩

instance (i : Nat) (f : Nat → Exec β) [h : ∀ a : Fin l.rows.memories, Scoped l (f a)] :
    Scoped l (memoryAddress i >>= f) :=
  scoped_memoryAddress i h

instance (address : Fin l.rows.tables) : Scoped l (table address) :=
  ⟨.get fun _ _ hw hm => .ofOption (hw.table_at hm address)⟩

instance (address : Nat) (f : Table → Table) : Scoped l (modifyTable address f) :=
  .modify fun _ _ hw =>
    { hw with store := { hw.store with tables := hw.store.tables.modify address f } }

instance (address : Nat) (f : Memory → Memory) : Scoped l (modifyMemory address f) :=
  .modify fun _ _ hw =>
    { hw with store := { hw.store with memories := hw.store.memories.modify address f } }

/-- Looking at a memory that is there. -/
theorem scoped_memory {f : Memory → Exec β} (hf : ∀ memory, Scoped l (f memory))
    (address : Fin l.rows.memories) :
    Scoped l (get >>= fun m => match m.store.memories[address.val]? with
      | some memory => f memory
      | none => stuck) := by
  refine ⟨.get fun m n hw hm => ?_⟩
  rw [hw.memory_at hm]
  cases m.store.memories[address.val]? with
  | none => exact .throw _
  | some memory => exact (hf memory).follows

instance (address : Fin l.rows.memories) (start count : Nat) :
    Scoped l (checkBytes address start count) :=
  scoped_memory (fun _ => inferInstance) address

instance (address : Fin l.rows.memories) (start count : Nat) :
    Scoped l (readBytes address start count) := by
  refine scoped_memory (l := l) (fun memory => ?_) address
  split <;> infer_instance

instance (address : Fin l.rows.memories) (start : Nat) (bytes : List UInt8) :
    Scoped l (writeBytes address start bytes) :=
  .seq inferInstance fun _ => inferInstance

/-! ## Loads and stores -/

instance : Scoped l popNumber := by
  refine .seq inferInstance fun x => ?_
  split <;> infer_instance

instance (a : Access) (n : Nat) : Scoped l (pushNumber a n) := inferInstanceAs (Scoped l (push _))

instance (arg : MemArg) : Scoped l (popAddress arg) := .seq inferInstance fun _ => inferInstance

instance (address bytes : Nat) : Scoped l (checkAligned address bytes) :=
  inferInstanceAs (Scoped l (ite _ _ _))

instance (arg : MemArg) (bytes : Nat) : Scoped l (popAligned arg bytes) :=
  .seq inferInstance fun _ => inferInstance

instance (memory : Fin l.rows.memories) (address : Nat) (a : Access) (f : Nat → Nat) :
    Scoped l (replaceNumber memory address a f) :=
  .seq inferInstance fun _ => inferInstance

instance (op : AtomicOp) (arg : MemArg) : Scoped l (atomic op arg) := by
  refine scoped_memoryAddress _ fun memory => ?_
  cases op with
  | notify => infer_instance
  | wait w =>
    refine .seq inferInstance fun _ => .seq inferInstance fun _ => .seq inferInstance fun _ => ?_
    have shared {f : Memory → Exec Unit} (hf : ∀ memory, Scoped l (f memory)) :
        Scoped l (get >>= fun m => ofOption m.store.memories[memory.val]? >>= f) :=
      .look hf fun _ _ hw hm => hw.memory_at hm memory
    split
    · exact .seq inferInstance fun _ => shared fun _ => inferInstance
    · exact shared fun _ => inferInstance
  | load a => infer_instance
  | store a => infer_instance
  | update op a => infer_instance
  | compareExchange a => infer_instance

instance (op : MemoryOp) (arg : MemArg) : Scoped l (access op arg) := by
  cases op <;> (unfold access; infer_instance)

instance (m : LaneMove) (shape : Lane) (arg : MemArg) (lane : Nat) :
    Scoped l (moveLane m shape arg lane) := by
  cases m <;> (unfold moveLane; infer_instance)

/-! ## Whole runs of bytes and references -/

instance : Scoped l popThree := inferInstanceAs (Scoped l (_ >>= _))

instance (i : Nat) : Scoped l (memorySize i) := by
  refine ⟨.get fun m n hw hm => ?_⟩
  refine follows_address (fun _ hi => hi.memories) i fun address => ?_
  exact (Follows.ofOption (hw.memory_at hm address)).bind
    fun _ => Scoped.follows

instance (i : Nat) : Scoped l (memoryGrow i) := by
  refine .seq inferInstance fun count => scoped_memoryAddress _ fun address => ?_
  refine ⟨.get fun m n hw hm => ?_⟩
  refine (Follows.ofOption (hw.memory_at hm address)).bind
    fun memory => ?_
  rw [hw.store.memoryCap]
  have grown : Scoped l (match memory.grow m.store.memoryCap count.toNat with
      | some grown => modifyMemory address (fun _ => grown) >>= fun _ =>
          push (.i32 (UInt32.ofNat memory.pageCount))
      | none => push refused) := by
    split <;> infer_instance
  exact grown.follows

instance (i : Nat) : Scoped l (memoryFill i) := .seq inferInstance fun _ => inferInstance

instance (i j : Nat) : Scoped l (memoryCopy i j) := .seq inferInstance fun _ => inferInstance

theorem data_eq (i : Nat) : data i =
    (home >>= fun home => ofOption home.datas[i]?) >>= fun address => get >>= fun m =>
      ofOption m.store.datas[address]? >>= fun bytes => Pure.pure (address, bytes) := by
  rw [bind_assoc]
  rfl

instance (i : Nat) : Scoped l (data i) := by
  have found (address : Fin l.rows.datas) : Scoped l (get >>= fun m =>
      ofOption m.store.datas[address.val]? >>= fun bytes => Pure.pure (address.val, bytes)) :=
    .look (fun _ => inferInstance) fun _ _ hw hm => hw.data_at hm address
  rw [data_eq]
  exact ⟨follows_address (fun _ hi => hi.datas) i fun address => (found address).follows⟩

instance (segment i : Nat) : Scoped l (memoryInit segment i) := by
  refine .seq inferInstance fun _ => .seq inferInstance fun _ => ?_
  split <;> infer_instance

instance (segment : Nat) : Scoped l (dataDrop segment) := by
  refine .seq inferInstance fun r => .modify fun _ _ hw => ?_
  exact { hw with store := { hw.store with datas := hw.store.datas.setIfInBounds r.1 [] } }

instance (i : Nat) : Scoped l (tableGet i) := by
  refine scoped_tableAddress _ fun _ => .seq inferInstance fun _ => .seq inferInstance fun _ => ?_
  split <;> infer_instance

instance (address : Fin l.rows.tables) (start count : Nat) :
    Scoped l (checkItems address start count) :=
  .seq inferInstance fun _ => inferInstance

instance (address : Fin l.rows.tables) (start : Nat) (items : List Operand) :
    Scoped l (writeItems address start items) :=
  .seq inferInstance fun _ => inferInstance

instance (i : Nat) : Scoped l (tableSet i) := inferInstanceAs (Scoped l (_ >>= _))

instance (i : Nat) : Scoped l (tableSize i) := inferInstanceAs (Scoped l (_ >>= _))

instance (i : Nat) : Scoped l (tableGrow i) := by
  refine .seq inferInstance fun _ => .seq inferInstance fun _ => scoped_tableAddress _ fun _ => ?_
  refine .seq inferInstance fun t => ?_
  split <;> infer_instance

instance (i : Nat) : Scoped l (tableFill i) := inferInstanceAs (Scoped l (_ >>= _))

instance (i j : Nat) : Scoped l (tableCopy i j) := inferInstanceAs (Scoped l (_ >>= _))

theorem element_eq (i : Nat) : element i =
    (home >>= fun home => ofOption home.elements[i]?) >>= fun address => get >>= fun m =>
      ofOption m.store.elements[address]? >>= fun items => Pure.pure (address, items) := by
  rw [bind_assoc]
  rfl

instance (i : Nat) : Scoped l (element i) := by
  have found (address : Fin l.rows.elements) : Scoped l (get >>= fun m =>
      ofOption m.store.elements[address.val]? >>= fun items => Pure.pure (address.val, items)) :=
    .look (fun _ => inferInstance) fun _ _ hw hm => hw.element_at hm address
  rw [element_eq]
  exact ⟨follows_address (fun _ hi => hi.elements) i fun address => (found address).follows⟩

instance (segment i : Nat) : Scoped l (tableInit segment i) := by
  refine .seq inferInstance fun _ => .seq inferInstance fun _ => ?_
  split <;> infer_instance

instance (segment : Nat) : Scoped l (elemDrop segment) := by
  refine .seq inferInstance fun r => .modify fun _ _ hw => ?_
  exact { hw with store := { hw.store with elements := hw.store.elements.setIfInBounds r.1 [] } }

/-! ## Instructions that go on to the next one -/

instance (o : Op) : Scoped l (op o) := by
  cases o with
  | localGet i => exact .get (fun _ => inferInstance) fun m n hw => by rw [hw.frame]
  | globalGet i =>
    refine ⟨.get fun m n hw hm => follows_address (fun _ hi => hi.globals) i fun address => ?_⟩
    exact (Follows.ofOption (hw.global_at hm address)).bind fun _ => Scoped.follows
  | globalSet i =>
    refine .seq inferInstance fun x => .seq inferInstance fun address => .modify fun _ _ hw => ?_
    exact { hw with store := { hw.store with globals := hw.store.globals.modify address _ } }
  | refIsNull =>
    refine .seq inferInstance fun x => ?_
    split <;> infer_instance
  | refFunc i =>
    refine .seq inferInstance fun address => .get (fun _ => inferInstance) fun m n hw => ?_
    rw [Store.funcRef, Store.funcRef, hw.store.id]
  | _ => unfold op; infer_instance

/-! ## Frames and blocks -/

instance : Scoped l settle :=
  .modify fun _ _ hw => { hw with meter := congrArg Meter.settle hw.meter }

instance : Scoped l checkFuel := by
  refine .get (fun m => ?_) fun m n hw => by rw [hw.meter]
  split <;> infer_instance

/-- Entering a body of an instance of the store, where the frames that wait for it are of such
instances too. -/
theorem tracks_start {m n : Machine} (hl : l.Sound) (hw : Wider m n) (hm : m.layout = l)
    {home : Nat} (hhome : home < m.store.instances.size) (type : FuncType) (body : FunctionBody)
    (args : List Operand) {callers : Machine → List Frame × Nat} (h : callers n = callers m)
    (hcallers : ∀ f ∈ (callers m).1, f.Housed m.code) :
    Tracks (EStateM.run (start home type body args callers) m)
      (EStateM.run (start home type body args callers) n) := by
  change Tracks (EStateM.run (if maxDepth ≤ (callers m).2 then _ else _) m)
    (EStateM.run (if maxDepth ≤ (callers n).2 then _ else _) n)
  rw [h]
  split
  · exact .error _ hw
  · have check : Scoped l checkFuel := inferInstance
    refine check.follows hl { hw with
      meter := congrArg (·.charge 1) hw.meter
      frame := rfl
      callers := congrArg Prod.fst h
      depth := congrArg Prod.snd h
      frameHoused := ?_
      callersHoused := hcallers } hm
    rintro _ ⟨⟩
    exact hhome

instance : Scoped l leave := by
  rw [leave_eq]
  refine .seq inferInstance fun _ => .modify fun m n hw => ?_
  obtain ⟨store, host, meter, frame, callers, depth⟩ := m
  obtain ⟨store', host', meter', frame', callers', depth'⟩ := n
  obtain rfl : meter' = meter := hw.meter
  obtain rfl : frame' = frame := hw.frame
  obtain rfl : callers' = callers := hw.callers
  obtain rfl : depth' = depth := hw.depth
  cases callers' with
  | nil => exact ⟨hw.store, hw.host, rfl, rfl, rfl, rfl, hw.functionsHoused, hw.frameHoused, nofun⟩
  | cons caller callers =>
    exact ⟨hw.store, hw.host, rfl, rfl, rfl, rfl, hw.functionsHoused,
      hw.callersHoused caller List.mem_cons_self,
      fun f hf => hw.callersHoused f (List.mem_cons_of_mem _ hf)⟩

instance (address : Fin l.rows.functions) : Scoped l (arguments address) :=
  .look (fun _ => inferInstance) fun _ _ hw hm =>
    congrArg (Option.map Function.type) (hw.function_at hm address)

/-- The function that an element of a table refers to; it must have the expected type. -/
def referred (type : Nat) (r : FuncRef) : Exec Nat := do
  let expected ← ofOption (← home).types[type]?
  let found ← ofOption ((← get).store.functionType? r.index)
  if found = expected then return r.index else trap .badSignature

/-- A reference that does not lead anywhere gets stuck, if only at its end. -/
theorem run_referred_of_size_le {m : Machine} {r : FuncRef}
    (h : m.store.functions.size ≤ r.index) (type : Nat) (f : Nat → Exec β) :
    EStateM.run (referred type r >>= f) m = .error (.failure "ill-typed code") m := by
  have nothing : m.store.functionType? r.index = none := by
    rw [Store.functionType?, Array.getElem?_eq_none h]
    rfl
  rw [referred]
  simp only [bind_assoc]
  change EStateM.run (ofOption (m.frame.home.bind fun i => m.store.instances[i]?) >>= _) m = _
  cases m.frame.home.bind fun i => m.store.instances[i]? with
  | none => rfl
  | some home =>
    change EStateM.run (ofOption home.types[type]? >>= _) m = _
    cases home.types[type]? with
    | none => rfl
    | some expected =>
      change EStateM.run (ofOption (m.store.functionType? r.index) >>= _) m = _
      rw [nothing]
      rfl

theorem scoped_referred {r : FuncRef} (h : r.index < l.rows.functions) (type : Nat)
    {f : Nat → Exec β} (hf : ∀ a : Fin l.rows.functions, Scoped l (f a)) :
    Scoped l (referred type r >>= f) := by
  rw [referred]
  simp only [bind_assoc]
  refine .seq inferInstance fun home => .seq inferInstance fun expected => ?_
  refine .look (fun found => ?_) fun _ _ hw hm =>
    congrArg (Option.map Function.type) (hw.function_at hm ⟨r.index, h⟩)
  split
  · exact hf ⟨r.index, h⟩
  · exact .throw _

/-- What a reference leads to is the same, and if there is nothing, a table holds it. -/
theorem tracks_referred {m n : Machine} (hl : l.Sound) (hw : Wider m n) (hm : m.layout = l)
    {t : Table} (ht : t ∈ m.store.tables) {r : FuncRef} (hr : .func (some r) ∈ t.items)
    (type : Nat) {f : Nat → Exec β} (hf : ∀ a : Fin l.rows.functions, Scoped l (f a)) :
    Tracks (EStateM.run (referred type r >>= f) m) (EStateM.run (referred type r >>= f) n) := by
  by_cases there : r.index < l.rows.functions
  · exact (scoped_referred there type hf).follows hl hw hm
  · have hsize : m.store.functions.size ≤ r.index := by
      rw [← hm] at there
      exact Nat.le_of_not_lt there
    rw [run_referred_of_size_le hsize]
    exact .stuck (Store.leads_eq_false ht hr hsize) _

/-- What comes after a look-up through a table may rely on there being a function. -/
instance (type table : Nat) (f : Nat → Exec β) [hf : ∀ a : Fin l.rows.functions, Scoped l (f a)] :
    Scoped l (indirect type table >>= f) := by
  rw [indirect]
  simp only [bind_assoc]
  refine .seq inferInstance fun index => scoped_tableAddress _ fun address => ?_
  -- The table has to be there still when the reference is used, so the machine stays fixed.
  refine ⟨fun hl m n hw hm => ?_⟩
  change Tracks (EStateM.run (ofOption m.store.tables[address.val]? >>= _) m)
    (EStateM.run (ofOption n.store.tables[address.val]? >>= _) n)
  rw [hw.table_at hm]
  cases ht : m.store.tables[address.val]? with
  | none => exact .error _ hw
  | some t =>
    have found (g : Table → Exec β) (s : Machine) :
        EStateM.run (ofOption (some t) >>= g) s = EStateM.run (g t) s := rfl
    rw [found, found]
    split
    · exact .error _ hw
    · rename_i r hr
      exact tracks_referred hl hw hm (Array.mem_of_getElem? ht) (Array.mem_of_getElem? hr) type hf
    · exact .error _ hw
    · exact .error _ hw

instance (type : BlockType) : Scoped l (blockArity type) := by
  cases type <;> (unfold blockArity; infer_instance)

instance (params arity : Nat) (again : Option (List Instr)) (body : List Instr) :
    Scoped l (enter params arity again body) := scoped_modifyFrame fun _ => rfl

instance (depth : Nat) : Scoped l (branch depth) := by
  refine .get (fun m => ?_) fun m n hw => by rw [hw.frame]
  dsimp only
  split
  · infer_instance
  · split <;> infer_instance

instance (label : Label) (outer : List Label) : Scoped l (endBlock label outer) :=
  scoped_modifyFrame fun _ => rfl

/-! ## Host functions -/

/-- What comes after the look-up of the caller's memory may rely on there being one. -/
theorem scoped_callerMemory {f : Option Nat → Exec β} (hnone : Scoped l (f none))
    (hsome : ∀ a : Fin l.rows.memories, Scoped l (f (some a))) : Scoped l (callerMemory >>= f) := by
  refine ⟨fun hl m n hw hm => ?_⟩
  have same :
      n.frame.home.bind n.store.callerMemory? = m.frame.home.bind m.store.callerMemory? := by
    rw [hw.frame]
    cases hhome : m.frame.home with
    | none => rfl
    | some home =>
      change n.store.callerMemory? home = m.store.callerMemory? home
      rw [Store.callerMemory?, Store.callerMemory?, Store.exported?, Store.exported?,
        hw.store.instances.getElem?_of_lt (hw.frameHoused home hhome)]
  change Tracks (EStateM.run (f (m.frame.home.bind m.store.callerMemory?)) m)
    (EStateM.run (f (n.frame.home.bind n.store.callerMemory?)) n)
  rw [same]
  cases hfound : m.frame.home.bind m.store.callerMemory? with
  | none => exact hnone.follows hl hw hm
  | some a =>
    obtain ⟨home, -, ha⟩ := Option.bind_eq_some_iff.mp hfound
    have hlt : a < l.rows.memories := by
      rw [← hm] at hl ⊢
      exact Store.lt_of_callerMemory? hl ha
    exact (hsome ⟨a, hlt⟩).follows hl hw hm

instance : Scoped l hostMemory := by
  refine scoped_callerMemory inferInstance fun a => ?_
  exact .look (fun _ => inferInstance) fun _ _ hw hm => hw.memory_at hm a

instance (offset length : UInt32) : Scoped l (hostRead offset length) := by
  refine .seq inferInstance fun r => ?_
  split
  · split <;> infer_instance
  · infer_instance

instance (offset : UInt32) (bytes : List UInt8) : Scoped l (hostWrite offset bytes) := by
  refine .seq inferInstance fun r => ?_
  split
  · split <;> infer_instance
  · infer_instance

/-- Changing the host regardless of the environments. -/
theorem scoped_modifyHost {f : Host → Host} (hf : ∀ h, (f h).aside = f h.aside) :
    Scoped l (modifyHost f) := by
  refine .modify fun m n hw => { hw with host := ?_ }
  change (f n.host).aside = (f m.host).aside
  rw [hf, hf, hw.host]

instance (entry : LogEntry) : Scoped l (log entry) := by
  refine .modify fun m n hw => { hw with store := ?_ }
  exact hw.store.mapContext fun c => { c with logs := c.logs ++ [entry] }

instance (key : Option ContextKey) (p : Program) : Scoped l (answer key p) := by
  -- Every step of a host function is one constructor, and the rest comes by induction.
  induction p with
  | finish result =>
    cases result with
    | ok values => exact Scoped.pure values
    | error e => exact Scoped.throw (.host e)
  | readMemory offset length next ih => exact .seq inferInstance ih
  | writeMemory offset bytes next ih => exact .seq inferInstance ih
  | log entry next ih => exact .seq inferInstance fun _ => ih
  | inspect next ih => exact .get (fun m => ih _ _) fun m n hw => by rw [hw.store.context]
  | shared next ih =>
    refine .get (fun m => ih _) fun m n hw => ?_
    have contexts := congrArg Host.contexts hw.host
    have found : n.host.context? = m.host.context? :=
      funext fun key => congrArg (·[key.val]?) contexts
    dsimp only
    rw [found]
  | share data next ih =>
    cases key with
    | none => exact .seq (Scoped.pure ()) fun _ => ih
    | some key => exact .seq (scoped_modifyHost fun h => h.aside_setContext key data) fun _ => ih
  | note text next ih => exact .seq (scoped_modifyHost fun h => h.aside_note text) fun _ => ih
  | deleteObject name next ih =>
    exact .seq (scoped_modifyHost fun h => h.aside_deleteObject name) fun _ => ih
  | dropObject name next ih =>
    exact .seq (scoped_modifyHost fun h => h.aside_dropObject name) fun _ => ih
  | makeObject moduleName next ih =>
    refine ⟨fun hl m n hw hm => ?_⟩
    -- What is made depends on the host that both machines have.
    have made : n.host.aside.makeObject moduleName = m.host.aside.makeObject moduleName := by
      rw [hw.host]
    rw [Host.aside_makeObject, Host.aside_makeObject, Prod.mk.injEq] at made
    obtain ⟨hmade, hhost⟩ := made
    have later : Tracks
        (EStateM.run (answer key (next (m.host.makeObject moduleName).1))
          { m with host := (m.host.makeObject moduleName).2 })
        (EStateM.run (answer key (next (n.host.makeObject moduleName).1))
          { n with host := (n.host.makeObject moduleName).2 }) := by
      rw [hmade]
      exact (ih _).follows hl { hw with host := hhost } hm
    exact later

instance (id : FunctionId) (signature : Signature) (args : List Operand) :
    Scoped l (callHost id signature args) := by
  refine .get (fun m => ?_) fun m n hw => ?_
  · cases m.host.registry.lookup id with
    | error e => exact .throw _
    | ok entry =>
      refine .seq (Scoped.pure entry) fun entry => ?_
      refine .seq inferInstance fun values => .seq inferInstance fun returned => ?_
      refine .seq inferInstance fun _ => .get (fun m => ?_) fun m n hw => ?_
      · infer_instance
      · dsimp only
        rw [hw.store.heap, hw.store.id]
  · have registry := congrArg Host.registry hw.host
    have found : n.host.registry.lookup id = m.host.registry.lookup id :=
      congrArg (·.lookup id) registry
    rw [found]

/-! ## Functions of the system interface -/

instance (memory : Memory) : Scoped l (process memory) := by
  refine .get (fun _ => inferInstance) fun m n hw => ?_
  have files := congrArg Host.files hw.host
  have stdin := congrArg Host.stdin hw.host
  have stdout := congrArg Host.stdout hw.host
  have stderr := congrArg Host.stderr hw.host
  change n.host.files = m.host.files at files
  change n.host.stdin = m.host.stdin at stdin
  change n.host.stdout = m.host.stdout at stdout
  change n.host.stderr = m.host.stderr at stderr
  rw [hw.store.context, files, stdin, stdout, stderr]

instance (address : Nat) (p : Process) : Scoped l (adopt address p) := by
  refine .modify fun m n hw => { hw with
    store := { hw.store with
      memories := hw.store.memories.modify address _
      context := congrArg (fun c : Context => { c with session := p.session }) hw.store.context }
    host := ?_ }
  exact congrArg (fun h : Host =>
    { h with files := p.files, stdin := p.stdin, stdout := p.stdout, stderr := p.stderr }) hw.host

instance (c : Syscall) (args : List Operand) : Scoped l (callSystem c args) := by
  refine scoped_callerMemory (.throw _) fun address => ?_
  refine .look (fun memory => ?_) fun _ _ hw hm => hw.memory_at hm address
  refine .seq inferInstance fun p => .seq inferInstance fun _ => ?_
  split <;> infer_instance

/-! ## Calls, steps and runs -/

instance (address : Fin l.rows.functions) (args : List Operand) :
    Scoped l (call address args) := by
  refine .getAt fun m n hw hm hl => ?_
  rw [hw.function_at hm]
  cases hfound : m.store.functions[address.val]? with
  | none => exact .error _ hw
  | some function =>
    cases function with
    | guest home type body =>
      have hhome := hw.functionsHoused address home type body hfound
      refine tracks_start hl hw hm hhome type body args ?_
        (List.forall_mem_cons.mpr ⟨hw.frameHoused, hw.callersHoused⟩)
      rw [hw.frame, hw.callers, hw.depth]
    | host id signature =>
      have hscoped : Scoped l (callHost id signature args >>= pushMany) := inferInstance
      exact hscoped.follows hl hw hm
    | system c =>
      have hscoped : Scoped l (callSystem c args >>= pushMany) := inferInstance
      exact hscoped.follows hl hw hm

instance (address : Fin l.rows.functions) (args : List Operand) :
    Scoped l (tailCall address args) := by
  refine .getAt fun m n hw hm hl => ?_
  rw [hw.function_at hm]
  cases hfound : m.store.functions[address.val]? with
  | none => exact .error _ hw
  | some function =>
    cases function with
    | guest home type body =>
      have hhome := hw.functionsHoused address home type body hfound
      refine tracks_start hl hw hm hhome type body args ?_ hw.callersHoused
      rw [hw.callers, hw.depth]
    | host id signature =>
      have hscoped : Scoped l (callHost id signature args >>= fun results =>
        pushMany results >>= fun _ => leave) := inferInstance
      exact hscoped.follows hl hw hm
    | system c =>
      have hscoped : Scoped l (callSystem c args >>= fun results =>
        pushMany results >>= fun _ => leave) := inferInstance
      exact hscoped.follows hl hw hm

instance (i : Instr) : Scoped l (instr i) := by
  cases i <;> (unfold instr; infer_instance)

/-- One step: the instruction that comes next is the same. -/
instance : Scoped l step := by
  refine .get (fun m => ?_) fun m n hw => by rw [hw.frame]
  dsimp only
  split
  · rename_i i rest _
    have fetched : Anchored (fetch i rest) := .modify fun _ => rfl
    have followed : Scoped l (fetch i rest) := .modify fun m n hw => by
      rw [hw.frame, hw.meter]
      exact { hw with frame := rfl, meter := rfl }
    exact followed.seq fun _ => inferInstance
  · split
    · infer_instance
    · exact .get (fun _ => inferInstance) fun m n hw => by rw [hw.callers]

instance (n : Nat) : Scoped l (run n) := by
  induction n with
  | zero => exact Scoped.throw _
  | succ n ih =>
    refine .seq inferInstance fun done => ?_
    split
    · exact ih
    · infer_instance

/-- **A call comes to the same on a store with more in it**, unless it gets stuck over a reference
that does not lead anywhere on the other one. -/
instance scoped_invoke (address : Fin l.rows.functions) (args : List Operand) :
    Scoped l (invoke address args) := by
  refine .seq inferInstance fun _ => .seq inferInstance fun _ => ?_
  exact .get (fun _ => inferInstance) fun m n hw => by rw [hw.frame]

end Exec

end Engine

end WasmEmbedding
