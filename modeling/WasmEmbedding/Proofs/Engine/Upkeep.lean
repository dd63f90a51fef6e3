import WasmEmbedding.Proofs.Engine.Orderly

/-! # Runs keep stores orderly

What a guest calls keeps the store of the guest orderly as well.  A host function gets at the bytes
of a memory only, and what it returns is not let in unless it belongs to the store
(`yields_callHost`); a function of the system interface takes and leaves numbers.  So every step is
upright, and so is every run, however many steps it takes (`upright_run`).

Instantiation puts references to functions of its own store into tables, globals and segments, and
makes no memory that is too large (`yields_instantiateFor`).
-/
namespace WasmEmbedding.Engine

open Host Operand Wasi Wasm

variable {α β : Type} {id : StoreId} {cap : Option Nat}

namespace Exec

/-! ## Host functions -/

instance : Upright callerMemory := .get fun _ => inferInstance

theorem yields_hostMemory :
    Yields id cap hostMemory fun r => ∀ address memory, r = some (address, memory) →
      memory.Fits cap := by
  refine Yields.seq fun found => ?_
  split
  · refine Yields.get fun m hm => (Yields.ofOption fun memory hmemory =>
      hm.store.memories memory (Array.mem_of_getElem? hmemory)).bind fun memory hfits => ?_
    refine Yields.pure fun address memory' h => ?_
    split at h
    · cases h
    · cases h
      exact hfits
  · refine Yields.pure fun address memory h => ?_
    cases h

instance : Upright hostMemory := ⟨fun _ _ => yields_hostMemory.mono fun _ _ => trivial⟩

instance (offset length : UInt32) : Upright (hostRead offset length) := by
  refine .seq inferInstance fun r => ?_
  split
  · split <;> infer_instance
  · infer_instance

instance (offset : UInt32) (bytes : List UInt8) : Upright (hostWrite offset bytes) := by
  refine ⟨fun id cap => yields_hostMemory.bind fun r hr => ?_⟩
  split
  · rename_i address memory
    have hfits := hr address memory rfl
    split
    · rename_i written hwritten
      have hwritten : written.Fits cap := hfits.of_size (Memory.size_write hwritten)
      exact (yields_modifyMemory (fun _ _ => hwritten) address).bind fun _ _ => Yields.pure trivial
    · exact Yields.pure trivial
  · exact Yields.pure trivial

instance (f : Host → Host) : Upright (modifyHost f) := .modify fun _ _ _ hm => { hm with }

instance (entry : LogEntry) : Upright (log entry) := upright_modifyStore fun _ _ _ hs => { hs with }

instance (key : Option ContextKey) (p : Program) : Upright (answer key p) := by
  -- Every step of a host function is one constructor, and the rest comes by induction.
  induction p with
  | finish result => cases result <;> (unfold answer; infer_instance)
  | readMemory offset length next ih => exact .seq inferInstance ih
  | writeMemory offset bytes next ih => exact .seq inferInstance ih
  | log entry next ih => exact .seq inferInstance fun _ => ih
  | inspect next ih => exact .get fun m => ih _ _
  | shared next ih => exact .get fun m => ih _
  | share data next ih =>
    cases key with
    | none => exact .seq (.pure ()) fun _ => ih
    | some key => exact .seq inferInstance fun _ => ih
  | note text next ih => exact .seq inferInstance fun _ => ih
  | deleteObject name next ih => exact .seq inferInstance fun _ => ih
  | dropObject name next ih => exact .seq inferInstance fun _ => ih
  | makeObject moduleName next ih => exact .get fun m => .seq inferInstance fun _ => ih _

instance (r : Except ValueError α) : Upright (ofValue r) := by
  unfold ofValue
  split <;> infer_instance

/-- **What a host function returns belongs to the store**, or the call fails. -/
theorem yields_callHost (fid : FunctionId) (signature : Signature) (args : List Operand) :
    Yields id cap (callHost fid signature args) fun xs => ∀ x ∈ xs, x.belongsTo id = true := by
  refine Yields.get fun m _ => ?_
  cases m.host.registry.lookup fid with
  | error e => exact Yields.throw _
  | ok entry =>
    refine ((Upright.pure entry).yields id cap).bind fun entry _ => Yields.seq fun values => ?_
    refine Yields.seq fun returned => Yields.seq fun _ => Yields.get fun m hm => ?_
    refine Yields.seq fun results => ?_
    split
    · rename_i hall
      rw [hm.store.identity] at hall
      exact Yields.pure (List.all_eq_true.mp hall)
    · exact Yields.throw _

/-! ## Functions of the system interface -/

theorem yields_adopt {p : Process} (h : p.memory.Fits cap) (address : Nat) :
    Yields id cap (adopt address p) fun _ => True :=
  Yields.modify fun _ hm => { hm with
    store := { hm.store with
      memories := forall_mem_modify hm.store.memories (fun _ _ => h) address } }

theorem yields_callSystem (c : Syscall) (args : List Operand) :
    Yields id cap (callSystem c args) fun xs => ∀ x ∈ xs, x.belongsTo id = true := by
  refine Yields.seq fun found => ?_
  split
  · refine ((Upright.pure _).yields id cap).bind fun address _ => Yields.get fun m hm => ?_
    refine (Yields.ofOption fun memory hmemory =>
      hm.store.memories memory (Array.mem_of_getElem? hmemory)).bind fun memory hfits => ?_
    have worked : Yields id cap (process memory) fun p => p.memory = memory :=
      Yields.get fun _ _ => Yields.pure rfl
    refine worked.bind fun p hp => ?_
    have hsize := c.size_run (args.map argument) p
    rw [hp] at hsize
    refine (yields_adopt (hfits.of_size hsize) address).bind fun _ _ => ?_
    split
    · refine Yields.pure fun x hx => ?_
      obtain ⟨_, -, rfl⟩ := List.mem_map.mp hx
      exact belongsTo_of_plain id _
    · exact Yields.pure (List.forall_mem_singleton.mpr (belongsTo_of_plain id _))
    · exact Yields.throw _
    · exact Yields.throw _
  · exact Yields.throw _

/-! ## Calls, steps and runs -/

theorem yields_call (address : Nat) {args : List Operand}
    (h : ∀ x ∈ args, x.belongsTo id = true) : Yields id cap (call address args) fun _ => True := by
  refine Yields.get fun m hm => ?_
  split
  · exact yields_start _ _ _ h fun m hm => List.forall_mem_cons.mpr ⟨hm.frame, hm.callers⟩
  · exact (yields_callHost _ _ _).bind fun _ hxs => yields_pushMany hxs
  · exact (yields_callSystem _ _).bind fun _ hxs => yields_pushMany hxs
  · exact Yields.throw _

theorem yields_tailCall (address : Nat) {args : List Operand}
    (h : ∀ x ∈ args, x.belongsTo id = true) :
    Yields id cap (tailCall address args) fun _ => True := by
  refine Yields.get fun m hm => ?_
  split
  · exact yields_start _ _ _ h fun m hm => hm.callers
  · exact (yields_callHost _ _ _).bind fun _ hxs => (yields_pushMany hxs).bind fun _ _ =>
      Upright.yields id cap
  · exact (yields_callSystem _ _).bind fun _ hxs => (yields_pushMany hxs).bind fun _ _ =>
      Upright.yields id cap
  · exact Yields.throw _

/-- Calling what has been found, with arguments off the stack. -/
theorem upright_callFound {find : Exec Nat} [Upright find]
    {call : Nat → List Operand → Exec Unit}
    (hcall : ∀ id cap address args, (∀ x ∈ args, x.belongsTo id = true) →
      Yields id cap (call address args) fun _ => True) :
    Upright (settle >>= fun _ => find >>= fun address => arguments address >>= call address) :=
  .seq inferInstance fun _ => .seq inferInstance fun address => ⟨fun id cap =>
    (yields_arguments address).bind fun args hargs => hcall id cap address args hargs⟩

instance (i : Instr) : Upright (instr i) := by
  cases i with
  | call f => exact upright_callFound fun _ _ address _ h => yields_call address h
  | callIndirect type table => exact upright_callFound fun _ _ address _ h => yields_call address h
  | returnCall f => exact upright_callFound fun _ _ address _ h => yields_tailCall address h
  | returnCallIndirect type table =>
    exact upright_callFound fun _ _ address _ h => yields_tailCall address h
  | _ => unfold instr; infer_instance

/-- **A step keeps the machine orderly.** -/
instance : Upright step := by
  refine ⟨fun id cap => Yields.get fun m hm => ?_⟩
  dsimp only
  split
  · rename_i i rest _
    have fetched : Yields id cap (fetch i rest) fun _ => True :=
      Yields.modify fun m hm => { hm with frame := { hm.frame with } }
    exact fetched.bind fun _ _ => Upright.yields id cap
  · split
    · rename_i label outer hlabels
      refine (yields_endBlock ?_).bind fun _ _ => Yields.pure trivial
      rw [← hlabels]
      exact hm.frame.labels
    · refine Yields.get fun _ _ => Yields.ite (Yields.pure trivial) ?_
      exact Upright.yields id cap

/-- **A run keeps the machine orderly**, however many steps it takes. -/
instance upright_run (n : Nat) : Upright (run n) := by
  induction n with
  | zero => exact Upright.throw _
  | succ n ih =>
    refine .seq inferInstance fun done => ?_
    split
    · exact ih
    · infer_instance

theorem yields_takeResults :
    Yields id cap takeResults fun xs => ∀ x ∈ xs, x.belongsTo id = true := by
  refine Yields.get fun m hm => ?_
  have emptied : Yields id cap (modifyFrame fun f => { f with values := [] }) fun _ => True :=
    yields_modifyFrame fun _ hf => { hf with values := List.forall_mem_nil _ }
  exact emptied.bind fun _ _ => Yields.pure fun x hx => hm.frame.values x (List.mem_reverse.mp hx)

/-- A call that is looked at after so many steps. -/
def invokeFor (k address : Nat) (args : List Operand) : Exec (List Operand) := do
  call address args
  run k
  takeResults

/-- **A call with references of the store answers references of the store**, and on its way there
are no others. -/
theorem yields_invokeFor (k address : Nat) {args : List Operand}
    (h : ∀ x ∈ args, x.belongsTo id = true) :
    Yields id cap (invokeFor k address args) fun xs => ∀ x ∈ xs, x.belongsTo id = true :=
  (yields_call address h).bind fun _ _ => Yields.seq fun _ => yields_takeResults

/-! ## Instantiation -/

theorem yields_mapM {P : β → Prop} {f : α → Exec β} (hf : ∀ a, Yields id cap (f a) P)
    (l : List α) : Yields id cap (l.mapM f) fun bs => ∀ b ∈ bs, P b := by
  induction l with
  | nil =>
    rw [List.mapM_nil]
    exact Yields.pure (List.forall_mem_nil _)
  | cons a l ih =>
    rw [List.mapM_cons]
    refine (hf a).bind fun b hb => ih.bind fun bs hbs => ?_
    exact Yields.pure (List.forall_mem_cons.mpr ⟨hb, hbs⟩)

/-- What has to be true of an element for its answer is true of all. -/
theorem yields_forall_mapM {P : α → Prop} {f : α → Exec β}
    (hf : ∀ a, Yields id cap (f a) fun _ => P a) (l : List α) :
    Yields id cap (l.mapM f) fun _ => ∀ a ∈ l, P a := by
  induction l with
  | nil =>
    rw [List.mapM_nil]
    exact Yields.pure (List.forall_mem_nil _)
  | cons a l ih =>
    rw [List.mapM_cons]
    refine (hf a).bind fun _ ha => ih.bind fun _ hl => ?_
    exact Yields.pure (List.forall_mem_cons.mpr ⟨ha, hl⟩)

instance upright_mapM (f : α → Exec β) [hf : ∀ a, Upright (f a)] (l : List α) :
    Upright (l.mapM f) :=
  ⟨fun id cap => (yields_mapM (fun a => (hf a).yields id cap) l).mono fun _ _ => trivial⟩

instance upright_forM (f : α → Exec PUnit) [hf : ∀ a, Upright (f a)] (l : List α) :
    Upright (l.forM f) := by
  induction l with
  | nil => exact Upright.pure PUnit.unit
  | cons a l ih => exact Upright.seq (hf a) fun _ => ih

/-- What a constant expression comes to belongs to the store that it is evaluated in. -/
theorem yields_constant {s : Store} (hs : s.Orderly id cap) (home : Instance) (e : ConstExpr)
    {stack : List Operand} (hstack : ∀ x ∈ stack, x.belongsTo id = true) :
    Yields id cap (constant s home e stack) fun x => x.belongsTo id = true := by
  fun_induction constant s home e stack with
  | case1 x => exact Yields.pure (hstack x List.mem_cons_self)
  | case2 x rest stack ih =>
    refine ih (List.forall_mem_cons.mpr ⟨?_, hstack⟩)
    split <;> exact belongsTo_of_plain id _
  | case3 heap rest stack ih =>
    exact ih (List.forall_mem_cons.mpr ⟨belongsTo_of_plain id _, hstack⟩)
  | case4 i rest stack ih =>
    refine Yields.seq fun address => ih address (List.forall_mem_cons.mpr ⟨?_, hstack⟩)
    refine belongsTo_eq_true.mpr ?_
    rintro _ ⟨⟩
    exact hs.identity
  | case5 i rest stack ih =>
    refine (Yields.ofOption fun g hg => ?_).bind fun g hg =>
      ih g (List.forall_mem_cons.mpr ⟨hg, hstack⟩)
    obtain ⟨a, -, ha⟩ := Option.bind_eq_some_iff.mp hg
    exact hs.globals g (Array.mem_of_getElem? ha)
  | case6 op rest y x stack ih =>
    refine (Yields.ofFault fun z hz => NumericOp.plain_eval₂ hz).bind fun z _ =>
      ih z (List.forall_mem_cons.mpr ⟨z.belongsTo_of_plain id, fun w hw => ?_⟩)
    exact hstack w (List.mem_cons_of_mem _ (List.mem_cons_of_mem _ hw))
  | case7 e stack => exact Yields.throw _

theorem yields_eval (home : Instance) (e : ConstExpr) :
    Yields id cap (eval home e) fun x => x.belongsTo id = true :=
  Yields.get fun _ hm => yields_constant hm.store home e (List.forall_mem_nil _)

instance (home : Instance) (e : ConstExpr) : Upright (eval home e) :=
  ⟨fun _ _ => (yields_eval home e).mono fun _ _ => trivial⟩

instance (home : Instance) (e : ConstExpr) : Upright (evalWord home e) := by
  refine .seq inferInstance fun x => ?_
  split <;> infer_instance

theorem yields_add {f : Store → α × Store}
    (h : ∀ s : Store, s.Orderly id cap → (f s).2.Orderly id cap) :
    Yields id cap (add f) fun _ => True :=
  fun m hm => ⟨{ hm with store := h m.store hm.store }, fun _ _ => trivial⟩

theorem upright_add {f : Store → α × Store}
    (h : ∀ id cap, ∀ s : Store, s.Orderly id cap → (f s).2.Orderly id cap) : Upright (add f) :=
  ⟨fun id cap => yields_add (h id cap)⟩

end Exec

namespace Store.Orderly

variable {s t : Store}

theorem addFunction (h : s.Orderly id cap) (f : Function) : (s.addFunction f).2.Orderly id cap :=
  { h with }

theorem addTable (h : s.Orderly id cap) (type : TableType) :
    (s.addTable (.nulls type)).2.Orderly id cap := by
  refine { h with tables := forall_mem_push h.tables ?_ }
  exact forall_mem_replicate (P := fun x : Operand => x.belongsTo id = true)
    (belongsTo_of_plain id _) _

theorem addGlobal (h : s.Orderly id cap) {g : Global} (hg : g.value.belongsTo id = true) :
    (s.addGlobal g).2.Orderly id cap :=
  { h with globals := forall_mem_push h.globals hg }

/-- A memory that is let in fits from the start. -/
theorem addMemory (h : s.Orderly id cap) {type : MemoryType} {a : Nat}
    (ht : s.addMemory type = some (a, t)) :
    t.Orderly id cap ∧ type.Fits cap := by
  unfold Store.addMemory at ht
  split at ht
  · rename_i hadmits
    cases ht
    have hmin : type.Fits cap := by
      rintro bytes rfl
      unfold Store.admits at hadmits
      rw [h.memoryCap] at hadmits
      exact of_decide_eq_true hadmits
    refine ⟨{ h with memories := forall_mem_push h.memories fun bytes hbytes => ?_ }, hmin⟩
    have hcount : (Memory.zeros type.limits.min type.limits.max type.shared).pages.size =
        type.limits.min := Memory.pageCount_zeros _ _ _
    rw [Memory.size, hcount]
    exact hmin bytes hbytes
  · cases ht

end Store.Orderly

namespace Exec

instance (m : Module) (index : Nat) (i : Instance) : Upright (addFunctions m index i) :=
  .seq inferInstance fun _ => .seq (@upright_mapM _ _ _ (fun _ =>
    upright_add fun _ _ _ hs => hs.addFunction _) _) fun _ => inferInstance

instance (m : Module) (i : Instance) : Upright (addTables m i) :=
  .seq (@upright_mapM _ _ _ (fun t => upright_add fun _ _ _ hs => hs.addTable t) _)
    fun _ => inferInstance

theorem yields_addMemory (t : MemoryType) :
    Yields id cap (addMemory t) fun _ => t.Fits cap := by
  refine Yields.get fun m hm => ?_
  split
  · rename_i address store hadd
    obtain ⟨hadded, hmin⟩ := hm.store.addMemory hadd
    have put : Yields id cap (modify fun m : Machine => { m with store } : Exec PUnit)
        fun _ => True := Yields.modify fun m hm => { hm with store := hadded }
    exact put.bind fun _ _ => Yields.pure hmin
  · exact Yields.throw _

/-- The memories of a module are not too large at the start, or they are not made. -/
theorem yields_addMemories (m : Module) (i : Instance) :
    Yields id cap (addMemories m i) fun _ => ∀ t ∈ m.memories, t.Fits cap :=
  (yields_forall_mapM yields_addMemory m.memories).bind fun _ h => Yields.pure h

instance (m : Module) (i : Instance) : Upright (addGlobals m i) := by
  refine .seq (@upright_mapM _ _ _ (fun g => ⟨fun id cap => ?_⟩) _) fun _ => inferInstance
  exact (yields_eval i g.init).bind fun x hx => yields_add fun _ hs => hs.addGlobal hx

theorem yields_references (i : Instance) (e : ElementSegment) :
    Yields id cap (references i e) fun xs => ∀ x ∈ xs, x.belongsTo id = true := by
  refine yields_mapM (fun item => ?_) e.items
  cases item with
  | function f =>
    refine Yields.seq fun address => Yields.get fun m hm => Yields.pure ?_
    refine belongsTo_eq_true.mpr ?_
    rintro _ ⟨⟩
    exact hm.store.identity
  | expression init => exact yields_eval i init

instance (m : Module) (i : Instance) : Upright (addElements m i) := by
  refine .seq (@upright_mapM _ _ _ (fun e => ⟨fun id cap => ?_⟩) _) fun _ => inferInstance
  exact (yields_references i e).bind fun items hitems => yields_add fun _ hs =>
    { hs with elements := forall_mem_push hs.elements hitems }

instance (m : Module) (i : Instance) : Upright (addDatas m i) :=
  .seq (@upright_mapM _ _ _ (fun _ => upright_add fun _ _ _ hs => { hs with }) _)
    fun _ => inferInstance

instance (i : Instance) (e : Export) : Upright (exportItem i e) := by
  unfold exportItem
  cases e.kind <;> infer_instance

/-- Adding what a module defines keeps the store orderly, and makes no memory too large. -/
theorem yields_allocate (m : Module) (items : List Item) :
    Yields id cap (allocate m items) fun _ => ∀ t ∈ m.memories, t.Fits cap := by
  have begun : Yields id cap (add fun s => (s.instances.size,
      { s with instances := s.instances.push {} })) fun _ => True :=
    yields_add fun _ hs => { hs with }
  have placed : ∀ index i, Yields id cap (modifyStore fun s =>
      { s with instances := s.instances.setIfInBounds index i }) fun _ => True :=
    fun _ _ => yields_modifyStore fun _ hs => { hs with }
  refine begun.bind fun index _ => Yields.seq fun i => Yields.seq fun i => ?_
  refine (yields_addMemories m i).bind fun i hmin => ?_
  refine Yields.seq fun i => Yields.seq fun i => Yields.seq fun i => Yields.seq fun exports => ?_
  exact (placed index _).bind fun _ _ => Yields.pure hmin

instance (i : Instance) (target : Nat) (offset : ConstExpr) :
    Upright (elementTarget i target offset) :=
  inferInstanceAs (Upright (_ >>= _))

instance (i : Instance) (target : Nat) (offset : ConstExpr) :
    Upright (dataTarget i target offset) :=
  inferInstanceAs (Upright (_ >>= _))

instance (m : Module) (i : Instance) : Upright (checkSegments m i) := by
  refine .seq (@upright_forM _ _ (fun e => ?_) _) fun _ => @upright_forM _ _ (fun d => ?_) _
  · split <;> infer_instance
  · split <;> infer_instance

instance (i : Instance) (e : ElementSegment) (segment : Nat) :
    Upright (copyElement i e segment) := by
  have dropped : Upright (modifyStore fun s =>
      { s with elements := s.elements.setIfInBounds segment [] }) :=
    upright_modifyStore fun _ _ _ hs => Store.Orderly.dropElement hs segment
  unfold copyElement
  split
  · infer_instance
  · exact dropped
  · refine .seq inferInstance fun r => ⟨fun id cap => Yields.get fun m hm => ?_⟩
    refine (Yields.ofOption fun items hitems =>
      hm.store.elements items (Array.mem_of_getElem? hitems)).bind fun items h => ?_
    exact (yields_writeItems _ _ h).bind fun _ _ => dropped.yields id cap

instance (i : Instance) (d : DataSegment) (segment : Nat) : Upright (copyData i d segment) := by
  have dropped : Upright (modifyStore fun s =>
      { s with datas := s.datas.setIfInBounds segment [] }) :=
    upright_modifyStore fun _ _ _ hs => { hs with }
  unfold copyData
  split
  · infer_instance
  · infer_instance

instance (bulkMemory : Bool) (m : Module) (i : Instance) :
    Upright (copySegments bulkMemory m i) := by
  unfold copySegments
  infer_instance

/-- The start function after so many steps. -/
def callStartFor (k : Nat) (m : Module) (index : Nat) (i : Instance) : Exec Unit := do
  match m.start with
  | some f =>
    modifyFrame fun frame => { frame with home := some index }
    let _ ← invokeFor k (← ofOption i.functions[f]?) []
  | none => pure ()

/-- An instantiation after so many steps of the start function. -/
def instantiateFor (k : Nat) (bulkMemory : Bool) (m : Module) (items : List Item) : Exec Nat := do
  let (index, i) ← allocate m items
  copySegments bulkMemory m i
  callStartFor k m index i
  return index

instance (k : Nat) (m : Module) (index : Nat) (i : Instance) :
    Upright (callStartFor k m index i) := by
  unfold callStartFor
  split
  · refine .seq (upright_modifyFrame fun _ _ hf => { hf with }) fun _ => ?_
    refine .seq inferInstance fun address => ⟨fun id cap => ?_⟩
    exact (yields_invokeFor k address (List.forall_mem_nil _)).bind fun _ _ => Yields.pure trivial
  · infer_instance

/-- **Instantiation keeps the store orderly**, however far it gets, and does not succeed if a memory
is too large at the start. -/
theorem yields_instantiateFor (k : Nat) (bulkMemory : Bool) (m : Module) (items : List Item) :
    Yields id cap (instantiateFor k bulkMemory m items) fun _ =>
      ∀ t ∈ m.memories, t.Fits cap :=
  (yields_allocate m items).bind fun _ hmin => Yields.seq fun _ => Yields.seq fun _ =>
    Yields.pure hmin

end Exec

end WasmEmbedding.Engine
