import Mathlib.Data.List.Forall2
import WasmEmbedding.Engine.Instantiate
import WasmEmbedding.Engine.Linker
import WasmEmbedding.Proofs.Engine.Run

/-! # Instantiation

Instantiation adds to the code of a store and changes nothing that is there
(`Code.Extends`): its functions come after those of the store, and so does its instance.
What it makes is an instance of the module (`Store.Realizes`): the functions that the
module defines are its bodies, and it exports under the module's names what these stand
for in it.

Both are facts about every instantiation, whatever becomes of it afterwards: memories,
tables and globals change, functions and instances stay.
-/
namespace WasmEmbedding.Engine

open Wasm Wasi

/-! ## Code that grows -/

/-- The code `d` has everything that `c` has, in the same places. -/
structure Code.Extends (c d : Code) : Prop where
  id : d.id = c.id
  memoryCap : d.memoryCap = c.memoryCap
  heap : d.heap = c.heap
  functions : ∀ (a : Nat) (f : Function), c.functions[a]? = some f → d.functions[a]? = some f
  instances : ∀ (j : Nat) (i : Instance), c.instances[j]? = some i → d.instances[j]? = some i
  size_le : c.instances.size ≤ d.instances.size

instance : IsPreorder Code Code.Extends where
  refl _ := ⟨rfl, rfl, rfl, fun _ _ h => h, fun _ _ h => h, Nat.le_refl _⟩
  trans _ _ _ h h' := {
    id := h'.id.trans h.id
    memoryCap := h'.memoryCap.trans h.memoryCap
    heap := h'.heap.trans h.heap
    functions := fun a f ha => h'.functions a f (h.functions a f ha)
    instances := fun j i hj => h'.instances j i (h.instances j i hj)
    size_le := Nat.le_trans h.size_le h'.size_le }

/-- One more function behind those that are there. -/
theorem Code.extends_push (c : Code) (f : Function) :
    c.Extends { c with functions := c.functions.push f } where
  id := rfl
  memoryCap := rfl
  heap := rfl
  functions a g h := by
    have hlt : a < c.functions.size := (Array.getElem?_eq_some_iff.mp h).1
    rw [Array.getElem?_push_lt hlt, ← h, Array.getElem?_eq_getElem hlt]
  instances _ _ h := h
  size_le := Nat.le_refl _

/-- A property of scenes that an instantiation keeps which finds `k` instances or more. -/
structure Growing (k : Nat) (C : Scene → Prop) : Prop where
  le_size : ∀ a, C a → k ≤ a.code.instances.size
  addFunction : ∀ (a : Scene) home type body, C a →
    C { a with code := { a.code with
      functions := a.code.functions.push (.guest home type body) } }
  setInstances : ∀ (a : Scene) (is : Array Instance), C a → a.code.instances.size ≤ is.size →
    (∀ j < k, is[j]? = a.code.instances[j]?) →
    C { a with code := { a.code with instances := is } }

/-- A scene without functions of the system interface, in which sessions start from `g` and no
guest has ended by asking for it. -/
structure Quiet (g : Host.Grounds) (a : Scene) : Prop where
  systemFree : a.code.SystemFree
  grounds : a.grounds = g
  exitCode : a.exitCode = none

theorem growing_quiet (g : Host.Grounds) : Growing 0 (Quiet g) where
  le_size _ _ := Nat.zero_le _
  addFunction a home type body ha := by
    refine ⟨fun address call h => ?_, ha.grounds, ha.exitCode⟩
    rw [Array.getElem?_push] at h
    split at h
    · cases h
    · exact ha.systemFree address call h
  setInstances _ _ ha _ _ := ⟨ha.systemFree, ha.grounds, ha.exitCode⟩

theorem growing_true : Growing 0 fun _ => True where
  le_size _ _ := Nat.zero_le _
  addFunction _ _ _ _ _ := trivial
  setInstances _ _ _ _ _ := trivial

theorem growing_extends (c : Code) : Growing c.instances.size fun a => c.Extends a.code where
  le_size _ h := h.size_le
  addFunction a home type body h := IsTrans.trans _ _ _ h (a.code.extends_push _)
  setInstances a is h hsize hsame := {
    h with
    instances := fun j i hj => by
      have hlt : j < c.instances.size := (Array.getElem?_eq_some_iff.mp hj).1
      rw [hsame j hlt]
      exact h.instances j i hj
    size_le := Nat.le_trans h.size_le hsize }

/-! ## Parts of an instantiation that are guest code -/

variable {α β : Type} {C : Scene → Prop} {S : Session → Session → Prop}

instance Guest.mapM (f : α → Exec β) [hf : ∀ a, Guest (f a)] : ∀ l : List α, Guest (l.mapM f)
  | [] => by
    rw [List.mapM_nil]
    infer_instance
  | a :: l => by
    rw [List.mapM_cons]
    exact .seq (hf a) fun _ => .seq (Guest.mapM f l) fun _ => inferInstance

instance Guest.forM (f : α → Exec PUnit) [hf : ∀ a, Guest (f a)] : ∀ l : List α, Guest (l.forM f)
  | [] => inferInstanceAs (Guest (Pure.pure PUnit.unit))
  | a :: l => .seq (hf a) fun _ => Guest.forM f l

namespace Exec

theorem guest_add {f : Store → α × Store} (hc : ∀ s, (f s).2.code = s.code)
    (hb : ∀ (s : Store) (o : Guise), f { s.rename o.names with context := o.context } =
      ((f s).1, { (f s).2.rename o.names with context := o.context })) : Guest (add f) where
  respects o := by
    rintro m _ rfl
    change Agree _ (.ok (f m.store).1 { m with store := (f m.store).2 })
      (.ok (f { m.store.rename o.names with context := o.context }).1
        { m.withOuter o with store := (f { m.store.rename o.names with context := o.context }).2 })
    rw [hb m.store o]
    exact .ok _ rfl
  keeps m := hc m.store
  metered _ := ⟨rfl, fun _ => nofun⟩
  own := fun _ _ _ => nofun

instance (t : Table) : Guest (add fun s => s.addTable t) :=
  guest_add (fun _ => rfl) fun _ _ => rfl

instance (g : Global) : Guest (add fun s => s.addGlobal g) :=
  guest_add (fun _ => rfl) fun _ _ => rfl

instance (items : List Operand) : Guest (add fun s =>
    (s.elements.size, { s with elements := s.elements.push items })) :=
  guest_add (fun _ => rfl) fun _ _ => rfl

instance (bytes : List UInt8) : Guest (add fun s =>
    (s.datas.size, { s with datas := s.datas.push bytes })) :=
  guest_add (fun _ => rfl) fun _ _ => rfl

theorem constant_withOuter (m : Machine) (o : Guise) (home : Instance) (e : ConstExpr)
    (stack : List Operand) :
    constant (m.withOuter o).store home e stack = constant m.store home e stack := by
  fun_induction constant m.store home e stack with
  | case1 x => rfl
  | case2 x rest stack ih => exact ih
  | case3 heap rest stack ih => exact ih
  | case4 i rest stack ih => exact congrArg (ofOption _ >>= ·) (funext ih)
  | case5 i rest stack ih => exact congrArg (ofOption _ >>= ·) (funext ih)
  | case6 op rest y x stack ih => exact congrArg (ofFault _ >>= ·) (funext ih)
  | case7 e stack => simp_all [constant]

instance (s : Store) (home : Instance) (e : ConstExpr) (stack : List Operand) :
    Guest (constant s home e stack) := by
  fun_induction constant s home e stack with
  | case1 x => infer_instance
  | case2 x rest stack ih => exact ih
  | case3 heap rest stack ih => exact ih
  | case4 i rest stack ih => exact .seq inferInstance ih
  | case5 i rest stack ih => exact .seq inferInstance ih
  | case6 op rest y x stack ih => exact .seq inferInstance ih
  | case7 e stack => infer_instance

instance (home : Instance) (e : ConstExpr) : Guest (eval home e) :=
  .get (fun _ => inferInstance) fun m o => constant_withOuter m o home e []

instance (home : Instance) (e : ConstExpr) : Guest (evalWord home e) := by
  refine .seq inferInstance fun x => ?_
  split <;> infer_instance

instance (m : Module) (i : Instance) : Guest (addTables m i) := inferInstanceAs (Guest (_ >>= _))

/-- Adding a memory, with the check apart from the change. -/
theorem addMemory_eq (t : MemoryType) : addMemory t = get >>= fun m =>
    if m.store.admits t then
      add fun s => (s.memories.size,
        { s with memories := s.memories.push (.zeros t.limits.min t.limits.max t.shared) })
    else throw (.failure "memory minimum size exceeds memory limits") := by
  funext m
  unfold addMemory Store.addMemory
  change EStateM.run (get >>= _) m = EStateM.run (get >>= _) m
  rw [run_bind_of_ok (EStateM.run_get m), run_bind_of_ok (EStateM.run_get m)]
  by_cases h : m.store.admits t
  · rw [if_pos h, if_pos h]
    rfl
  · rw [if_neg h, if_neg h]

instance (t : MemoryType) : Guest (addMemory t) := by
  rw [addMemory_eq]
  refine .get (fun m => ?_) fun _ _ => rfl
  split
  · exact guest_add (fun _ => rfl) fun _ _ => rfl
  · infer_instance

instance (m : Module) (i : Instance) : Guest (addMemories m i) := inferInstanceAs (Guest (_ >>= _))

instance (m : Module) (i : Instance) : Guest (addGlobals m i) := inferInstanceAs (Guest (_ >>= _))

instance (i : Instance) (e : ElementSegment) : Guest (references i e) := by
  refine @Guest.mapM _ _ _ (fun item => ?_) _
  cases item with
  | function f => exact .seq inferInstance fun _ => .get (fun _ => inferInstance) fun _ _ => rfl
  | expression init => infer_instance

instance (m : Module) (i : Instance) : Guest (addElements m i) := inferInstanceAs (Guest (_ >>= _))

instance (m : Module) (i : Instance) : Guest (addDatas m i) := inferInstanceAs (Guest (_ >>= _))

instance (i : Instance) (e : Export) : Guest (exportItem i e) := by
  unfold exportItem
  cases e.kind <;> infer_instance

instance (i : Instance) (target : Nat) (offset : ConstExpr) :
    Guest (elementTarget i target offset) :=
  inferInstanceAs (Guest (_ >>= _))

instance (i : Instance) (target : Nat) (offset : ConstExpr) : Guest (dataTarget i target offset) :=
  inferInstanceAs (Guest (_ >>= _))

instance (m : Module) (i : Instance) : Guest (checkSegments m i) := by
  refine .seq (@Guest.forM _ _ (fun e => ?_) _) fun _ => @Guest.forM _ _ (fun d => ?_) _
  · split <;> infer_instance
  · split <;> infer_instance

instance (i : Instance) (e : ElementSegment) (segment : Nat) : Guest (copyElement i e segment) := by
  unfold copyElement
  have drop : Guest (modifyStore fun s =>
      { s with elements := s.elements.setIfInBounds segment [] }) :=
    .modify (fun _ => ⟨rfl, rfl⟩) fun _ _ => rfl
  split
  · infer_instance
  · exact drop
  · refine .seq inferInstance fun _ => .get (fun _ => ?_) fun _ _ => rfl
    infer_instance

instance (i : Instance) (d : DataSegment) (segment : Nat) : Guest (copyData i d segment) := by
  unfold copyData
  have drop : Guest (modifyStore fun s => { s with datas := s.datas.setIfInBounds segment [] }) :=
    .modify (fun _ => ⟨rfl, rfl⟩) fun _ _ => rfl
  split
  · infer_instance
  · infer_instance

/-! ## Parts that add to the code -/

/-- Adding something first looks at the store and then changes it. -/
theorem add_bind (f : Store → α × Store) (g : α → Exec β) :
    (add f >>= g) = get >>= fun m =>
      (modify fun m => { m with store := (f m.store).2 }) >>= fun _ => g (f m.store).1 := rfl

variable {k : Nat}

theorem steady_addFunction (hC : Growing k C) (home : Nat) (type : FuncType)
    (body : FunctionBody) :
    Steady C S (add fun s => s.addFunction (.guest home type body)) := by
  -- Only in front of something else does `add` come apart into a look and a change.
  have h : Steady C S ((add fun s => s.addFunction (.guest home type body)) >>= Pure.pure) := by
    rw [add_bind]
    refine .get (fun n _ => ?_) fun _ _ => rfl
    refine Steady.bind (.modify ?_ (fun _ => rfl) fun _ _ => rfl) fun _ => .guest _
    exact fun m hm => hC.addFunction _ _ _ _ hm
  rwa [bind_pure] at h

theorem steady_addFunctions (hC : Growing k C) (m : Module) (index : Nat) (i : Instance) :
    Steady C S (addFunctions m index i) := by
  refine (Steady.guest _).bind fun types => ?_
  refine Steady.bind (Respects.mapM (fun x => ?_) _) fun addresses => .guest _
  exact steady_addFunction hC index x.1 x.2

theorem steady_allocate (hC : Growing k C) (m : Module) (items : List Item) :
    Steady C S (allocate m items) := by
  unfold allocate
  rw [add_bind]
  refine .get (fun n hn => ?_) fun _ _ => rfl
  have hindex : k ≤ n.store.instances.size := hC.le_size _ hn
  dsimp only
  generalize n.store.instances.size = index at hindex ⊢
  refine Steady.bind (.modify ?_ (fun _ => rfl) fun _ _ => rfl) fun _ => ?_
  -- An empty instance comes behind those that are there.
  · intro m hm
    have hsize : m.store.instances.size ≤ (m.store.instances.push {}).size := by
      rw [Array.size_push]
      exact Nat.le_succ _
    refine hC.setInstances _ _ hm hsize fun j hj => ?_
    have hlt : j < m.store.instances.size := Nat.lt_of_lt_of_le hj (hC.le_size _ hm)
    rw [Array.getElem?_push_lt hlt]
    exact (Array.getElem?_eq_getElem hlt).symm
  · refine (steady_addFunctions hC m index _).bind fun i => (Steady.guest _).bind fun i => ?_
    refine (Steady.guest _).bind fun i => (Steady.guest _).bind fun i => ?_
    refine (Steady.guest _).bind fun i => (Steady.guest _).bind fun i => ?_
    refine (Steady.guest _).bind fun exports => Steady.bind ?_ fun _ => .guest _
    -- The finished instance takes the place of the empty one, which is none of the first `k`.
    refine .modify ?_ (fun _ => rfl) fun _ _ => rfl
    intro m hm
    refine hC.setInstances _ _ hm (Nat.le_of_eq Array.size_setIfInBounds.symm) fun j hj => ?_
    exact Array.getElem?_setIfInBounds_ne (by omega)

instance (bulkMemory : Bool) (m : Module) (i : Instance) : Guest (copySegments bulkMemory m i) := by
  unfold copySegments
  infer_instance

theorem steady_callStart (hp : Permits C S) (m : Module) (index : Nat) (i : Instance) :
    Steady C S (callStart m index i) := by
  unfold callStart
  cases m.start with
  | none => exact .guest _
  | some f =>
    refine (Steady.guest _).bind fun _ => (Steady.guest _).bind fun address => ?_
    exact (steady_invoke hp address []).bind fun _ => .guest _

/-- **Instantiation keeps every growing property of the code**, and does not depend on the
session where runs do not. -/
theorem steady_instantiate (hC : Growing k C) (hp : Permits C S) (bulkMemory : Bool) (m : Module)
    (items : List Item) : Steady C S (instantiate bulkMemory m items) := by
  refine (steady_allocate hC m items).bind fun ⟨index, i⟩ => (Steady.guest _).bind fun _ => ?_
  exact (steady_callStart hp m index i).bind fun _ => .guest _

/-- **Instantiation adds to the code of the store and changes nothing that is there.** -/
theorem keeps_instantiate (bulkMemory : Bool) (m : Module) (items : List Item) :
    Keeps (InvImage Code.Extends Machine.code) (instantiate bulkMemory m items) := by
  intro s
  -- To extend the code that was there at the start is a growing property.
  have hp : Permits (s.code.Extends ·.code) Eq := .equal fun a b h ha => h.symm ▸ ha
  have hs : s.code.Extends s.code := Std.Refl.refl _
  exact (steady_instantiate (growing_extends s.code) hp bulkMemory m items).keeps hs

theorem keeps_callStart (m : Module) (index : Nat) (i : Instance) :
    Keeps (SameBy Machine.code) (callStart m index i) := by
  intro s
  have hp : Permits (·.code = s.code) Eq := .equal fun a b h ha => h.trans ha
  exact (steady_callStart hp m index i).keeps rfl

end Exec

/-! ## What an instantiation makes -/

/-- What an export of a module stands for in an instance, under its name. -/
def Instance.exported (i : Instance) (e : Export) : Option (String × Item) :=
  match e.kind with
  | .function => i.functions[e.index]?.map fun a => (e.name, .function a)
  | .table => i.tables[e.index]?.map fun a => (e.name, .table a)
  | .memory => i.memories[e.index]?.map fun a => (e.name, .memory a)
  | .global => i.globals[e.index]?.map fun a => (e.name, .global a)
  | .tag => none

/-- An instance of the store is one of a module whose imports stand for `items`: to these it
adds one function for each body of the module, one table for each of its tables and so on,
and it exports what the exports of the module stand for. -/
structure Code.Realizes (c : Code) (index : Nat) (m : Module) (items : List Item)
    (i : Instance) : Prop where
  instance_eq : c.instances[index]? = some i
  types : i.types = m.types.toArray
  functions : ∃ (types : List FuncType) (own : List Nat),
    m.functions.mapM (m.types[·]?) = some types ∧
    i.functions = (Exec.imported m items).functions ++ own.toArray ∧
    List.Forall₂ (fun a x => c.functions[a]? = some (.guest index x.1 x.2)) own
      (types.zip m.bodies)
  tables : ∃ own : List Nat, own.length = m.tables.length ∧
    i.tables = (Exec.imported m items).tables ++ own.toArray
  memories : ∃ own : List Nat, own.length = m.memories.length ∧
    i.memories = (Exec.imported m items).memories ++ own.toArray
  globals : ∃ own : List Nat, own.length = m.globals.length ∧
    i.globals = (Exec.imported m items).globals ++ own.toArray
  exports : m.exports.mapM i.exported = some i.exports

/-- An instance stays one of its module while the code grows. -/
theorem Code.Realizes.mono {c d : Code} {index : Nat} {m : Module} {items : List Item}
    {i : Instance} (h : c.Realizes index m items i) (hcd : c.Extends d) :
    d.Realizes index m items i := by
  obtain ⟨types, own, htypes, hfunctions, hown⟩ := h.functions
  refine { h with instance_eq := hcd.instances _ _ h.instance_eq, functions := ?_ }
  exact ⟨types, own, htypes, hfunctions, hown.imp fun _ _ ha => hcd.functions _ _ ha⟩

/-- An export is called in an instance what it is called in the module. -/
theorem Instance.name_exported {i : Instance} {e : Export} {x : String × Item}
    (h : i.exported e = some x) : x.1 = e.name := by
  unfold Instance.exported at h
  split at h
  · obtain ⟨a, -, rfl⟩ := Option.map_eq_some_iff.mp h
    rfl
  · obtain ⟨a, -, rfl⟩ := Option.map_eq_some_iff.mp h
    rfl
  · obtain ⟨a, -, rfl⟩ := Option.map_eq_some_iff.mp h
    rfl
  · obtain ⟨a, -, rfl⟩ := Option.map_eq_some_iff.mp h
    rfl
  · cases h

/-- An instance exports under the names of its module. -/
theorem Code.Realizes.names_exports {c : Code} {index : Nat} {m : Module} {items : List Item}
    {i : Instance} (h : c.Realizes index m items i) :
    i.exports.map Prod.fst = m.exports.map (·.name) := by
  have hall : ∀ {es : List Export} {xs : List (String × Item)}, es.mapM i.exported = some xs →
      xs.map Prod.fst = es.map (·.name) := by
    intro es
    induction es with
    | nil =>
      rintro xs ⟨⟩
      rfl
    | cons e es ih =>
      intro xs hxs
      rw [List.mapM_cons] at hxs
      obtain ⟨x, hx, hxs⟩ := Option.bind_eq_some_iff.mp hxs
      obtain ⟨rest, hrest, ⟨⟩⟩ := Option.bind_eq_some_iff.mp hxs
      rw [List.map_cons, List.map_cons, ih hrest, Instance.name_exported hx]
  exact hall h.exports

namespace Exec

theorem mapM_ofOption (f : α → Option β) (l : List α) :
    (l.mapM fun a => (ofOption (f a) : Exec β)) = ofOption (l.mapM f) := by
  induction l with
  | nil => rfl
  | cons a l ih =>
    rw [List.mapM_cons, List.mapM_cons, ih]
    cases f a with
    | none => rfl
    | some b => cases l.mapM f <;> rfl

theorem run_ofOption_eq_ok {a : Option α} {s t : Machine} {b : α} :
    EStateM.run (ofOption a : Exec α) s = .ok b t ↔ a = some b ∧ s = t := by
  cases a with
  | none =>
    refine ⟨fun h => ?_, fun h => nomatch h.1⟩
    cases h
  | some x =>
    constructor
    · intro h
      cases h
      exact ⟨rfl, rfl⟩
    · rintro ⟨⟨⟩, rfl⟩
      rfl

theorem exportItem_eq (i : Instance) (e : Export) : exportItem i e = ofOption (i.exported e) := by
  unfold exportItem Instance.exported
  cases e.kind with
  | function => cases i.functions[e.index]? <;> rfl
  | table => cases i.tables[e.index]? <;> rfl
  | memory => cases i.memories[e.index]? <;> rfl
  | global => cases i.globals[e.index]? <;> rfl
  | tag => rfl

theorem exportItems_eq (i : Instance) (es : List Export) :
    es.mapM (exportItem i) = ofOption (es.mapM i.exported) := by
  rw [← mapM_ofOption]
  exact congrArg (es.mapM ·) (funext (exportItem_eq i))

/-- What guest code collects, one answer for each element of a list, is put in its place. -/
theorem collect_ok {γ : Type} {f : α → Exec β} [∀ a, Guest (f a)] {g : List β → γ} {l : List α}
    {s t : Machine} {c : γ}
    (h : EStateM.run (l.mapM f >>= fun bs => Pure.pure (g bs)) s = .ok c t) :
    ∃ bs, bs.length = l.length ∧ c = g bs ∧ t.code = s.code := by
  obtain ⟨bs, hbs, rfl⟩ := run_map_eq_ok.mp h
  exact ⟨bs, length_of_run_mapM hbs, rfl, (Guest.mapM f l).keeps.ok hbs⟩

/-- Functions that are added are where their addresses say. -/
theorem addBodies_ok {index : Nat} : ∀ {l : List (FuncType × FunctionBody)} {s t : Machine}
    {own : List Nat},
    EStateM.run (l.mapM fun x => add fun s => s.addFunction (.guest index x.1 x.2)) s = .ok own t →
    List.Forall₂ (fun a x => t.code.functions[a]? = some (.guest index x.1 x.2)) own l ∧
      t.code.instances = s.code.instances ∧ s.code.Extends t.code
  | [], s, t, own, h => by
    rw [List.mapM_nil] at h
    cases h
    exact ⟨.nil, rfl, Std.Refl.refl _⟩
  | x :: l, s, t, own, h => by
    rw [List.mapM_cons] at h
    obtain ⟨a, u, ha, htail⟩ := run_bind_eq_ok.mp h
    obtain ⟨rest, hrest, rfl⟩ := run_map_eq_ok.mp htail
    obtain ⟨hfound, hinstances, hext⟩ := addBodies_ok hrest
    cases ha
    have hnew : (s.store.functions.push (.guest index x.1 x.2))[s.store.functions.size]? =
        some (.guest index x.1 x.2) := Array.getElem?_push_size
    have hsu := (growing_extends s.code).addFunction s.scene index x.1 x.2 (Std.Refl.refl _)
    exact ⟨.cons (hext.functions _ _ hnew) hfound, hinstances, IsTrans.trans _ _ _ hsu hext⟩

theorem addFunctions_ok {m : Module} {index : Nat} {i j : Instance} {s t : Machine}
    (h : EStateM.run (addFunctions m index i) s = .ok j t) :
    ∃ (types : List FuncType) (own : List Nat), m.functions.mapM (m.types[·]?) = some types ∧
      j = { i with functions := i.functions ++ own.toArray } ∧
      List.Forall₂ (fun a x => t.code.functions[a]? = some (.guest index x.1 x.2)) own
        (types.zip m.bodies) ∧ t.code.instances = s.code.instances := by
  obtain ⟨types, u, htypes, h⟩ := run_bind_eq_ok.mp h
  rw [mapM_ofOption] at htypes
  obtain ⟨hsome, rfl⟩ := run_ofOption_eq_ok.mp htypes
  obtain ⟨own, hown, rfl⟩ := run_map_eq_ok.mp h
  obtain ⟨hfound, hinstances, -⟩ := addBodies_ok hown
  exact ⟨types, own, hsome, rfl, hfound, hinstances⟩

/-- **What `allocate` adds is an instance of the module**, behind those of the store. -/
theorem allocate_ok {m : Module} {items : List Item} {index : Nat} {i : Instance} {s t : Machine}
    (h : EStateM.run (allocate m items) s = .ok (index, i) t) :
    index = s.code.instances.size ∧ t.code.Realizes index m items i := by
  -- One step for the place of the instance, one for each kind of thing it has, one for its exports.
  obtain ⟨index, s₀, hindex, h⟩ := run_bind_eq_ok.mp h
  obtain ⟨i₁, s₁, h₁, h⟩ := run_bind_eq_ok.mp h
  obtain ⟨i₂, s₂, h₂, h⟩ := run_bind_eq_ok.mp h
  obtain ⟨i₃, s₃, h₃, h⟩ := run_bind_eq_ok.mp h
  obtain ⟨i₄, s₄, h₄, h⟩ := run_bind_eq_ok.mp h
  obtain ⟨i₅, s₅, h₅, h⟩ := run_bind_eq_ok.mp h
  obtain ⟨i₆, s₆, h₆, h⟩ := run_bind_eq_ok.mp h
  obtain ⟨exports, s₇, h₇, h⟩ := run_bind_eq_ok.mp h
  cases hindex
  obtain ⟨types, functions, htypes, rfl, hfunctions, hinstances⟩ := addFunctions_ok h₁
  obtain ⟨tables, htables, rfl, hcode₂⟩ := collect_ok h₂
  obtain ⟨memories, hmemories, rfl, hcode₃⟩ := collect_ok h₃
  obtain ⟨globals, hglobals, rfl, hcode₄⟩ := collect_ok h₄
  obtain ⟨elements, -, rfl, hcode₅⟩ := collect_ok h₅
  obtain ⟨datas, -, rfl, hcode₆⟩ := collect_ok h₆
  rw [exportItems_eq] at h₇
  obtain ⟨hexports, rfl⟩ := run_ofOption_eq_ok.mp h₇
  have hcode : s₆.code = s₁.code := by rw [hcode₆, hcode₅, hcode₄, hcode₃, hcode₂]
  have hsize : s₆.store.instances.size = s.store.instances.size + 1 := by
    have h := congrArg Array.size ((congrArg Code.instances hcode).trans hinstances)
    exact h.trans (Array.size_push _)
  have hfound : List.Forall₂ (fun a x => s₆.code.functions[a]? =
      some (.guest s.store.instances.size x.1 x.2)) functions (types.zip m.bodies) := by
    rw [hcode]
    exact hfunctions
  cases h
  refine ⟨rfl, ?_⟩
  exact {
    instance_eq := Array.getElem?_setIfInBounds_self_of_lt (by omega)
    types := rfl
    functions := ⟨types, functions, htypes, rfl, hfound⟩
    tables := ⟨tables, htables, rfl⟩
    memories := ⟨memories, hmemories, rfl⟩
    globals := ⟨globals, hglobals, rfl⟩
    exports := hexports }

/-- **A successful instantiation makes an instance of the module**, behind those of the
store, in which the imports stand for the given items. -/
theorem instantiate_ok {bulkMemory : Bool} {m : Module} {items : List Item} {index : Nat}
    {s t : Machine} (h : EStateM.run (instantiate bulkMemory m items) s = .ok index t) :
    index = s.code.instances.size ∧ ∃ i, t.code.Realizes index m items i := by
  obtain ⟨⟨k, i⟩, u, halloc, hrest⟩ := run_bind_eq_ok.mp h
  obtain ⟨⟨⟩, v, hcopy, hrest⟩ := run_bind_eq_ok.mp hrest
  obtain ⟨⟨⟩, hstart, rfl⟩ := run_map_eq_ok.mp hrest
  obtain ⟨hindex, hreal⟩ := allocate_ok halloc
  have hv : v.code = u.code := Guest.keeps.ok hcopy
  have ht : t.code = v.code := (keeps_callStart m k i).ok hstart
  exact ⟨hindex, i, by rw [ht, hv]; exact hreal⟩

end Exec

end WasmEmbedding.Engine
