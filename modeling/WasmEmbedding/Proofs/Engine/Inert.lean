import WasmEmbedding.Proofs.Engine.Instantiation
import WasmEmbedding.Proofs.Engine.Wider

/-! # Instantiation beside running guests

What an instantiation does to a store in which there are guests already.  As long as it only makes
the instance, everything that was there stays in its place (`Adds`): rows come behind rows, and what
is written is the new instance and nothing else.  Copying active segments and calling a start
function may change anything; a module without either is inert, and all that it does when it is
instantiated is to add to the store (`adds_instantiate`).

The functions that an instantiation adds belong to the instance that it makes, so that guest code
belongs to instances of its store whatever is instantiated (`housed_instantiate`).
-/
namespace WasmEmbedding

open Engine

/-- A segment is copied when its module is instantiated. -/
def Wasm.SegmentMode.isActive : SegmentMode → Bool
  | .active _ _ => true
  | _ => false

/-- A module without start function and active segments. -/
structure Wasm.Module.Inert (m : Module) : Prop where
  start : m.start = none
  elements : ∀ e ∈ m.elements, e.mode.isActive = false
  datas : ∀ d ∈ m.datas, d.mode.isActive = false

instance (m : Wasm.Module) : Decidable m.Inert :=
  decidable_of_iff (m.start.isNone = true ∧ (∀ e ∈ m.elements, e.mode.isActive = false) ∧
      ∀ d ∈ m.datas, d.mode.isActive = false)
    ⟨fun ⟨h, h', h''⟩ => ⟨Option.isNone_iff_eq_none.mp h, h', h''⟩,
      fun h => ⟨Option.isNone_iff_eq_none.mpr h.start, h.elements, h.datas⟩⟩

namespace Engine

open Wasm

variable {α β : Type}

/-! ## Stores with more in them -/

section Stores

variable {s t u : Store}

theorem Store.Within.refl (s : Store) : s.Within s :=
  ⟨rfl, rfl, rfl, .refl _, .refl _, .refl _, .refl _, .refl _, .refl _, .refl _, rfl⟩

theorem Store.Within.trans (h : s.Within t) (h' : t.Within u) : s.Within u where
  id := h'.id.trans h.id
  memoryCap := h'.memoryCap.trans h.memoryCap
  heap := h'.heap.trans h.heap
  functions := h.functions.trans h'.functions
  tables := h.tables.trans h'.tables
  memories := h.memories.trans h'.memories
  globals := h.globals.trans h'.globals
  instances := h.instances.trans h'.instances
  elements := h.elements.trans h'.elements
  datas := h.datas.trans h'.datas
  context := h'.context.trans h.context

theorem Store.within_addFunction (s : Store) (f : Function) : s.Within (s.addFunction f).2 :=
  { Within.refl s with functions := .push _ _ }

theorem Store.within_addTable (s : Store) (t : Table) : s.Within (s.addTable t).2 :=
  { Within.refl s with tables := .push _ _ }

theorem Store.within_addGlobal (s : Store) (g : Global) : s.Within (s.addGlobal g).2 :=
  { Within.refl s with globals := .push _ _ }

theorem Store.within_addMemory {t : Wasm.MemoryType} {a : Nat} {u : Store}
    (h : s.addMemory t = some (a, u)) : s.Within u := by
  unfold Store.addMemory at h
  split at h
  · cases h
    exact { Within.refl s with memories := .push _ _ }
  · cases h

/-- What is written behind the rows of another store does not change these. -/
theorem Kept.setIfInBounds_of_le {a b : Array α} (h : Kept a b) {i : Nat} (hi : a.size ≤ i)
    (x : α) : Kept a (b.setIfInBounds i x) := by
  intro j y hj
  obtain ⟨hlt, -⟩ := Array.getElem?_eq_some_iff.mp hj
  rw [Array.getElem?_setIfInBounds_ne (by omega)]
  exact h j y hj

end Stores

/-! ## Computations that add to the store -/

/-- Everything in the store is in its place, and otherwise nothing has happened. -/
structure Adds (m n : Machine) : Prop where
  store : m.store.Within n.store
  host : n.host = m.host
  meter : n.meter = m.meter

instance : IsPreorder Machine Adds where
  refl _ := ⟨.refl _, rfl, rfl⟩
  trans _ _ _ h h' := ⟨h.store.trans h'.store, h'.host.trans h.host, h'.meter.trans h.meter⟩

/-- A computation that adds to the store. -/
class Adding {α : Type} (x : Exec α) : Prop where
  keeps : Keeps Adds x

namespace Adding

instance pure (a : α) : Adding (pure a : Exec α) := ⟨Keeps.pure a⟩

instance throw (e : Stop) : Adding (throw e : Exec α) := ⟨Keeps.throw e⟩

instance get : Adding (get : Exec Machine) := ⟨Keeps.get⟩

instance bind (x : Exec α) (f : α → Exec β) [hx : Adding x] [hf : ∀ a, Adding (f a)] :
    Adding (x >>= f) :=
  ⟨hx.keeps.bind fun a => (hf a).keeps⟩

theorem seq {x : Exec α} {f : α → Exec β} (hx : Adding x) (hf : ∀ a, Adding (f a)) :
    Adding (x >>= f) :=
  bind x f

instance mapM (f : α → Exec β) [hf : ∀ a, Adding (f a)] (l : List α) : Adding (l.mapM f) :=
  ⟨Keeps.mapM (fun a => (hf a).keeps) l⟩

end Adding

namespace Exec

theorem adding_add {f : Store → α × Store} (h : ∀ s : Store, s.Within (f s).2) : Adding (add f) :=
  ⟨fun m => ⟨h m.store, rfl, rfl⟩⟩

instance (f : Function) : Adding (add fun s => s.addFunction f) :=
  adding_add fun s => s.within_addFunction f

instance (t : Table) : Adding (add fun s => s.addTable t) := adding_add fun s => s.within_addTable t

instance (g : Global) : Adding (add fun s => s.addGlobal g) :=
  adding_add fun s => s.within_addGlobal g

instance (items : List Operand) : Adding (add fun s =>
    (s.elements.size, { s with elements := s.elements.push items })) :=
  adding_add fun s => { Store.Within.refl s with elements := .push _ _ }

instance (bytes : List UInt8) : Adding (add fun s =>
    (s.datas.size, { s with datas := s.datas.push bytes })) :=
  adding_add fun s => { Store.Within.refl s with datas := .push _ _ }

instance (code : TrapCode) : Adding (trap code : Exec α) := inferInstanceAs (Adding (throw _))

instance : Adding (stuck : Exec α) := inferInstanceAs (Adding (throw _))

instance (a : Option α) : Adding (ofOption a) := by
  unfold ofOption
  split <;> infer_instance

instance (r : Except Fault α) : Adding (ofFault r) := by
  unfold ofFault
  split <;> infer_instance

instance (s : Store) (home : Instance) (e : ConstExpr) (stack : List Operand) :
    Adding (constant s home e stack) := by
  fun_induction constant s home e stack with
  | case1 x => infer_instance
  | case2 x rest stack ih => exact ih
  | case3 heap rest stack ih => exact ih
  | case4 i rest stack ih => exact .seq inferInstance ih
  | case5 i rest stack ih => exact .seq inferInstance ih
  | case6 op rest y x stack ih => exact .seq inferInstance ih
  | case7 e stack => infer_instance

instance (home : Instance) (e : ConstExpr) : Adding (eval home e) :=
  inferInstanceAs (Adding (_ >>= _))

instance (m : Module) (index : Nat) (i : Instance) : Adding (addFunctions m index i) :=
  inferInstanceAs (Adding (_ >>= _))

instance (m : Module) (i : Instance) : Adding (addTables m i) := inferInstanceAs (Adding (_ >>= _))

instance (t : MemoryType) : Adding (addMemory t) := by
  rw [addMemory_eq]
  refine .seq inferInstance fun m => ?_
  split
  · exact adding_add fun s => { Store.Within.refl s with memories := .push _ _ }
  · infer_instance

instance (m : Module) (i : Instance) : Adding (addMemories m i) :=
  inferInstanceAs (Adding (_ >>= _))

instance (m : Module) (i : Instance) : Adding (addGlobals m i) := inferInstanceAs (Adding (_ >>= _))

instance (i : Instance) (e : ElementSegment) : Adding (references i e) := by
  unfold references
  refine @Adding.mapM _ _ _ (fun item => ?_) _
  split <;> infer_instance

instance (m : Module) (i : Instance) : Adding (addElements m i) :=
  inferInstanceAs (Adding (_ >>= _))

instance (m : Module) (i : Instance) : Adding (addDatas m i) := inferInstanceAs (Adding (_ >>= _))

instance (i : Instance) (e : Export) : Adding (exportItem i e) := by
  rw [exportItem_eq]
  infer_instance

/-! ## Making an instance -/

/-- An instance with the index `k` is being made, starting from the machine `b`. -/
structure Making (b : Machine) (k : Nat) (n : Machine) : Prop where
  adds : Adds b n
  behind : b.store.instances.size ≤ k
  room : k < n.store.instances.size
  housed : b.code.Housed → n.code.Housed

variable {b : Machine} {k : Nat}

/-- Adding something that is not code. -/
theorem upholds_making (x : Exec α) [Adding x] [Guest x] : Keeps (Upholds (Making b k)) x := by
  intro n h
  have hcode : (ending x n).code = n.code := Guest.keeps n
  refine ⟨IsTrans.trans _ _ _ h.adds (Adding.keeps n), h.behind, ?_, fun hb => hcode ▸ h.housed hb⟩
  have hinstances : (ending x n).store.instances = n.store.instances :=
    congrArg Code.instances hcode
  rw [hinstances]
  exact h.room

/-- Adding a function of the instance that is being made. -/
theorem upholds_making_addFunction (type : FuncType) (body : FunctionBody) :
    Keeps (Upholds (Making b k)) (add fun s => s.addFunction (.guest k type body)) := by
  intro n h
  refine ⟨IsTrans.trans _ _ _ h.adds (Adding.keeps n), h.behind, h.room, fun hb => ?_⟩
  intro a home type' body' ha
  change (n.store.functions.push (.guest k type body))[a]? = _ at ha
  rw [Array.getElem?_push] at ha
  split at ha
  · cases ha
    exact h.room
  · exact h.housed hb a home type' body' ha

theorem upholds_making_addFunctions (m : Module) (i : Instance) :
    Keeps (Upholds (Making b k)) (addFunctions m k i) := by
  refine (upholds_making _).bind fun types => Keeps.bind ?_ fun _ => upholds_making _
  exact Keeps.mapM (fun x : FuncType × FunctionBody => upholds_making_addFunction x.1 x.2) _

/-- **Before segments are copied, an instantiation adds to the store**, and the functions that it
adds belong to the instance. -/
theorem keeps_allocate (m : Module) (items : List Item) :
    Keeps (fun b n => Adds b n ∧ (b.code.Housed → n.code.Housed)) (allocate m items) := by
  intro b
  have rest : ∀ k, Keeps (Upholds (Making b k)) (do
      let i ← addFunctions m k (imported m items)
      let i ← addTables m i
      let i ← addMemories m i
      let i ← addGlobals m i
      let i ← addElements m i
      let i ← addDatas m i
      let i := { i with exports := ← m.exports.mapM (exportItem i) }
      modifyStore fun s => { s with instances := s.instances.setIfInBounds k i }
      return (k, i)) := by
    intro k
    refine (upholds_making_addFunctions m _).bind fun i => (upholds_making _).bind fun i => ?_
    refine (upholds_making _).bind fun i => (upholds_making _).bind fun i => ?_
    refine (upholds_making _).bind fun i => (upholds_making _).bind fun i => ?_
    refine (upholds_making _).bind fun exports => Keeps.bind ?_ fun _ => Keeps.pure _
    -- The finished instance takes the place of the empty one, which nobody else knows of.
    refine Keeps.modify fun n h => ⟨?_, h.behind, ?_, fun hb => ?_⟩
    · refine { h.adds with store := { h.adds.store with instances := ?_ } }
      exact h.adds.store.instances.setIfInBounds_of_le h.behind _
    · exact Nat.lt_of_lt_of_eq h.room Array.size_setIfInBounds.symm
    · intro a home type body ha
      exact Nat.lt_of_lt_of_eq (h.housed hb a home type body ha) Array.size_setIfInBounds.symm
  have start : Making b b.store.instances.size
      { b with store := { b.store with instances := b.store.instances.push {} } } := by
    have hsize : b.store.instances.size < (b.store.instances.push {}).size := by
      rw [Array.size_push]
      exact Nat.lt_succ_self _
    refine ⟨⟨{ Store.Within.refl b.store with instances := .push _ _ }, rfl, rfl⟩,
      Nat.le_refl _, hsize, fun hb a home type body ha => ?_⟩
    exact Nat.lt_trans (hb a home type body ha) hsize
  have done := rest _ _ start
  exact ⟨done.adds, done.housed⟩

/-- The element segments of a new instance come behind those that the store had. -/
theorem addElements_ok {m : Module} {i j : Instance} {s t : Machine}
    (h : EStateM.run (addElements m i) s = .ok j t) :
    ∀ a ∈ j.elements, s.store.elements.size ≤ a := by
  obtain ⟨addresses, haddresses, rfl⟩ := run_map_eq_ok.mp h
  have grows {γ : Type} (x : Exec γ) [Adding x] :
      Keeps (Upholds fun n => s.store.elements.size ≤ n.store.elements.size) x := fun n hn =>
    Nat.le_trans hn (Adding.keeps n).store.elements.size_le
  have behind : ∀ a ∈ addresses, s.store.elements.size ≤ a := by
    refine forall_mem_of_run_mapM (fun e => grows _) (fun e n a n' hn ha => ?_)
      (Nat.le_refl _) haddresses
    obtain ⟨items, u, hitems, ha⟩ := run_bind_eq_ok.mp ha
    cases ha
    exact (grows (references i e)).ok hitems hn
  exact fun a ha => behind a (List.mem_toArray.mp ha)

theorem allocate_elements {m : Module} {items : List Item} {index : Nat} {i : Instance}
    {s t : Machine} (h : EStateM.run (allocate m items) s = .ok (index, i) t) :
    ∀ a ∈ i.elements, s.store.elements.size ≤ a := by
  obtain ⟨index, s₀, hindex, h⟩ := run_bind_eq_ok.mp h
  obtain ⟨i₁, s₁, h₁, h⟩ := run_bind_eq_ok.mp h
  obtain ⟨i₂, s₂, h₂, h⟩ := run_bind_eq_ok.mp h
  obtain ⟨i₃, s₃, h₃, h⟩ := run_bind_eq_ok.mp h
  obtain ⟨i₄, s₄, h₄, h⟩ := run_bind_eq_ok.mp h
  obtain ⟨i₅, s₅, h₅, h⟩ := run_bind_eq_ok.mp h
  obtain ⟨i₆, s₆, h₆, h⟩ := run_bind_eq_ok.mp h
  obtain ⟨exports, s₇, h₇, h⟩ := run_bind_eq_ok.mp h
  have toElements : Adds s s₄ := by
    have h₀ : Adds s s₀ := by
      cases hindex
      exact ⟨{ Store.Within.refl s.store with instances := .push _ _ }, rfl, rfl⟩
    have h₀₁ : Adds s s₁ := IsTrans.trans _ _ _ h₀ (Adding.keeps.ok h₁)
    have h₀₂ : Adds s s₂ := IsTrans.trans _ _ _ h₀₁ (Adding.keeps.ok h₂)
    have h₀₃ : Adds s s₃ := IsTrans.trans _ _ _ h₀₂ (Adding.keeps.ok h₃)
    exact IsTrans.trans _ _ _ h₀₃ (Adding.keeps.ok h₄)
  obtain ⟨datas, -, rfl⟩ := run_map_eq_ok.mp h₆
  cases h
  intro a ha
  exact Nat.le_trans toElements.store.elements.size_le (addElements_ok h₅ a ha)

/-! ## What comes after -/

theorem housed_of_sameCode {x : Exec α} (h : Keeps (SameBy Machine.code) x) :
    Keeps (Upholds fun n => n.code.Housed) x := by
  intro n hn
  rwa [h n]

/-- **Guest code belongs to instances of its store**, whatever is instantiated. -/
theorem housed_instantiate (bulkMemory : Bool) (m : Module) (items : List Item) :
    Keeps (Upholds fun n => n.code.Housed) (instantiate bulkMemory m items) := by
  refine Keeps.bind (fun n hn => (keeps_allocate m items n).2 hn) fun ⟨index, i⟩ => ?_
  refine (housed_of_sameCode Guest.keeps).bind fun _ => ?_
  refine (housed_of_sameCode (keeps_callStart m index i)).bind fun _ => ?_
  exact Keeps.pure _

/-! Segments that are not active are dropped at most. -/

theorem upholds_adds_copyElement (i : Instance) {e : ElementSegment}
    (passive : e.mode.isActive = false) {segment : Nat}
    (hsegment : b.store.elements.size ≤ segment) :
    Keeps (Upholds (Adds b)) (copyElement i e segment) := by
  unfold copyElement
  split
  · exact Keeps.pure _
  · refine Keeps.modify fun n h => { h with store := { h.store with elements := ?_ } }
    exact h.store.elements.setIfInBounds_of_le hsegment _
  · rename_i hmode
    rw [hmode] at passive
    cases passive

theorem keeps_copyData {R : Machine → Machine → Prop} [IsPreorder Machine R] (i : Instance)
    {d : DataSegment} (passive : d.mode.isActive = false) (segment : Nat) :
    Keeps R (copyData i d segment) := by
  unfold copyData
  split
  · rename_i hmode
    rw [hmode] at passive
    cases passive
  · exact Keeps.pure _

theorem keeps_checkSegments {R : Machine → Machine → Prop} [IsPreorder Machine R] {m : Module}
    (inert : m.Inert) (i : Instance) : Keeps R (checkSegments m i) := by
  refine Keeps.bind (Keeps.forM_of_mem fun e he => ?_) fun _ => Keeps.forM_of_mem fun d hd => ?_
  · have passive := inert.elements e he
    split
    · rename_i hmode
      rw [hmode] at passive
      cases passive
    · exact Keeps.pure _
  · have passive := inert.datas d hd
    split
    · rename_i hmode
      rw [hmode] at passive
      cases passive
    · exact Keeps.pure _

/-- Only the new instance knows of the segments that are dropped. -/
theorem upholds_adds_copySegments {m : Module} (inert : m.Inert) {i : Instance}
    (hi : ∀ a ∈ i.elements, b.store.elements.size ≤ a) (bulkMemory : Bool) :
    Keeps (Upholds (Adds b)) (copySegments bulkMemory m i) := by
  have elements : ∀ x ∈ m.elements.zip i.elements.toList,
      Keeps (Upholds (Adds b)) (copyElement i x.1 x.2) := fun x hx =>
    upholds_adds_copyElement i (inert.elements x.1 (List.of_mem_zip hx).1)
      (hi x.2 (Array.mem_toList_iff.mp (List.of_mem_zip hx).2))
  have datas : ∀ x ∈ m.datas.zip i.datas.toList,
      Keeps (Upholds (Adds b)) (copyData i x.1 x.2) := fun x hx =>
    keeps_copyData i (inert.datas x.1 (List.of_mem_zip hx).1) x.2
  unfold copySegments
  split
  · refine (keeps_checkSegments inert i).bind fun _ => ?_
    exact (Keeps.forM_of_mem elements).bind fun _ => Keeps.forM_of_mem datas
  · exact (Keeps.forM_of_mem elements).bind fun _ => Keeps.forM_of_mem datas

/-- **The instantiation of an inert module adds to the store** and does nothing else. -/
theorem adds_instantiate {m : Module} (inert : m.Inert) (bulkMemory : Bool) (items : List Item) :
    Keeps Adds (instantiate bulkMemory m items) := by
  intro b
  have post : Post (instantiate bulkMemory m items) b fun _ n => Adds b n := by
    refine Post.bind (fun ⟨index, i⟩ n hn => ?_) fun e n hn => ((keeps_allocate m items).error hn).1
    have rest : Keeps (Upholds (Adds b)) (do
        copySegments bulkMemory m i
        callStart m index i
        return index) := by
      refine (upholds_adds_copySegments inert (allocate_elements hn) bulkMemory).bind fun _ => ?_
      unfold callStart
      rw [inert.start]
      exact (Keeps.pure _).bind fun _ => Keeps.pure _
    exact rest n ((keeps_allocate m items).ok hn).1
  exact post

end Exec

end Engine

end WasmEmbedding
