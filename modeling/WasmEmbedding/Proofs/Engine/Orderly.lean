import WasmEmbedding.Proofs.Wasi.Texts

/-! # Orderly stores

Every function reference in an orderly store is one of its own, and no memory has more bytes than
the store leaves room for (`Store.Orderly`).  Code looks at the address in a reference only, never
at the store that the reference belongs to, so that this is what keeps it from calling functions of
other stores.

In the middle of a computation there are references in frames, too (`Machine.Orderly`), and some are
in flight between two steps of an instruction: `Yields` says what is known of those that a
computation answers.  A computation that keeps machines orderly whatever its answer is used for is
`Upright`.  This module is about the instructions that stay in the guest.
-/
namespace WasmEmbedding

open Wasm Engine

namespace Operand

/-- Not a function reference. -/
class Plain (x : Operand) : Prop where
  store? : x.store? = none

theorem belongsTo_eq_true {id : StoreId} {x : Operand} :
    x.belongsTo id = true ↔ ∀ r, x = .func (some r) → r.store = id := by
  unfold belongsTo Operand.store?
  split
  · rename_i t ht
    split at ht
    · cases ht
      constructor
      · rintro h _ ⟨⟩
        exact beq_iff_eq.mp h
      · exact fun h => beq_iff_eq.mpr (h _ rfl)
    · cases ht
  · rename_i ht
    refine iff_of_true rfl ?_
    rintro r rfl
    cases ht

theorem belongsTo_of_plain (id : StoreId) (x : Operand) [h : Plain x] : x.belongsTo id = true := by
  unfold belongsTo
  rw [h.store?]

instance (b : UInt32) : Plain (.i32 b) := ⟨rfl⟩

instance (b : UInt64) : Plain (.i64 b) := ⟨rfl⟩

instance (b : UInt32) : Plain (.f32 b) := ⟨rfl⟩

instance (b : UInt64) : Plain (.f64 b) := ⟨rfl⟩

instance (b : BitVec 128) : Plain (.v128 b) := ⟨rfl⟩

instance (b : Bool) : Plain (ofBool b) := ⟨rfl⟩

instance (w : Width) (b : BitVec w.bits) : Plain (ofInt w b) := by
  cases w <;> exact ⟨rfl⟩

instance (w : Width) (n : Nat) : Plain (ofFloat w n) := by
  cases w <;> exact ⟨rfl⟩

instance (s : Shape) (sign : Sign) (n : Nat) : Plain (ofLane s sign n) := by
  unfold ofLane
  split <;> infer_instance

instance (t : ValType) : Plain (zero t) := by
  cases t with
  | ref r =>
    change Plain (if r = .externRef then .external none else .func none)
    by_cases hr : r = .externRef
    · rw [if_pos hr]
      exact ⟨rfl⟩
    · rw [if_neg hr]
      exact ⟨rfl⟩
  | _ => exact ⟨rfl⟩

instance (a : Access) (s : Sign) (bytes : List UInt8) : Plain (a.ofBytes s bytes) := by
  unfold Access.ofBytes
  cases a with
  | narrow w l => cases s <;> infer_instance
  | _ => infer_instance

end Operand

open Operand

namespace Wasm

/-! ## Numbers and vectors are no references -/

theorem Conversion.plain_eval {c : Conversion} {x y : Operand} (h : c.eval x = .ok y) :
    Plain y := by
  unfold Conversion.eval at h
  split at h
  case h_4 =>
    dsimp only at h
    split at h
    · split at h
      · cases h
        infer_instance
      · cases ht : FloatBits.truncate _ _ _ _ with
        | ok b =>
          rw [ht] at h
          cases h
          infer_instance
        | error e =>
          rw [ht] at h
          cases h
    · cases h
  case h_5 =>
    split at h
    · cases h
      infer_instance
    · cases h
  all_goals
    cases h
    try infer_instance

theorem NumericOp.plain_eval₁ {op : NumericOp} {x y : Operand} (h : op.eval₁ x = .ok y) :
    Plain y := by
  unfold NumericOp.eval₁ at h
  split at h
  case h_4 => exact Conversion.plain_eval h
  case h_5 => cases h
  all_goals
    split at h
    · cases h
      infer_instance
    · cases h

theorem NumericOp.plain_eval₂ {op : NumericOp} {x y z : Operand} (h : op.eval₂ x y = .ok z) :
    Plain z := by
  unfold NumericOp.eval₂ at h
  split at h
  case h_1 =>
    split at h
    · split at h
      · cases h
        infer_instance
      · cases h
    · cases h
  case h_5 => cases h
  all_goals
    split at h
    · cases h
      infer_instance
    · cases h

theorem NumericOp.plain_eval {op : NumericOp} {xs : List Operand} {y : Operand}
    (h : op.eval xs = .ok y) : Plain y := by
  unfold NumericOp.eval at h
  split at h
  · exact plain_eval₁ h
  · exact plain_eval₂ h
  · cases h

theorem VectorOp.plain_eval {op : VectorOp} {xs : List Operand} {y : Operand}
    (h : op.eval xs = .ok y) : Plain y := by
  unfold VectorOp.eval at h
  split at h
  case h_1 =>
    split at h
    · cases h
      infer_instance
    · cases h
  case h_3 =>
    split at h
    · cases h
      infer_instance
    · cases h
  all_goals
    cases h
    try infer_instance

/-- A memory of the type has no more bytes at the start than a cap leaves room for. -/
def MemoryType.Fits (cap : Option Nat) (t : MemoryType) : Prop :=
  ∀ bytes, cap = some bytes → t.limits.min * pageBytes ≤ bytes

end Wasm

namespace Engine

/-! ## What is in rows -/

section Rows

variable {α : Type} {P : α → Prop} {xs : Array α}

theorem forall_mem_modify (h : ∀ x ∈ xs, P x) {f : α → α} (hf : ∀ x, P x → P (f x)) (i : Nat) :
    ∀ x ∈ xs.modify i f, P x := by
  intro x hx
  obtain ⟨j, hj⟩ := Array.mem_iff_getElem?.mp hx
  rw [Array.getElem?_modify] at hj
  split at hj
  · obtain ⟨y, hy, rfl⟩ := Option.map_eq_some_iff.mp hj
    exact hf y (h y (Array.mem_of_getElem? hy))
  · exact h x (Array.mem_of_getElem? hj)

theorem forall_mem_setIfInBounds (h : ∀ x ∈ xs, P x) (i : Nat) {y : α} (hy : P y) :
    ∀ x ∈ xs.setIfInBounds i y, P x := by
  intro x hx
  obtain ⟨j, hj⟩ := Array.mem_iff_getElem?.mp hx
  rw [Array.getElem?_setIfInBounds] at hj
  split at hj
  · split at hj
    · cases hj
      exact hy
    · cases hj
  · exact h x (Array.mem_of_getElem? hj)

theorem forall_mem_push (h : ∀ x ∈ xs, P x) {y : α} (hy : P y) : ∀ x ∈ xs.push y, P x := by
  intro x hx
  rcases Array.mem_push.mp hx with hx | rfl
  · exact h x hx
  · exact hy

theorem forall_mem_replicate {y : α} (hy : P y) (n : Nat) : ∀ x ∈ Array.replicate n y, P x :=
  fun _ hx => (Array.eq_of_mem_replicate hx) ▸ hy

theorem forall_mem_append {ys : Array α} (h : ∀ x ∈ xs, P x) (h' : ∀ x ∈ ys, P x) :
    ∀ x ∈ xs ++ ys, P x :=
  fun x hx => (Array.mem_append.mp hx).elim (h x) (h' x)

end Rows

/-! ## Orderly memories, stores and machines -/

namespace Memory

/-- The memory has no more bytes than a cap leaves room for. -/
def Fits (cap : Option Nat) (m : Memory) : Prop := ∀ bytes, cap = some bytes → m.size ≤ bytes

variable {cap : Option Nat} {m t : Memory}

theorem Fits.of_size (h : m.Fits cap) (ht : t.size = m.size) : t.Fits cap := by
  rwa [Fits, ht]

@[simp] theorem size_setRun (m : Memory) (address : Nat) (b : UInt8) (n : Nat) :
    (m.setRun address b n).size = m.size := by
  induction n generalizing m address with
  | zero => rfl
  | succ n ih => rw [setRun, ih, size_setByte]

theorem pageCount_append (m : Memory) (count : Nat) :
    (m.append count).pageCount = m.pageCount + count := by
  simp [append, pageCount]

theorem pageCount_zeros (count : Nat) (maximum : Option Nat) (shared : Bool) :
    (zeros count maximum shared).pageCount = count := Array.size_replicate

/-- A memory that grows fits if it has fitted. -/
theorem Fits.grow (h : m.Fits cap) {count : Nat} (ht : m.grow cap count = some t) :
    t.Fits cap := by
  unfold Memory.grow at ht
  split at ht
  · cases ht
    exact h
  · split at ht
    · rename_i hallows
      cases ht
      rintro bytes rfl
      have hcap : ((m.pageCount + count) * pageBytes ≤ bytes) :=
        of_decide_eq_true (Bool.and_eq_true_iff.mp hallows).2
      rw [← pageCount_append] at hcap
      exact hcap
    · cases ht

end Memory

/-- Every function reference in the store is one of its own, and no memory is too large. -/
structure Store.Orderly (id : StoreId) (cap : Option Nat) (s : Store) : Prop where
  identity : s.id = id
  memoryCap : s.memoryCap = cap
  tables : ∀ t ∈ s.tables, ∀ x ∈ t.items, x.belongsTo id = true
  globals : ∀ g ∈ s.globals, g.value.belongsTo id = true
  elements : ∀ xs ∈ s.elements, ∀ x ∈ xs, x.belongsTo id = true
  memories : ∀ m ∈ s.memories, m.Fits cap

/-- Every function reference in a frame belongs to the store. -/
structure Frame.Orderly (id : StoreId) (f : Frame) : Prop where
  locals : ∀ x ∈ f.locals, x.belongsTo id = true
  values : ∀ x ∈ f.values, x.belongsTo id = true
  labels : ∀ l ∈ f.labels, ∀ x ∈ l.below, x.belongsTo id = true

/-- Store and frames are orderly. -/
structure Machine.Orderly (id : StoreId) (cap : Option Nat) (m : Machine) : Prop where
  store : m.store.Orderly id cap
  frame : m.frame.Orderly id
  callers : ∀ f ∈ m.callers, f.Orderly id

/-- A frame without anything in it. -/
theorem Frame.orderly_empty (id : StoreId) : Frame.Orderly id {} :=
  ⟨fun _ hx => absurd hx (Array.not_mem_empty _), List.forall_mem_nil _, List.forall_mem_nil _⟩

/-- A machine that the host is about to use. -/
theorem Store.Orderly.idle {id : StoreId} {cap : Option Nat} {s : Store} (h : s.Orderly id cap)
    (host : Host) (budget : Option Nat) : (Machine.idle s host budget).Orderly id cap :=
  ⟨h, Frame.orderly_empty id, List.forall_mem_nil _⟩

variable {α β : Type} {id : StoreId} {cap : Option Nat} {P : α → Prop} {Q : β → Prop}

/-- From an orderly machine the computation comes to an orderly one, and what it answers satisfies
`P`. -/
def Yields (id : StoreId) (cap : Option Nat) (x : Exec α) (P : α → Prop) : Prop :=
  ∀ m, m.Orderly id cap → Post x m fun r t => t.Orderly id cap ∧ ∀ a, r = .ok a → P a

/-- A computation that keeps machines orderly. -/
class Upright (x : Exec α) : Prop where
  yields : ∀ id cap, Yields id cap x fun _ => True

namespace Yields

theorem mono {x : Exec α} (h : Yields id cap x P) {P' : α → Prop} (hP : ∀ a, P a → P' a) :
    Yields id cap x P' :=
  fun m hm => ⟨(h m hm).1, fun a ha => hP a ((h m hm).2 a ha)⟩

protected theorem pure {a : α} (h : P a) : Yields id cap (pure a) P := by
  refine fun m hm => ⟨hm, ?_⟩
  rintro _ ⟨⟩
  exact h

protected theorem throw (e : Stop) : Yields id cap (throw e : Exec α) P :=
  fun _ hm => ⟨hm, nofun⟩

protected theorem bind {x : Exec α} {f : α → Exec β} (hx : Yields id cap x P)
    (hf : ∀ a, P a → Yields id cap (f a) Q) : Yields id cap (x >>= f) Q := by
  refine fun m hm => Post.bind (fun a t ht => ?_) fun e t ht => ?_
  · obtain ⟨hmt, ha⟩ := (hx m hm).ok ht
    exact hf a (ha a rfl) t hmt
  · exact ⟨((hx m hm).error ht).1, nofun⟩

/-- The answer does not matter. -/
theorem seq {x : Exec α} {f : α → Exec β} [hx : Upright x] (hf : ∀ a, Yields id cap (f a) Q) :
    Yields id cap (x >>= f) Q :=
  (hx.yields id cap).bind fun a _ => hf a

/-- Looking at an orderly machine. -/
protected theorem get {f : Machine → Exec β}
    (h : ∀ m, m.Orderly id cap → Yields id cap (f m) Q) : Yields id cap (get >>= f) Q :=
  fun m hm => h m hm m hm

protected theorem modify {f : Machine → Machine}
    (h : ∀ m, m.Orderly id cap → (f m).Orderly id cap) :
    Yields id cap (modify f : Exec PUnit) fun _ => True :=
  fun m hm => ⟨h m hm, fun _ _ => trivial⟩

theorem ofOption {o : Option α} (h : ∀ a, o = some a → P a) :
    Yields id cap (Exec.ofOption o) P := by
  cases o with
  | none => exact Yields.throw _
  | some a => exact Yields.pure (h a rfl)

theorem ofFault {r : Except Fault α} (h : ∀ a, r = .ok a → P a) :
    Yields id cap (Exec.ofFault r) P := by
  cases r with
  | ok a => exact Yields.pure (h a rfl)
  | error e => cases e <;> exact Yields.throw _

theorem ite {c : Prop} [Decidable c] {x y : Exec α} (hx : Yields id cap x P)
    (hy : Yields id cap y P) : Yields id cap (if c then x else y) P := by
  split
  · exact hx
  · exact hy

end Yields

namespace Upright

instance pure (a : α) : Upright (pure a : Exec α) := ⟨fun _ _ => Yields.pure trivial⟩

instance throw (e : Stop) : Upright (throw e : Exec α) := ⟨fun _ _ => Yields.throw e⟩

instance bind (x : Exec α) (f : α → Exec β) [hx : Upright x] [hf : ∀ a, Upright (f a)] :
    Upright (x >>= f) :=
  ⟨fun id cap => Yields.seq fun a => (hf a).yields id cap⟩

theorem seq {x : Exec α} {f : α → Exec β} (hx : Upright x) (hf : ∀ a, Upright (f a)) :
    Upright (x >>= f) :=
  bind x f

protected theorem get {f : Machine → Exec β} (hf : ∀ m, Upright (f m)) : Upright (get >>= f) :=
  ⟨fun id cap => Yields.get fun m _ => (hf m).yields id cap⟩

protected theorem modify {f : Machine → Machine}
    (h : ∀ id cap m, m.Orderly id cap → (f m).Orderly id cap) :
    Upright (modify f : Exec PUnit) :=
  ⟨fun id cap => Yields.modify (h id cap)⟩

instance ite (c : Prop) [Decidable c] (x y : Exec α) [Upright x] [Upright y] :
    Upright (if c then x else y) := by
  split <;> infer_instance

end Upright

namespace Exec

/-! ## Machines -/

theorem yields_modifyFrame {f : Frame → Frame}
    (h : ∀ frame : Frame, frame.Orderly id → (f frame).Orderly id) :
    Yields id cap (modifyFrame f) fun _ => True :=
  Yields.modify fun m hm => { hm with frame := h m.frame hm.frame }

theorem upright_modifyFrame {f : Frame → Frame}
    (h : ∀ id, ∀ frame : Frame, frame.Orderly id → (f frame).Orderly id) :
    Upright (modifyFrame f) :=
  ⟨fun id _ => yields_modifyFrame (h id)⟩

theorem yields_modifyStore {f : Store → Store}
    (h : ∀ s : Store, s.Orderly id cap → (f s).Orderly id cap) :
    Yields id cap (modifyStore f) fun _ => True :=
  Yields.modify fun m hm => { hm with store := h m.store hm.store }

theorem upright_modifyStore {f : Store → Store}
    (h : ∀ id cap, ∀ s : Store, s.Orderly id cap → (f s).Orderly id cap) :
    Upright (modifyStore f) :=
  ⟨fun id cap => yields_modifyStore (h id cap)⟩

instance (code : TrapCode) : Upright (trap code : Exec α) := inferInstanceAs (Upright (throw _))

instance : Upright (stuck : Exec α) := inferInstanceAs (Upright (throw _))

instance (a : Option α) : Upright (ofOption a) := ⟨fun _ _ => Yields.ofOption fun _ _ => trivial⟩

theorem yields_push {x : Operand} (hx : x.belongsTo id = true) :
    Yields id cap (push x) fun _ => True :=
  yields_modifyFrame fun _ hf => { hf with values := List.forall_mem_cons.mpr ⟨hx, hf.values⟩ }

instance (x : Operand) [Plain x] : Upright (push x) :=
  ⟨fun id _ => yields_push (x.belongsTo_of_plain id)⟩

theorem yields_pushMany {xs : List Operand} (hxs : ∀ x ∈ xs, x.belongsTo id = true) :
    Yields id cap (pushMany xs) fun _ => True := by
  refine yields_modifyFrame fun _ hf => { hf with values := fun x hx => ?_ }
  exact (List.mem_append.mp hx).elim (fun hx => hxs x (List.mem_reverse.mp hx)) (hf.values x)

theorem yields_pop : Yields id cap pop fun x => x.belongsTo id = true := by
  refine Yields.get fun m hm => ?_
  split
  · rename_i x rest hvalues
    have hall : ∀ y ∈ x :: rest, y.belongsTo id = true := hvalues ▸ hm.frame.values
    obtain ⟨hx, hrest⟩ := List.forall_mem_cons.mp hall
    have popped : Yields id cap (modifyFrame fun f => { f with values := rest }) fun _ => True :=
      yields_modifyFrame fun _ hf => { hf with values := hrest }
    exact popped.bind fun _ _ => Yields.pure hx
  · exact Yields.throw _

instance : Upright pop := ⟨fun _ _ => yields_pop.mono fun _ _ => trivial⟩

instance : Upright popWord := by
  refine .seq inferInstance fun x => ?_
  split <;> infer_instance

instance : Upright popVector := by
  refine .seq inferInstance fun x => ?_
  split <;> infer_instance

theorem yields_popMany (n : Nat) :
    Yields id cap (popMany n) fun xs => ∀ x ∈ xs, x.belongsTo id = true := by
  refine Yields.get fun m hm => ?_
  dsimp only
  split
  · have hdrop : ∀ x ∈ m.frame.values.drop n, x.belongsTo id = true :=
      fun x hx => hm.frame.values x (List.mem_of_mem_drop hx)
    have popped : Yields id cap (modifyFrame fun f => { f with values := m.frame.values.drop n })
        fun _ => True :=
      yields_modifyFrame fun _ hf => { hf with values := hdrop }
    refine popped.bind fun _ _ => Yields.pure fun x hx => ?_
    exact hm.frame.values x (List.mem_of_mem_take (List.mem_reverse.mp hx))
  · exact Yields.throw _

instance (n : Nat) : Upright (popMany n) := ⟨fun _ _ => (yields_popMany n).mono fun _ _ => trivial⟩

instance : Upright home := .get fun _ => inferInstance

instance (i : Nat) : Upright (functionAddress i) := .seq inferInstance fun _ => inferInstance

instance (i : Nat) : Upright (tableAddress i) := .seq inferInstance fun _ => inferInstance

instance (i : Nat) : Upright (memoryAddress i) := .seq inferInstance fun _ => inferInstance

instance (i : Nat) : Upright (globalAddress i) := .seq inferInstance fun _ => inferInstance

theorem yields_table (address : Nat) :
    Yields id cap (table address) fun t => ∀ x ∈ t.items, x.belongsTo id = true :=
  Yields.get fun _ hm => Yields.ofOption fun t ht => hm.store.tables t (Array.mem_of_getElem? ht)

instance (address : Nat) : Upright (table address) :=
  ⟨fun _ _ => (yields_table address).mono fun _ _ => trivial⟩

theorem yields_modifyTable {f : Table → Table}
    (h : ∀ t : Table, (∀ x ∈ t.items, x.belongsTo id = true) →
      ∀ x ∈ (f t).items, x.belongsTo id = true) (address : Nat) :
    Yields id cap (modifyTable address f) fun _ => True :=
  yields_modifyStore fun _ hs => { hs with tables := forall_mem_modify hs.tables h address }

theorem yields_modifyMemory {f : Memory → Memory}
    (h : ∀ memory : Memory, memory.Fits cap → (f memory).Fits cap) (address : Nat) :
    Yields id cap (modifyMemory address f) fun _ => True :=
  yields_modifyStore fun _ hs => { hs with memories := forall_mem_modify hs.memories h address }

/-- A memory changes, but not in size. -/
theorem upright_modifyMemory {f : Memory → Memory} (h : ∀ memory, (f memory).size = memory.size)
    (address : Nat) : Upright (modifyMemory address f) :=
  ⟨fun _ _ => yields_modifyMemory (fun memory hm => hm.of_size (h memory)) address⟩

instance (address start count : Nat) : Upright (checkBytes address start count) := by
  refine .get fun m => ?_
  split
  · infer_instance
  · infer_instance

instance (address start count : Nat) : Upright (readBytes address start count) := by
  refine .get fun m => ?_
  split
  · split <;> infer_instance
  · infer_instance

instance (address start : Nat) (bytes : List UInt8) : Upright (writeBytes address start bytes) :=
  .seq inferInstance fun _ => upright_modifyMemory (fun m => m.size_setBytes start bytes) address

/-! ## Loads and stores -/

instance : Upright popNumber := by
  refine .seq inferInstance fun x => ?_
  split <;> infer_instance

instance (a : Access) (n : Nat) : Upright (pushNumber a n) := inferInstanceAs (Upright (push _))

instance (arg : MemArg) : Upright (popAddress arg) := .seq inferInstance fun _ => inferInstance

instance (address bytes : Nat) : Upright (checkAligned address bytes) :=
  inferInstanceAs (Upright (ite _ _ _))

instance (arg : MemArg) (bytes : Nat) : Upright (popAligned arg bytes) :=
  .seq inferInstance fun _ => inferInstance

instance (memory address : Nat) (a : Access) (f : Nat → Nat) :
    Upright (replaceNumber memory address a f) :=
  .seq inferInstance fun _ => inferInstance

instance (op : AtomicOp) (arg : MemArg) : Upright (atomic op arg) := by
  refine .seq inferInstance fun memory => ?_
  cases op with
  | notify => infer_instance
  | wait w =>
    refine .seq inferInstance fun _ => .seq inferInstance fun _ => .seq inferInstance fun _ => ?_
    split
    · exact .seq inferInstance fun _ => .get fun _ => inferInstance
    · exact .get fun _ => inferInstance
  | load a => infer_instance
  | store a => infer_instance
  | update op a => infer_instance
  | compareExchange a => infer_instance

instance (op : MemoryOp) (arg : MemArg) : Upright (access op arg) := by
  cases op <;> (unfold access; infer_instance)

instance (m : LaneMove) (l : Lane) (arg : MemArg) (lane : Nat) :
    Upright (moveLane m l arg lane) := by
  cases m <;> (unfold moveLane; infer_instance)

/-! ## Whole runs of bytes and references -/

instance : Plain refused := inferInstanceAs (Plain (.i32 _))

instance : Upright popThree := inferInstanceAs (Upright (_ >>= _))

instance (i : Nat) : Upright (memorySize i) := .get fun _ => inferInstance

/-- A memory grows within the cap of its store. -/
instance (i : Nat) : Upright (memoryGrow i) := by
  refine .seq inferInstance fun count => .seq inferInstance fun address => ⟨fun id cap => ?_⟩
  refine Yields.get fun m hm => ?_
  refine (Yields.ofOption fun memory hmemory =>
    hm.store.memories memory (Array.mem_of_getElem? hmemory)).bind fun memory hfits => ?_
  rw [hm.store.memoryCap]
  split
  · rename_i grown hgrown
    have hfits : grown.Fits cap := hfits.grow hgrown
    exact (yields_modifyMemory (fun _ _ => hfits) address).bind fun _ _ =>
      yields_push (belongsTo_of_plain id _)
  · exact yields_push (belongsTo_of_plain id _)

instance (i : Nat) : Upright (memoryFill i) :=
  .seq inferInstance fun _ => .seq inferInstance fun address => .seq inferInstance fun _ =>
    upright_modifyMemory (fun m => m.size_setRun _ _ _) address

instance (i j : Nat) : Upright (memoryCopy i j) := .seq inferInstance fun _ => inferInstance

instance (i : Nat) : Upright (data i) :=
  .seq inferInstance fun _ => .seq inferInstance fun _ => .get fun _ => inferInstance

instance (segment i : Nat) : Upright (memoryInit segment i) := by
  refine .seq inferInstance fun _ => .seq inferInstance fun _ => ?_
  split <;> infer_instance

instance (segment : Nat) : Upright (dataDrop segment) :=
  .seq inferInstance fun _ => upright_modifyStore fun _ _ _ hs => { hs with }

instance (i : Nat) : Upright (tableGet i) := by
  refine .seq inferInstance fun address => ⟨fun id cap => ?_⟩
  refine (yields_table address).bind fun t ht => Yields.seq fun index => ?_
  split
  · rename_i x hx
    exact yields_push (ht x (Array.mem_of_getElem? hx))
  · exact Yields.throw _

instance (address start count : Nat) : Upright (checkItems address start count) :=
  .seq inferInstance fun _ => inferInstance

theorem forall_mem_setItems {xs : List Operand} (hxs : ∀ x ∈ xs, x.belongsTo id = true) :
    ∀ {t : Table} (start : Nat), (∀ x ∈ t.items, x.belongsTo id = true) →
      ∀ x ∈ (t.setItems start xs).items, x.belongsTo id = true := by
  induction xs with
  | nil => exact fun _ ht => ht
  | cons x rest ih =>
    obtain ⟨hx, hrest⟩ := List.forall_mem_cons.mp hxs
    exact fun start ht => ih hrest (start + 1) (forall_mem_setIfInBounds ht start hx)

theorem yields_writeItems (address start : Nat) {items : List Operand}
    (h : ∀ x ∈ items, x.belongsTo id = true) :
    Yields id cap (writeItems address start items) fun _ => True :=
  Yields.seq fun _ => yields_modifyTable (fun _ => forall_mem_setItems h start) address

instance (i : Nat) : Upright (tableSet i) :=
  ⟨fun _ _ => yields_pop.bind fun _ hx => Yields.seq fun _ => Yields.seq fun _ =>
    yields_writeItems _ _ (List.forall_mem_singleton.mpr hx)⟩

instance (i : Nat) : Upright (tableSize i) := inferInstanceAs (Upright (_ >>= _))

instance (i : Nat) : Upright (tableGrow i) := by
  refine .seq inferInstance fun count => ⟨fun id cap => ?_⟩
  refine yields_pop.bind fun x hx => Yields.seq fun address => ?_
  refine (yields_table address).bind fun t ht => ?_
  split
  · rename_i grown hgrown
    have hitems : ∀ x ∈ grown.items, x.belongsTo id = true := by
      unfold Table.grow at hgrown
      dsimp only at hgrown
      split at hgrown
      · cases hgrown
        refine forall_mem_append ht ?_
        exact forall_mem_replicate (P := fun x : Operand => x.belongsTo id = true) hx _
      · cases hgrown
    exact (yields_modifyTable (fun _ _ => hitems) address).bind fun _ _ =>
      yields_push (belongsTo_of_plain id _)
  · exact yields_push (belongsTo_of_plain id _)

instance (i : Nat) : Upright (tableFill i) := by
  refine .seq inferInstance fun count => ⟨fun id cap => ?_⟩
  refine yields_pop.bind fun x hx => Yields.seq fun start => Yields.seq fun address => ?_
  refine Yields.seq fun _ =>
    yields_modifyTable (fun _ => forall_mem_setItems ?_ start.toNat) address
  exact fun y hy => (List.eq_of_mem_replicate hy) ▸ hx

instance (i j : Nat) : Upright (tableCopy i j) := by
  refine .seq inferInstance fun r => .seq inferInstance fun address => ⟨fun id cap => ?_⟩
  refine (yields_table address).bind fun t ht => ?_
  refine Yields.ite (Yields.seq fun target => yields_writeItems target _ fun x hx => ?_)
    (Yields.throw _)
  have hx := Array.mem_toList_iff.mp hx
  obtain ⟨k, hk⟩ := Array.mem_iff_getElem?.mp hx
  rw [Array.getElem?_extract] at hk
  split at hk
  · exact ht x (Array.mem_of_getElem? hk)
  · cases hk

theorem yields_element (i : Nat) :
    Yields id cap (element i) fun r => ∀ x ∈ r.2, x.belongsTo id = true :=
  Yields.seq fun _ => Yields.seq fun _ => Yields.get fun _ hm =>
    (Yields.ofOption fun items hitems =>
      hm.store.elements items (Array.mem_of_getElem? hitems)).bind fun _ h => Yields.pure h

instance (i : Nat) : Upright (element i) := ⟨fun _ _ => (yields_element i).mono fun _ _ => trivial⟩

instance (segment i : Nat) : Upright (tableInit segment i) := by
  refine .seq inferInstance fun r => ⟨fun id cap => ?_⟩
  refine (yields_element segment).bind fun e he => ?_
  split
  · rename_i items hitems
    unfold slice? at hitems
    split at hitems
    · cases hitems
      exact Yields.seq fun address => yields_writeItems address _ fun _ hx =>
        he _ (List.mem_of_mem_drop (List.mem_of_mem_take hx))
    · cases hitems
  · exact Yields.throw _

theorem Store.Orderly.dropElement {s : Store} (h : s.Orderly id cap) (segment : Nat) :
    Store.Orderly id cap { s with elements := s.elements.setIfInBounds segment [] } :=
  { h with elements := forall_mem_setIfInBounds h.elements segment (List.forall_mem_nil _) }

instance (segment : Nat) : Upright (elemDrop segment) :=
  .seq inferInstance fun r => upright_modifyStore fun _ _ _ hs =>
    Store.Orderly.dropElement hs r.1

/-! ## Instructions that go on to the next one -/

instance (o : Op) : Upright (op o) := by
  cases o with
  | select =>
    refine .seq inferInstance fun condition => ⟨fun id cap => ?_⟩
    refine yields_pop.bind fun b hb => yields_pop.bind fun a ha => yields_push ?_
    split
    · exact hb
    · exact ha
  | const x =>
    unfold op
    cases x <;> infer_instance
  | numeric o =>
    refine .seq inferInstance fun xs => ⟨fun id cap => ?_⟩
    exact (Yields.ofFault fun _ hx => NumericOp.plain_eval hx).bind fun x _ =>
      yields_push (x.belongsTo_of_plain id)
  | vector o =>
    refine .seq inferInstance fun xs => ⟨fun id cap => ?_⟩
    exact (Yields.ofFault fun _ hx => VectorOp.plain_eval hx).bind fun x _ =>
      yields_push (x.belongsTo_of_plain id)
  | localGet i =>
    refine ⟨fun id cap => Yields.get fun m hm => ?_⟩
    exact (Yields.ofOption fun x hx => hm.frame.locals x (Array.mem_of_getElem? hx)).bind
      fun _ hx => yields_push hx
  | localSet i =>
    refine ⟨fun id cap => yields_pop.bind fun x hx => yields_modifyFrame fun _ hf => ?_⟩
    exact { hf with locals := forall_mem_setIfInBounds hf.locals i hx }
  | localTee i =>
    refine ⟨fun id cap => yields_pop.bind fun x hx => (yields_push hx).bind fun _ _ => ?_⟩
    exact yields_modifyFrame fun _ hf =>
      { hf with locals := forall_mem_setIfInBounds hf.locals i hx }
  | globalGet i =>
    refine ⟨fun id cap => Yields.get fun m hm => Yields.seq fun address => ?_⟩
    exact (Yields.ofOption fun g hg => hm.store.globals g (Array.mem_of_getElem? hg)).bind
      fun _ hg => yields_push hg
  | globalSet i =>
    refine ⟨fun id cap => yields_pop.bind fun x hx => Yields.seq fun address => ?_⟩
    refine yields_modifyStore fun _ hs => { hs with globals := ?_ }
    exact forall_mem_modify (f := fun g => { g with value := x }) hs.globals (fun _ _ => hx) address
  | refIsNull =>
    refine .seq inferInstance fun x => ?_
    split <;> infer_instance
  | refFunc i =>
    refine .seq inferInstance fun address => ⟨fun id cap => Yields.get fun m hm => ?_⟩
    refine yields_push (belongsTo_eq_true.mpr ?_)
    rintro _ ⟨⟩
    exact hm.store.identity
  | _ => unfold op; infer_instance

/-! ## Frames and blocks -/

instance : Upright settle := .modify fun _ _ _ hm => { hm with }

instance : Upright checkFuel := by
  refine .get fun m => ?_
  split <;> infer_instance

theorem forall_mem_localsOf (body : FunctionBody) {args : List Operand}
    (h : ∀ x ∈ args, x.belongsTo id = true) : ∀ x ∈ localsOf body args, x.belongsTo id = true := by
  unfold localsOf
  have hargs : ∀ x ∈ args.toArray, x.belongsTo id = true := fun x hx => h x (List.mem_toArray.mp hx)
  generalize args.toArray = locals at hargs
  induction body.locals generalizing locals with
  | nil => exact hargs
  | cons l rest ih =>
    refine ih _ (forall_mem_append hargs ?_)
    have hzero : (Operand.zero l.2).belongsTo id = true := belongsTo_of_plain id _
    exact forall_mem_replicate (P := fun x : Operand => x.belongsTo id = true) hzero _

/-- Entering a body with references of the store, where the frames that wait for it are orderly. -/
theorem yields_start (home : Nat) (type : FuncType) (body : FunctionBody) {args : List Operand}
    {callers : Machine → List Frame × Nat} (hargs : ∀ x ∈ args, x.belongsTo id = true)
    (hcallers : ∀ m, m.Orderly id cap → ∀ f ∈ (callers m).1, f.Orderly id) :
    Yields id cap (start home type body args callers) fun _ => True := by
  refine Yields.get fun m _ => ?_
  have entered : Yields id cap (modify fun m : Machine =>
      { m with
        frame :=
          { home := some home, arity := type.results.length, locals := localsOf body args
            code := body.code }
        callers := (callers m).1
        depth := (callers m).2
        meter := m.meter.charge 1 } : Exec PUnit) fun _ => True :=
    Yields.modify fun m hm =>
      ⟨hm.store, ⟨forall_mem_localsOf body hargs, List.forall_mem_nil _, List.forall_mem_nil _⟩,
        hcallers m hm⟩
  split
  · exact Yields.throw _
  · exact entered.bind fun _ _ => Upright.yields id cap

instance : Upright leave := by
  rw [leave_eq]
  refine .seq inferInstance fun _ => .modify fun id cap m hm => ?_
  obtain ⟨store, host, meter, frame, callers, depth⟩ := m
  cases callers with
  | nil => exact ⟨hm.store, ⟨hm.frame.locals, hm.frame.values, List.forall_mem_nil _⟩, hm.callers⟩
  | cons caller callers =>
    obtain ⟨hcaller, hcallers⟩ := List.forall_mem_cons.mp hm.callers
    refine ⟨hm.store, { hcaller with values := fun x hx => ?_ }, hcallers⟩
    exact (List.mem_append.mp hx).elim (fun hx => hm.frame.values x (List.mem_of_mem_take hx))
      (hcaller.values x)

theorem yields_arguments (address : Nat) :
    Yields id cap (arguments address) fun xs => ∀ x ∈ xs, x.belongsTo id = true :=
  Yields.get fun _ _ => Yields.seq fun _ => yields_popMany _

instance (type table : Nat) : Upright (indirect type table) := by
  refine .seq inferInstance fun index => .seq inferInstance fun address => ?_
  refine .seq inferInstance fun t => ?_
  split
  · infer_instance
  · exact .seq inferInstance fun home => .seq inferInstance fun expected => .get fun _ =>
      inferInstance
  · infer_instance
  · infer_instance

instance (type : BlockType) : Upright (blockArity type) := by
  cases type <;> (unfold blockArity; infer_instance)

instance (params arity : Nat) (again : Option (List Instr)) (body : List Instr) :
    Upright (enter params arity again body) := by
  refine upright_modifyFrame fun id f hf => ⟨hf.locals, fun x hx => ?_, ?_⟩
  · exact hf.values x (List.mem_of_mem_take hx)
  · refine List.forall_mem_cons.mpr ⟨fun x hx => ?_, hf.labels⟩
    exact hf.values x (List.mem_of_mem_drop hx)

instance (l : Nat) : Upright (branch l) := by
  refine ⟨fun id cap => Yields.get fun m hm => ?_⟩
  dsimp only
  split
  · exact Upright.yields id cap
  · rename_i label outer hlabels
    have hall : ∀ k ∈ label :: outer, ∀ x ∈ k.below, x.belongsTo id = true := by
      rw [← hlabels]
      exact fun k hk => hm.frame.labels k (List.mem_of_mem_drop hk)
    obtain ⟨hbelow, houter⟩ := List.forall_mem_cons.mp hall
    have hcarried : ∀ x ∈ m.frame.values.take label.arity, x.belongsTo id = true :=
      fun x hx => hm.frame.values x (List.mem_of_mem_take hx)
    split
    · refine (yields_modifyFrame fun f hf => ?_).bind fun _ _ => Upright.yields id cap
      exact ⟨hf.locals, hcarried, hall⟩
    · refine yields_modifyFrame fun f hf => ⟨hf.locals, fun x hx => ?_, houter⟩
      exact (List.mem_append.mp hx).elim (hcarried x) (hbelow x)

/-- A block ends with labels and operands that have been there. -/
theorem yields_endBlock {label : Label} {outer : List Label}
    (h : ∀ k ∈ label :: outer, ∀ x ∈ k.below, x.belongsTo id = true) :
    Yields id cap (endBlock label outer) fun _ => True := by
  obtain ⟨hbelow, houter⟩ := List.forall_mem_cons.mp h
  refine yields_modifyFrame fun f hf => ⟨hf.locals, fun x hx => ?_, houter⟩
  exact (List.mem_append.mp hx).elim (hf.values x) (hbelow x)

end Exec

end Engine

end WasmEmbedding
