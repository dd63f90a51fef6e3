import WasmEmbedding.Proofs.Engine.Boundary
import WasmEmbedding.Proofs.Engine.Layout

/-! # The memory of a caller

A host function is lent the memory that its caller exports, unless it is shared
(`Machine.hostMemory?`).  Reading is all or nothing and changes nothing (`Machine.Reads`); writing
is all or nothing and changes the bytes that are written and no others (`Machine.Writes`).  Offset
and length are numbers of 32 bits, and their sum is taken as a number, so that a range does not wrap
around the end of the memory.

A body goes on after an access that does not fit, and may read what it has written.  So one access
is not enough.  The accesses of a body are read off a chronicle of it (`BodyRun.accesses`), each
with the machine that it has found.  After some of them the memory is what they have made of it one
after the other (`BodyRun.follows`), and so at every address there is the byte of the last write
that fits and reaches it, or what has been there before (`Memory.leftBy_afterAll`).  The last write
is found by going back through the accesses (`HostAccess.last?`), without looking at the memory in
between, which is what makes the statement one about the memory and not a repetition of how it is
changed.
-/
namespace WasmEmbedding.Engine

open Chronicle Host Wasm

/-! ## Accesses -/

/-- An access of a host function to the memory of its caller. -/
inductive HostAccess where
  | read (offset length : UInt32)
  | write (offset : UInt32) (bytes : List UInt8)
  deriving DecidableEq, Repr

/-- The byte that an access puts at an address of a memory of a size. -/
def HostAccess.byte? (size i : Nat) : HostAccess → Option UInt8
  | .read _ _ => none
  | .write offset bytes =>
    if offset.toNat + bytes.length ≤ size ∧ offset.toNat ≤ i then bytes[i - offset.toNat]? else none

/-- The byte that the last one of some accesses to put one there has put at an address. -/
def HostAccess.last? (size : Nat) (past : List HostAccess) (i : Nat) : Option UInt8 :=
  past.reverse.findSome? (byte? size i)

namespace HostAccess

theorem byte?_write {size i : Nat} {offset : UInt32} {bytes : List UInt8}
    (fits : offset.toNat + bytes.length ≤ size) (reached : offset.toNat ≤ i) :
    byte? size i (.write offset bytes) = bytes[i - offset.toNat]? :=
  if_pos ⟨fits, reached⟩

theorem byte?_write_eq_none {size i : Nat} {offset : UInt32} {bytes : List UInt8}
    (h : size < offset.toNat + bytes.length ∨ i < offset.toNat) :
    byte? size i (.write offset bytes) = none :=
  if_neg (by omega)

theorem last?_singleton (size : Nat) (a : HostAccess) (i : Nat) :
    last? size [a] i = byte? size i a := by
  simp [last?]

theorem last?_append (size : Nat) (past later : List HostAccess) (i : Nat) :
    last? size (past ++ later) i = (last? size later i).or (last? size past i) := by
  rw [last?, List.reverse_append, List.findSome?_append]
  rfl

end HostAccess

namespace Memory

variable {m t u : Memory}

@[simp] theorem maximum_setBytes (m : Memory) (address : Nat) (bytes : List UInt8) :
    (m.setBytes address bytes).maximum = m.maximum := by
  induction bytes generalizing m address with
  | nil => rfl
  | cons b bytes ih => exact ih _ _

@[simp] theorem shared_setBytes (m : Memory) (address : Nat) (bytes : List UInt8) :
    (m.setBytes address bytes).shared = m.shared := by
  induction bytes generalizing m address with
  | nil => rfl
  | cons b bytes ih => exact ih _ _

/-- Bytes have taken the place of those from an address on, and nothing else has changed. -/
structure Written (m : Memory) (start : Nat) (bytes : List UInt8) (t : Memory) : Prop where
  size : t.size = m.size
  maximum : t.maximum = m.maximum
  shared : t.shared = m.shared
  inside : ∀ i (h : i < bytes.length), t.byteAt (start + i) = bytes[i]
  beside : ∀ i, i < start ∨ start + bytes.length ≤ i → t.byteAt i = m.byteAt i

theorem written_setBytes {start : Nat} {bytes : List UInt8} (h : start + bytes.length ≤ m.size) :
    m.Written start bytes (m.setBytes start bytes) where
  size := size_setBytes m start bytes
  maximum := maximum_setBytes m start bytes
  shared := shared_setBytes m start bytes
  inside _ hi := byteAt_setBytes h hi
  beside _ hi := byteAt_setBytes_of_apart h hi

/-- What an access makes of a memory. -/
def after (m : Memory) : HostAccess → Memory
  | .read _ _ => m
  | .write offset bytes => (m.write offset.toNat bytes).getD m

/-- What accesses make of a memory, one after the other. -/
def afterAll (m : Memory) (past : List HostAccess) : Memory := past.foldl after m

theorem afterAll_append (m : Memory) (past later : List HostAccess) :
    m.afterAll (past ++ later) = (m.afterAll past).afterAll later :=
  List.foldl_append

theorem after_write {offset : UInt32} {bytes : List UInt8}
    (h : offset.toNat + bytes.length ≤ m.size) :
    m.after (.write offset bytes) = m.setBytes offset.toNat bytes := by
  rw [after, write_eq_some h, Option.getD_some]

/-- A write that does not fit is none. -/
theorem write_eq_none {offset : UInt32} {bytes : List UInt8}
    (h : m.size < offset.toNat + bytes.length) : m.write offset.toNat bytes = none := by
  rw [write, covers, if_neg (by simp [Nat.not_le.mpr h])]

/-- The bytes of `t` are those of `m` and of accesses, the later ones over the earlier ones. -/
structure LeftBy (m : Memory) (past : List HostAccess) (t : Memory) : Prop where
  size : t.size = m.size
  maximum : t.maximum = m.maximum
  shared : t.shared = m.shared
  bytes : ∀ i, t.byteAt i = (HostAccess.last? m.size past i).getD (m.byteAt i)

theorem leftBy_nil (m : Memory) : m.LeftBy [] m := ⟨rfl, rfl, rfl, fun _ => rfl⟩

/-- Bytes that are written stand over those that have been there. -/
theorem Written.byteAt_eq {start : Nat} {bytes : List UInt8} (h : m.Written start bytes t) {i : Nat}
    (hi : start ≤ i) : t.byteAt i = bytes[i - start]?.getD (m.byteAt i) := by
  by_cases within : i - start < bytes.length
  · rw [List.getElem?_eq_getElem within, Option.getD_some, ← h.inside _ within,
      Nat.add_sub_cancel' hi]
  · rw [List.getElem?_eq_none (Nat.not_lt.mp within), Option.getD_none]
    exact h.beside i (by omega)

/-- One access puts its bytes over those that are there. -/
theorem leftBy_after (m : Memory) (a : HostAccess) : m.LeftBy [a] (m.after a) := by
  cases a with
  | read offset length => exact ⟨rfl, rfl, rfl, fun _ => rfl⟩
  | write offset bytes =>
    by_cases fits : offset.toNat + bytes.length ≤ m.size
    · rw [after_write fits]
      have written := written_setBytes fits
      refine ⟨written.size, written.maximum, written.shared, fun i => ?_⟩
      rw [HostAccess.last?_singleton]
      by_cases reached : offset.toNat ≤ i
      · rw [HostAccess.byte?_write fits reached]
        exact written.byteAt_eq reached
      · rw [HostAccess.byte?_write_eq_none (.inr (Nat.lt_of_not_le reached))]
        exact written.beside i (.inl (Nat.lt_of_not_le reached))
    · rw [after, write_eq_none (Nat.lt_of_not_le fits)]
      refine ⟨rfl, rfl, rfl, fun i => ?_⟩
      rw [HostAccess.last?_singleton, HostAccess.byte?_write_eq_none (.inl (Nat.lt_of_not_le fits))]
      rfl

theorem LeftBy.trans {past later : List HostAccess} (h : m.LeftBy past t)
    (h' : t.LeftBy later u) : m.LeftBy (past ++ later) u where
  size := h'.size.trans h.size
  maximum := h'.maximum.trans h.maximum
  shared := h'.shared.trans h.shared
  bytes i := by rw [h'.bytes, h.bytes, h.size, HostAccess.last?_append, Option.getD_or]

/-- **Of several accesses the last one that reaches an address decides what is there.** -/
theorem leftBy_afterAll (m : Memory) (past : List HostAccess) :
    m.LeftBy past (m.afterAll past) := by
  induction past generalizing m with
  | nil => exact m.leftBy_nil
  | cons a past ih => exact (m.leftBy_after a).trans (ih (m.after a))

end Memory

/-! ## One access -/

/-- The memory that the caller of a host function lends it, with its address: the one that it
exports, unless it is shared. -/
def Machine.hostMemory? (m : Machine) : Option (Nat × Memory) :=
  (m.frame.home.bind m.store.callerMemory?).bind fun address =>
    m.store.memories[address]?.bind fun memory =>
      if memory.shared then none else some (address, memory)

variable {m t u : Machine} {address : Nat} {memory : Memory}

theorem Machine.hostMemory?_eq_some : m.hostMemory? = some (address, memory) ↔
    m.frame.home.bind m.store.callerMemory? = some address ∧
      m.store.memories[address]? = some memory ∧ memory.shared = false := by
  rw [hostMemory?, Option.bind_eq_some_iff]
  constructor
  · rintro ⟨a, exported, h⟩
    obtain ⟨x, there, h⟩ := Option.bind_eq_some_iff.mp h
    cases hshared : x.shared with
    | true =>
      rw [hshared] at h
      cases h
    | false =>
      rw [hshared] at h
      cases h
      exact ⟨exported, there, hshared⟩
  · rintro ⟨exported, there, unshared⟩
    refine ⟨address, exported, Option.bind_eq_some_iff.mpr ⟨memory, there, ?_⟩⟩
    rw [unshared]
    rfl

/-- Reading the memory of the caller, all or nothing. -/
structure Machine.Reads (m : Machine) (offset length : UInt32) : Prop where
  absent : m.hostMemory? = none →
    EStateM.run (Exec.hostRead offset length) m = .ok (.error Exec.noMemory) m
  outside : ∀ address memory, m.hostMemory? = some (address, memory) →
    memory.size < offset.toNat + length.toNat →
    EStateM.run (Exec.hostRead offset length) m =
      .ok (.error (Exec.outOfBounds "read" length.toNat offset)) m
  inside : ∀ address memory, m.hostMemory? = some (address, memory) →
    offset.toNat + length.toNat ≤ memory.size →
    EStateM.run (Exec.hostRead offset length) m =
      .ok (.ok ((List.range length.toNat).map fun i => memory.byteAt (offset.toNat + i))) m

/-- Writing to the memory of the caller, all or nothing. -/
structure Machine.Writes (m : Machine) (offset : UInt32) (bytes : List UInt8) : Prop where
  absent : m.hostMemory? = none →
    EStateM.run (Exec.hostWrite offset bytes) m = .ok (.error Exec.noMemory) m
  outside : ∀ address memory, m.hostMemory? = some (address, memory) →
    memory.size < offset.toNat + bytes.length →
    EStateM.run (Exec.hostWrite offset bytes) m =
      .ok (.error (Exec.outOfBounds "write" bytes.length offset)) m
  inside : ∀ address memory, m.hostMemory? = some (address, memory) →
    offset.toNat + bytes.length ≤ memory.size →
    memory.Written offset.toNat bytes (memory.after (.write offset bytes)) ∧
      EStateM.run (Exec.hostWrite offset bytes) m =
        .ok (.ok ()) (m.withMemory address (memory.after (.write offset bytes)))

namespace Exec

/-- Where the layout is sound, looking for the memory always succeeds. -/
theorem run_hostMemory (h : m.layout.Sound) :
    EStateM.run hostMemory m = .ok m.hostMemory? m := by
  have hcaller : EStateM.run callerMemory m =
      .ok (m.frame.home.bind m.store.callerMemory?) m := rfl
  refine (run_bind_of_ok hcaller).trans ?_
  unfold Machine.hostMemory?
  cases hfound : m.frame.home.bind m.store.callerMemory? with
  | none => rfl
  | some address =>
    obtain ⟨index, -, haddress⟩ := Option.bind_eq_some_iff.mp hfound
    obtain ⟨memory, hthere⟩ : ∃ memory, m.store.memories[address]? = some memory :=
      ⟨_, Array.getElem?_eq_getElem (Store.lt_of_callerMemory? h haddress)⟩
    have hread : EStateM.run (ofOption m.store.memories[address]?) m = .ok memory m := by
      rw [hthere]
      rfl
    refine (run_bind_of_ok (x := (get : Exec Machine)) (a := m) (t := m) rfl).trans ?_
    refine (run_bind_of_ok hread).trans ?_
    rw [Option.bind_some, hthere]
    rfl

theorem reads_of_sound (h : m.layout.Sound) (offset length : UInt32) : m.Reads offset length where
  absent hnone := by
    refine (run_bind_of_ok (run_hostMemory h)).trans ?_
    rw [hnone]
    rfl
  outside address memory hsome outside := by
    refine (run_bind_of_ok (run_hostMemory h)).trans ?_
    have hread : memory.read offset.toNat length.toNat = none := by
      rw [Memory.read, Memory.covers, if_neg (by simp [Nat.not_le.mpr outside])]
    rw [hsome]
    dsimp only
    rw [hread]
    rfl
  inside address memory hsome inside := by
    refine (run_bind_of_ok (run_hostMemory h)).trans ?_
    rw [hsome]
    dsimp only
    rw [Memory.read_of_le inside]
    rfl

theorem writes_of_sound (h : m.layout.Sound) (offset : UInt32) (bytes : List UInt8) :
    m.Writes offset bytes where
  absent hnone := by
    refine (run_bind_of_ok (run_hostMemory h)).trans ?_
    rw [hnone]
    rfl
  outside address memory hsome outside := by
    refine (run_bind_of_ok (run_hostMemory h)).trans ?_
    rw [hsome]
    dsimp only
    rw [Memory.write_eq_none outside]
    rfl
  inside address memory hsome inside := by
    rw [Memory.after_write inside]
    refine ⟨Memory.written_setBytes inside, (run_bind_of_ok (run_hostMemory h)).trans ?_⟩
    rw [hsome]
    dsimp only
    rw [Memory.write_eq_some inside]
    rfl

end Exec

/-! ## Some accesses -/

section Modify

variable {α : Type} {xs : Array α} {i : Nat} {f g : α → α}

theorem modify_congr (h : ∀ x, xs[i]? = some x → f x = g x) : xs.modify i f = xs.modify i g := by
  refine Array.ext_getElem? fun j => ?_
  rw [Array.getElem?_modify, Array.getElem?_modify]
  by_cases hj : i = j
  · rw [if_pos hj, if_pos hj, ← hj]
    exact Option.map_congr h
  · rw [if_neg hj, if_neg hj]

theorem modify_eq_self (h : ∀ x, xs[i]? = some x → f x = x) : xs.modify i f = xs := by
  refine (modify_congr h).trans (Array.ext_getElem? fun j => ?_)
  rw [Array.getElem?_modify]
  split
  · exact Option.map_id'
  · rfl

theorem modify_modify (xs : Array α) (i : Nat) (f g : α → α) :
    (xs.modify i f).modify i g = xs.modify i fun x => g (f x) := by
  refine Array.ext_getElem? fun j => ?_
  rw [Array.getElem?_modify, Array.getElem?_modify, Array.getElem?_modify]
  split
  · rw [Option.map_map]
    rfl
  · rfl

end Modify

/-- The memories after accesses: that of the caller is what they have made of it. -/
def Machine.memoriesAfter (m : Machine) (past : List HostAccess) : Array Memory :=
  match m.hostMemory? with
  | some (address, _) => m.store.memories.modify address (·.afterAll past)
  | none => m.store.memories

/-- As far as memories go, `t` is `m` after accesses to the memory of its caller. -/
structure Machine.Follows (m : Machine) (past : List HostAccess) (t : Machine) : Prop where
  home : t.frame.home = m.frame.home
  layout : t.layout = m.layout
  memories : t.store.memories = m.memoriesAfter past

namespace Machine.Follows

variable {past later : List HostAccess}

theorem instances (h : m.Follows past t) : t.store.instances = m.store.instances :=
  congrArg Layout.instances h.layout

theorem callerMemory? (h : m.Follows past t) :
    t.frame.home.bind t.store.callerMemory? = m.frame.home.bind m.store.callerMemory? := by
  have hmemory : t.store.callerMemory? = m.store.callerMemory? := by
    funext index
    unfold Store.callerMemory? Store.exported?
    rw [h.instances]
  rw [h.home, hmemory]

/-- The caller still lends the memory that it has lent, with what has been written. -/
theorem hostMemory? (h : m.Follows past t) :
    t.hostMemory? = m.hostMemory?.map fun x => (x.1, x.2.afterAll past) := by
  cases hm : m.hostMemory? with
  | none =>
    have hmemories : t.store.memories = m.store.memories := by
      rw [h.memories, memoriesAfter, hm]
    rw [Machine.hostMemory?, h.callerMemory?, hmemories]
    exact hm
  | some x =>
    obtain ⟨address, memory⟩ := x
    obtain ⟨exported, there, unshared⟩ := hostMemory?_eq_some.mp hm
    refine hostMemory?_eq_some.mpr ⟨h.callerMemory?.trans exported, ?_, ?_⟩
    · rw [h.memories, memoriesAfter, hm]
      dsimp only
      rw [Array.getElem?_modify, if_pos rfl, there]
      rfl
    · exact (memory.leftBy_afterAll past).shared.trans unshared

/-- What leaves the caller and the memories alone. -/
theorem of_same (hhome : t.frame.home = m.frame.home)
    (hlayout : t.layout = m.layout)
    (hmemories : t.store.memories = m.store.memories) : m.Follows [] t where
  home := hhome
  layout := hlayout
  memories := by
    rw [hmemories, memoriesAfter]
    split
    · exact (modify_eq_self fun _ _ => rfl).symm
    · rfl

theorem trans (h : m.Follows past t) (h' : t.Follows later u) : m.Follows (past ++ later) u where
  home := h'.home.trans h.home
  layout := h'.layout.trans h.layout
  memories := by
    rw [h'.memories, memoriesAfter, h.hostMemory?, memoriesAfter]
    cases hm : m.hostMemory? with
    | none =>
      rw [h.memories, memoriesAfter, hm]
      rfl
    | some x =>
      rw [h.memories, memoriesAfter, hm]
      refine (modify_modify _ _ _ _).trans (congrArg _ (funext fun memory => ?_))
      exact (memory.afterAll_append past later).symm

/-- Accesses that make nothing of the memory, if there is one. -/
theorem of_idle (h : ∀ address memory, m.hostMemory? = some (address, memory) →
    memory.afterAll past = memory) : m.Follows past m where
  home := rfl
  layout := rfl
  memories := by
    rw [memoriesAfter]
    cases hm : m.hostMemory? with
    | none => rfl
    | some x =>
      obtain ⟨-, there, -⟩ := hostMemory?_eq_some.mp hm
      refine (modify_eq_self fun y hy => ?_).symm
      cases there.symm.trans hy
      exact h _ _ hm

theorem of_lent (hm : m.hostMemory? = some (address, memory)) :
    m.Follows past (m.withMemory address (memory.afterAll past)) where
  home := rfl
  layout := Store.layout_congr rfl <|
    congrArg (fun n => { m.store.rows with memories := n }) Array.size_modify
  memories := by
    obtain ⟨-, there, -⟩ := hostMemory?_eq_some.mp hm
    rw [memoriesAfter, hm]
    change m.store.memories.modify address (fun _ => memory.afterAll past) =
      m.store.memories.modify address fun x => x.afterAll past
    refine modify_congr fun x hx => ?_
    cases there.symm.trans hx
    rfl

theorem hostRead (h : m.layout.Sound) (offset length : UInt32) :
    m.Follows [.read offset length] (ending (Exec.hostRead offset length) m) := by
  have hm : m.Follows [.read offset length] m := of_idle fun _ _ _ => rfl
  obtain ⟨absent, outside, inside⟩ := Exec.reads_of_sound h offset length
  cases hlent : m.hostMemory? with
  | none => rwa [ending_of_ok (absent hlent)]
  | some x =>
    by_cases fits : offset.toNat + length.toNat ≤ x.2.size
    · rwa [ending_of_ok (inside _ _ hlent fits)]
    · rwa [ending_of_ok (outside _ _ hlent (Nat.not_le.mp fits))]

theorem hostWrite (h : m.layout.Sound) (offset : UInt32) (bytes : List UInt8) :
    m.Follows [.write offset bytes] (ending (Exec.hostWrite offset bytes) m) := by
  obtain ⟨absent, outside, inside⟩ := Exec.writes_of_sound h offset bytes
  cases hlent : m.hostMemory? with
  | none =>
    rw [ending_of_ok (absent hlent)]
    exact of_idle fun _ _ hx => nomatch hlent.symm.trans hx
  | some x =>
    by_cases fits : offset.toNat + bytes.length ≤ x.2.size
    · rw [ending_of_ok (inside _ _ hlent fits).2]
      exact of_lent hlent
    · rw [ending_of_ok (outside _ _ hlent (Nat.not_le.mp fits))]
      refine of_idle fun address memory hx => ?_
      cases hlent.symm.trans hx
      change memory.after (.write offset bytes) = memory
      rw [Memory.after, Memory.write_eq_none (Nat.not_le.mp fits)]
      rfl

end Machine.Follows

/-! ## The accesses of a body -/

/-- An access that a body makes, and the machine that it starts from. -/
structure AccessRun where
  access : HostAccess
  machine : Machine

namespace AccessRun

/-- A piece of a body that writes down the accesses. -/
abbrev Noting (α : Type) := Chronicle AccessRun Stop Machine α

/-- Runs the body of a host function. -/
def answer (key : Option ContextKey) : Program → Noting (List Value)
  | .finish (.ok values) => pure values
  | .finish (.error e) => throw (.host e)
  | .readMemory offset length next => do
    let r ← noting (AccessRun.mk (.read offset length)) (Exec.hostRead offset length)
    answer key (next r)
  | .writeMemory offset bytes next => do
    let r ← noting (AccessRun.mk (.write offset bytes)) (Exec.hostWrite offset bytes)
    answer key (next r)
  | .log entry next => do
    quietly (Exec.log entry)
    answer key next
  | .inspect next => do
    let context := (← quietly get).store.context
    answer key (next context.logs.length context.exitCode)
  | .shared next => do
    let host := (← quietly get).host
    answer key (next (key.bind host.context?))
  | .share data next => do
    quietly (Exec.share key data)
    answer key next
  | .note text next => do
    quietly (Exec.modifyHost fun h => h.note text)
    answer key next
  | .deleteObject name next => do
    quietly (Exec.modifyHost fun h => h.deleteObject name)
    answer key next
  | .dropObject name next => do
    quietly (Exec.modifyHost fun h => h.dropObject name)
    answer key next
  | .makeObject moduleName next => do
    let made ← quietly (Exec.makeObject moduleName)
    answer key (next made)

theorem erases_answer (key : Option ContextKey) (p : Program) :
    Erases (Exec.answer key p) (answer key p) := by
  induction p with
  | finish result =>
    cases result with
    | ok values => exact .pure values
    | error e => exact .throw _
  | readMemory offset length next ih => exact (Erases.noting _ _).bind ih
  | writeMemory offset bytes next ih => exact (Erases.noting _ _).bind ih
  | log entry next ih => exact Erases.after fun _ => ih
  | inspect next ih => exact Erases.after fun _ => ih _ _
  | shared next ih => exact Erases.after fun _ => ih _
  | share data next ih =>
    cases key with
    | none => exact Erases.after (x := Pure.pure ()) fun _ => ih
    | some key => exact Erases.after (x := Exec.share (some key) data) fun _ => ih
  | note text next ih => exact Erases.after fun _ => ih
  | deleteObject name next ih => exact Erases.after fun _ => ih
  | dropObject name next ih => exact Erases.after fun _ => ih
  | makeObject moduleName next ih => exact Erases.after (x := Exec.makeObject moduleName) ih

/-- From a sound layout, every access starts from what those before it have left, and the end is
what all of them have left. -/
def Followed (m : Machine) (runs : List AccessRun) (_ : Except Stop Unit) (t : Machine) : Prop :=
  m.layout.Sound → m.Follows (runs.map access) t ∧
    ∀ past x rest, runs = past ++ x :: rest → m.Follows (past.map access) x.machine

theorem history_followed : History Followed where
  still m _ := ⟨.of_same rfl rfl rfl, fun past x rest h => absurd h.symm (by simp)⟩
  append {s t u l l' r} h h' hs := by
    obtain ⟨hend, hruns⟩ := h hs
    obtain ⟨hend', hruns'⟩ := h' (hend.layout ▸ hs)
    rw [List.map_append]
    refine ⟨hend.trans hend', fun past x rest hsplit => ?_⟩
    obtain ⟨between, rfl, hl'⟩ | ⟨between, rfl, hrest⟩ := List.append_eq_append_iff.mp hsplit
    · rw [List.map_append]
      exact hend.trans (hruns' between x rest hl')
    · cases between with
      | nil =>
        obtain rfl : l' = x :: rest := hrest.symm
        have hx := hend.trans (hruns' [] x rest rfl)
        rwa [List.append_nil, List.map_nil, List.append_nil] at hx
      | cons y between =>
        obtain ⟨rfl, -⟩ := List.cons.inj hrest
        exact hruns past x between rfl

/-- An access is followed by what it has left. -/
theorem tells_access {α : Type} {access : HostAccess} {x : Exec α}
    (h : ∀ m : Machine, m.layout.Sound → m.Follows [access] (ending x m)) :
    Tells Followed (noting (AccessRun.mk access) x) := by
  refine Tells.noting fun m hm => ⟨h m hm, fun past y rest hsplit => ?_⟩
  obtain ⟨rfl, hy⟩ : past = [] ∧ y = ⟨access, m⟩ := by
    cases past with
    | nil => exact ⟨rfl, (List.cons.inj hsplit).1.symm⟩
    | cons z past => exact absurd (List.cons.inj hsplit).2.symm (by simp)
  rw [hy]
  exact .of_same rfl rfl rfl

/-- What leaves the caller and the memories alone is no access. -/
theorem tells_beside {α : Type} {x : Exec α}
    (h : ∀ m : Machine, m.Follows [] (ending x m)) : Tells Followed (quietly x) :=
  Tells.quietly fun m _ => ⟨h m, fun past y rest hsplit => absurd hsplit.symm (by simp)⟩

theorem tells_modifyHost (f : Host → Host) : Tells Followed (quietly (Exec.modifyHost f)) :=
  tells_beside fun _ => .of_same rfl rfl rfl

theorem tells_answer (key : Option ContextKey) (p : Program) : Tells Followed (answer key p) := by
  induction p with
  | finish result =>
    cases result with
    | ok values => exact Tells.pure history_followed values
    | error e => exact Tells.throw history_followed.still
  | readMemory offset length next ih =>
    exact (tells_access fun m hm => .hostRead hm offset length).bind history_followed ih
  | writeMemory offset bytes next ih =>
    exact (tells_access fun m hm => .hostWrite hm offset bytes).bind history_followed ih
  | log entry next ih =>
    exact (tells_beside fun _ => .of_same rfl rfl rfl).bind history_followed fun _ => ih
  | inspect next ih =>
    exact (tells_beside fun _ => .of_same rfl rfl rfl).bind history_followed fun _ => ih _ _
  | shared next ih =>
    exact (tells_beside fun _ => .of_same rfl rfl rfl).bind history_followed fun _ => ih _
  | share data next ih =>
    refine (tells_beside fun m => ?_).bind history_followed fun _ => ih
    cases key <;> exact .of_same rfl rfl rfl
  | note text next ih => exact (tells_modifyHost _).bind history_followed fun _ => ih
  | deleteObject name next ih => exact (tells_modifyHost _).bind history_followed fun _ => ih
  | dropObject name next ih => exact (tells_modifyHost _).bind history_followed fun _ => ih
  | makeObject moduleName next ih =>
    exact (tells_beside fun _ => .of_same rfl rfl rfl).bind history_followed ih

end AccessRun

/-- The accesses of a body to the memory of its caller, the first one first. -/
def BodyRun.accesses (b : BodyRun) : List AccessRun :=
  (AccessRun.answer b.entry.context (b.entry.body b.values)).events b.machine

/-- **What a body finds and leaves in the memory of its caller is what its accesses make of it.** -/
theorem BodyRun.follows {b : BodyRun} (h : b.machine.layout.Sound) :
    b.machine.Follows (b.accesses.map AccessRun.access) (ending b.perform b.machine) ∧
      ∀ past x rest, b.accesses = past ++ x :: rest →
        b.machine.Follows (past.map AccessRun.access) x.machine :=
  (AccessRun.tells_answer _ _).events (AccessRun.erases_answer _ _) b.machine h

/-- An access after others, in a body whose caller lends it `memory`. -/
structure AccessRun.After (x : AccessRun) (address : Nat) (memory : Memory)
    (past : List HostAccess) : Prop where
  /-- It finds what they have left. -/
  finds : ∃ found, x.machine.hostMemory? = some (address, found) ∧ memory.LeftBy past found
  /-- So a read inside is given, at each address, the byte of the last write that has reached it, or
  the one that the body has started with. -/
  reads : ∀ offset length, x.access = .read offset length →
    offset.toNat + length.toNat ≤ memory.size →
    EStateM.run (Exec.hostRead offset length) x.machine =
      .ok (.ok ((List.range length.toNat).map fun i =>
        (HostAccess.last? memory.size past (offset.toNat + i)).getD
          (memory.byteAt (offset.toNat + i)))) x.machine

/-- What is true of the accesses of a body. -/
structure BodyRun.Exact (b : BodyRun) : Prop where
  /-- One access is all or nothing, from the start of the body or from where it makes one. -/
  one : ∀ m, (m = b.machine ∨ ∃ x ∈ b.accesses, x.machine = m) →
    (∀ offset length, m.Reads offset length) ∧ ∀ offset bytes, m.Writes offset bytes
  /-- Without a memory there is none to the end. -/
  absent : b.machine.hostMemory? = none → ∀ x ∈ b.accesses, x.machine.hostMemory? = none
  /-- Every access finds what those before it have left. -/
  each : ∀ address memory, b.machine.hostMemory? = some (address, memory) →
    ∀ past x rest, b.accesses = past ++ x :: rest →
      x.After address memory (past.map AccessRun.access)
  /-- So does the caller. -/
  leaves : ∀ address memory, b.machine.hostMemory? = some (address, memory) →
    ∃ left, (ending b.perform b.machine).hostMemory? = some (address, left) ∧
      memory.LeftBy (b.accesses.map AccessRun.access) left
  /-- No other memory changes. -/
  beside : ∀ address, (∀ memory, b.machine.hostMemory? ≠ some (address, memory)) →
    (ending b.perform b.machine).store.memories[address]? = b.machine.store.memories[address]?

theorem Machine.Follows.found {past : List HostAccess} (h : m.Follows past t)
    (hm : m.hostMemory? = some (address, memory)) :
    ∃ found, t.hostMemory? = some (address, found) ∧ memory.LeftBy past found := by
  refine ⟨memory.afterAll past, ?_, memory.leftBy_afterAll past⟩
  rw [h.hostMemory?, hm]
  rfl

theorem Machine.getElem?_memoriesAfter {past : List HostAccess}
    (h : ∀ memory, m.hostMemory? ≠ some (address, memory)) :
    (m.memoriesAfter past)[address]? = m.store.memories[address]? := by
  unfold memoriesAfter
  split
  · rename_i lent memory hm
    have hne : lent ≠ address := fun heq => h memory (heq ▸ hm)
    rw [Array.getElem?_modify, if_neg hne]
  · rfl

/-- **From a sound layout a body reads what has been written.** -/
theorem BodyRun.exact_of_sound {b : BodyRun} (h : b.machine.layout.Sound) : b.Exact where
  one m hm := by
    have hsound : m.layout.Sound := by
      rcases hm with rfl | ⟨x, hx, rfl⟩
      · exact h
      · obtain ⟨past, rest, hsplit⟩ := List.append_of_mem hx
        exact ((b.follows h).2 past x rest hsplit).layout ▸ h
    exact ⟨Exec.reads_of_sound hsound, Exec.writes_of_sound hsound⟩
  absent hnone x hx := by
    obtain ⟨past, rest, hsplit⟩ := List.append_of_mem hx
    rw [((b.follows h).2 past x rest hsplit).hostMemory?, hnone]
    rfl
  each address memory hm past x rest hsplit := by
    have hx := (b.follows h).2 past x rest hsplit
    obtain ⟨found, hfound, hleft⟩ := hx.found hm
    refine ⟨⟨found, hfound, hleft⟩, fun offset length _ inside => ?_⟩
    rw [← hleft.size] at inside
    have hread := (Exec.reads_of_sound (hx.layout ▸ h) offset length).inside _ _ hfound inside
    simpa only [hleft.bytes] using hread
  leaves address memory hm := (b.follows h).1.found hm
  beside address hm := by
    rw [(b.follows h).1.memories, Machine.getElem?_memoriesAfter hm]

end WasmEmbedding.Engine
