import Mathlib.Algebra.GroupWithZero.Nat
import WasmEmbedding.Proofs.Engine.HostCalls
import WasmEmbedding.Proofs.Engine.Run

/-! # The texts that a guest is given

A session keeps the arguments and environment strings that it has been started with: no function of
the system interface changes them (`Sys.Discreet`), so nothing that a guest does.  A guest that asks
for them and has room for them finds them in its memory, in their order and byte for byte
(`Machine.Delivers`).  No function looks at what has been written to the standard streams, either.
-/
namespace WasmEmbedding

open Chronicle Engine Wasm

namespace Engine.Memory

variable {m t : Memory}

/-! ## Reading what has been written -/

@[simp] theorem size_setByte (m : Memory) (i : Nat) (b : UInt8) :
    (m.setByte i b).size = m.size := by
  simp [setByte, size]

@[simp] theorem size_setBytes (m : Memory) (address : Nat) (bytes : List UInt8) :
    (m.setBytes address bytes).size = m.size := by
  induction bytes generalizing m address with
  | nil => rfl
  | cons b bytes ih => rw [setBytes, ih, size_setByte]

theorem size_write {address : Nat} {bytes : List UInt8} (h : m.write address bytes = some t) :
    t.size = m.size := by
  unfold write at h
  split at h
  · cases h
    exact size_setBytes m address bytes
  · cases h

theorem get!_set! {page : ByteArray} {i : Nat} (hi : i < page.size) (b : UInt8) (j : Nat) :
    (page.set! i b).get! j = if j = i then b else page.get! j := by
  change (page.data.setIfInBounds i b)[j]! = if j = i then b else page.data[j]!
  rw [getElem!_def, getElem!_def, Array.getElem?_setIfInBounds]
  by_cases hji : j = i
  · subst hji
    simp [hi]
  · simp [hji, Ne.symm hji]

theorem byteAt_setByte {i : Nat} (hi : i < m.size) (b : UInt8) (j : Nat) :
    (m.setByte i b).byteAt j = if j = i then b else m.byteAt j := by
  have hpage : i / pageBytes < m.pages.size := Nat.div_lt_of_lt_mul (Nat.mul_comm _ _ ▸ hi)
  have hin : i % pageBytes < m.pages[i / pageBytes].size := by
    rw [m.sized _ hpage]
    exact Nat.mod_lt _ (by decide)
  unfold byteAt setByte
  dsimp only
  rw [Array.getElem?_modify]
  by_cases hquot : i / pageBytes = j / pageBytes
  · rw [if_pos hquot, ← hquot, Array.getElem?_eq_getElem hpage]
    dsimp only [Option.map_some]
    rw [get!_set! hin]
    -- On one page the places decide.
    have hmod : j % pageBytes = i % pageBytes ↔ j = i := by
      refine ⟨fun h => ?_, fun h => h ▸ rfl⟩
      rw [← Nat.div_add_mod j pageBytes, ← Nat.div_add_mod i pageBytes, h, hquot]
    simp only [hmod]
  · have hji : j ≠ i := fun h => hquot (by rw [h])
    rw [if_neg hquot, if_neg hji]

theorem byteAt_setBytes_of_apart {address i : Nat} {bytes : List UInt8}
    (hroom : address + bytes.length ≤ m.size) (h : i < address ∨ address + bytes.length ≤ i) :
    (m.setBytes address bytes).byteAt i = m.byteAt i := by
  induction bytes generalizing m address with
  | nil => rfl
  | cons b bytes ih =>
    rw [List.length_cons] at hroom h
    rw [setBytes, ih (by rw [size_setByte]; omega) (by omega), byteAt_setByte (by omega),
      if_neg (by omega)]

theorem byteAt_setBytes {address : Nat} {bytes : List UInt8}
    (hroom : address + bytes.length ≤ m.size) {k : Nat} (hk : k < bytes.length) :
    (m.setBytes address bytes).byteAt (address + k) = bytes[k] := by
  induction bytes generalizing m address k with
  | nil => cases hk
  | cons b bytes ih =>
    rw [List.length_cons] at hroom hk
    rw [setBytes]
    cases k with
    | zero =>
      rw [byteAt_setBytes_of_apart (by rw [size_setByte]; omega) (by omega),
        byteAt_setByte (by omega), if_pos (Nat.add_zero address)]
      rfl
    | succ k =>
      have hplace : address + (k + 1) = address + 1 + k := by omega
      rw [hplace, ih (by rw [size_setByte]; omega) (Nat.lt_of_succ_lt_succ hk)]
      rfl

theorem bytesFrom_eq (m : Memory) (address n : Nat) (acc : List UInt8) :
    m.bytesFrom address n acc = (List.range n).map (fun k => m.byteAt (address + k)) ++ acc := by
  induction n generalizing acc with
  | zero => rfl
  | succ n ih =>
    rw [bytesFrom, ih, List.range_succ, List.map_append, List.append_assoc]
    rfl

theorem read_of_le {address n : Nat} (h : address + n ≤ m.size) :
    m.read address n = some ((List.range n).map fun k => m.byteAt (address + k)) := by
  rw [read, covers, if_pos (decide_eq_true h), bytesFrom_eq, List.append_nil]

theorem write_eq_some {address : Nat} {bytes : List UInt8}
    (h : address + bytes.length ≤ m.size) :
    m.write address bytes = some (m.setBytes address bytes) := by
  rw [write, covers, if_pos (decide_eq_true h)]

/-- What has been written is read. -/
theorem read_setBytes {address : Nat} {bytes : List UInt8}
    (h : address + bytes.length ≤ m.size) :
    (m.setBytes address bytes).read address bytes.length = some bytes := by
  rw [read_of_le (by rwa [size_setBytes])]
  refine congrArg some (List.ext_getElem (by simp) fun k hk hk' => ?_)
  rw [List.getElem_map, List.getElem_range, byteAt_setBytes h hk']

/-- Beside what has been written nothing else is read. -/
theorem read_setBytes_of_apart {address i n : Nat} {bytes : List UInt8}
    (h : address + bytes.length ≤ m.size)
    (hapart : i + n ≤ address ∨ address + bytes.length ≤ i) :
    (m.setBytes address bytes).read i n = m.read i n := by
  by_cases hread : i + n ≤ m.size
  · rw [read_of_le (by rwa [size_setBytes]), read_of_le hread]
    refine congrArg some (List.map_congr_left fun k hk => ?_)
    exact byteAt_setBytes_of_apart h (by have := List.mem_range.mp hk; omega)
  · simp [read, covers, hread]

@[simp] theorem length_toBytes (count n : Nat) : (toBytes count n).length = count := by
  induction count generalizing n with
  | zero => rfl
  | succ count ih => rw [toBytes, List.length_cons, ih]

theorem ofBytes_toBytes {count n : Nat} (h : n < Nat.pow 256 count) :
    ofBytes (toBytes count n) = n := by
  induction count generalizing n with
  | zero => exact (Nat.lt_one_iff.mp h).symm
  | succ count ih =>
    have hdiv : n / 256 < Nat.pow 256 count :=
      Nat.div_lt_of_lt_mul (Nat.mul_comm _ 256 ▸ h)
    rw [toBytes, ofBytes, ih hdiv]
    have hlow : (UInt8.ofNat (n % 256)).toNat = n % 256 := by
      rw [UInt8.toNat_ofNat']
      exact Nat.mod_eq_of_lt (Nat.mod_lt _ (by decide))
    rw [hlow]
    exact Nat.mod_add_div n 256

/-- The number of four bytes at an address. -/
def word? (m : Memory) (address : Nat) : Option Nat := (m.read address 4).map ofBytes

end Engine.Memory

namespace Wasi

open Sys (terminated)

/-- The bytes that texts take. -/
def textBytes (texts : List String) : Nat := (texts.map fun s => (terminated s).length).sum

@[simp] theorem textBytes_cons (s : String) (rest : List String) :
    textBytes (s :: rest) = (terminated s).length + textBytes rest := rfl

/-- There is room in a memory for texts and for a table of where they are. -/
structure Fits (m : Memory) (pointers buffer : Nat) (texts : List String) : Prop where
  addressed : m.size ≤ UInt32.size
  aligned : pointers % 4 = 0
  table : pointers + 4 * texts.length ≤ m.size
  room : buffer + textBytes texts ≤ m.size
  apart : pointers + 4 * texts.length ≤ buffer ∨ buffer + textBytes texts ≤ pointers

/-- A memory holds texts one after the other, each with a zero behind it, and a table of where they
are. -/
def HoldsTexts (m : Memory) (pointers buffer : Nat) : List String → Prop
  | [] => True
  | s :: rest =>
    m.word? pointers = some buffer ∧
    m.read buffer (terminated s).length = some (terminated s) ∧
    HoldsTexts m (pointers + 4) (buffer + (terminated s).length) rest

namespace Sys

variable {α β : Type}

/-- What a call comes to. -/
def result (x : Sys α) (p : Process) : Except Halt α := (ExceptT.run x p).1

/-- What a call leaves. -/
def process (x : Sys α) (p : Process) : Process := (ExceptT.run x p).2

theorem run_bind_of_ok {x : Sys α} {f : α → Sys β} {p q : Process} {a : α}
    (h : ExceptT.run x p = (.ok a, q)) : ExceptT.run (x >>= f) p = ExceptT.run (f a) q := by
  change ExceptT.bindCont f (ExceptT.run x p).1 (ExceptT.run x p).2 = _
  rw [h]
  rfl

theorem run_store {p : Process} {pointer : Nat} {bytes : List UInt8}
    (h : pointer + bytes.length ≤ p.memory.size) : ExceptT.run (store pointer bytes) p =
      (.ok (), { p with memory := p.memory.setBytes pointer bytes }) := by
  have hget : ExceptT.run (get : Sys Process) p = (.ok p, p) := rfl
  unfold store
  rw [run_bind_of_ok hget, Memory.write_eq_some h]
  rfl

theorem run_storeWord {p : Process} {pointer n : Nat} (haligned : pointer % 4 = 0)
    (h : pointer + 4 ≤ p.memory.size) : ExceptT.run (storeWord pointer n) p =
      (.ok (), { p with memory := p.memory.setBytes pointer (Memory.toBytes 4 n) }) := by
  have hstart : ExceptT.run (aligned pointer 4) p = (.ok (), p) := by
    rw [aligned, if_pos haligned]
    rfl
  unfold storeWord
  rw [run_bind_of_ok hstart, run_store (by rwa [Memory.length_toBytes])]

/-- Where there is room, texts are stored, and nothing else changes. -/
theorem run_storeTexts {p : Process} {pointers buffer : Nat} {texts : List String}
    (h : Fits p.memory pointers buffer texts) :
    ∃ m : Memory, ExceptT.run (storeTexts pointers buffer texts) p =
        (.ok (), { p with memory := m }) ∧
      HoldsTexts m pointers buffer texts ∧ m.size = p.memory.size ∧
      ∀ i n, (i + n ≤ pointers ∨ pointers + 4 * texts.length ≤ i) →
        (i + n ≤ buffer ∨ buffer + textBytes texts ≤ i) → m.read i n = p.memory.read i n := by
  induction texts generalizing p pointers buffer with
  | nil => exact ⟨p.memory, rfl, trivial, rfl, fun _ _ _ _ => rfl⟩
  | cons s rest ih =>
    obtain ⟨addressed, aligned, table, room, apart⟩ := h
    rw [List.length_cons] at table apart
    rw [textBytes_cons] at room apart
    have htext : 0 < (terminated s).length := by simp [terminated]
    have hpointed : pointers + (Memory.toBytes 4 buffer).length ≤ p.memory.size := by
      rw [Memory.length_toBytes]
      omega
    -- First the pointer is stored, then the text, and the rest goes behind both.
    generalize hm : p.memory.setBytes pointers (Memory.toBytes 4 buffer) = m
    have hsize : m.size = p.memory.size := by rw [← hm, Memory.size_setBytes]
    generalize ht : m.setBytes buffer (terminated s) = t
    have hsize' : t.size = p.memory.size := by rw [← ht, Memory.size_setBytes, hsize]
    have hroom : buffer + (terminated s).length ≤ m.size := by omega
    have hbuffer : buffer < p.memory.size := by omega
    have hfits : Fits t (pointers + 4) (buffer + (terminated s).length) rest :=
      ⟨by rw [hsize']; exact addressed, by omega, by rw [hsize']; omega, by rw [hsize']; omega,
        by omega⟩
    obtain ⟨u, hu, hholds, husize, hframe⟩ := ih (p := { p with memory := t }) hfits
    refine ⟨u, ?_, ⟨?_, ?_, hholds⟩, husize.trans hsize', fun i n hi hi' => ?_⟩
    · unfold storeTexts
      rw [run_bind_of_ok (run_storeWord aligned (by omega)), hm,
        run_bind_of_ok (run_store (p := { p with memory := m }) hroom), ht]
      exact hu
    · rw [Memory.word?, hframe pointers 4 (by omega) (by omega)]
      change (t.read pointers 4).map Memory.ofBytes = some buffer
      rw [← ht, Memory.read_setBytes_of_apart hroom (by omega), ← hm]
      have hread := Memory.read_setBytes hpointed
      rw [Memory.length_toBytes] at hread
      rw [hread, Option.map_some,
        Memory.ofBytes_toBytes
          (show buffer < Nat.pow 256 4 from Nat.lt_of_lt_of_le hbuffer addressed)]
    · rw [hframe _ _ (by omega) (by omega)]
      change t.read buffer (terminated s).length = some (terminated s)
      rw [← ht, Memory.read_setBytes hroom]
    · rw [List.length_cons] at hi
      rw [textBytes_cons] at hi'
      rw [hframe i n (by omega) (by omega)]
      change t.read i n = p.memory.read i n
      rw [← ht, Memory.read_setBytes_of_apart hroom (by omega), ← hm,
        Memory.read_setBytes_of_apart hpointed (by rw [Memory.length_toBytes]; omega)]

end Sys

/-! ## No function changes the texts of a session, or sees what guests have written -/

/-- The texts that a session has been started with. -/
def Session.texts (s : Session) : List String × List String := (s.args, s.envs)

/-- The second process is the first but for what has been written to the standard streams, in a
session that has been started with some texts. -/
structure Process.Alike (texts : List String × List String) (p q : Process) : Prop where
  session : q.session = p.session
  memory : q.memory = p.memory
  files : q.files = p.files
  stdin : q.stdin = p.stdin
  texts : p.session.texts = texts

theorem Process.Alike.refl (p : Process) : p.Alike p.session.texts p :=
  ⟨rfl, rfl, rfl, rfl, rfl⟩

namespace Sys

variable {α β : Type}

/-- The call is not one that ends the guest. -/
def Lasts (r : Except Halt α) : Prop := ∀ code, r ≠ .error (.exit code)

/-- A call that leaves the texts of the session and the size of the memory as they are, does not
look at what has been written to the standard streams, and does not end the guest. -/
class Discreet (x : Sys α) : Prop where
  alike : ∀ texts p q, Process.Alike texts p q →
    result x q = result x p ∧ Process.Alike texts (process x p) (process x q)
  lasts : ∀ p, Lasts (result x p)
  size : ∀ p, (process x p).memory.size = p.memory.size

namespace Discreet

instance pure (a : α) : Discreet (pure a : Sys α) :=
  ⟨fun _ _ _ h => ⟨rfl, h⟩, fun _ _ => nofun, fun _ => rfl⟩

protected theorem throw {e : Halt} (he : ∀ code, e ≠ .exit code) : Discreet (throw e : Sys α) :=
  ⟨fun _ _ _ h => ⟨rfl, h⟩, fun _ code h => he code (Except.error.inj h), fun _ => rfl⟩

instance errno (e : Errno) : Discreet (throw (.errno e) : Sys α) := .throw nofun

instance failure (message : String) : Discreet (throw (.failure message) : Sys α) := .throw nofun

instance bind (x : Sys α) (f : α → Sys β) [hx : Discreet x] [hf : ∀ a, Discreet (f a)] :
    Discreet (x >>= f) where
  alike texts p q h := by
    obtain ⟨hresult, hprocess⟩ := hx.alike texts p q h
    change (ExceptT.bindCont f (result x q) (process x q)).1 =
        (ExceptT.bindCont f (result x p) (process x p)).1 ∧
      Process.Alike texts (ExceptT.bindCont f (result x p) (process x p)).2
        (ExceptT.bindCont f (result x q) (process x q)).2
    rw [hresult]
    cases result x p with
    | ok a => exact (hf a).alike texts _ _ hprocess
    | error e => exact ⟨rfl, hprocess⟩
  lasts p := by
    have hlasts := hx.lasts p
    change Lasts (ExceptT.bindCont f (result x p) (process x p)).1
    generalize result x p = r at hlasts ⊢
    cases r with
    | ok a => exact (hf a).lasts _
    | error e => exact fun code h => hlasts code (congrArg Except.error (Except.error.inj h))
  size p := by
    rw [← hx.size p]
    change (ExceptT.bindCont f (result x p) (process x p)).2.memory.size = _
    cases result x p with
    | ok a => exact (hf a).size _
    | error e => rfl

theorem seq {x : Sys α} {f : α → Sys β} (hx : Discreet x) (hf : ∀ a, Discreet (f a)) :
    Discreet (x >>= f) :=
  bind x f

/-- A look at anything but what has been written to the standard streams. -/
protected theorem get {f : Process → Sys β} (hf : ∀ p, Discreet (f p))
    (h : ∀ p stdout stderr, f { p with stdout, stderr } = f p) :
    Discreet (MonadState.get >>= f) where
  alike texts p q hpq := by
    have hq : q = { p with stdout := q.stdout, stderr := q.stderr } := by
      obtain ⟨hsession, hmemory, hfiles, hstdin, -⟩ := hpq
      cases q
      cases hsession
      cases hmemory
      cases hfiles
      cases hstdin
      rfl
    have hsame : f q = f p := (congrArg f hq).trans (h p q.stdout q.stderr)
    have halike := (hf p).alike texts p q hpq
    change result (f q) q = result (f p) p ∧
      Process.Alike texts (process (f p) p) (process (f q) q)
    rwa [hsame]
  lasts p := (hf p).lasts p
  size p := (hf p).size p

protected theorem modify {f : Process → Process}
    (h : ∀ texts p q, Process.Alike texts p q → Process.Alike texts (f p) (f q))
    (hmemory : ∀ p, (f p).memory = p.memory) : Discreet (modify f : Sys PUnit) :=
  ⟨fun texts p q hpq => ⟨rfl, h texts p q hpq⟩, fun _ _ => nofun,
    fun p => congrArg Memory.size (hmemory p)⟩

instance ite (c : Prop) [Decidable c] (x y : Sys α) [Discreet x] [Discreet y] :
    Discreet (if c then x else y) := by
  split <;> infer_instance

end Discreet

instance (e : Errno) : Discreet (errno e : Sys α) := inferInstanceAs (Discreet (throw _))

instance (pointer alignment : Nat) : Discreet (aligned pointer alignment) :=
  inferInstanceAs (Discreet (ite _ _ _))

instance (pointer count : Nat) : Discreet (load pointer count) := by
  refine .get (fun p => ?_) fun _ _ _ => rfl
  split <;> infer_instance

instance (pointer : Nat) (bytes : List UInt8) : Discreet (store pointer bytes) := by
  have hget : ∀ p, ExceptT.run (get : Sys Process) p = (.ok p, p) := fun _ => rfl
  refine ⟨fun texts p q h => ?_, fun p => ?_, fun p => ?_⟩
  · unfold result process store
    rw [run_bind_of_ok (hget p), run_bind_of_ok (hget q), h.memory]
    cases p.memory.write pointer bytes with
    | none => exact ⟨rfl, h⟩
    | some m => exact ⟨rfl, { h with memory := rfl }⟩
  · unfold result store
    rw [run_bind_of_ok (hget p)]
    cases p.memory.write pointer bytes with
    | none => exact fun _ => nofun
    | some m => exact fun _ => nofun
  · unfold process store
    rw [run_bind_of_ok (hget p)]
    cases hm : p.memory.write pointer bytes with
    | none => rfl
    | some m => exact Memory.size_write hm

instance (pointer : Nat) : Discreet (loadWord pointer) := inferInstanceAs (Discreet (_ >>= _))

instance (pointer n : Nat) : Discreet (storeWord pointer n) :=
  inferInstanceAs (Discreet (_ >>= _))

instance (pointer n : Nat) : Discreet (storeLong pointer n) :=
  inferInstanceAs (Discreet (_ >>= _))

instance (pointer count : Nat) : Discreet (loadText pointer count) := by
  refine .seq inferInstance fun bytes => ?_
  split <;> infer_instance

instance (fd : Nat) : Discreet (descriptor fd) := by
  refine .get (fun p => ?_) fun _ _ _ => rfl
  split <;> infer_instance

/-- Another session with the same texts. -/
theorem discreet_session (f : Session → Session) (h : ∀ s, (f s).texts = s.texts) :
    Discreet (modify fun p => { p with session := f p.session } : Sys PUnit) :=
  .modify (fun _ p _ hpq =>
    { hpq with session := congrArg f hpq.session, texts := (h p.session).trans hpq.texts })
    fun _ => rfl

/-- Other files. -/
theorem discreet_files (f : FileSystem → FileSystem) :
    Discreet (modify fun p => { p with files := f p.files } : Sys PUnit) :=
  .modify (fun _ _ _ hpq => { hpq with files := congrArg f hpq.files }) fun _ => rfl

/-- Another input. -/
theorem discreet_stdin (stdin : List (List UInt8)) :
    Discreet (modify fun p => { p with stdin } : Sys PUnit) :=
  .modify (fun _ _ _ hpq => { hpq with stdin := rfl }) fun _ => rfl

instance (fd : Nat) (d : Descriptor) : Discreet (setDescriptor fd d) :=
  discreet_session (·.put fd d) fun _ => rfl

instance (pointers buffer : Nat) (texts : List String) :
    Discreet (storeTexts pointers buffer texts) := by
  induction texts generalizing pointers buffer with
  | nil => exact .pure ()
  | cons s rest ih => exact .seq inferInstance fun _ => .seq inferInstance fun _ => ih _ _

instance (count size : Nat) (texts : List String) : Discreet (storeSizes count size texts) :=
  inferInstanceAs (Discreet (_ >>= _))

instance (pointer n : Nat) : Discreet (firstBuffer pointer n) := by
  induction n generalizing pointer with
  | zero => exact .pure _
  | succ n ih =>
    refine .seq inferInstance fun start => .seq inferInstance fun size => ?_
    split
    · exact ih _
    · infer_instance

instance (path : Path) : Discreet (content path) := by
  refine .get (fun p => ?_) fun _ _ _ => rfl
  split <;> infer_instance

instance (pointer size : Nat) : Discreet (readInput pointer size) := by
  refine .get (fun p => ?_) fun _ _ _ => rfl
  cases p.stdin with
  | nil => exact .pure 0
  | cons piece later => exact .seq (discreet_stdin _) fun _ => inferInstance

instance (fd pointer size : Nat) : Discreet (read fd pointer size) := by
  refine .seq inferInstance fun d => ?_
  split
  · infer_instance
  · split <;> infer_instance
  · infer_instance

instance (fd pointer size : Nat) : Discreet (write fd pointer size) := by
  have stdout : ∀ bytes : List UInt8, Discreet (modify fun p : Process =>
      { p with stdout := p.stdout ++ bytes } : Sys PUnit) :=
    fun _ => .modify (fun _ _ _ h => ⟨h.session, h.memory, h.files, h.stdin, h.texts⟩) fun _ => rfl
  have stderr : ∀ bytes : List UInt8, Discreet (modify fun p : Process =>
      { p with stderr := p.stderr ++ bytes } : Sys PUnit) :=
    fun _ => .modify (fun _ _ _ h => ⟨h.session, h.memory, h.files, h.stdin, h.texts⟩) fun _ => rfl
  have put : ∀ (path : Path) (n : Node), Discreet (modify fun p : Process =>
      { p with files := p.files.put path n } : Sys PUnit) :=
    fun path n => discreet_files (·.put path n)
  refine .seq inferInstance fun d => ?_
  split
  · exact .seq inferInstance fun bytes => .seq (stdout bytes) fun _ => inferInstance
  · exact .seq inferInstance fun bytes => .seq (stderr bytes) fun _ => inferInstance
  · split
    · infer_instance
    · infer_instance
  · infer_instance

instance (base : Path) (path : String) (openFlags rights : Nat) :
    Discreet (openPath base path openFlags rights) := by
  have put : ∀ (path : Path) (n : Node), Discreet (modify fun p : Process =>
      { p with files := p.files.put path n } : Sys PUnit) :=
    fun path n => discreet_files (·.put path n)
  refine .get (fun p => ?_) fun _ _ _ => rfl
  split
  · infer_instance
  · rename_i target _
    cases p.files.get? target with
    | none =>
      dsimp only
      split
      · split <;> infer_instance
      · infer_instance
    | some node =>
      cases node with
      | directory => infer_instance
      | file bytes =>
        dsimp only
        split <;> infer_instance

instance (fd : Nat) (offset : Int) (whence : Nat) : Discreet (seek fd offset whence) := by
  refine .seq inferInstance fun d => ?_
  split
  · dsimp only
    split <;> infer_instance
  · infer_instance
  · infer_instance

instance (fd : Nat) : Discreet (Syscall.run.socket fd) := inferInstanceAs (Discreet (_ >>= _))

end Sys

open Sys

/-- Every function of the system interface is discreet, but for the one that ends the guest. -/
theorem Syscall.discreet_run (c : Syscall) (args : List Nat) :
    (∃ code, c = .procExit ∧ args = [code]) ∨ Discreet (c.run args) := by
  have close : ∀ fd, Discreet (modify fun p : Process =>
      { p with session := p.session.close fd } : Sys PUnit) :=
    fun fd => discreet_session (·.close fd) fun _ => rfl
  unfold Syscall.run
  split
  case h_9 => exact .inl ⟨_, rfl, rfl⟩
  all_goals
    right
    first
    | infer_instance
    | exact .get (fun _ => inferInstance) fun _ _ _ => rfl
    | (refine .seq inferInstance fun _ => ?_
       split <;> infer_instance)
    | (refine .seq inferInstance fun _ => .seq inferInstance fun _ => ?_
       split <;> infer_instance)

/-- A guest ends with a code below 126. -/
theorem Syscall.run_procExit (code : Nat) :
    Syscall.run .procExit [code] =
      if code < 126 then throw (.exit (UInt32.ofNat code))
      else throw (.failure "exit with invalid exit status outside of [0..126)") := rfl

/-- **No function of the system interface changes the arguments or the environment strings, or looks
at what has been written to the standard streams.** -/
theorem Syscall.alike_run (c : Syscall) (args : List Nat) {texts : List String × List String}
    {p q : Process} (h : Process.Alike texts p q) :
    result (c.run args) q = result (c.run args) p ∧
      Process.Alike texts (process (c.run args) p) (process (c.run args) q) := by
  rcases c.discreet_run args with ⟨code, rfl, rfl⟩ | hdiscreet
  · rw [run_procExit]
    split
    · exact ⟨rfl, h⟩
    · exact ⟨rfl, h⟩
  · exact hdiscreet.alike texts p q h

theorem Syscall.texts_run (c : Syscall) (args : List Nat) (p : Process) :
    (process (c.run args) p).session.texts = p.session.texts :=
  (c.alike_run args (.refl p)).2.texts

/-- No function makes the memory larger or smaller. -/
theorem Syscall.size_run (c : Syscall) (args : List Nat) (p : Process) :
    (process (c.run args) p).memory.size = p.memory.size := by
  rcases c.discreet_run args with ⟨code, rfl, rfl⟩ | hdiscreet
  · rw [run_procExit]
    split <;> rfl
  · exact hdiscreet.size p

/-- **A guest is ended by the function for it only**, with a code below 126. -/
theorem Syscall.exits_run {c : Syscall} {args : List Nat} {p : Process} {code : UInt32}
    (h : result (c.run args) p = .error (.exit code)) :
    c = .procExit ∧ ∃ n, args = [n] ∧ n < 126 ∧ code = UInt32.ofNat n := by
  rcases c.discreet_run args with ⟨n, rfl, rfl⟩ | hdiscreet
  · rw [run_procExit] at h
    split at h
    · rename_i hn
      exact ⟨rfl, n, rfl, hn, (Halt.exit.inj (Except.error.inj h)).symm⟩
    · cases h
  · exact absurd h (hdiscreet.lasts p code)

end Wasi

/-! ## What a guest finds -/

namespace Engine

open Host Wasi

/-- The texts that the guest of a machine is given. -/
def Machine.texts (m : Machine) : List String × List String := m.session.texts

/-- The machine with another memory at an address. -/
def Machine.withMemory (m : Machine) (address : Nat) (memory : Memory) : Machine :=
  { m with store := { m.store with
      memories := m.store.memories.modify address fun _ => memory } }

/-- A guest that has room for texts and calls the function finds them in its memory; nothing else
changes. -/
def Machine.Delivers (m : Machine) (c : Syscall) (texts : List String) : Prop :=
  ∀ (address : Nat) (memory : Memory) (pointers buffer : UInt32),
    m.frame.home.bind m.store.callerMemory? = some address →
    m.store.memories[address]? = some memory →
    Fits memory pointers.toNat buffer.toNat texts →
    ∃ filled : Memory, HoldsTexts filled pointers.toNat buffer.toNat texts ∧
      EStateM.run (Exec.callSystem c [.i32 pointers, .i32 buffer]) m =
        .ok [.i32 0] (m.withMemory address filled)

theorem Alike.sessions {C : Scene → Prop} {S : Session → Session → Prop} {m n : Machine}
    (h : Alike C S m n) : S m.session n.session := by
  cases h
  assumption

namespace Exec

/-- What a call of the system interface answers. -/
def conclude (c : Syscall) (r : Except Halt Unit) : Exec (List Operand) :=
  match r with
  | .ok () => return c.type.results.map fun _ => .i32 0
  | .error (.errno e) => return [.i32 (UInt32.ofNat e.number)]
  | .error (.exit code) => throw (.exit code)
  | .error (.failure message) => throw (.failure message)

/-- What a function of the system interface works on. -/
def processOf (m : Machine) (memory : Memory) : Process where
  session := m.session
  memory := memory
  files := m.host.files
  stdin := m.host.stdin
  stdout := m.host.stdout
  stderr := m.host.stderr

theorem run_callSystem {m : Machine} {address : Nat} {memory : Memory}
    (haddress : m.frame.home.bind m.store.callerMemory? = some address)
    (hmemory : m.store.memories[address]? = some memory) (c : Syscall) (args : List Operand) :
    EStateM.run (callSystem c args) m =
      EStateM.run (adopt address ((c.run (args.map argument)).process (processOf m memory)) >>=
        fun _ => conclude c ((c.run (args.map argument)).result (processOf m memory))) m := by
  have hcaller : EStateM.run callerMemory m = .ok (some address) m := by
    rw [← haddress]
    rfl
  have hread : EStateM.run (ofOption m.store.memories[address]?) m = .ok memory m := by
    rw [hmemory]
    rfl
  refine (run_bind_of_ok hcaller).trans ?_
  refine (run_bind_of_ok (x := (get : Exec Machine)) (a := m) (t := m) rfl).trans ?_
  exact (run_bind_of_ok hread).trans rfl

theorem run_callSystem_of_unmapped {m : Machine} {address : Nat}
    (haddress : m.frame.home.bind m.store.callerMemory? = some address)
    (hmemory : m.store.memories[address]? = none) (c : Syscall) (args : List Operand) :
    EStateM.run (callSystem c args) m = .error (.failure "ill-typed code") m := by
  have hcaller : EStateM.run callerMemory m = .ok (some address) m := by
    rw [← haddress]
    rfl
  have hread : EStateM.run (ofOption m.store.memories[address]?) m =
      .error (.failure "ill-typed code") m := by
    rw [hmemory]
    rfl
  refine (run_bind_of_ok hcaller).trans ?_
  refine (run_bind_of_ok (x := (pure address : Exec Nat)) (a := address) (t := m) rfl).trans ?_
  refine (run_bind_of_ok (x := (get : Exec Machine)) (a := m) (t := m) rfl).trans ?_
  exact run_bind_of_error hread

/-- **A guest that asks for its arguments or its environment strings is given them.** -/
theorem delivers_of_run {m : Machine} {c : Syscall} {texts : List String}
    (hrun : ∀ (p : Process) (pointers buffer : Nat), p.session = m.session →
      ExceptT.run (c.run [pointers, buffer]) p =
        ExceptT.run (Sys.storeTexts pointers buffer texts) p)
    (hresults : c.type.results = [.i32]) : m.Delivers c texts := by
  intro address memory pointers buffer haddress hmemory hfits
  obtain ⟨filled, hstore, hholds, -, -⟩ := Sys.run_storeTexts (p := processOf m memory) hfits
  refine ⟨filled, hholds, ?_⟩
  have h := (hrun (processOf m memory) pointers.toNat buffer.toNat rfl).trans hstore
  rw [run_callSystem haddress hmemory]
  unfold Sys.process Sys.result
  change EStateM.run (adopt address
    (ExceptT.run (c.run [pointers.toNat, buffer.toNat]) (processOf m memory)).2 >>= fun _ =>
      conclude c (ExceptT.run (c.run [pointers.toNat, buffer.toNat]) (processOf m memory)).1) m = _
  rw [h]
  change EStateM.Result.ok (c.type.results.map fun _ => Operand.i32 0)
    (m.withMemory address filled) = _
  rw [hresults]
  rfl

theorem delivers_argsGet (m : Machine) : m.Delivers .argsGet m.session.args :=
  delivers_of_run (fun _ _ _ h => h ▸ rfl) rfl

theorem delivers_environGet (m : Machine) : m.Delivers .environGet m.session.envs :=
  delivers_of_run (fun _ _ _ h => h ▸ rfl) rfl

/-! ## Runs keep the texts -/

theorem texts_conclude (c : Syscall) (r : Except Halt Unit) :
    Keeps (SameBy Machine.texts) (conclude c r) := by
  cases r with
  | ok _ => exact Keeps.pure _
  | error e => cases e <;> first | exact Keeps.pure _ | exact Keeps.throw _

theorem texts_callSystem (c : Syscall) (args : List Operand) :
    Keeps (SameBy Machine.texts) (callSystem c args) := by
  intro m
  cases haddress : m.frame.home.bind m.store.callerMemory? with
  | none =>
    rw [ending_of_error (run_callSystem_of_memoryless haddress c args)]
    exact Std.Refl.refl m
  | some address =>
    cases hmemory : m.store.memories[address]? with
    | none =>
      rw [ending_of_error (run_callSystem_of_unmapped haddress hmemory c args)]
      exact Std.Refl.refl m
    | some memory =>
      have hrun := run_callSystem haddress hmemory c args
      have htexts := c.texts_run (args.map argument) (processOf m memory)
      unfold ending
      rw [hrun]
      exact (texts_conclude c _ _).trans htexts

theorem session_callHost (id : FunctionId) (signature : Signature) (args : List Operand) :
    Keeps (SameBy Machine.session) (callHost id signature args) := by
  intro m
  -- The session of one of two machines that stay alike may be asked to stay as it is.
  have h := steady_callHost (C := fun _ => True) (S := fun a _ => a = m.session) id signature args
    m m (.intro (s := m.session) trivial rfl)
  unfold ending
  generalize EStateM.run (callHost id signature args) m = r at h ⊢
  cases h with
  | ok a h => exact h.sessions
  | error e h => exact h.sessions

/-- **Runs keep the texts that their guests have been given**, up to each call of a host function
and to the end. -/
theorem witnessed_texts : Witnessed fun m calls _ t =>
    t.texts = m.texts ∧ ∀ c ∈ calls, c.machine.texts = m.texts where
  still _ := ⟨rfl, List.forall_mem_nil _⟩
  append h h' := by
    refine ⟨h'.1.trans h.1, fun c hc => ?_⟩
    exact (List.mem_append.mp hc).elim (h.2 c) fun hc => (h'.2 c hc).trans h.1
  within hx m := by
    refine ⟨?_, List.forall_mem_nil _⟩
    exact congrArg (fun o : Outer => o.context.session.texts) (hx.keeps m).outer
  callHost c := by
    have hsession := session_callHost c.id c.signature c.args c.machine
    refine ⟨congrArg Session.texts hsession, fun d hd => ?_⟩
    rw [List.mem_singleton.mp hd]
  callSystem c args m := ⟨texts_callSystem c args m, List.forall_mem_nil _⟩

end Exec

end Engine

end WasmEmbedding
