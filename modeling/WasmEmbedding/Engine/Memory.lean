import WasmEmbedding.Wasm.Types

/-! # Linear memories

A `Memory` is a row of pages of 65536 bytes. `byteAt` is what it holds, and the other
operations are told by it: `read` and `write` move a run of bytes that lies inside, or
nothing at all, and `grow` appends zero pages. Untouched pages are one shared value.
-/
namespace WasmEmbedding.Engine

open Wasm (pageBytes)

/-- A page of zeros. -/
def zeroPage : ByteArray := ⟨Array.replicate pageBytes 0⟩

theorem size_set! (page : ByteArray) (i : Nat) (b : UInt8) : (page.set! i b).size = page.size :=
  Array.size_setIfInBounds

@[simp] theorem size_zeroPage : zeroPage.size = pageBytes := by
  simp [zeroPage, ByteArray.size]

/-- A linear memory. -/
structure Memory where
  pages : Array ByteArray
  /-- The declared maximum, in pages. -/
  maximum : Option Nat
  shared : Bool
  sized : ∀ i (h : i < pages.size), pages[i].size = pageBytes

namespace Memory

/-- A memory of zeros. -/
def zeros (count : Nat) (maximum : Option Nat) (shared : Bool) : Memory where
  pages := Array.replicate count zeroPage
  maximum
  shared
  sized i h := by rw [Array.getElem_replicate, size_zeroPage]

instance : Inhabited Memory := ⟨zeros 0 none false⟩

/-- The count of pages. -/
def pageCount (m : Memory) : Nat := m.pages.size

/-- The count of bytes. -/
def size (m : Memory) : Nat := m.pages.size * pageBytes

/-- The byte at an address; zero beyond the end. -/
def byteAt (m : Memory) (i : Nat) : UInt8 :=
  match m.pages[i / pageBytes]? with
  | some page => page.get! (i % pageBytes)
  | none => 0

/-- Puts a byte at an address inside. -/
def setByte (m : Memory) (i : Nat) (b : UInt8) : Memory where
  pages := m.pages.modify (i / pageBytes) fun page => page.set! (i % pageBytes) b
  maximum := m.maximum
  shared := m.shared
  sized j h := by
    have h' : j < m.pages.size := by simpa using h
    rw [Array.getElem_modify]
    split
    · rw [size_set!]
      exact m.sized j h'
    · exact m.sized j h'

/-- A run of bytes lies inside. -/
def covers (m : Memory) (address count : Nat) : Bool := address + count ≤ m.size

/-- The bytes from an address on, last address first in the work list. -/
def bytesFrom (m : Memory) (address : Nat) : Nat → List UInt8 → List UInt8
  | 0, acc => acc
  | n + 1, acc => bytesFrom m address n (m.byteAt (address + n) :: acc)

/-- The bytes of a run that lies inside. -/
def read (m : Memory) (address count : Nat) : Option (List UInt8) :=
  if m.covers address count then some (m.bytesFrom address count []) else none

/-- Puts bytes one after the other. -/
def setBytes (m : Memory) (address : Nat) : List UInt8 → Memory
  | [] => m
  | b :: rest => (m.setByte address b).setBytes (address + 1) rest

/-- Replaces a run of bytes that lies inside. -/
def write (m : Memory) (address : Nat) (bytes : List UInt8) : Option Memory :=
  if m.covers address bytes.length then some (m.setBytes address bytes) else none

/-- Puts the same byte at many addresses. -/
def setRun (m : Memory) (address : Nat) (b : UInt8) : Nat → Memory
  | 0 => m
  | n + 1 => (m.setByte address b).setRun (address + 1) b n

/-- Appends zero pages. -/
def append (m : Memory) (count : Nat) : Memory where
  pages := m.pages ++ Array.replicate count zeroPage
  maximum := m.maximum
  shared := m.shared
  sized i h := by
    rw [Array.getElem_append]
    split
    · exact m.sized i _
    · rw [Array.getElem_replicate, size_zeroPage]

/-- The pages that the memory may have at most, under a cap in bytes. -/
def allows (m : Memory) (cap : Option Nat) (count : Nat) : Bool :=
  count ≤ Wasm.maxPages && m.maximum.all (count ≤ ·) && cap.all (count * pageBytes ≤ ·)

/-- Appends pages if the memory may have them. -/
def grow (m : Memory) (cap : Option Nat) (count : Nat) : Option Memory :=
  if count = 0 then some m
  else if m.allows cap (m.pageCount + count) then some (m.append count)
  else none

/-- The number that bytes stand for, the lowest first. -/
def ofBytes : List UInt8 → Nat
  | [] => 0
  | b :: rest => b.toNat + 256 * ofBytes rest

/-- The lowest bytes of a number, the lowest first. -/
def toBytes : Nat → Nat → List UInt8
  | 0, _ => []
  | count + 1, n => UInt8.ofNat (n % 256) :: toBytes count (n / 256)

end Memory

end WasmEmbedding.Engine
