import WasmEmbedding.Wasm.Binary.Reader
import WasmEmbedding.Wasm.Types

/-! # Types in binary modules

Every type that has a binary form is read, whether or not an engine accepts it.
-/
namespace WasmEmbedding.Wasm.Binary

/-- The byte of an abstract heap type. -/
def abstractHeap? : UInt8 → Option AbstractHeap
  | 0x70 => some .func
  | 0x6F => some .external
  | 0x6E => some .any
  | 0x71 => some .none
  | 0x72 => some .noExternal
  | 0x73 => some .noFunc
  | 0x6D => some .eq
  | 0x6B => some .struct
  | 0x6A => some .array
  | 0x6C => some .i31
  | 0x69 => some .exception
  | 0x74 => some .noException
  | 0x68 => some .continuation
  | 0x75 => some .noContinuation
  | _ => none

/-- The largest index of a type that a reference can name. -/
def maxTypeIndex : Nat := 0xFFFFF

/-- An abstract heap type. -/
def abstractHeap : Reader AbstractHeap := do
  match abstractHeap? (← Reader.byte) with
  | some h => return h
  | none => throw "invalid abstract heap type"

/-- A heap type: a shared mark and an abstract type, an abstract type, or an index. -/
def heapType : Reader HeapType := do
  let b ← Reader.peek
  if b = 0x65 then
    let _ ← Reader.byte
    return .abstract true (← abstractHeap)
  else if (abstractHeap? b).isSome then return .abstract false (← abstractHeap)
  else
    let n ← Reader.signed 33
    if n < 0 then throw "invalid indexed ref heap type"
    else if maxTypeIndex < n.toNat then throw "type index greater than implementation limits"
    else return .concrete n.toNat

/-- A reference type: a mark for its nullability and a heap type, or the short form of
a nullable one. -/
def refType : Reader RefType := do
  let b ← Reader.peek
  if b = 0x63 ∨ b = 0x64 then
    let _ ← Reader.byte
    return ⟨b = 0x63, ← heapType⟩
  else if b = 0x65 then
    let _ ← Reader.byte
    return ⟨true, .abstract true (← abstractHeap)⟩
  else return ⟨true, .abstract false (← abstractHeap)⟩

/-- The type of an operand. -/
def valType : Reader ValType := do
  let plain (t : ValType) : Reader ValType := do
    let _ ← Reader.byte
    return t
  match ← Reader.peek with
  | 0x7F => plain .i32
  | 0x7E => plain .i64
  | 0x7D => plain .f32
  | 0x7C => plain .f64
  | 0x7B => plain .v128
  | _ => return .ref (← refType)

/-- A size range: flags in which the lowest bit stands for a maximum, numbers of the
width that the flags choose. -/
def limits (flags : Nat) (wide : Bool) : Reader Limits := do
  let number : Reader Nat := Reader.unsigned (if wide then 64 else 32)
  let min ← number
  if flags % 2 = 1 then return ⟨min, some (← number)⟩
  else return ⟨min, none⟩

/-- A table type. -/
def tableType : Reader TableType := do
  let element ← refType
  let flags := (← Reader.byte).toNat
  if 8 ≤ flags then throw "invalid table resizable limits flags"
  let wide := flags / 4 % 2 = 1
  return ⟨element, ← limits flags wide, wide, flags / 2 % 2 = 1⟩

/-- A memory type. -/
def memoryType : Reader MemoryType := do
  let flags := (← Reader.byte).toNat
  if 16 ≤ flags then throw "invalid memory limits flags"
  let wide := flags / 4 % 2 = 1
  let range ← limits flags wide
  let pageSize ← if 8 ≤ flags then (do return some (← Reader.index)) else pure none
  return ⟨range, wide, flags / 2 % 2 = 1, pageSize⟩

/-- A global type. -/
def globalType : Reader GlobalType := do
  let content ← valType
  let flags := (← Reader.byte).toNat
  if 4 ≤ flags then throw "malformed mutability"
  return ⟨content, flags % 2 = 1, 2 ≤ flags⟩

/-- A tag's type: an attribute that must be zero, and the index of a function type. -/
def tagType : Reader Nat := do
  if (← Reader.byte) ≠ 0 then throw "invalid tag attributes"
  Reader.index

/-- An import entry. -/
def importEntry : Reader Import := do
  let moduleName ← Reader.name
  let name ← Reader.name
  match ← Reader.byte with
  | 0 => return ⟨moduleName, name, .function (← Reader.index)⟩
  | 1 => return ⟨moduleName, name, .table (← tableType)⟩
  | 2 => return ⟨moduleName, name, .memory (← memoryType)⟩
  | 3 => return ⟨moduleName, name, .global (← globalType)⟩
  | 4 => return ⟨moduleName, name, .tag (← tagType)⟩
  | _ => throw "invalid external kind"

/-- The kind of an export. -/
def externalKind : Reader ExternalKind := do
  match ← Reader.byte with
  | 0 => return .function
  | 1 => return .table
  | 2 => return .memory
  | 3 => return .global
  | 4 => return .tag
  | _ => throw "invalid external kind"

/-- An export entry. -/
def exportEntry : Reader Export := do
  let name ← Reader.name
  let kind ← externalKind
  return ⟨name, kind, ← Reader.index⟩

end WasmEmbedding.Wasm.Binary
