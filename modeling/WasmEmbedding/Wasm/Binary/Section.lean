import WasmEmbedding.Error
import WasmEmbedding.Wasm.Binary.Reader

/-! # Sections of a binary module

A binary module is an eight-byte header and sections, each of which is a number, a
size and that many bytes. `split` cuts the bytes into sections, and `Section.check`
looks as far into each one as loading does: lists must begin with their count, the
bodies of the code section must fill it, and the sections that hold one number must
hold nothing else. Order, unknown numbers and all entries are for validation.
-/
namespace WasmEmbedding.Wasm.Binary

/-- A section. -/
structure Section where
  id : UInt8
  content : List UInt8
  deriving DecidableEq, Repr

namespace Section

/-- The numbers of the known sections. -/
def customId : UInt8 := 0
def typeId : UInt8 := 1
def importId : UInt8 := 2
def functionId : UInt8 := 3
def tableId : UInt8 := 4
def memoryId : UInt8 := 5
def globalId : UInt8 := 6
def exportId : UInt8 := 7
def startId : UInt8 := 8
def elementId : UInt8 := 9
def codeId : UInt8 := 10
def dataId : UInt8 := 11
def dataCountId : UInt8 := 12
def tagId : UInt8 := 13

/-- One section off the front. -/
def read : Reader Section := do
  let id ← Reader.byte
  if 0x80 ≤ id then throw "malformed section id"
  let size ← Reader.index
  return ⟨id, ← Reader.take size⟩

/-- A function body off the front: a size and that many bytes. -/
def body : Reader (List UInt8) := do
  Reader.take (← Reader.index)

/-- Reads all bodies of a code section. -/
def bodies (content : List UInt8) : Except String (List (List UInt8)) :=
  Reader.whole (Reader.vector body) content

/-- The numbers of the sections that begin with a count. -/
def countedIds : List UInt8 :=
  [typeId, importId, functionId, tableId, memoryId, globalId, exportId, elementId, dataId, tagId]

/-- What loading asks of a section. -/
def check (s : Section) : Except String Unit :=
  if s.id = customId then (Reader.name s.content).map fun _ => ()
  else if s.id = startId ∨ s.id = dataCountId then
    (Reader.whole Reader.index s.content).map fun _ => ()
  else if s.id = codeId then (bodies s.content).map fun _ => ()
  else if s.id ∈ countedIds then (Reader.index s.content).map fun _ => ()
  else .ok ()

end Section

/-- Cuts the bytes after the header into sections. Fuel bounds their number; a section
has two bytes at least. -/
def splitFrom : Nat → List UInt8 → Except String (List Section)
  | _, [] => .ok []
  | 0, _ :: _ => .error "unexpected end"
  | fuel + 1, bytes => do
    let (s, rest) ← Section.read bytes
    return s :: (← splitFrom fuel rest)

/-- Cuts the bytes after the header into sections. -/
def split (bytes : List UInt8) : Except String (List Section) :=
  splitFrom bytes.length bytes

/-- The first half of the header. -/
def magic : List UInt8 := [0x00, 0x61, 0x73, 0x6D]

/-- The second half of the header. -/
def version : List UInt8 := [0x01, 0x00, 0x00, 0x00]

/-- The header, which is looked at before any section. -/
def checkHeader (bytes : List UInt8) : Except LoadFault Unit :=
  if bytes.length < 8 then .error .tooSmall
  else if bytes.take 4 ≠ magic then .error .badMagic
  else if (bytes.drop 4).take 4 ≠ version then .error .badVersion
  else .ok ()

/-- The sections of a binary module, each checked as loading does. -/
def sections (bytes : List UInt8) : Except LoadFault (List Section) := do
  checkHeader bytes
  match (do
    let parts ← split (bytes.drop 8)
    parts.forM Section.check
    return parts) with
  | .ok parts => return parts
  | .error diagnostic => throw (.malformed diagnostic)

end WasmEmbedding.Wasm.Binary
