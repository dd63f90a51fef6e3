import WasmEmbedding.Hash.Sip
import WasmEmbedding.Text.Basic
import WasmEmbedding.Wasm.Binary.Section
import WasmEmbedding.Wasm.Binary.Type

/-! # Module images

An `Image` is the bytes of a module whose section structure is sound, together with
their fingerprint. Nobody has validated it. `imports` and `exports` list the entries
of the image: of each section those before the first that cannot be read.
-/
namespace WasmEmbedding.Wasm

/-- The bytes of a loaded module. -/
structure Image where
  bytes : List UInt8
  sections : List Binary.Section
  deriving DecidableEq, Repr

namespace Image

/-- Loads bytes: the header first, then the structure of the sections. -/
def ofBytes (bytes : List UInt8) : Except LoadFault Image := do
  return ⟨bytes, ← Binary.sections bytes⟩

/-- The fingerprint of the bytes. -/
def fingerprint (m : Image) : String :=
  Text.Hex.ofNat 16 (Hash.Sip.ofBytes m.bytes).toNat

/-- The readable entries of the sections with a given number. -/
def entries {α : Type} (m : Image) (id : UInt8) (item : Binary.Reader α) : List α :=
  m.sections.flatMap fun s =>
    if s.id = id then
      match Binary.Reader.index s.content with
      | .ok (n, rest) => Binary.Reader.prefixOf item n rest
      | .error _ => []
    else []

/-- The imports, in order. -/
def imports (m : Image) : List Import := m.entries Binary.Section.importId Binary.importEntry

/-- The exports, in order. -/
def exports (m : Image) : List Export := m.entries Binary.Section.exportId Binary.exportEntry

/-- The description of an image. -/
def describe (m : Image) : String :=
  "ModuleHandle \x7b content_hash: \"" ++ m.fingerprint ++ "\", bytes_len: " ++
    toString m.bytes.length ++ ", .. \x7d"

end Image

end WasmEmbedding.Wasm
