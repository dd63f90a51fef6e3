import WasmEmbedding.Wasm.Image
import WasmEmbedding.Wasm.Wat.Field

/-! # Modules in the text format

`assemble` puts a text into the binary form. A text is one module in parentheses, or its
fields without them; a module may also be spelled out as bytes. A text that stands for a
component has the header of one, which no module loads with.
-/
namespace WasmEmbedding.Wasm

namespace Wat

open Binary

/-- Puts the fields of a module into bytes. -/
def moduleOfFields (naming : Naming) (fields : List Tree) : Except String (List UInt8) := do
  let names : Names := (← fields.mapM declared).flatten
  if !names.isSound then throw "duplicate name"
  let types := (← fields.mapM (definedType? names)).filterMap id
  let d ← fields.foldlM (Draft.add names) { table := ⟨types, []⟩ }
  if !d.table.isSound then throw "inline type does not match the type it names"
  return d.bytes naming.label names

/-- Puts what follows the word of a module into bytes. -/
def moduleBytes : Items (List UInt8) := do
  let naming ← Naming.read
  if ← Items.takesWord "binary" then return (← Items.each Items.string).flatten
  else liftM (moduleOfFields naming (← remaining))

/-- The header of a component. -/
def componentHeader : List UInt8 := magic ++ [0x0D, 0x00, 0x01, 0x00]

/-- Puts a text into bytes. -/
def assemble (text : String) : Except String (List UInt8) := do
  match ← Tree.ofTokens (← Token.ofText text) with
  | [] => throw "nothing to assemble"
  | .list (.word "module" :: items) :: rest =>
    if rest.isEmpty then Items.whole moduleBytes items else throw "extra tokens"
  | .list (.word "component" :: _) :: rest =>
    if rest.isEmpty then return componentHeader else throw "extra tokens"
  | fields => moduleOfFields .none fields

end Wat

/-- Loads a text: puts it into bytes and loads those. -/
def Image.ofText (text : String) : Except LoadFault Image :=
  match Wat.assemble text with
  | .ok bytes => Image.ofBytes bytes
  | .error diagnostic => throw (.badText diagnostic)

end WasmEmbedding.Wasm
