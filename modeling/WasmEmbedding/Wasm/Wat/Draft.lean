import WasmEmbedding.Wasm.Wat.Assembly

/-! # Drafts of modules

A `Draft` is a module while its fields are being read: the entries of its sections, each
already in its binary form, and what listings show for the things that have names. At
the end `bytes` puts the sections in their order, those without entries left out, and
the names behind them.
-/
namespace WasmEmbedding.Wasm.Wat

open Binary

/-- The names that listings show inside functions: by function, by local or block. -/
abbrev InnerNames := List (Nat × List (Nat × String))

/-- A module while its fields are being read. The entries are in order. -/
structure Draft where
  table : TypeTable
  imports : List (List UInt8) := []
  functions : List (List UInt8) := []
  tables : List (List UInt8) := []
  memories : List (List UInt8) := []
  tags : List (List UInt8) := []
  globals : List (List UInt8) := []
  exports : List (List UInt8) := []
  start : Option Nat := none
  elements : List (List UInt8) := []
  bodies : List (List UInt8) := []
  datas : List (List UInt8) := []
  /-- What has an index so far. -/
  declared : List Space := []
  /-- Something has been defined behind which no import may follow. -/
  isClosed : Bool := false
  /-- Some code mentions a data segment. -/
  mentionsData : Bool := false
  localNames : InnerNames := []
  blockNames : InnerNames := []

namespace Draft

/-- The index that the next thing of a kind gets. -/
def next (d : Draft) (s : Space) : Nat := d.declared.count s

/-- Gives out the next index of a kind. -/
def declare (d : Draft) (s : Space) : Draft := { d with declared := s :: d.declared }

/-- The index of a function type where one is needed. -/
def typeIndex (d : Draft) (use : TypeUse) : Nat × Draft :=
  let (i, table) := d.table.settle use
  (i, { d with table })

/-- Puts a row of steps into bytes. -/
def assemble (d : Draft) (steps : List Step) : Except String (List UInt8 × Assembly × Draft) := do
  let (bytes, a) ← Assemble.expression steps (.start d.table)
  return (bytes, a, { d with
    table := a.table
    mentionsData := d.mentionsData || steps.any Step.mentionsData })

/-- Puts a constant expression into bytes. -/
def constant (d : Draft) (steps : List Step) : Except String (List UInt8 × Draft) := do
  let (bytes, _, d) ← d.assemble steps
  return (bytes, d)

/-- Puts constant expressions into bytes. -/
def constants (d : Draft) : List (List Step) → Except String (List (List UInt8) × Draft)
  | [] => return ([], d)
  | x :: xs => do
    let (first, d) ← d.constant x
    let (others, d) ← d.constants xs
    return (first :: others, d)

/-- The kind of the things in a space, if they can be imported and exported. -/
def kind? : Space → Option ExternalKind
  | .function => some .function
  | .table => some .table
  | .memory => some .memory
  | .global => some .global
  | .tag => some .tag
  | _ => none

/-- Adds an export. -/
def addExport (d : Draft) (name : String) (s : Space) (index : Nat) : Draft :=
  match kind? s with
  | some kind => { d with exports := d.exports ++ [Write.exportEntry ⟨name, kind, index⟩] }
  | none => d

/-- Exports what gets the next index of a kind. -/
def exportNext (d : Draft) (s : Space) (names : List String) : Draft :=
  names.foldl (fun d name => d.addExport name s (d.next s)) d

/-- The kind of things that an import adds to. -/
def spaceOf : ImportType → Space
  | .function _ => .function
  | .table _ => .table
  | .memory _ => .memory
  | .global _ => .global
  | .tag _ => .tag

/-- Adds an import, unless definitions have begun. -/
def addImport (d : Draft) (origin : String × String) (type : ImportType) :
    Except String Draft := do
  if d.isClosed then throw "import after a definition"
  let entry := Write.importEntry ⟨origin.1, origin.2, type⟩
  return { d with imports := d.imports ++ [entry] }.declare (spaceOf type)

/-- The bytes of a section with entries, if it has any. -/
def counted (id : UInt8) (entries : List (List UInt8)) : List UInt8 :=
  if entries.isEmpty then [] else Write.framed ⟨id, Write.vector entries⟩

/-- The bytes of a section that is one number, if there is one. -/
def single (id : UInt8) (n : Option Nat) : List UInt8 :=
  match n with
  | some n => Write.framed ⟨id, Write.unsigned n⟩
  | none => []

/-- Names by index. -/
def nameMap (names : List (Nat × String)) : List UInt8 :=
  Write.vector (names.map fun (i, s) => Write.unsigned i ++ Write.name s)

/-- A part of the names, unless it is empty. -/
def namePart {α : Type} (id : UInt8) (names : List α) (content : List α → List UInt8) :
    List UInt8 :=
  if names.isEmpty then [] else id :: Write.sized (content names)

/-- What listings show for the things of a kind. -/
def shown (names : Names) (s : Space) : List (Nat × String) :=
  (names.inSpace s).zipIdx.filterMap fun (naming, i) => naming.label.map fun s => (i, s)

/-- The bytes of the names, without what frames them. -/
def nameParts (d : Draft) (moduleName : Option String) (names : Names) : List UInt8 :=
  let inner (ns : InnerNames) :=
    Write.vector (ns.map fun (i, names) => Write.unsigned i ++ nameMap names)
  namePart 0 moduleName.toList (fun ns => ns.flatMap Write.name) ++
  namePart 1 (shown names .function) nameMap ++
  namePart 2 d.localNames inner ++
  namePart 3 d.blockNames inner ++
  namePart 4 (shown names .type) nameMap ++
  namePart 5 (shown names .table) nameMap ++
  namePart 6 (shown names .memory) nameMap ++
  namePart 7 (shown names .global) nameMap ++
  namePart 8 (shown names .element) nameMap ++
  namePart 9 (shown names .data) nameMap ++
  namePart 11 (shown names .tag) nameMap

/-- The section that holds the names, if there are any. -/
def nameSection (parts : List UInt8) : List UInt8 :=
  if parts.isEmpty then [] else Write.framed ⟨Section.customId, Write.name "name" ++ parts⟩

/-- The bytes of the module. -/
def bytes (d : Draft) (moduleName : Option String) (names : Names) : List UInt8 :=
  magic ++ version ++
  counted Section.typeId (d.table.types.map Write.funcType) ++
  counted Section.importId d.imports ++
  counted Section.functionId d.functions ++
  counted Section.tableId d.tables ++
  counted Section.memoryId d.memories ++
  counted Section.tagId d.tags ++
  counted Section.globalId d.globals ++
  counted Section.exportId d.exports ++
  single Section.startId d.start ++
  counted Section.elementId d.elements ++
  single Section.dataCountId (if d.mentionsData then some d.datas.length else none) ++
  counted Section.codeId d.bodies ++
  counted Section.dataId d.datas ++
  nameSection (d.nameParts moduleName names)

end Draft

end WasmEmbedding.Wasm.Wat
