import WasmEmbedding.Wasm.Wat.Segment

/-! # Fields of the text format

A module is a list of fields. A first look finds what each of them declares (`declared`)
and the function types that are defined, so that a field may use what comes after it;
the second one adds the fields to a draft, in order (`Draft.add`).
-/
namespace WasmEmbedding.Wasm.Wat

open Binary

/-- The kind of what a field declares, by the word that begins it. -/
def space? : String → Option Space
  | "type" => some .type
  | "func" => some .function
  | "table" => some .table
  | "memory" => some .memory
  | "global" => some .global
  | "tag" => some .tag
  | "elem" => some .element
  | "data" => some .data
  | _ => none

/-- The kind of what an import or an export names. -/
def externalSpace (head : String) : Except String Space :=
  match space? head with
  | some s => if (Draft.kind? s).isSome then return s else throw "unexpected kind"
  | none => throw "unexpected kind"

/-- What a field declares: its kind and its name. -/
def declared : Tree → Except String Names
  | .list (.word head :: items) => do
    match space? head, head with
    | some s, _ =>
      let (naming, _) ← Naming.read items
      return [(s, naming)]
    | none, "import" =>
      match items with
      | [_, _, .list (.word kind :: inner)] =>
        let (naming, _) ← Naming.read inner
        return [(← externalSpace kind, naming)]
      | _ => throw "malformed import"
    | none, _ => if head = "export" ∨ head = "start" then return [] else throw "unknown field"
  | _ => throw "field expected"

/-- The function type that a field defines. -/
def definedType? (names : Names) : Tree → Except String (Option FuncType)
  | .list (.word "type" :: items) => do
    let type : Items FuncType := do
      let _ ← Naming.read
      let s ← Items.inside "func" (signature? names true)
      return (s.map Signature.type).getD ⟨[], []⟩
    return some (← Items.whole type items)
  | _ => return none

/-- What stands between the name of a definition and its content: the names that it is
exported by, and where it is imported from. -/
structure Header where
  exports : List String
  origin : Option (String × String)

/-- Reads the name of a definition and what follows it. -/
def header : Items Header := do
  let _ ← Naming.read
  let exports ← Items.lists ["export"] fun _ => Items.text
  let origin ← Items.inside? "import" do return (← Items.text, ← Items.text)
  return ⟨exports, origin⟩

/-- Groups of equal neighbours: how many, and what they are. -/
def groups (ts : List ValType) : List (Nat × ValType) :=
  ts.foldr (fun t acc =>
    match acc with
    | (n, u) :: rest => if t = u then (n + 1, u) :: rest else (1, t) :: acc
    | [] => [(1, t)]) []

/-- What listings show for declarations, counted from the first. -/
def shownAmong (ns : List Naming) : List (Nat × String) :=
  ns.zipIdx.filterMap fun (naming, i) => naming.label.map fun s => (i, s)

namespace Draft

/-- Adds the names inside a function, if it has any. -/
def nameInside (function : Nat) (shown : List (Nat × String)) (all : InnerNames) : InnerNames :=
  if shown.isEmpty then all else all ++ [(function, shown)]

/-- The names of a function's parameters; a type that is given by its index alone says
only how many there are. -/
def parameterNames (d : Draft) (use : TypeUse) : List (Option String) :=
  match use.signature, use.index with
  | some s, _ => s.params.map fun p => p.1.name
  | none, some i => ((d.table.types[i]?.map FuncType.params).getD []).map fun _ => none
  | none, none => []

/-- A function: its type, its locals and its code. -/
def addFunction (d : Draft) (names : Names) (use : TypeUse) (locals : List (Naming × ValType))
    (code : List Tree) : Except String Draft := do
  let inScope := d.parameterNames use ++ locals.map fun l => l.1.name
  if !isUnambiguous inScope then throw "duplicate local"
  let function := d.next .function
  let (type, d) := d.typeIndex use
  let body ← steps ⟨names, inScope⟩ code
  let (bytes, a, d) ← d.assemble body
  let groups := (groups (locals.map Prod.snd)).map fun (n, t) =>
    Write.unsigned n ++ Write.valType t
  let params := (use.signature.map Signature.params).getD []
  return { d with
    functions := d.functions ++ [Write.unsigned type]
    bodies := d.bodies ++ [Write.sized (Write.vector groups ++ bytes)]
    localNames := nameInside function (shownAmong ((params ++ locals).map Prod.fst)) d.localNames
    blockNames := nameInside function a.shown.reverse d.blockNames
    isClosed := true }.declare .function

/-- Adds a table. -/
def addTable (d : Draft) (entry : List UInt8) : Draft :=
  { d with tables := d.tables ++ [entry], isClosed := true }.declare .table

/-- Adds a memory. -/
def addMemory (d : Draft) (type : MemoryType) : Draft :=
  { d with memories := d.memories ++ [Write.memoryType type], isClosed := true }.declare .memory

/-- A function field. -/
def functionField (d : Draft) (names : Names) : Items Draft := do
  let h ← header
  let d := d.exportNext .function h.exports
  let use ← TypeUse.read names true
  match h.origin with
  | some origin =>
    let (type, d) := d.typeIndex use
    liftM (d.addImport origin (.function type))
  | none =>
    let locals ← Items.lists ["local"] fun _ => named (valType names)
    liftM (d.addFunction names use locals.flatten (← remaining))

/-- A table that is declared together with its contents, which fill it. -/
def filledTable (d : Draft) (names : Names) (wide shared : Bool) : Items Draft := do
  let type ← refType names
  let xs ← Items.inside "elem" (tableContents names type)
  let table := d.next .table
  let d := d.addTable (Write.tableType ⟨type, ⟨xs.length, some xs.length⟩, wide, shared⟩)
  let start : Literal := if wide then .i64 0 else .i32 0
  liftM (d.addElements (.active (some table) [.instr (.op (.const start))]) xs)

/-- A table field. -/
def tableField (d : Draft) (names : Names) : Items Draft := do
  let h ← header
  let d := d.exportNext .table h.exports
  match h.origin with
  | some origin => liftM (d.addImport origin (.table (← tableType names)))
  | none =>
    let shared ← Items.takesWord "shared"
    let wide ← isWide
    if ← isNumberNext then
      let range ← limits wide
      let type := Write.tableType ⟨← refType names, range, wide, shared⟩
      if ← Items.isDone then return d.addTable type
      else
        let (start, d) ← liftM (d.constant (← expression names))
        return d.addTable (0x40 :: 0x00 :: type ++ start)
    else d.filledTable names wide shared

/-- A memory that is declared together with its contents, which fill its pages. -/
def filledMemory (d : Draft) (wide : Bool) : Items Draft := do
  let page ← pageSizeLog
  let bytes ← Items.inside "data" dataBytes
  let size := (page.map (Nat.pow 2)).getD pageBytes
  let pages := (bytes.length + size - 1) / size
  let memory := d.next .memory
  let d := d.addMemory ⟨⟨pages, some pages⟩, wide, false, page⟩
  let start : Literal := if wide then .i64 0 else .i32 0
  liftM (d.addData (.active (some memory) [.instr (.op (.const start))]) bytes)

/-- A memory field. -/
def memoryField (d : Draft) : Items Draft := do
  let h ← header
  let d := d.exportNext .memory h.exports
  match h.origin with
  | some origin => liftM (d.addImport origin (.memory (← memoryType)))
  | none =>
    let wide ← isWide
    if ← isNumberNext then
      let range ← limits wide
      let shared ← Items.takesWord "shared"
      return d.addMemory ⟨range, wide, shared, ← pageSizeLog⟩
    else d.filledMemory wide

/-- A global field. -/
def globalField (d : Draft) (names : Names) : Items Draft := do
  let h ← header
  let d := d.exportNext .global h.exports
  let type ← globalType names
  match h.origin with
  | some origin => liftM (d.addImport origin (.global type))
  | none =>
    let (start, d) ← liftM (d.constant (← expression names))
    return { d with
      globals := d.globals ++ [Write.globalType type ++ start]
      isClosed := true }.declare .global

/-- A tag field. -/
def tagField (d : Draft) (names : Names) : Items Draft := do
  let h ← header
  let (type, d) := (d.exportNext .tag h.exports).typeIndex (← TypeUse.read names true)
  match h.origin with
  | some origin => liftM (d.addImport origin (.tag type))
  | none => return { d with tags := d.tags ++ [Write.tagType type] }.declare .tag

/-- The type of what an import names, and the draft in which it has a place. -/
def importType (d : Draft) (names : Names) (s : Space) : Items (ImportType × Draft) := do
  let _ ← Naming.read
  match s with
  | .function =>
    let (type, d) := d.typeIndex (← TypeUse.read names true)
    return (.function type, d)
  | .tag =>
    let (type, d) := d.typeIndex (← TypeUse.read names true)
    return (.tag type, d)
  | .table => return (.table (← tableType names), d)
  | .memory => return (.memory (← memoryType), d)
  | .global => return (.global (← globalType names), d)
  | _ => throw "unexpected kind"

/-- The word that begins the next list, which names a kind of imports and exports. -/
def externalHead : Items (String × Space) := do
  match ← Items.head? with
  | some head => return (head, ← liftM (externalSpace head))
  | none => throw "list expected"

/-- An import field. -/
def importField (d : Draft) (names : Names) : Items Draft := do
  let origin := (← Items.text, ← Items.text)
  let (head, s) ← externalHead
  let (type, d) ← Items.inside head (d.importType names s)
  liftM (d.addImport origin type)

/-- An export field. -/
def exportField (d : Draft) (names : Names) : Items Draft := do
  let name ← Items.text
  let (head, s) ← externalHead
  return d.addExport name s (← Items.inside head (names.index s))

/-- A start field; there may be one. -/
def startField (d : Draft) (names : Names) : Items Draft := do
  if d.start.isSome then throw "multiple start fields"
  return { d with start := some (← names.index .function) }

/-- An element field. -/
def elementField (d : Draft) (names : Names) : Items Draft := do
  let _ ← Naming.read
  if ← Items.takesWord "declare" then liftM (d.addElements .declared (← segmentElements names))
  else
    let isActive ←
      match ← Items.peek? with
      | some (.list (.word "ref" :: _)) => pure false
      | some (.list _) => pure true
      | _ => isNumberNext
    let place ← if isActive then active names .table "table" else pure .passive
    liftM (d.addElements place (← segmentElements names))

/-- A data field. -/
def dataField (d : Draft) (names : Names) : Items Draft := do
  let _ ← Naming.read
  let place ← if ← isStringNext then pure .passive else active names .memory "memory"
  liftM (d.addData place (← dataBytes))

/-- The field that begins with a word. -/
def field (d : Draft) (names : Names) (head : String) : Items Draft := do
  match head with
  | "type" =>
    let _ ← remaining
    return d
  | "func" => d.functionField names
  | "table" => d.tableField names
  | "memory" => d.memoryField
  | "global" => d.globalField names
  | "tag" => d.tagField names
  | "import" => d.importField names
  | "export" => d.exportField names
  | "start" => d.startField names
  | "elem" => d.elementField names
  | "data" => d.dataField names
  | _ => throw "unknown field"

/-- Adds a field. -/
def add (names : Names) (d : Draft) : Tree → Except String Draft
  | .list (.word head :: items) => Items.whole (d.field names head) items
  | _ => throw "field expected"

end Draft

end WasmEmbedding.Wasm.Wat
