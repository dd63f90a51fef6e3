import WasmEmbedding.Wasm.Types
import WasmEmbedding.Wasm.Wat.Names

/-! # Types of the text format

A function type may be given by an index, spelled out, or both, in which case the two
must agree. `TypeUse` is what was written; `TypeTable` settles it. A type that was only
spelled out is the first equal one of the module, or a new one behind all others.
-/
namespace WasmEmbedding.Wasm.Wat

/-- The heap types that a module need not define. -/
def abstractHeaps : List AbstractHeap :=
  [.func, .external, .any, .none, .noExternal, .noFunc, .eq, .struct, .array, .i31, .exception,
    .noException, .continuation, .noContinuation]

/-- The short names of nullable references. -/
def shortRefs : List (String × AbstractHeap) := [
  ("funcref", .func), ("anyfunc", .func), ("externref", .external), ("anyref", .any),
  ("eqref", .eq), ("i31ref", .i31), ("structref", .struct), ("arrayref", .array),
  ("exnref", .exception), ("contref", .continuation), ("nullref", .none),
  ("nullfuncref", .noFunc), ("nullexternref", .noExternal), ("nullexnref", .noException),
  ("nullcontref", .noContinuation)]

/-- A heap type. -/
def heapType (names : Names) : Items HeapType := do
  if let some h ← Items.inside? "shared" Items.word then
    match abstractHeaps.find? fun a => a.text = h with
    | some h => return .abstract true h
    | none => throw "heap type expected"
  match ← Items.peek? with
  | some (.word s) =>
    match abstractHeaps.find? fun h => h.text = s with
    | some h =>
      let _ ← Items.word
      return .abstract false h
    | none => return .concrete (← names.index .type)
  | _ => return .concrete (← names.index .type)

/-- A reference type, if one comes next. -/
def refType? (names : Names) : Items (Option RefType) := do
  match ← Items.peek? with
  | some (.word s) =>
    match shortRefs.lookup s with
    | some h =>
      let _ ← Items.word
      return some (.null h)
    | none => return none
  | _ =>
    Items.inside? "ref" do
      let nullable ← Items.takesWord "null"
      return ⟨nullable, ← heapType names⟩

/-- A reference type. -/
def refType (names : Names) : Items RefType := do
  match ← refType? names with
  | some r => return r
  | none => throw "reference type expected"

/-- The type of an operand. -/
def valType (names : Names) : Items ValType := do
  match ← refType? names with
  | some r => return .ref r
  | none =>
    match ← Items.word with
    | "i32" => return .i32
    | "i64" => return .i64
    | "f32" => return .f32
    | "f64" => return .f64
    | "v128" => return .v128
    | _ => throw "value type expected"

/-- Whether the number of an index or a size comes next. -/
def isNumberNext : Items Bool := do
  match ← Items.peek? with
  | some (.word s) => return (Number.integer? s).isSome
  | _ => return false

/-- An unsigned number of so many bits. -/
def unsigned (bits : Nat) : Items Nat := do
  match Number.unsigned? bits (← Items.word) with
  | some n => return n
  | none => throw "number out of range"

/-- The width of addresses, which may be left out: whether it is the wide one. -/
def isWide : Items Bool := do
  if ← Items.takesWord "i64" then return true
  else
    let _ ← Items.takesWord "i32"
    return false

/-- A size range. -/
def limits (wide : Bool) : Items Limits := do
  let bits := if wide then 64 else 32
  let min ← unsigned bits
  return ⟨min, ← if ← isNumberNext then some <$> unsigned bits else pure none⟩

/-- A table type. -/
def tableType (names : Names) : Items TableType := do
  let shared ← Items.takesWord "shared"
  let wide ← isWide
  let range ← limits wide
  return ⟨← refType names, range, wide, shared⟩

/-- The size of pages that a memory may choose, a power of two: its exponent. -/
def pageSizeLog : Items (Option Nat) :=
  Items.inside? "pagesize" do
    let n ← unsigned 32
    if n = Nat.pow 2 n.log2 then return n.log2 else throw "invalid custom page size"

/-- A memory type. -/
def memoryType : Items MemoryType := do
  let wide ← isWide
  let range ← limits wide
  let shared ← Items.takesWord "shared"
  return ⟨range, wide, shared, ← pageSizeLog⟩

/-- A global type. -/
def globalType (names : Names) : Items GlobalType := do
  match ← Items.inside? "mut" (valType names) with
  | some t => return ⟨t, true, false⟩
  | none => return ⟨← valType names, false, false⟩

/-- What is declared by one item with a name, or by many without. -/
def named {α : Type} (item : Items α) : Items (List (Naming × α)) := do
  if ← Items.isDone then return []
  else
    let naming ← Naming.read
    if naming = .none then return (← Items.each item).map fun x => (.none, x)
    else return [(naming, ← item)]

/-- A function type and the names of its parameters. -/
structure Signature where
  params : List (Naming × ValType)
  results : List ValType

/-- The function type of a signature. -/
def Signature.type (s : Signature) : FuncType := ⟨s.params.map Prod.snd, s.results⟩

/-- One list of a signature. -/
inductive SignaturePart where
  | params (ps : List (Naming × ValType))
  | results (ts : List ValType)

/-- One list of a signature, behind its word. -/
def signaturePart (names : Names) (hasNames : Bool) (head : String) : Items SignaturePart := do
  if head = "result" then return .results (← Items.each (valType names))
  else if hasNames then return .params (← named (valType names))
  else return .params ((← Items.each (valType names)).map fun t => (.none, t))

/-- Adds a list to a signature; parameters come before results. -/
def Signature.add (s : Signature) : SignaturePart → Except String Signature
  | .params ps =>
    if s.results.isEmpty then return { s with params := s.params ++ ps }
    else throw "parameter after a result"
  | .results ts => return { s with results := s.results ++ ts }

/-- The parameters and results that come next, if there are any lists of them. -/
def signature? (names : Names) (hasNames : Bool) : Items (Option Signature) := do
  match ← Items.lists ["param", "result"] (signaturePart names hasNames) with
  | [] => return none
  | parts => return some (← liftM (parts.foldlM Signature.add ⟨[], []⟩))

/-- A function type where one is needed: an index, a signature, both or neither. -/
structure TypeUse where
  index : Option Nat
  signature : Option Signature

namespace TypeUse

/-- Reads a use; only uses that declare parameters may name them. -/
def read (names : Names) (hasNames : Bool) : Items TypeUse := do
  let index ← Items.inside? "type" (names.index .type)
  return ⟨index, ← signature? names hasNames⟩

end TypeUse

/-- The function types of a module, and the agreements that uses of them demand: an
index and the type that was spelled out beside it. -/
structure TypeTable where
  types : List FuncType
  demands : List (Nat × FuncType)

namespace TypeTable

/-- The index of a type that was spelled out. -/
def indexOf (table : TypeTable) (t : FuncType) : Nat × TypeTable :=
  match table.types.idxOf? t with
  | some i => (i, table)
  | none => (table.types.length, { table with types := table.types ++ [t] })

/-- The index that a use stands for. -/
def settle (use : TypeUse) (table : TypeTable) : Nat × TypeTable :=
  match use.index, use.signature with
  | some i, none => (i, table)
  | some i, some s => (i, { table with demands := (i, s.type) :: table.demands })
  | none, s => table.indexOf ((s.map Signature.type).getD ⟨[], []⟩)

/-- All demands are met; those on indices without a type are left to validation. -/
def isSound (table : TypeTable) : Bool :=
  table.demands.all fun (i, t) =>
    match table.types[i]? with
    | some u => u == t
    | none => true

end TypeTable

end WasmEmbedding.Wasm.Wat
