import WasmEmbedding.Wasm.Typing.Context

/-! # Typing of expressions

`sequence` follows the stack through instructions, given the types that a branch to
each enclosing label carries. A block starts on its parameters alone and must end on
its results alone, so that nothing below it can be reached.
-/
namespace WasmEmbedding.Wasm.Typing

variable (c : Context)

/-- The operands of a choice without a type are numbers or vectors of one type. -/
def selectType : Option ValType → Option ValType → Check (Option ValType)
  | a, b =>
    if (a.any ValType.isRef) || (b.any ValType.isRef) then
      .error "type mismatch: select only takes integral types"
    else match a, b with
      | none, b => .ok b
      | a, none => .ok a
      | some a, some b =>
        if a = b then .ok (some a)
        else .error "type mismatch: select operands have different types"

/-- An instruction that goes on to the next one. -/
def op (s : Operands) : Op → Check Operands
  | .nop => .ok s
  | .drop => do return (← s.popAny).2
  | .select none => do
    let s ← s.pop .i32
    let (a, s) ← s.popAny
    let (b, s) ← s.popAny
    return { s with types := (← selectType a b) :: s.types }
  | .select (some ts) => do
    require c.features.referenceTypes "reference types support is not enabled"
    match ts with
    | [t] =>
      checkValType c.features t
      s.apply ⟨[t, t, .i32], [t]⟩
    | _ => throw "invalid result arity"
  | .const x => do
    checkValType c.features x.type
    return s.push x.type
  | .numeric op => s.apply op.type
  | .vector op => do
    require c.features.simd "SIMD support is not enabled"
    require op.lanesInRange "SIMD index out of bounds"
    s.apply op.type
  | .localGet i => do return s.push (← entry c.locals "local" i)
  | .localSet i => do s.pop (← entry c.locals "local" i)
  | .localTee i => do
    let t ← entry c.locals "local" i
    s.apply ⟨[t], [t]⟩
  | .globalGet i => do return s.push (← entry c.globals "global" i).content
  | .globalSet i => do
    let g ← entry c.globals "global" i
    require g.isMutable "global is immutable: cannot modify it with global.set"
    s.pop g.content
  | .memory op arg => do
    match op with
    | .vectorLoad _ => require c.features.simd "SIMD support is not enabled"
    | .vectorStore => require c.features.simd "SIMD support is not enabled"
    | _ => pure ()
    c.checkMemArg arg op.bytes (match op with | .atomic _ => true | _ => false)
    s.apply op.type
  | .laneMove m l arg lane => do
    require c.features.simd "SIMD support is not enabled"
    c.checkMemArg arg (l.bits / 8) false
    require (lane < l.count) "SIMD index out of bounds"
    match m with
    | .load => s.apply ⟨[.i32, .v128], [.v128]⟩
    | .store => s.apply ⟨[.i32, .v128], []⟩
  | .atomicFence => .ok s
  | .memorySize i => do
    c.checkMemory i
    return s.push .i32
  | .memoryGrow i => do
    c.checkMemory i
    s.apply ⟨[.i32], [.i32]⟩
  | .memoryFill i => do
    require c.features.bulkMemory "bulk memory support is not enabled"
    c.checkMemory i
    s.apply ⟨[.i32, .i32, .i32], []⟩
  | .memoryCopy target source => do
    require c.features.bulkMemory "bulk memory support is not enabled"
    c.checkMemory target
    c.checkMemory source
    s.apply ⟨[.i32, .i32, .i32], []⟩
  | .memoryInit data i => do
    require c.features.bulkMemory "bulk memory support is not enabled"
    c.checkMemory i
    require (c.dataCount.any (data < ·)) "unknown data segment"
    s.apply ⟨[.i32, .i32, .i32], []⟩
  | .dataDrop data => do
    require c.features.bulkMemory "bulk memory support is not enabled"
    require (c.dataCount.any (data < ·)) "unknown data segment"
    return s
  | .tableGet i => do
    require c.features.referenceTypes "reference types support is not enabled"
    s.apply ⟨[.i32], [.ref (← entry c.tables "table" i).element]⟩
  | .tableSet i => do
    require c.features.referenceTypes "reference types support is not enabled"
    s.apply ⟨[.i32, .ref (← entry c.tables "table" i).element], []⟩
  | .tableSize i => do
    require c.features.referenceTypes "reference types support is not enabled"
    let _ ← entry c.tables "table" i
    return s.push .i32
  | .tableGrow i => do
    require c.features.referenceTypes "reference types support is not enabled"
    s.apply ⟨[.ref (← entry c.tables "table" i).element, .i32], [.i32]⟩
  | .tableFill i => do
    require c.features.referenceTypes "reference types support is not enabled"
    s.apply ⟨[.i32, .ref (← entry c.tables "table" i).element, .i32], []⟩
  | .tableCopy target source => do
    require c.features.bulkMemory "bulk memory support is not enabled"
    let t ← entry c.tables "table" target
    let u ← entry c.tables "table" source
    require (t.element = u.element) "type mismatch"
    s.apply ⟨[.i32, .i32, .i32], []⟩
  | .tableInit element i => do
    require c.features.bulkMemory "bulk memory support is not enabled"
    let t ← entry c.tables "table" i
    let e ← entry c.elements "elem segment" element
    require (t.element = e) "type mismatch"
    s.apply ⟨[.i32, .i32, .i32], []⟩
  | .elemDrop element => do
    require c.features.bulkMemory "bulk memory support is not enabled"
    let _ ← entry c.elements "elem segment" element
    return s
  | .refNull heap => do
    checkRefType c.features ⟨true, heap⟩
    return s.push (.ref ⟨true, heap⟩)
  | .refIsNull => do
    require c.features.referenceTypes "reference types support is not enabled"
    let (t, s) ← s.popAny
    require (t.all ValType.isRef) "type mismatch: invalid reference type in ref.is_null"
    return s.push .i32
  | .refFunc i => do
    require c.features.referenceTypes "reference types support is not enabled"
    let _ ← entry c.functions "function" i
    require (c.declared i) "undeclared function reference"
    return s.push .funcRef

/-- The function type of an indirect call, whose table must hold functions. -/
def indirect (type table : Nat) : Check FuncType := do
  let t ← entry c.tables "table" table
  require (t.element = .funcRef) "indirect calls must go through a table of funcs"
  entry c.types "type" type

/-- A call that ends the function has the function's results. -/
def tailCall (s : Operands) (t : FuncType) : Check Operands := do
  require (t.results = c.results)
    "type mismatch: current function requires a different result type"
  let _ ← s.popAll t.params
  return .afterJump

/-- The types that a branch carries. -/
def label (labels : List (List ValType)) (i : Nat) : Check (List ValType) :=
  match labels[i]? with
  | some ts => .ok ts
  | none => .error "unknown label: branch depth too large"

/-- An instruction without a body. -/
def leaf (labels : List (List ValType)) (s : Operands) : Instr → Check Operands
  | .op o => op c s o
  | .unreachable => .ok .afterJump
  | .br l => do
    let _ ← s.popAll (← label labels l)
    return .afterJump
  | .brIf l => do
    let s ← s.pop .i32
    let ts ← label labels l
    return (← s.popAll ts).pushAll ts
  | .brTable ls l => do
    let s ← s.pop .i32
    let ts ← label labels l
    for l in ls do
      let us ← label labels l
      require (us.length = ts.length)
        "type mismatch: br_table target labels have different number of types"
      let _ ← s.popAll us
    let _ ← s.popAll ts
    return .afterJump
  | .ret => do
    let _ ← s.popAll c.results
    return .afterJump
  | .call f => do s.apply (← entry c.functions "function" f)
  | .callIndirect type table => do
    let t ← indirect c type table
    (← s.pop .i32).apply t
  | .returnCall f => do tailCall c s (← entry c.functions "function" f)
  | .returnCallIndirect type table => do
    let t ← indirect c type table
    tailCall c (← s.pop .i32) t
  | _ => .ok s

mutual

/-- An instruction, given the types that branches to the enclosing labels carry. -/
def instr (labels : List (List ValType)) (s : Operands) : Instr → Check Operands
  | .block type body => do
    let t ← c.blockType type
    let s ← s.popAll t.params
    block (t.results :: labels) t body
    return s.pushAll t.results
  | .loop type body => do
    let t ← c.blockType type
    let s ← s.popAll t.params
    block (t.params :: labels) t body
    return s.pushAll t.results
  | .conditional type onTrue onFalse => do
    let t ← c.blockType type
    let s ← s.pop .i32
    let s ← s.popAll t.params
    block (t.results :: labels) t onTrue
    block (t.results :: labels) t onFalse
    return s.pushAll t.results
  | i => leaf c labels s i
termination_by structural i => i

/-- Instructions in a row. -/
def sequence (labels : List (List ValType)) (s : Operands) : List Instr → Check Operands
  | [] => .ok s
  | i :: rest => do sequence labels (← instr labels s i) rest
termination_by structural is => is

/-- The body of a block. -/
def block (labels : List (List ValType)) (t : FuncType) : List Instr → Check Unit
  | [] => do ((⟨[], false⟩ : Operands).pushAll t.params |>.popAll t.results) >>= Operands.finish
  | i :: rest => do
    let s ← instr labels ((⟨[], false⟩ : Operands).pushAll t.params) i
    (← (← sequence labels s rest).popAll t.results).finish
termination_by structural is => is

end

/-- An expression with given results. -/
def expression (results : List ValType) (body : List Instr) : Check Unit :=
  block c [results] ⟨[], results⟩ body

/-- The instructions that a constant expression may hold. -/
def constant : Instr → Check Unit
  | .op (.const _) => .ok ()
  | .op (.numeric (.intBinary _ op)) =>
    require (op = .add || op = .sub || op = .mul)
      "constant expression required: non-constant operator"
  | .op (.refNull _) => .ok ()
  | .op (.refFunc _) => .ok ()
  | .op (.globalGet i) => do
    let g ← entry c.globals "global" i
    require (!g.isMutable && i < c.importedGlobals)
      "constant expression required: global.get of locally defined or mutable global"
  | _ => .error "constant expression required: non-constant operator"

/-- A constant expression of a given type. -/
def constExpr (t : ValType) (body : ConstExpr) : Check Unit := do
  body.forM (constant c)
  expression c [t] body

end WasmEmbedding.Wasm.Typing
