import WasmEmbedding.Wasm.Wat.Immediate

/-! # Code of the text format

Instructions may be written in a row, or folded: a list that holds an instruction and,
before it takes effect, the instructions for its operands. Either way they stand for one
row of `Step`s, which `steps` reads off the items. A step is an instruction with all
names settled but those of labels and with types as they are written, since what these
stand for depends on the steps before.
-/
namespace WasmEmbedding.Wasm.Wat

/-- What opens a block. -/
inductive BlockKind where
  | block | loop | conditional
  deriving DecidableEq, Repr

/-- An instruction in a row of them, or a mark of a block's parts. -/
inductive Step where
  | instr (i : Instr)
  | br (label : Ref)
  | brIf (label : Ref)
  | brTable (labels : List Ref) (otherwise : Ref)
  | callIndirect (returns : Bool) (type : TypeUse) (table : Nat)
  | opening (kind : BlockKind) (naming : Naming) (type : TypeUse)
  | otherwise (label : Option String)
  | finish (label : Option String)

/-- The indices that come next. -/
def refs : List Tree → Except String (List Ref × List Tree)
  | [] => return ([], [])
  | t :: rest =>
    if Ref.isIndex t then do
      let (r, _) ← Ref.read [t]
      let (rs, rest) ← refs rest
      return (r :: rs, rest)
    else return ([], t :: rest)

/-- The labels of a branch table, the last of which is for every other case. -/
def branchTable : Items Step := do
  match (← refs).reverse with
  | last :: others => return .brTable others.reverse last
  | [] => throw "label expected"

/-- An indirect call; the table may stand on either side of the type. -/
def indirect (names : Names) (returns : Bool) : Items Step := do
  match ← Ref.read? with
  | some r =>
    let table ← liftM (names.resolve .table r)
    return .callIndirect returns (← TypeUse.read names false) table
  | none =>
    let type ← TypeUse.read names false
    return .callIndirect returns type (← names.indexOrFirst .table)

/-- What opens a block: its name and its type. -/
def opening (names : Names) (kind : BlockKind) : Items Step := do
  let naming ← Naming.read
  return .opening kind naming (← TypeUse.read names false)

/-- The kind of block that a mnemonic opens. -/
def blockKind? : String → Option BlockKind
  | "block" => some .block
  | "loop" => some .loop
  | "if" => some .conditional
  | _ => none

/-- One instruction, by its mnemonic: reads what follows. -/
def instruction (scope : Scope) (mnemonic : String) : Items Step := do
  let names := scope.names
  if let some kind := blockKind? mnemonic then opening names kind
  else
    match mnemonic with
    | "else" => return .otherwise (← Items.name?)
    | "end" => return .finish (← Items.name?)
    | "unreachable" => return .instr .unreachable
    | "return" => return .instr .ret
    | "br" => return .br (← Ref.read)
    | "br_if" => return .brIf (← Ref.read)
    | "br_table" => branchTable
    | "call" => return .instr (.call (← names.index .function))
    | "return_call" => return .instr (.returnCall (← names.index .function))
    | "call_indirect" => indirect names false
    | "return_call_indirect" => indirect names true
    | mnemonic =>
      match ← op? scope mnemonic with
      | some o => return .instr (.op o)
      | none => throw ("unknown instruction " ++ mnemonic)

/-- Splits the lists of a folded conditional at the first of its arms: the operands and
the arms. -/
def splitArms (items : List Tree) : List Tree × List Tree :=
  items.span fun t =>
    match t with
    | .list (.word "then" :: _) => false
    | _ => true

mutual

/-- The steps that items stand for. Fuel bounds their number. -/
def stepsFrom (scope : Scope) : Nat → List Tree → Except String (List Step)
  | _, [] => return []
  | 0, _ :: _ => throw "unexpected end"
  | fuel + 1, .word s :: rest => do
    let (step, rest) ← instruction scope s rest
    return step :: (← stepsFrom scope fuel rest)
  | fuel + 1, .list items :: rest => do
    let first ← foldedFrom scope fuel items
    return first ++ (← stepsFrom scope fuel rest)
  | _ + 1, _ :: _ => throw "instruction expected"

/-- The steps that the items of a folded instruction stand for. -/
def foldedFrom (scope : Scope) : Nat → List Tree → Except String (List Step)
  | 0, _ => throw "unexpected end"
  | fuel + 1, .word s :: rest => do
    let (step, rest) ← instruction scope s rest
    match step with
    | .opening .conditional _ _ => conditionalFrom scope fuel step rest
    | .opening .. => return step :: (← stepsFrom scope fuel rest) ++ [.finish none]
    | _ => return (← stepsFrom scope fuel rest) ++ [step]
  | _ + 1, _ => throw "instruction expected"

/-- The steps of a folded conditional: those for its operands, and its arms, the second
of which may be missing. -/
def conditionalFrom (scope : Scope) :
    Nat → Step → List Tree → Except String (List Step)
  | 0, _, _ => throw "unexpected end"
  | fuel + 1, step, items => do
    let (operands, arms) := splitArms items
    if operands.any fun t => match t with | .list _ => false | _ => true then
      throw "list expected"
    let before ← stepsFrom scope fuel operands
    match arms with
    | [.list (.word _ :: onTrue)] =>
      return before ++ step :: (← stepsFrom scope fuel onTrue) ++ [.finish none]
    | [.list (.word _ :: onTrue), .list (.word "else" :: onFalse)] =>
      return before ++ step :: (← stepsFrom scope fuel onTrue) ++ .otherwise none ::
        (← stepsFrom scope fuel onFalse) ++ [.finish none]
    | _ => throw "malformed conditional"

end

/-- The steps that items stand for. A list and its items are at most three calls
apart. -/
def steps (scope : Scope) (items : List Tree) : Except String (List Step) :=
  stepsFrom scope (3 * Tree.sizes items + 3) items

end WasmEmbedding.Wasm.Wat
