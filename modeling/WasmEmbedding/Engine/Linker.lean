import WasmEmbedding.Engine.Store

/-! # Linkers

A `Linker` finds what modules import: items of one store under a module name and a
name, each taken at most once. `Linker.resolve` answers the items of a module's imports
if all are there and have the types that are asked for. Tables and memories are held
against their size at the moment, not against the size they started with.
-/
namespace WasmEmbedding.Engine

open Wasm

/-- The items under their names, in the order of their definition. -/
structure Linker where
  entries : List ((String × String) × Item) := []
  deriving Repr, Inhabited

namespace Linker

/-- The item under a name of a module. -/
def get? (l : Linker) (moduleName name : String) : Option Item :=
  l.entries.lookup (moduleName, name)

/-- Defines an item under a name that is not taken. -/
def define (l : Linker) (moduleName name : String) (item : Item) : Option Linker :=
  match l.get? moduleName name with
  | some _ => none
  | none => some ⟨l.entries ++ [((moduleName, name), item)]⟩

/-- Defines items under names of one module. -/
def defineAll (l : Linker) (moduleName : String) : List (String × Item) → Option Linker
  | [] => some l
  | (name, item) :: rest => do (← l.define moduleName name item).defineAll moduleName rest

/-- The names and items of one module. -/
def itemsOf (l : Linker) (moduleName : String) : List (String × Item) :=
  l.entries.filterMap fun ((m, name), item) => if m = moduleName then some (name, item) else none

/-- A size range within another. -/
def limitsMatch (expected : Limits) (size : Nat) (maximum : Option Nat) : Bool :=
  expected.min ≤ size &&
    match expected.max with
    | some m => maximum.any (· ≤ m)
    | none => true

/-- An item is what an import of a module asks for. -/
def fits (s : Store) (m : Module) (expected : ImportType) (item : Item) : Bool :=
  match expected, item with
  | .function t, .function a =>
    match m.types[t]?, s.functionType? a with
    | some t, some u => t = u
    | _, _ => false
  | .table t, .table a =>
    match s.tables[a]? with
    | some u => t.element = u.element && limitsMatch t.limits u.items.size u.maximum
    | none => false
  | .memory t, .memory a =>
    match s.memories[a]? with
    | some u => t.shared = u.shared && limitsMatch t.limits u.pageCount u.maximum
    | none => false
  | .global t, .global a =>
    match s.globals[a]? with
    | some u => t.content = u.type.content && t.isMutable = u.type.isMutable
    | none => false
  | _, _ => false

/-- The item of an import. -/
def resolveOne (l : Linker) (s : Store) (m : Module) (i : Import) : Except String Item :=
  match l.get? i.moduleName i.name with
  | none => .error ("unknown import: " ++ i.moduleName ++ "::" ++ i.name ++ " has not been defined")
  | some item =>
    if fits s m i.type item then .ok item
    else .error ("incompatible import type for " ++ i.moduleName ++ "::" ++ i.name)

/-- The items of a module's imports, in order. -/
def resolve (l : Linker) (s : Store) (m : Module) : Except String (List Item) :=
  m.imports.mapM (l.resolveOne s m)

end Linker

end WasmEmbedding.Engine
