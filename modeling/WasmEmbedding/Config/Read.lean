import WasmEmbedding.Config.Basic

/-! # Reading configurations off documents

A configuration is read from a tree, whatever its notation. Tables keep their entries in
the order of the text, repeated keys included: whether a key may be repeated is for the
reader of the table to say.

A record is read from a table by its keys, or from a list by position. Unknown keys
are passed over, an absent field has its default, and a known key that is repeated is
refused. The notations differ in two points, which a `Dialect` holds.
-/
namespace WasmEmbedding.Config

/-- A document. -/
inductive Document where
  | null
  | boolean (b : Bool)
  | integer (n : Int)
  /-- A number that is not written as an integer, or is beyond the integers. -/
  | float
  /-- A text; `none` if its escapes name something that is no character. -/
  | text (s : Option String)
  | list (items : List Document)
  | table (entries : List (Option String × Document))
  deriving Inhabited

namespace Document

/-- The values that a table holds under a key. -/
def valuesAt (key : String) (entries : List (Option String × Document)) : List Document :=
  entries.filterMap fun (k, v) => if k = some key then some v else none

end Document

/-- What a notation decides about records and choices. -/
structure Dialect where
  /-- A list may be longer than the record it stands for. -/
  surplusItems : Bool
  /-- What may stand beside the name of a choice without content. -/
  emptyContent : Document → Bool

namespace Dialect

/-- JSON: no surplus items, and `null` beside a name. -/
def json : Dialect where
  surplusItems := false
  emptyContent
    | .null => true
    | _ => false

/-- TOML: surplus items are passed over, and an empty table or list stands beside a
name. -/
def toml : Dialect where
  surplusItems := true
  emptyContent
    | .list [] => true
    | .table [] => true
    | _ => false

variable (d : Dialect)

/-- The fields of a record in the order of their names, absent ones as `none`. -/
def fields? (names : List String) : Document → Option (List (Option Document))
  | .table entries =>
    if entries.any fun (k, _) => k.isNone then none
    else names.mapM fun name =>
      match Document.valuesAt name entries with
      | [] => some none
      | [v] => some (some v)
      | _ => none
  | .list items =>
    if items.length ≤ names.length || d.surplusItems then
      some ((List.range names.length).map fun i => items[i]?)
    else none
  | _ => none

end Dialect

/-- Reads a field if it is there, and takes the default otherwise. -/
def orElse {α : Type} (field : Option Document) (read? : Document → Option α) (dflt : α) :
    Option α :=
  match field with
  | none => some dflt
  | some v => read? v

/-- A truth value. -/
def boolean? : Document → Option Bool
  | .boolean b => some b
  | _ => none

/-- A natural number below a bound. -/
def natural? (bound : Nat) : Document → Option Nat
  | .integer n => if 0 ≤ n ∧ n.toNat < bound then some n.toNat else none
  | _ => none

/-- A text. -/
def text? : Document → Option String
  | .text s => s
  | _ => none

/-- A list of texts. -/
def texts? : Document → Option (List String)
  | .list items => items.mapM text?
  | _ => none

/-- A value that `null` stands for the absence of. -/
def nullable? {α : Type} (read? : Document → Option α) : Document → Option (Option α)
  | .null => some none
  | v => (read? v).map some

variable (d : Dialect)

/-- A choice by name, or as a table of that name alone with no content. -/
def choice? : Document → Option String
  | .text s => s
  | .table [(k, v)] => if d.emptyContent v then k else none
  | _ => none

/-- An optimisation level. -/
def optLevel? (v : Document) : Option OptLevel := choice? d v >>= OptLevel.ofName?

/-- A 32-bit number. -/
def word32? (v : Document) : Option UInt32 := (natural? UInt32.size v).map UInt32.ofNat

/-- A 64-bit number. -/
def word64? (v : Document) : Option UInt64 := (natural? UInt64.size v).map UInt64.ofNat

/-- The engine's settings. -/
def engineConfig? (v : Document) : Option EngineConfig := do
  let names := ["opt_level", "simd", "bulk_memory", "reference_types", "multi_value",
    "max_memory_pages"]
  match ← d.fields? names v with
  | [level, simd, bulk, refs, multi, pages] =>
    return {
      optLevel := ← orElse level (optLevel? d) .speed
      simd := ← orElse simd boolean? true
      bulkMemory := ← orElse bulk boolean? true
      referenceTypes := ← orElse refs boolean? true
      multiValue := ← orElse multi boolean? true
      maxMemoryPages := ← orElse pages (nullable? word32?) none }
  | _ => none

/-- The built-in host modules. -/
def hostRegistrations? (v : Document) : Option HostRegistrations := do
  match ← d.fields? ["wasi"] v with
  | [wasi] => return ⟨← orElse wasi boolean? false⟩
  | _ => none

/-- What to measure. -/
def statisticsConfig? (v : Document) : Option StatisticsConfig := do
  match ← d.fields? ["instruction_counting", "cost_measuring", "time_measuring"] v with
  | [count, cost, time] =>
    return ⟨← orElse count boolean? false, ← orElse cost boolean? false,
      ← orElse time boolean? false⟩
  | _ => none

/-- A machine's configuration. -/
def vmConfig? (v : Document) : Option VmConfig := do
  match ← d.fields? ["engine", "host_registrations", "statistics", "cost_limit"] v with
  | [engine, hosts, statistics, limit] =>
    return {
      engine := ← orElse engine (engineConfig? d) {}
      hostRegistrations := ← orElse hosts (hostRegistrations? d) {}
      statistics := ← orElse statistics (statisticsConfig? d) {}
      costLimit := ← orElse limit (nullable? word64?) none }
  | _ => none

/-- The environment section of a configuration file. -/
def wasiSection? (v : Document) : Option WasiSection := do
  match ← d.fields? ["args", "envs", "preopens"] v with
  | [args, envs, preopens] =>
    return ⟨← orElse args texts? [], ← orElse envs texts? [], ← orElse preopens texts? []⟩
  | _ => none

/-- A configuration file. -/
def configFile? (v : Document) : Option ConfigFile := do
  match ← d.fields? ["vm", "wasi"] v with
  | [vm, wasi] => return ⟨← orElse vm (vmConfig? d) {}, ← orElse wasi (wasiSection? d) {}⟩
  | _ => none

end WasmEmbedding.Config
