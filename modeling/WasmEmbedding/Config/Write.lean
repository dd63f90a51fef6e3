import WasmEmbedding.Config.Read

/-! # Writing configurations as documents

Every field is written out, an absent value as `null`.
-/
namespace WasmEmbedding

open Config (Document)

/-- A table with the given entries. -/
def Config.Document.record (entries : List (String × Document)) : Document :=
  .table (entries.map fun (k, v) => (some k, v))

/-- A text. -/
def Config.Document.ofString (s : String) : Document := .text (some s)

/-- A number, or `null`. -/
def Config.Document.ofNat? (n : Option Nat) : Document :=
  match n with
  | some n => .integer n
  | none => .null

/-- The document of the engine's settings. -/
def EngineConfig.toDocument (c : EngineConfig) : Document := .record [
  ("opt_level", .ofString c.optLevel.name),
  ("simd", .boolean c.simd),
  ("bulk_memory", .boolean c.bulkMemory),
  ("reference_types", .boolean c.referenceTypes),
  ("multi_value", .boolean c.multiValue),
  ("max_memory_pages", .ofNat? (c.maxMemoryPages.map UInt32.toNat))]

/-- The document of the built-in host modules. -/
def HostRegistrations.toDocument (c : HostRegistrations) : Document :=
  .record [("wasi", .boolean c.wasi)]

/-- The document of what to measure. -/
def StatisticsConfig.toDocument (c : StatisticsConfig) : Document := .record [
  ("instruction_counting", .boolean c.instructionCounting),
  ("cost_measuring", .boolean c.costMeasuring),
  ("time_measuring", .boolean c.timeMeasuring)]

/-- The document of a machine's configuration. -/
def VmConfig.toDocument (c : VmConfig) : Document := .record [
  ("engine", c.engine.toDocument),
  ("host_registrations", c.hostRegistrations.toDocument),
  ("statistics", c.statistics.toDocument),
  ("cost_limit", .ofNat? (c.costLimit.map UInt64.toNat))]

/-- The document of an environment section. -/
def WasiSection.toDocument (c : WasiSection) : Document := .record [
  ("args", .list (c.args.map .ofString)),
  ("envs", .list (c.envs.map .ofString)),
  ("preopens", .list (c.preopens.map .ofString))]

/-- The document of a configuration file. -/
def ConfigFile.toDocument (c : ConfigFile) : Document :=
  .record [("vm", c.vm.toDocument), ("wasi", c.wasi.toDocument)]

end WasmEmbedding
