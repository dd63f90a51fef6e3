import WasmEmbedding.Wasm.Types

/-! # Configuration

What a machine is set up from: the engine's settings, the built-in host modules, what
to measure, and how much the guest may spend. Every field has a default, so a
configuration may be given in part.
-/
namespace WasmEmbedding

/-- How hard the engine optimises. -/
inductive OptLevel where
  | none | speed | speedAndSize
  deriving DecidableEq, Repr, Inhabited

namespace OptLevel

/-- All levels. -/
def all : List OptLevel := [.none, .speed, .speedAndSize]

/-- The name of a level in documents. -/
def name : OptLevel → String
  | .none => "none"
  | .speed => "speed"
  | .speedAndSize => "speed_and_size"

/-- The name of a level in descriptions. -/
def label : OptLevel → String
  | .none => "None"
  | .speed => "Speed"
  | .speedAndSize => "SpeedAndSize"

/-- The level with a given name. -/
def ofName? (s : String) : Option OptLevel := all.find? fun l => l.name = s

end OptLevel

/-- The engine's settings. -/
structure EngineConfig where
  optLevel : OptLevel := .speed
  simd : Bool := true
  bulkMemory : Bool := true
  referenceTypes : Bool := true
  multiValue : Bool := true
  /-- The most pages that one linear memory may have; no bound of its own if absent. -/
  maxMemoryPages : Option UInt32 := none
  deriving DecidableEq, Repr, Inhabited

/-- The most bytes that one linear memory may have. -/
def EngineConfig.maxMemoryBytes (c : EngineConfig) : Option Nat :=
  c.maxMemoryPages.map fun pages => pages.toNat * Wasm.pageBytes

/-- The features that a configuration asks for. -/
def EngineConfig.features (c : EngineConfig) : Wasm.Features where
  simd := c.simd
  bulkMemory := c.bulkMemory
  referenceTypes := c.referenceTypes
  multiValue := c.multiValue

/-- The host modules that a machine registers by itself. -/
structure HostRegistrations where
  wasi : Bool := false
  deriving DecidableEq, Repr, Inhabited

/-- What a machine measures. -/
structure StatisticsConfig where
  instructionCounting : Bool := false
  costMeasuring : Bool := false
  timeMeasuring : Bool := false
  deriving DecidableEq, Repr, Inhabited

/-- Every measurement. -/
def StatisticsConfig.all : StatisticsConfig := ⟨true, true, true⟩

/-- A machine's configuration. -/
structure VmConfig where
  engine : EngineConfig := {}
  hostRegistrations : HostRegistrations := {}
  statistics : StatisticsConfig := {}
  /-- The cost that all executions of the machine may sum up to. -/
  costLimit : Option UInt64 := none
  deriving DecidableEq, Repr, Inhabited

namespace VmConfig

/-- The configuration with the built-in system interface. -/
def withWasi : VmConfig := { hostRegistrations := ⟨true⟩ }

/-- The engine meters fuel iff somebody wants a count, a cost or a limit. -/
def meters (c : VmConfig) : Bool :=
  c.statistics.instructionCounting || c.statistics.costMeasuring || c.costLimit.isSome

/-- The description of an engine with this configuration. -/
def describeEngine (c : VmConfig) : String :=
  "WasmEngine \x7b opt_level: " ++ c.engine.optLevel.label ++ ", fuel_metering: " ++
    toString c.meters ++ ", .. \x7d"

end VmConfig

/-- The first environment of the built-in system interface. -/
structure WasiSection where
  args : List String := []
  envs : List String := []
  preopens : List String := []
  deriving DecidableEq, Repr, Inhabited

/-- A configuration file. -/
structure ConfigFile where
  vm : VmConfig := {}
  wasi : WasiSection := {}
  deriving DecidableEq, Repr, Inhabited

end WasmEmbedding
