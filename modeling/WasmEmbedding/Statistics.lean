import WasmEmbedding.Config.Basic

/-! # Execution statistics

What a machine counts. Cost and instructions are both measured in fuel; sums stay at
the largest word once they reach it. `consumed` is counted whether or not anything is
reported, because the cost limit is held against it.
-/
namespace WasmEmbedding

/-- The largest count. -/
def maxCount : Nat := 0xFFFFFFFFFFFFFFFF

/-- A sum that stops at the largest word. -/
def addSaturating (a b : UInt64) : UInt64 :=
  UInt64.ofNat (min (a.toNat + b.toNat) maxCount)

@[simp] theorem toNat_addSaturating (a b : UInt64) :
    (addSaturating a b).toNat = min (a.toNat + b.toNat) maxCount := by
  have h : min (a.toNat + b.toNat) maxCount < 2 ^ 64 := by
    simp only [maxCount]
    omega
  simpa [addSaturating, UInt64.toNat_ofNat'] using Nat.mod_eq_of_lt h

/-- A difference that stops at zero. -/
def subSaturating (a b : UInt64) : UInt64 :=
  UInt64.ofNat (a.toNat - b.toNat)

@[simp] theorem toNat_subSaturating (a b : UInt64) :
    (subSaturating a b).toNat = a.toNat - b.toNat := by
  have h : a.toNat - b.toNat < 2 ^ 64 := by
    have := a.toNat_lt
    omega
  simpa [subSaturating, UInt64.toNat_ofNat'] using Nat.mod_eq_of_lt h

/-- The counts of a machine. Time is a number of ticks; a call takes at least one. -/
structure Statistics where
  config : StatisticsConfig
  costLimit : Option UInt64
  instrCount : UInt64 := 0
  totalCost : UInt64 := 0
  ticks : Nat := 0
  consumed : UInt64 := 0
  deriving DecidableEq, Repr, Inhabited

namespace Statistics

/-- Nothing counted yet. -/
def new (config : StatisticsConfig) (costLimit : Option UInt64) : Statistics :=
  { config, costLimit }

/-- Changes the limit and no count. -/
def setCostLimit (s : Statistics) (limit : Option UInt64) : Statistics :=
  { s with costLimit := limit }

/-- Sets every count to zero; what is measured and the limit stay. -/
def clear (s : Statistics) : Statistics := new s.config s.costLimit

/-- The fuel that the next execution may take. -/
def remainingBudget (s : Statistics) : UInt64 :=
  match s.costLimit with
  | some limit => subSaturating limit s.consumed
  | none => UInt64.ofNat maxCount

/-- Counts the fuel of an instantiation, which is spent but not reported. -/
def recordInstantiation (s : Statistics) (fuel : UInt64) : Statistics :=
  { s with consumed := addSaturating s.consumed fuel }

/-- Counts the fuel and the time of a call. -/
def recordCall (s : Statistics) (fuel : UInt64) (elapsed : Nat) : Statistics :=
  { s with
    instrCount := if s.config.instructionCounting then addSaturating s.instrCount fuel
      else s.instrCount
    consumed := addSaturating s.consumed fuel
    totalCost := if s.config.costMeasuring then addSaturating s.totalCost fuel else s.totalCost
    ticks := if s.config.timeMeasuring then s.ticks + elapsed else s.ticks }

/-- Whether any time has been counted. -/
def isTimed (s : Statistics) : Bool := decide (0 < s.ticks)

/-- Whether instructions per second is a positive number. -/
def hasRate (s : Statistics) : Bool := s.isTimed && decide (0 < s.instrCount.toNat)

end Statistics

end WasmEmbedding
