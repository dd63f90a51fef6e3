import WasmEmbedding.Host.Logging
import WasmEmbedding.Proofs.Engine.CallerMemory
import WasmEmbedding.Proofs.Text.Utf8

/-! # What the logging function does

A guest that calls the logging function names a level and a range of its memory.  If there is such a
range, its bytes are the message of one entry (`Logging.EntryFor`); otherwise nothing is recorded.
In both cases the guest goes on, and nothing but the log has changed (`HostCall.Logs`).
-/
namespace WasmEmbedding

open Chronicle Host Wasm

/-! ## Entries -/

namespace Host.Logging

/-- The entry for a level and the bytes of a message. -/
structure EntryFor (level : UInt32) (bytes : List UInt8) (e : LogEntry) : Prop where
  debug : level = 0 → e.level = .debug
  warn : level = 2 → e.level = .warn
  error : level = 3 → e.level = .error
  /-- Every other number means this level. -/
  info : level ≠ 0 → level ≠ 2 → level ≠ 3 → e.level = .info
  text : ∀ s, Text.Utf8.encode s = bytes → e.message = s
  invalid : (∀ s, Text.Utf8.encode s ≠ bytes) → e.message = "<invalid utf8>"

/-- A number read with a sign is the same number if it is not negative. -/
theorem toInt32_of_nonneg {x : UInt32} (h : 0 ≤ x.toInt32.toInt) : x.toInt32.toInt = x.toNat := by
  have hx : x.toInt32.toInt = if 2 * x.toNat < 2 ^ 32 then (x.toNat : Int)
      else (x.toNat : Int) - (2 ^ 32 : Nat) := BitVec.toInt_eq_toNat_cond x.toBitVec
  have hlt := x.toNat_lt
  omega

theorem toInt32_inj {x y : UInt32} : x.toInt32.toInt = y.toInt32.toInt ↔ x = y := by
  rw [Int32.toInt_inj]
  exact ⟨congrArg Int32.toUInt32, congrArg UInt32.toInt32⟩

theorem ofNumber_toInt32 (level : UInt32) : LogLevel.ofNumber level.toInt32.toInt =
    if level = 0 then .debug else if level = 2 then .warn else if level = 3 then .error
    else .info := by
  have hzero : level.toInt32.toInt = 0 ↔ level = 0 := toInt32_inj (y := 0)
  have htwo : level.toInt32.toInt = 2 ↔ level = 2 := toInt32_inj (y := 2)
  have hthree : level.toInt32.toInt = 3 ↔ level = 3 := toInt32_inj (y := 3)
  simp only [LogLevel.ofNumber, hzero, htwo, hthree]

/-- The entry that the function makes of bytes. -/
def entry (level : UInt32) (bytes : List UInt8) : LogEntry :=
  ⟨LogLevel.ofNumber level.toInt32.toInt, (Text.Utf8.decode? bytes).getD invalidText⟩

theorem entryFor_entry (level : UInt32) (bytes : List UInt8) :
    EntryFor level bytes (entry level bytes) where
  debug h := by rw [entry, ofNumber_toInt32, h]; rfl
  warn h := by rw [entry, ofNumber_toInt32, h]; rfl
  error h := by rw [entry, ofNumber_toInt32, h]; rfl
  info hzero htwo hthree := by
    rw [entry, ofNumber_toInt32, if_neg hzero, if_neg htwo, if_neg hthree]
  text s h := by
    have hdecode : Text.Utf8.decode? bytes = some s := Text.Utf8.decode?_eq_some.mpr h
    rw [entry, hdecode]
    rfl
  invalid h := by
    have hdecode : Text.Utf8.decode? bytes = none := Text.Utf8.decode?_eq_none.mpr h
    rw [entry, hdecode]
    rfl

end Host.Logging

namespace Engine

open Host.Logging

/-- The bytes of a message lie in the memory that the caller lends: neither number is negative, and
the range does not go past the end. -/
structure Message (m : Machine) (pointer length : UInt32) (bytes : List UInt8) : Prop where
  pointer_nonneg : 0 ≤ pointer.toInt32.toInt
  length_nonneg : 0 ≤ length.toInt32.toInt
  range : ∃ address memory, m.hostMemory? = some (address, memory) ∧
    pointer.toInt32.toInt + length.toInt32.toInt ≤ memory.size ∧
    bytes = (List.range length.toNat).map fun i => memory.byteAt (pointer.toNat + i)

/-- The machine with one more entry in its log. -/
def Machine.withEntry (m : Machine) (e : LogEntry) : Machine :=
  { m with store := { m.store with context := { m.store.context with
      logs := m.store.context.logs ++ [e] } } }

/-- The call is one of the logging function. -/
structure HostCall.AsksToLog (c : HostCall) (level pointer length : UInt32) : Prop where
  lookup : ∃ context, c.host.registry.lookup c.id = .ok ⟨Logging.body, context⟩
  signature : c.signature = Logging.function.signature
  args : c.args = [.i32 level, .i32 pointer, .i32 length]

/-- What a call of the logging function comes to. -/
structure HostCall.Logs (c : HostCall) (level pointer length : UInt32) : Prop where
  /-- A message that is there becomes one entry. -/
  there : ∀ bytes, Message c.machine pointer length bytes → ∃ e, EntryFor level bytes e ∧
    EStateM.run c.perform c.machine = .ok [] (c.machine.withEntry e)
  /-- Otherwise nothing changes. -/
  absent : (∀ bytes, ¬ Message c.machine pointer length bytes) →
    EStateM.run c.perform c.machine = .ok [] c.machine

/-! ## The body -/

namespace Exec

variable {m : Machine} {level pointer length : UInt32}

theorem isNonNegative_eq_true {x : UInt32} : isNonNegative x = true ↔ 0 ≤ x.toInt32.toInt :=
  decide_eq_true_iff

/-- Negative numbers end the function at once. -/
theorem run_body_of_negative (key : Option ContextKey)
    (h : ¬ (0 ≤ pointer.toInt32.toInt ∧ 0 ≤ length.toInt32.toInt)) :
    EStateM.run (answer key (Logging.body [.i32 level, .i32 pointer, .i32 length])) m =
      .ok [] m := by
  have hneg : ¬ (isNonNegative pointer && isNonNegative length) = true := by
    rwa [Bool.and_eq_true, isNonNegative_eq_true, isNonNegative_eq_true]
  rw [Logging.body, if_neg hneg]
  rfl

/-- Other numbers are read as where a message is. -/
theorem run_body_of_nonneg (key : Option ContextKey)
    (h : 0 ≤ pointer.toInt32.toInt ∧ 0 ≤ length.toInt32.toInt)
    {r : Except HostFunctionError (List UInt8)}
    (hread : EStateM.run (hostRead pointer length) m = .ok r m) :
    EStateM.run (answer key (Logging.body [.i32 level, .i32 pointer, .i32 length])) m =
      .ok [] (match r with
        | .ok bytes => m.withEntry (entry level bytes)
        | .error _ => m) := by
  have hnonneg : (isNonNegative pointer && isNonNegative length) = true := by
    rwa [Bool.and_eq_true, isNonNegative_eq_true, isNonNegative_eq_true]
  rw [Logging.body, if_pos hnonneg]
  refine (run_bind_of_ok hread).trans ?_
  cases r <;> rfl

theorem run_body_of_message (key : Option ContextKey) (hsound : m.layout.Sound)
    {bytes : List UInt8} (h : Message m pointer length bytes) :
    EStateM.run (answer key (Logging.body [.i32 level, .i32 pointer, .i32 length])) m =
      .ok [] (m.withEntry (entry level bytes)) := by
  obtain ⟨address, memory, lent, inside, rfl⟩ := h.range
  rw [toInt32_of_nonneg h.pointer_nonneg, toInt32_of_nonneg h.length_nonneg] at inside
  have hread := (reads_of_sound hsound pointer length).inside address memory lent
    (by exact_mod_cast inside)
  exact run_body_of_nonneg key ⟨h.pointer_nonneg, h.length_nonneg⟩ hread

/-- What keeps a message from being read is no reason to stop. -/
theorem run_body_of_no_message (key : Option ContextKey) (hsound : m.layout.Sound)
    (h : ∀ bytes, ¬ Message m pointer length bytes) :
    EStateM.run (answer key (Logging.body [.i32 level, .i32 pointer, .i32 length])) m =
      .ok [] m := by
  by_cases hsigns : 0 ≤ pointer.toInt32.toInt ∧ 0 ≤ length.toInt32.toInt
  · obtain ⟨absent, outside, -⟩ := reads_of_sound hsound pointer length
    cases hlent : m.hostMemory? with
    | none => exact run_body_of_nonneg key hsigns (absent hlent)
    | some x =>
      refine run_body_of_nonneg key hsigns (outside x.1 x.2 hlent (Nat.lt_of_not_le fun hle => ?_))
      refine h _ ⟨hsigns.1, hsigns.2, x.1, x.2, hlent, ?_, rfl⟩
      rw [toInt32_of_nonneg hsigns.1, toInt32_of_nonneg hsigns.2]
      exact_mod_cast hle
  · exact run_body_of_negative key hsigns

end Exec

/-- **A call of the logging function always succeeds**, and records the message if there is one. -/
theorem HostCall.logs_of_sound {c : HostCall} {level pointer length : UInt32}
    (hsound : c.machine.layout.Sound) (h : c.AsksToLog level pointer length) :
    c.Logs level pointer length := by
  obtain ⟨context, hlookup⟩ := h.lookup
  have hreturns : c.signature.returns = [] := by rw [h.signature]; rfl
  let b : BodyRun :=
    ⟨⟨Logging.body, context⟩, [.i32 level, .i32 pointer, .i32 length], c.machine⟩
  have hruns : c.Runs b := by
    refine ⟨hlookup, ?_, ?_, rfl⟩
    · rw [h.args, h.signature]
      rfl
    · rw [h.signature]
      rfl
  have returns : ∀ t, EStateM.run b.perform c.machine = .ok [] t →
      EStateM.run c.perform c.machine = .ok [] t := fun t ht =>
    run_perform_eq_ok.mpr ⟨b, hruns.bodies_eq ▸ List.mem_singleton_self b, [], ht, hreturns.symm,
      rfl, rfl⟩
  exact ⟨fun bytes hbytes => ⟨entry level bytes, entryFor_entry level bytes,
      returns _ (Exec.run_body_of_message context hsound hbytes)⟩,
    fun hnone => returns _ (Exec.run_body_of_no_message context hsound hnone)⟩

end Engine

end WasmEmbedding
