import Mathlib.Data.Option.Basic
import Mathlib.Tactic.SplitIfs
import WasmEmbedding.Config.Render

/-! # What is written

Both notations write numbers and texts alike.  The digits of a number are read back as it and begin
with a zero only if it is zero; four hexadecimal digits are read back as a code, and a text between
quotes by its characters (`read_quoted`); and behind a value there is something that goes on with
neither (`Delimited`).
-/
namespace WasmEmbedding

/-! ## Digits -/

namespace Text.Hex

theorem value?_of_isDigit {c : Char} (h : c.isDigit = true) : value? c = some (c.toNat - 48) := by
  rw [Char.isDigit, Bool.and_eq_true, decide_eq_true_eq, decide_eq_true_eq] at h
  exact if_pos h

theorem value?_digit {n : Nat} (h : n < 16) : value? (digit n) = some n := by
  have hall : ∀ n < 16, value? (digit n) = some n := by decide
  exact hall n h

theorem toList_ofNat (n : Nat) : (ofNat 4 n).toList = [digit (n / 16 / 16 / 16 % 16),
    digit (n / 16 / 16 % 16), digit (n / 16 % 16), digit (n % 16)] := String.toList_ofList

/-- Four digits are read back. -/
theorem toNat?_ofNat {n : Nat} (h : n < 0x10000) : toNat? (ofNat 4 n) = some n := by
  have hmod : ∀ m : Nat, value? (digit (m % 16)) = some (m % 16) :=
    fun m => value?_digit (Nat.mod_lt m (by decide))
  rw [toNat?, if_neg (by simp [ofNat, ofNat.go]), toList_ofNat]
  simp only [List.foldl_cons, List.foldl_nil, hmod]
  refine congrArg some ?_
  omega

end Text.Hex

namespace Config

theorem isDigit_of_mem {n : Nat} {c : Char} (h : c ∈ Nat.toDigits 10 n) : c.isDigit = true :=
  Nat.isDigit_of_mem_toDigits (by decide) (by decide) h

theorem foldl_toDigits (n : Nat) :
    (Nat.toDigits 10 n).foldl (fun n c => n * 10 + (c.toNat - 48)) 0 = n := by
  have h := Nat.ofDigitChars_ten_toDigits (n := n)
  simp only [Nat.ofDigitChars_eq_foldl, Nat.mul_comm 10] at h
  exact h

/-- No number but zero begins with a zero. -/
theorem eq_zero_of_head {n : Nat} (h : (Nat.toDigits 10 n).head? = some '0') : n = 0 := by
  induction n using Nat.base_induction 10 (by decide) with
  | single m hm =>
    rw [Nat.toDigits_of_lt_base hm] at h
    have hall : ∀ m < 10, [Nat.digitChar m].head? = some '0' → m = 0 := by decide
    exact hall m hm h
  | digit m k hk hm ih =>
    rw [← Nat.toDigits_append_toDigits (by decide) hm hk, List.head?_append,
      List.head?_eq_some_head Nat.toDigits_ne_nil] at h
    rw [List.head?_eq_some_head Nat.toDigits_ne_nil] at ih
    exact absurd (ih h) (Nat.ne_of_gt hm)

/-- A number begins with a digit, and with a zero only if that is its only digit. -/
theorem toDigits_eq_cons (n : Nat) : ∃ c cs, Nat.toDigits 10 n = c :: cs ∧ c.isDigit = true ∧
    (c = '0' → cs = []) := by
  cases hdigits : Nat.toDigits 10 n with
  | nil => exact absurd hdigits Nat.toDigits_ne_nil
  | cons c cs =>
    refine ⟨c, cs, rfl, isDigit_of_mem (n := n) (hdigits ▸ List.mem_cons_self), ?_⟩
    rintro rfl
    have hzero : n = 0 := eq_zero_of_head (by rw [hdigits]; rfl)
    subst hzero
    exact (List.cons.inj (hdigits.symm.trans (Nat.toDigits_zero 10))).2

/-! ## Beginnings and ends -/

/-- A character with which a value or a key may begin: no blank, no mark between values, no byte
order mark, and nothing that begins a comment. -/
def isSolid (c : Char) : Bool :=
  c ∉ [' ', '\t', '\n', '\r', '#', ',', '.', '=', ']', '\x7d', '\ufeff']

theorem isSolid_of_isDigit {c : Char} (h : c.isDigit = true) : isSolid c = true := by
  refine decide_eq_true fun hmem => ?_
  have hall : ([' ', '\t', '\n', '\r', '#', ',', '.', '=', ']', '\x7d', '\ufeff'].all
      fun c => !c.isDigit) = true := rfl
  have hc := List.all_eq_true.mp hall c hmem
  rw [h] at hc
  cases hc

theorem ne_of_isSolid {c d : Char} (h : isSolid c = true) (hd : isSolid d = false) : c ≠ d := by
  rintro rfl
  exact Bool.false_ne_true (hd.symm.trans h)

theorem integerText_eq_cons (n : Int) :
    ∃ c cs, integerText n = c :: cs ∧ (c = '-' ∨ c.isDigit = true) := by
  cases n with
  | ofNat n =>
    obtain ⟨c, cs, hdigits, hc, -⟩ := toDigits_eq_cons n
    exact ⟨c, cs, hdigits, .inr hc⟩
  | negSucc n => exact ⟨_, _, rfl, .inl rfl⟩

/-- A character with which no number begins. -/
theorem ne_of_number {c d : Char} (hc : c = '-' ∨ c.isDigit = true)
    (hd : (d != '-' && !d.isDigit) = true) : c ≠ d := by
  rintro rfl
  rcases hc with rfl | hc
  · cases hd
  · rw [hc, Bool.not_true, Bool.and_false] at hd
    cases hd

/-- What is written of a document begins with a solid character. -/
theorem render_eq_cons (s : Style) (d : Document) :
    ∃ c cs, render s d = c :: cs ∧ isSolid c = true := by
  cases d with
  | null => exact ⟨_, _, by rw [render], rfl⟩
  | boolean b => cases b <;> exact ⟨_, _, by rw [render], rfl⟩
  | integer n =>
    obtain ⟨c, cs, htext, hc⟩ := integerText_eq_cons n
    refine ⟨c, cs, by rw [render, htext], ?_⟩
    rcases hc with rfl | hc
    · rfl
    · exact isSolid_of_isDigit hc
  | float => exact ⟨_, _, by rw [render], rfl⟩
  | text t => exact ⟨_, _, by rw [render, quoted, List.cons_append], rfl⟩
  | list items => cases items <;> exact ⟨_, _, by rw [render], rfl⟩
  | table entries => cases entries <;> exact ⟨_, _, by rw [render], rfl⟩

theorem render_append_eq_cons (s : Style) (d : Document) (rest : List Char) :
    ∃ c cs, render s d ++ rest = c :: cs ∧ isSolid c = true := by
  obtain ⟨c, cs, h, hc⟩ := render_eq_cons s d
  exact ⟨c, cs ++ rest, by rw [h, List.cons_append], hc⟩

theorem length_render_pos (s : Style) (d : Document) : 0 < (render s d).length := by
  obtain ⟨c, cs, h, -⟩ := render_eq_cons s d
  rw [h]
  exact Nat.zero_lt_succ _

theorem length_le_flatMap (plain : Char → Bool) (cs : List Char) :
    cs.length ≤ (cs.flatMap (quotedChar plain)).length := by
  induction cs with
  | nil => exact Nat.le_refl _
  | cons c cs ih =>
    have hc : 1 ≤ (quotedChar plain c).length := by
      unfold quotedChar
      split_ifs <;> simp
    rw [List.flatMap_cons, List.length_append, List.length_cons, Nat.add_comm]
    exact Nat.add_le_add hc ih

/-- A reader that takes back each character of a text between quotes takes back the text. -/
theorem read_quoted {β : Type} {read : Nat → List Char → List Char → Option β}
    {plain : Char → Bool} (step : ∀ fuel acc c rest,
      read (fuel + 1) acc (quotedChar plain c ++ rest) = read fuel (c :: acc) rest)
    (fuel : Nat) (acc cs rest : List Char) :
    read (fuel + cs.length) acc (cs.flatMap (quotedChar plain) ++ rest) =
      read fuel (cs.reverse ++ acc) rest := by
  induction cs generalizing acc with
  | nil => rfl
  | cons c cs ih =>
    rw [List.flatMap_cons, List.append_assoc, List.length_cons, ← Nat.add_assoc, step, ih,
      List.reverse_cons, List.append_assoc]
    rfl

/-- There is fuel for a text between quotes and for the quote behind it. -/
theorem exists_fuel (plain : Char → Bool) (cs rest : List Char) :
    ∃ fuel, (cs.flatMap (quotedChar plain) ++ '"' :: rest).length + 1 = fuel + 1 + cs.length := by
  have hlength := length_le_flatMap plain cs
  refine ⟨(cs.flatMap (quotedChar plain) ++ '"' :: rest).length - cs.length, ?_⟩
  rw [List.length_append]
  omega

/-- A text that begins with a mark behind a value, or has come to its end. -/
def Delimited (cs : List Char) : Prop :=
  ∀ c ∈ cs.head?, c = ',' ∨ c = ']' ∨ c = '\x7d' ∨ c = '\n'

theorem delimited_nil : Delimited [] := nofun

theorem delimited_renderItems (s : Style) (vs : List Document) (rest : List Char) :
    Delimited (renderItems s vs ++ rest) := by
  cases vs with
  | nil =>
    rintro c ⟨⟩
    exact .inr (.inl rfl)
  | cons v vs =>
    rw [renderItems, List.cons_append]
    rintro c ⟨⟩
    exact .inl rfl

theorem delimited_renderEntries (s : Style) (es : List (Option String × Document))
    (rest : List Char) : Delimited (renderEntries s es ++ rest) := by
  cases es with
  | nil =>
    rintro c ⟨⟩
    exact .inr (.inr (.inl rfl))
  | cons e es =>
    obtain ⟨k, v⟩ := e
    rw [renderEntries, List.cons_append]
    rintro c ⟨⟩
    exact .inl rfl

theorem isDigit_of_delimited {rest : List Char} (h : Delimited rest) :
    ∀ c ∈ rest.head?, c.isDigit = false := by
  intro c hc
  rcases h c hc with rfl | rfl | rfl | rfl <;> rfl

theorem takeWhile_run {p : Char → Bool} {run rest : List Char} (hrun : ∀ c ∈ run, p c = true)
    (hrest : ∀ c ∈ rest.head?, p c = false) : (run ++ rest).takeWhile p = run := by
  rw [List.takeWhile_append_of_pos hrun]
  cases rest with
  | nil => simp
  | cons c rest => simp [hrest c rfl]

theorem dropWhile_run {p : Char → Bool} {run rest : List Char} (hrun : ∀ c ∈ run, p c = true)
    (hrest : ∀ c ∈ rest.head?, p c = false) : (run ++ rest).dropWhile p = rest := by
  rw [List.dropWhile_append_of_pos hrun]
  cases rest with
  | nil => rfl
  | cons c rest => simp [hrest c rfl]

end Config

end WasmEmbedding
