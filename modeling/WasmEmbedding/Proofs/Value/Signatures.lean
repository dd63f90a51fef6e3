import WasmEmbedding.Proofs.Computation
import WasmEmbedding.Value.Signature

/-! # Signatures and the engine's function types

The engine has more types than the host has kinds.  A function type is read as a signature exactly
if every type in it is one of `supportedTypes`, and then it is the type of that signature and of no
other (`ofType?_eq_ok_iff`); the first type that has no kind is what reading fails with, parameters
before results (`ofType?_eq_error_iff`).  The text of a signature can be read in one way only
(`text_injective`): no name of a kind is empty or has a comma or a bracket in it.
`conversions_lossless` puts them together.
-/
namespace WasmEmbedding

/-- The engine types that the host has a kind for: numbers, the vector, and references to functions
and to host objects that may be null. -/
def supportedTypes : List Wasm.ValType :=
  [.i32, .i64, .f32, .f64, .v128, .ref ⟨true, .abstract false .func⟩,
    .ref ⟨true, .abstract false .external⟩]

namespace ValueKind

theorem toType_mem (k : ValueKind) : k.toType ∈ supportedTypes := by cases k <;> decide

theorem ofName?_name (k : ValueKind) : ofName? k.name = some k := by cases k <;> decide

theorem name_injective : Function.Injective name := by
  intro k k' h
  have hname : some k = some k' := by rw [← ofName?_name k, ← ofName?_name k', h]
  exact Option.some.inj hname

theorem name_ne_nil (k : ValueKind) : k.name.toList ≠ [] := by cases k <;> decide

theorem comma_not_mem_name (k : ValueKind) : ',' ∉ k.name.toList := by cases k <;> decide

theorem bracket_not_mem_name (k : ValueKind) : ')' ∉ k.name.toList := by cases k <;> decide

/-- A kind is read off exactly the type that it stands for. -/
theorem ofType?_eq_some_iff {t : Wasm.ValType} {k : ValueKind} :
    ofType? t = some k ↔ k.toType = t := by
  constructor
  · intro h
    unfold ofType? at h
    split at h
    case h_6 r =>
      split at h
      · next hr => cases h; rw [hr]; rfl
      · split at h
        · next hr => cases h; rw [hr]; rfl
        · cases h
    all_goals
      cases h
      rfl
  · rintro rfl
    exact ofType?_toType k

theorem exists_toType_iff {t : Wasm.ValType} :
    (∃ k : ValueKind, k.toType = t) ↔ t ∈ supportedTypes := by
  constructor
  · rintro ⟨k, rfl⟩
    exact k.toType_mem
  · intro h
    have hkinds : ∀ t ∈ supportedTypes, ∃ k ∈ ValueKind.all, k.toType = t := by decide
    obtain ⟨k, -, hk⟩ := hkinds t h
    exact ⟨k, hk⟩

end ValueKind

namespace Signature

/-! ## Between signatures and function types -/

section Types

variable {t : Wasm.ValType} {ts : List Wasm.ValType} {w : ValueError}

theorem kindOf_eq_ok_iff {k : ValueKind} : kindOf t = .ok k ↔ k.toType = t := by
  rw [kindOf, ← ValueKind.ofType?_eq_some_iff]
  cases ValueKind.ofType? t <;> simp

theorem kindOf_of_not_mem (h : t ∉ supportedTypes) :
    kindOf t = .error (.unsupportedType t.text) := by
  cases hkind : kindOf t with
  | ok k => exact absurd (ValueKind.exists_toType_iff.mp ⟨k, kindOf_eq_ok_iff.mp hkind⟩) h
  | error w =>
    unfold kindOf at hkind
    split at hkind
    · cases hkind
    · exact hkind.symm

theorem mapM_kindOf_eq_ok_iff {ks : List ValueKind} :
    ts.mapM kindOf = .ok ks ↔ ks.map ValueKind.toType = ts := by
  rw [mapM_eq_ok_iff]
  simp only [kindOf_eq_ok_iff]
  induction ts generalizing ks with
  | nil => simp
  | cons t ts ih =>
    rw [List.forall₂_cons_left_iff, List.map_eq_cons_iff]
    simp only [ih]
    constructor
    · rintro ⟨k, ks, hk, hks, rfl⟩
      exact ⟨k, ks, rfl, hk, hks⟩
    · rintro ⟨k, ks, rfl, hk, hks⟩
      exact ⟨k, ks, hk, hks, rfl⟩

/-- The first type without a kind is what reading a list of types fails with. -/
theorem mapM_kindOf_eq_error_iff :
    ts.mapM kindOf = .error w ↔
      ∃ bad, FirstNot (· ∈ supportedTypes) ts bad ∧ w = .unsupportedType bad.text := by
  have hkind : ∀ t, (∃ k, kindOf t = .ok k) ↔ t ∈ supportedTypes := by
    simp only [kindOf_eq_ok_iff, ValueKind.exists_toType_iff, implies_true]
  simp only [mapM_eq_error_iff, hkind]
  refine exists_congr fun bad => and_congr_right fun hbad => ?_
  rw [kindOf_of_not_mem hbad.not_self, Except.error.injEq]
  exact eq_comm

end Types

section FunctionTypes

variable {t : Wasm.FuncType}

/-- A function type is read as the signature that it is the type of. -/
theorem ofType?_eq_ok_iff {s : Signature} : ofType? t = .ok s ↔ s.toType = t := by
  obtain ⟨params, returns⟩ := s
  obtain ⟨ps, rs⟩ := t
  simp only [ofType?, bind_eq_ok_iff, mapM_kindOf_eq_ok_iff, toType, Wasm.FuncType.mk.injEq]
  constructor
  · rintro ⟨params', hparams, returns', hreturns, heq⟩
    cases heq
    exact ⟨hparams, hreturns⟩
  · rintro ⟨hparams, hreturns⟩
    exact ⟨params, hparams, returns, hreturns, rfl⟩

theorem ofType?_toType (s : Signature) : ofType? s.toType = .ok s := ofType?_eq_ok_iff.mpr rfl

/-- Reading a function type fails with its first type without a kind, and with nothing else. -/
theorem ofType?_eq_error_iff {w : ValueError} :
    ofType? t = .error w ↔
      ∃ bad, FirstNot (· ∈ supportedTypes) (t.params ++ t.results) bad ∧
        w = .unsupportedType bad.text := by
  rw [← mapM_kindOf_eq_error_iff, List.mapM_append, ofType?]
  cases t.params.mapM kindOf with
  | error w' => simp [bind, Except.bind]
  | ok params => cases t.results.mapM kindOf <;> simp [bind, Except.bind, pure, Except.pure]

theorem exists_ofType?_iff :
    (∃ s, ofType? t = .ok s) ↔ ∀ v ∈ t.params ++ t.results, v ∈ supportedTypes := by
  rcases forall_mem_or_firstNot (· ∈ supportedTypes) (t.params ++ t.results) with hall | ⟨bad, hbad⟩
  · refine iff_of_true ?_ hall
    cases h : ofType? t with
    | ok s => exact ⟨s, rfl⟩
    | error w =>
      obtain ⟨bad, hbad, -⟩ := ofType?_eq_error_iff.mp h
      exact absurd (hall bad hbad.mem) hbad.not_self
  · refine iff_of_false ?_ fun hall => hbad.not_self (hall bad hbad.mem)
    rintro ⟨s, hs⟩
    exact nomatch hs.symm.trans (ofType?_eq_error_iff.mpr ⟨bad, hbad, rfl⟩)

end FunctionTypes

/-! ## The text of a signature -/

/-- A text is split at the first separator in one way. -/
theorem eq_of_append_cons {sep : Char} {a a' b b' : List Char} (ha : sep ∉ a) (ha' : sep ∉ a')
    (h : a ++ sep :: b = a' ++ sep :: b') : a = a' ∧ b = b' := by
  induction a generalizing a' with
  | nil =>
    cases a' with
    | nil => exact ⟨rfl, (List.cons.inj h).2⟩
    | cons c a' => exact absurd ((List.cons.inj h).1 ▸ List.mem_cons_self) ha'
  | cons c a ih =>
    cases a' with
    | nil => exact absurd ((List.cons.inj h).1 ▸ List.mem_cons_self) ha
    | cons c' a' =>
      obtain ⟨rfl, htail⟩ := List.cons.inj h
      obtain ⟨rfl, hb⟩ :=
        ih (mt (List.mem_cons_of_mem c) ha) (mt (List.mem_cons_of_mem c) ha') htail
      exact ⟨rfl, hb⟩

/-- The names of kinds with commas between them. -/
def listed (ks : List ValueKind) : List Char := (", ".intercalate (ks.map ValueKind.name)).toList

theorem listed_nil : listed [] = [] := by simp [listed]

theorem listed_singleton (k : ValueKind) : listed [k] = k.name.toList := by simp [listed]

theorem listed_cons_cons (k l : ValueKind) (ks : List ValueKind) :
    listed (k :: l :: ks) = k.name.toList ++ ',' :: ' ' :: listed (l :: ks) := by
  simp [listed, String.intercalate_cons_cons]

theorem bracket_not_mem_listed (ks : List ValueKind) : ')' ∉ listed ks := by
  induction ks with
  | nil => simp [listed_nil]
  | cons k ks ih =>
    cases ks with
    | nil =>
      rw [listed_singleton]
      exact k.bracket_not_mem_name
    | cons l ks =>
      rw [listed_cons_cons]
      simp [k.bracket_not_mem_name, ih]

theorem listed_ne_nil (k : ValueKind) (ks : List ValueKind) : listed (k :: ks) ≠ [] := by
  cases ks with
  | nil =>
    rw [listed_singleton]
    exact k.name_ne_nil
  | cons l ks => simp [listed_cons_cons]

theorem listed_injective : Function.Injective listed := by
  intro ks ks' h
  induction ks generalizing ks' with
  | nil =>
    cases ks' with
    | nil => rfl
    | cons k' ks' => exact absurd h.symm (listed_ne_nil k' ks')
  | cons k ks ih =>
    -- A list of one is told from a longer one by the comma, which is in no name.
    rcases ks with - | ⟨l, ks⟩ <;> rcases ks' with - | ⟨k', - | ⟨l', ks'⟩⟩
    · exact absurd h (listed_ne_nil k [])
    · rw [listed_singleton, listed_singleton, String.toList_inj] at h
      rw [ValueKind.name_injective h]
    · rw [listed_singleton, listed_cons_cons] at h
      exact absurd (h ▸ by simp) k.comma_not_mem_name
    · exact absurd h (listed_ne_nil k _)
    · rw [listed_singleton, listed_cons_cons] at h
      exact absurd (h ▸ by simp) k'.comma_not_mem_name
    · rw [listed_cons_cons, listed_cons_cons] at h
      obtain ⟨hname, htail⟩ := eq_of_append_cons k.comma_not_mem_name k'.comma_not_mem_name h
      rw [ValueKind.name_injective (String.toList_inj.mp hname), ih (List.cons.inj htail).2]

theorem text_toList (s : Signature) :
    s.text.toList =
      '(' :: (listed s.params ++ ')' :: (" -> (".toList ++ listed s.returns ++ [')'])) := by
  simp [text, listed]

/-- **Signatures with the same text are equal.** -/
theorem text_injective : Function.Injective text := by
  intro s s' h
  have hchars := congrArg String.toList h
  rw [text_toList, text_toList] at hchars
  obtain ⟨hparams, htail⟩ := eq_of_append_cons (bracket_not_mem_listed _) (bracket_not_mem_listed _)
    (List.cons.inj hchars).2
  rw [List.append_assoc, List.append_assoc] at htail
  obtain ⟨hreturns, -⟩ := eq_of_append_cons (bracket_not_mem_listed _) (bracket_not_mem_listed _)
    (List.append_cancel_left htail)
  have hp : s.params = s'.params := listed_injective hparams
  have hr : s.returns = s'.returns := listed_injective hreturns
  cases s
  cases s'
  cases hp
  cases hr
  rfl

/-- **Nothing is lost between signatures, function types and texts.**  A signature is read back from
its function type.  A function type is read if and only if all its types have a kind, and it is the
type of the signature that is read; otherwise the error has the text of the first type without a
kind, parameters before results.  Two signatures with the same text are equal. -/
theorem conversions_lossless :
    (∀ s : Signature, ofType? s.toType = .ok s) ∧
    (∀ t : Wasm.FuncType,
      ((∃ s, ofType? t = .ok s) ↔ ∀ v ∈ t.params ++ t.results, v ∈ supportedTypes) ∧
      (∀ w, ofType? t = .error w ↔
        ∃ bad, FirstNot (· ∈ supportedTypes) (t.params ++ t.results) bad ∧
          w = .unsupportedType bad.text) ∧
      ∀ s, ofType? t = .ok s ↔ s.toType = t) ∧
    Function.Injective text :=
  ⟨ofType?_toType, fun _ => ⟨exists_ofType?_iff, fun _ => ofType?_eq_error_iff,
    fun _ => ofType?_eq_ok_iff⟩, text_injective⟩

end Signature

end WasmEmbedding
