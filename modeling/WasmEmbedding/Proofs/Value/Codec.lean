import WasmEmbedding.Value.Operand

/-! # The codec agrees with the check

`Value.check` and `Operand.decode` are two loops over the same pairs of a position and
a kind: one looks at host values, the other at operands. `decode_ofValue` puts them side
by side: what comes back from the engine unchanged decodes exactly when the values that
went in pass the check, and fails with the very error of the check otherwise. In the
other direction `eq_of_decode` says that a list that decodes is the encoding of its
values, and `decode_of_fails` that a position that does not decode decides the error
unless an earlier one has done so.

The engine does not hand out external objects themselves. It roots them in a scope and
passes handles, so that encoding a list changes the scope that its later positions, and
decoding, look at. `RootScope` adds this: `RootScope.encode` roots one object for each
external reference that is not null, `RootScope.decode` looks the handles up, and
`RootScope.denote` forgets the handles again. `map_denote_encode` and `decode_eq` say
that the plain codec is what is left, and `RootScope.codec` is the account of both
directions in a scope.
-/
namespace WasmEmbedding

/-! ## What the check says -/

namespace Value

/-- The counts differ, or some position is the first whose kind is another than the
declared one: the two errors of a check, with their contents. -/
inductive Mismatch (values : List Value) (kinds : List ValueKind) : ValueError → Prop where
  | arity (h : values.length ≠ kinds.length) :
      Mismatch values kinds (.arityMismatch kinds.length values.length)
  | type {i : Nat} {v : Value} {k : ValueKind} (h : values.length = kinds.length)
      (hv : values[i]? = some v) (hk : kinds[i]? = some k) (differ : v.kind ≠ k)
      (first : (values.map kind).take i = kinds.take i) :
      Mismatch values kinds (.typeMismatch i k v.kind)

theorem checkFrom_eq_ok_iff {vs : List Value} {ks : List ValueKind} (h : vs.length = ks.length)
    (n : Nat) : checkFrom n vs ks = .ok () ↔ vs.map kind = ks := by
  induction vs generalizing ks n with
  | nil => simp [List.eq_nil_of_length_eq_zero h.symm, checkFrom]
  | cons v vs ih =>
    obtain _ | ⟨k, ks⟩ := ks
    · cases h
    · rw [List.length_cons, List.length_cons, Nat.add_right_cancel_iff] at h
      by_cases hk : v.kind = k <;> simp [checkFrom, hk, ih h]

/-- A check passes iff the kinds are the declared ones, in order and number. -/
theorem check_eq_ok_iff {vs : List Value} {ks : List ValueKind} :
    check vs ks = .ok () ↔ vs.map kind = ks := by
  by_cases h : vs.length = ks.length
  · rw [check, if_pos h, checkFrom_eq_ok_iff h]
  · have differ : vs.map kind ≠ ks := fun e => h (by rw [← e, List.length_map])
    simp [check, h, differ]

theorem checkFrom_eq_error {vs : List Value} {ks : List ValueKind} {n : Nat} {e : ValueError}
    (h : checkFrom n vs ks = .error e) :
    ∃ i v k, vs[i]? = some v ∧ ks[i]? = some k ∧ v.kind ≠ k ∧
      (vs.map kind).take i = ks.take i ∧ e = .typeMismatch (n + i) k v.kind := by
  induction vs generalizing ks n with
  | nil => cases ks <;> cases h
  | cons v vs ih =>
    obtain _ | ⟨k, ks⟩ := ks
    · cases h
    · rw [checkFrom] at h
      by_cases hk : v.kind = k
      · rw [if_pos hk] at h
        obtain ⟨i, w, l, hw, hl, differ, first, rfl⟩ := ih h
        exact ⟨i + 1, w, l, hw, hl, differ, by simp [hk, first],
          by rw [Nat.add_assoc, Nat.add_comm 1]⟩
      · rw [if_neg hk] at h
        exact ⟨0, v, k, rfl, rfl, hk, rfl, by cases h; rfl⟩

/-- A check that fails tells the counts, or the first position of another kind with
both kinds. -/
theorem mismatch_of_check {vs : List Value} {ks : List ValueKind} {e : ValueError}
    (h : check vs ks = .error e) : Mismatch vs ks e := by
  by_cases count : vs.length = ks.length
  · rw [check, if_pos count] at h
    obtain ⟨i, v, k, hv, hk, differ, first, rfl⟩ := checkFrom_eq_error h
    rw [Nat.zero_add]
    exact .type count hv hk differ first
  · rw [check, if_neg count] at h
    cases h
    exact .arity count

end Value

/-! ## The plain codec -/

namespace Operand

/-- The operand of a value, in an engine with a heap for external references. -/
def ofValue : Value → Operand
  | .i32 x => .i32 x
  | .i64 x => .i64 x
  | .f32 x => .f32 x
  | .f64 x => .f64 x
  | .v128 x => .v128 x
  | .funcRef r => .func r
  | .externRef r => .external (r.map .host)

/-- With a heap for external references, encoding cannot fail. -/
theorem encode_present (vs : List Value) :
    Value.encode .present vs = .ok (vs.map ofValue) := by
  have one (v : Value) : v.encodeOne .present = .ok (ofValue v) := by
    cases v with
    | externRef r => cases r <;> rfl
    | _ => rfl
  induction vs with
  | nil => rfl
  | cons v vs ih => rw [Value.encode, List.mapM_cons, one, ← Value.encode, ih]; rfl

/-- At one position: the value itself if it has the declared kind, otherwise the error
of the check. -/
theorem decodeOne_ofValue (index : Nat) (k : ValueKind) (v : Value) :
    decodeOne index k (ofValue v) =
      if v.kind = k then .ok v else .error (.typeMismatch index k v.kind) := by
  cases v with
  | externRef r => cases r <;> cases k <;> rfl
  | _ => cases k <;> rfl

theorem decodeFrom_ofValue {vs : List Value} {ks : List ValueKind} (h : vs.length = ks.length)
    (n : Nat) : decodeFrom n (vs.map ofValue) ks = (Value.checkFrom n vs ks).map fun _ => vs := by
  induction vs generalizing ks n with
  | nil => rfl
  | cons v vs ih =>
    obtain _ | ⟨k, ks⟩ := ks
    · cases h
    · rw [List.length_cons, List.length_cons, Nat.add_right_cancel_iff] at h
      rw [List.map_cons, decodeFrom, decodeOne_ofValue, Value.checkFrom]
      by_cases hk : v.kind = k
      · rw [if_pos hk, if_pos hk, ih h]
        cases Value.checkFrom (n + 1) vs ks <;> rfl
      · rw [if_neg hk, if_neg hk]
        rfl

/-- **Decoding agrees with the check**: operands that stand for host values decode to
these values if the check passes, and to the error of the check otherwise. -/
theorem decode_ofValue (vs : List Value) (ks : List ValueKind) :
    decode (vs.map ofValue) ks = (Value.check vs ks).map fun _ => vs := by
  rw [decode, Value.check, List.length_map]
  by_cases h : vs.length = ks.length
  · rw [if_pos h, if_pos h, decodeFrom_ofValue h]
  · rw [if_neg h, if_neg h]
    rfl

theorem eq_of_decodeOne {index : Nat} {k : ValueKind} {x : Operand} {v : Value}
    (h : decodeOne index k x = .ok v) : ofValue v = x ∧ v.kind = k := by
  cases x with
  | external r =>
    obtain _ | ⟨_⟩ | ⟨_⟩ | ⟨_⟩ := r <;> cases k <;> cases h <;> exact ⟨rfl, rfl⟩
  | _ => cases k <;> cases h <;> exact ⟨rfl, rfl⟩

theorem eq_of_decodeFrom {xs : List Operand} {ks : List ValueKind} (h : xs.length = ks.length)
    {n : Nat} {vs : List Value} (hv : decodeFrom n xs ks = .ok vs) :
    vs.map ofValue = xs ∧ vs.map Value.kind = ks := by
  induction xs generalizing ks n vs with
  | nil =>
    cases List.eq_nil_of_length_eq_zero h.symm
    cases hv
    exact ⟨rfl, rfl⟩
  | cons x xs ih =>
    obtain _ | ⟨k, ks⟩ := ks
    · cases h
    · rw [List.length_cons, List.length_cons, Nat.add_right_cancel_iff] at h
      rw [decodeFrom] at hv
      cases first : decodeOne n k x with
      | error e => rw [first] at hv; cases hv
      | ok w =>
        cases rest : decodeFrom (n + 1) xs ks with
        | error e => rw [first, rest] at hv; cases hv
        | ok ws =>
          rw [first, rest] at hv
          cases hv
          obtain ⟨rfl, rfl⟩ := eq_of_decodeOne first
          obtain ⟨rfl, rfl⟩ := ih h rest
          exact ⟨rfl, rfl⟩

theorem length_eq_of_decode {xs : List Operand} {ks : List ValueKind} {vs : List Value}
    (h : decode xs ks = .ok vs) : xs.length = ks.length := by
  by_cases count : xs.length = ks.length
  · exact count
  · rw [decode, if_neg count] at h
    cases h

/-- **What decodes was encoded**: the operands are those of the values that they decode
to, and the values have the declared kinds. -/
theorem eq_of_decode {xs : List Operand} {ks : List ValueKind} {vs : List Value}
    (h : decode xs ks = .ok vs) : vs.map ofValue = xs ∧ vs.map Value.kind = ks := by
  have count := length_eq_of_decode h
  rw [decode, if_pos count] at h
  exact eq_of_decodeFrom count h

theorem decodeFrom_of_fails {xs : List Operand} {ks : List ValueKind} {n i : Nat} {x : Operand}
    {k : ValueKind} {e : ValueError} (hx : xs[i]? = some x) (hk : ks[i]? = some k)
    (he : decodeOne (n + i) k x = .error e) :
    decodeFrom n xs ks = .error e ∨
      ∃ j < i, ∃ y l d, xs[j]? = some y ∧ ks[j]? = some l ∧
        decodeOne (n + j) l y = .error d ∧ decodeFrom n xs ks = .error d := by
  -- along the lists: the head fails, or the tail's account moves up by one position
  induction i generalizing xs ks n with
  | zero =>
    obtain _ | ⟨y, xs⟩ := xs
    · cases hx
    obtain _ | ⟨l, ks⟩ := ks
    · cases hk
    cases hx
    cases hk
    rw [Nat.add_zero] at he
    rw [decodeFrom, he]
    exact .inl rfl
  | succ i ih =>
    obtain _ | ⟨y, xs⟩ := xs
    · cases hx
    obtain _ | ⟨l, ks⟩ := ks
    · cases hk
    cases head : decodeOne n l y with
    | error d =>
      exact .inr ⟨0, Nat.succ_pos i, y, l, d, rfl, rfl, head, by rw [decodeFrom, head]; rfl⟩
    | ok v =>
      have shift (m : Nat) : n + 1 + m = n + (m + 1) := by omega
      have cons {d : ValueError} (h : decodeFrom (n + 1) xs ks = .error d) :
          decodeFrom n (y :: xs) (l :: ks) = .error d := by
        rw [decodeFrom, head, h]
        rfl
      rw [← shift] at he
      obtain tail | ⟨j, below, z, m, d, hz, hm, fails, tail⟩ := ih hx hk he
      · exact .inl (cons tail)
      · exact .inr ⟨j + 1, Nat.succ_lt_succ below, z, m, d, hz, hm, by rwa [← shift], cons tail⟩

/-- A position that does not decode decides the error of a list of the right length,
unless an earlier one has done so. -/
theorem decode_of_fails {xs : List Operand} {ks : List ValueKind} {i : Nat} {x : Operand}
    {k : ValueKind} {e : ValueError} (count : xs.length = ks.length) (hx : xs[i]? = some x)
    (hk : ks[i]? = some k) (he : decodeOne i k x = .error e) :
    decode xs ks = .error e ∨
      ∃ j < i, ∃ y l d, xs[j]? = some y ∧ ks[j]? = some l ∧
        decodeOne j l y = .error d ∧ decode xs ks = .error d := by
  have h := decodeFrom_of_fails (n := 0) hx hk (by rwa [Nat.zero_add])
  simp only [Nat.zero_add] at h
  rwa [decode, if_pos count]

end Operand

/-! ## The codec in a scope -/

/-- The external objects that are rooted, in the order in which they were. The position
of an object is its handle; a handle outside was rooted elsewhere. -/
structure RootScope where
  objects : List ExternObject
  deriving DecidableEq, Repr

/-- A value as the engine passes it: external references are handles of a scope, and
`other` stands for the references that no host kind covers. -/
inductive Rooted where
  | i32 (bits : UInt32)
  | i64 (bits : UInt64)
  | f32 (bits : UInt32)
  | f64 (bits : UInt64)
  | v128 (bits : BitVec 128)
  | func (ref : Option FuncRef)
  | external (handle : Option Nat)
  | other (data : Nat)
  deriving DecidableEq, Repr

namespace Rooted

/-- The host kind of a passed value, if there is one. -/
def kind? : Rooted → Option ValueKind
  | .i32 _ => some .i32
  | .i64 _ => some .i64
  | .f32 _ => some .f32
  | .f64 _ => some .f64
  | .v128 _ => some .v128
  | .func _ => some .funcRef
  | .external _ => some .externRef
  | .other _ => none

end Rooted

namespace RootScope

variable (s : RootScope)

/-- The host object of a handle, if the handle is rooted here and the host made the
object. -/
def host? (handle : Nat) : Option ExternRef :=
  match s.objects[handle]? with
  | some (.host r) => some r
  | _ => none

/-- The host value of a handle. -/
def resolve (handle : Nat) : Except ValueError Value :=
  match s.host? handle with
  | some r => .ok (.externRef (some r))
  | none => .error .foreignReference

/-- Passes one value; a non-null external reference is rooted first. -/
def encodeOne : Value → Rooted × RootScope
  | .i32 x => (.i32 x, s)
  | .i64 x => (.i64 x, s)
  | .f32 x => (.f32 x, s)
  | .f64 x => (.f64 x, s)
  | .v128 x => (.v128 x, s)
  | .funcRef r => (.func r, s)
  | .externRef none => (.external none, s)
  | .externRef (some r) => (.external (some s.objects.length), ⟨s.objects ++ [.host r]⟩)

/-- Passes values in order, each in the scope that the one before has left. -/
def encode (s : RootScope) : List Value → List Rooted × RootScope
  | [] => ([], s)
  | v :: vs =>
    let head := s.encodeOne v
    let tail := head.2.encode vs
    (head.1 :: tail.1, tail.2)

/-- The host value of a passed one at a position whose declared kind is given. -/
def decodeOne (index : Nat) (kind : ValueKind) (x : Rooted) : Except ValueError Value :=
  match kind, x with
  | .i32, .i32 b => .ok (.i32 b)
  | .i64, .i64 b => .ok (.i64 b)
  | .f32, .f32 b => .ok (.f32 b)
  | .f64, .f64 b => .ok (.f64 b)
  | .v128, .v128 b => .ok (.v128 b)
  | .funcRef, .func r => .ok (.funcRef r)
  | .externRef, .external none => .ok (.externRef none)
  | .externRef, .external (some h) => s.resolve h
  | k, x => .error (.typeMismatch index k (x.kind?.getD k))

/-- The host values of passed ones from a position on, as long as both lists last. -/
def decodeFrom (index : Nat) : List Rooted → List ValueKind → Except ValueError (List Value)
  | x :: xs, k :: ks => do
    let v ← s.decodeOne index k x
    let vs ← decodeFrom (index + 1) xs ks
    return v :: vs
  | _, _ => .ok []

/-- The host values of passed ones, by the kinds that a signature declares. -/
def decode (values : List Rooted) (kinds : List ValueKind) : Except ValueError (List Value) :=
  if values.length = kinds.length then s.decodeFrom 0 values kinds
  else .error (.arityMismatch kinds.length values.length)

/-- The operand that a passed value stands for. A handle that is not rooted here is
somebody else's. -/
def denote : Rooted → Operand
  | .i32 x => .i32 x
  | .i64 x => .i64 x
  | .f32 x => .f32 x
  | .f64 x => .f64 x
  | .v128 x => .v128 x
  | .func r => .func r
  | .external none => .external none
  | .external (some h) => .external (some (s.objects[h]?.getD (.foreign h)))
  | .other _ => .anyNull

/-! ### Forgetting the handles -/

theorem decodeOne_eq (index : Nat) (k : ValueKind) (x : Rooted) :
    s.decodeOne index k x = Operand.decodeOne index k (s.denote x) := by
  cases x with
  | external h =>
    cases h with
    | none => cases k <;> rfl
    | some h =>
      rw [denote]
      cases k with
      | externRef =>
        change s.resolve h = _
        rw [resolve, host?]
        cases s.objects[h]? with
        | none => rfl
        | some o => cases o <;> rfl
      | _ => rfl
  | _ => cases k <;> rfl

theorem decodeFrom_eq (n : Nat) (xs : List Rooted) (ks : List ValueKind) :
    s.decodeFrom n xs ks = Operand.decodeFrom n (xs.map s.denote) ks := by
  induction xs generalizing ks n with
  | nil => rfl
  | cons x xs ih =>
    cases ks with
    | nil => rfl
    | cons k ks => rw [List.map_cons, decodeFrom, Operand.decodeFrom, decodeOne_eq, ih]

/-- Decoding in a scope is decoding what the handles stand for. -/
theorem decode_eq (xs : List Rooted) (ks : List ValueKind) :
    s.decode xs ks = Operand.decode (xs.map s.denote) ks := by
  rw [decode, Operand.decode, List.length_map, decodeFrom_eq]

variable {s}

theorem objects_encodeOne (v : Value) : s.objects <+: (s.encodeOne v).2.objects := by
  cases v with
  | externRef r =>
    cases r with
    | none => exact List.prefix_rfl
    | some r => exact List.prefix_append _ _
  | _ => exact List.prefix_rfl

/-- Encoding only adds to the scope. -/
theorem objects_encode (s : RootScope) (vs : List Value) :
    s.objects <+: (s.encode vs).2.objects := by
  induction vs generalizing s with
  | nil => exact List.prefix_rfl
  | cons v vs ih => exact (objects_encodeOne v).trans (ih _)

/-- What was encoded stands for the value in every scope that has grown since. -/
theorem denote_encodeOne (v : Value) {t : RootScope}
    (later : (s.encodeOne v).2.objects <+: t.objects) :
    t.denote (s.encodeOne v).1 = Operand.ofValue v := by
  cases v with
  | externRef r =>
    cases r with
    | none => rfl
    | some r =>
      obtain ⟨more, rooted⟩ := later
      have found : t.objects[s.objects.length]? = some (.host r) := by
        rw [← rooted]
        simp [encodeOne]
      simp [encodeOne, denote, Operand.ofValue, found]
  | _ => rfl

theorem map_denote_encode (s : RootScope) (vs : List Value) {t : RootScope}
    (later : (s.encode vs).2.objects <+: t.objects) :
    (s.encode vs).1.map t.denote = vs.map Operand.ofValue := by
  induction vs generalizing s with
  | nil => rfl
  | cons v vs ih =>
    have tail := ih (s.encodeOne v).2 later
    have head := denote_encodeOne v ((objects_encode (s.encodeOne v).2 vs).trans later)
    rw [encode, List.map_cons, List.map_cons, head, tail]

theorem decodeOne_of_host? {h : Nat} (foreign : s.host? h = none) (index : Nat) :
    s.decodeOne index .externRef (.external (some h)) = .error .foreignReference := by
  change s.resolve h = _
  rw [resolve, foreign]

/-- **The codec in a scope.** Encoded in a scope `s`, values decode in every scope that
has grown from it exactly when they pass the check, to themselves, and otherwise with
the error of the check, whose contents `Value.Mismatch` gives. Conversely values that
anything decodes to pass the check, and encoding them again gives values that stand for
the same operands, handles aside. A handle of no host object at a position declared
`externref` is a foreign reference, unless an earlier position has failed. Without the
handles this is the plain codec. -/
theorem codec (s : RootScope) (ks : List ValueKind) :
    (∀ vs (t : RootScope), (s.encode vs).2.objects <+: t.objects →
      Value.encode .present vs = .ok ((s.encode vs).1.map t.denote) ∧
      t.decode (s.encode vs).1 ks = (Value.check vs ks).map fun _ => vs) ∧
    (∀ vs e, Value.check vs ks = .error e → Value.Mismatch vs ks e) ∧
    (∀ xs, s.decode xs ks = Operand.decode (xs.map s.denote) ks) ∧
    (∀ xs vs, s.decode xs ks = .ok vs →
      Value.check vs ks = .ok () ∧
      (s.encode vs).1.map (s.encode vs).2.denote = xs.map s.denote) ∧
    (∀ xs i h, xs.length = ks.length → xs[i]? = some (.external (some h)) →
      ks[i]? = some .externRef → s.host? h = none →
      s.decode xs ks = .error .foreignReference ∨
        ∃ j < i, ∃ y l d, xs[j]? = some y ∧ ks[j]? = some l ∧
          s.decodeOne j l y = .error d ∧ s.decode xs ks = .error d) := by
  refine ⟨fun vs t later => ?there, fun vs e => Value.mismatch_of_check,
    fun xs => s.decode_eq xs ks,
    fun xs vs decoded => ?back, fun xs i h count hx hk foreign => ?foreign⟩
  case there =>
    have same := map_denote_encode s vs later
    exact ⟨by rw [same, Operand.encode_present],
      by rw [decode_eq, same, Operand.decode_ofValue]⟩
  case back =>
    rw [decode_eq] at decoded
    obtain ⟨operands, kinds⟩ := Operand.eq_of_decode decoded
    exact ⟨Value.check_eq_ok_iff.mpr kinds, by
      rw [map_denote_encode s vs List.prefix_rfl, operands]⟩
  case foreign =>
    have fails : Operand.decodeOne i .externRef (s.denote (.external (some h))) =
        .error .foreignReference := by
      rw [← decodeOne_eq]
      exact decodeOne_of_host? foreign i
    have hx' : (xs.map s.denote)[i]? = some (s.denote (.external (some h))) := by
      rw [List.getElem?_map, hx]
      rfl
    rw [decode_eq]
    obtain now | ⟨j, below, y, l, d, hy, hl, earlier, result⟩ :=
      Operand.decode_of_fails (by rwa [List.length_map]) hx' hk fails
    · exact .inl now
    · obtain ⟨x, atJ, rfl⟩ := Option.map_eq_some_iff.mp (List.getElem?_map ▸ hy)
      exact .inr ⟨j, below, x, l, d, atJ, hl, by rwa [decodeOne_eq], result⟩

/-- A NaN with a payload and a host object make the round trip beside an object of
somebody else, which does not decode itself; one value is too few. -/
theorem codec_beside_foreign :
    let s : RootScope := ⟨[.foreign 3]⟩
    let values : List Value := [.f32 0x7fa00001, .externRef (some ⟨"greeting"⟩)]
    let kinds : List ValueKind := [.f32, .externRef]
    (s.encode values).2.decode (s.encode values).1 kinds = .ok values ∧
    Value.Mismatch [.f32 0] kinds (.arityMismatch 2 1) ∧
    Value.check [.f32 0, .externRef none] kinds = .ok () ∧
    (s.decode [.f32 0, .external (some 0)] kinds = .error .foreignReference ∨
      ∃ j < 1, ∃ y l d, [Rooted.f32 0, .external (some 0)][j]? = some y ∧ kinds[j]? = some l ∧
        s.decodeOne j l y = .error d ∧
        s.decode [.f32 0, .external (some 0)] kinds = .error d) := by
  obtain ⟨there, contents, -, back, foreign⟩ :=
    codec ⟨[.foreign 3]⟩ [ValueKind.f32, ValueKind.externRef]
  exact ⟨(there _ _ List.prefix_rfl).2, contents [.f32 0] _ rfl,
    (back [.f32 0, .external none] _ rfl).1, foreign _ 1 0 rfl rfl rfl rfl⟩

end RootScope

end WasmEmbedding
