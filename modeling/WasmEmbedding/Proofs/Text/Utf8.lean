import WasmEmbedding.Text.Utf8

/-! # Texts and their bytes

`Utf8.decode?` is the inverse of `Utf8.encode` on the bytes that it accepts (`decode?_eq_some`).
The bytes of a text are those of its characters one after another (`encode_eq`), and a byte below
128 is a character of its own: where one stands in the bytes, the text is split between characters
(`exists_of_getElem?_encode`).
-/
namespace WasmEmbedding.Text.Utf8

/-- A scan of a byte array from a place on adds the bytes from there. -/
theorem toList_loop (bytes : ByteArray) (i : Nat) (scanned : List UInt8) :
    ByteArray.toList.loop bytes i scanned = scanned.reverse ++ bytes.data.toList.drop i := by
  fun_induction ByteArray.toList.loop bytes i scanned with
  | case1 i scanned hlt ih =>
    rw [ih]
    have hi : i < bytes.data.size := hlt
    have hget : bytes.get! i = bytes.data[i] := getElem!_pos bytes.data i hi
    have hdrop : bytes.data.toList.drop i = bytes.data[i] :: bytes.data.toList.drop (i + 1) :=
      List.drop_eq_getElem_cons hi
    rw [hdrop, hget, List.reverse_cons, List.append_assoc]
    rfl
  | case2 i scanned hge =>
    rw [List.drop_eq_nil_of_le, List.append_nil]
    exact Nat.le_of_not_lt hge

theorem toList_bytes (bytes : ByteArray) : bytes.toList = bytes.data.toList := by
  rw [ByteArray.toList, toList_loop]
  rfl

theorem encode_eq (s : String) : encode s = s.toList.flatMap String.utf8EncodeChar := by
  rw [encode, String.toUTF8_eq_toByteArray, toList_bytes, ← String.utf8Encode_toList,
    List.utf8Encode, List.toList_data_toByteArray]

@[simp]
theorem encode_append (s t : String) : encode (s ++ t) = encode s ++ encode t := by
  simp only [encode_eq, String.toList_append, List.flatMap_append]

@[simp]
theorem length_encode (s : String) : (encode s).length = s.utf8ByteSize := by
  rw [encode, toList_bytes]
  rfl

/-- A text is read off its own bytes, and off no others. -/
theorem decode?_eq_some {bytes : List UInt8} {s : String} :
    decode? bytes = some s ↔ encode s = bytes := by
  have hbytes : encode s = bytes ↔ s.toByteArray = ⟨bytes.toArray⟩ := by
    rw [encode, toList_bytes, ByteArray.ext_iff, ← Array.toList_inj]
    rfl
  rw [hbytes, decode?, String.fromUTF8?]
  split
  · rw [Option.some_inj, ← String.toByteArray_inj]
    exact eq_comm
  · rename_i hinvalid
    exact iff_of_false nofun fun h => hinvalid (h ▸ s.isValidUTF8)

theorem encode_inj {s t : String} : encode s = encode t ↔ s = t := by
  refine ⟨fun h => ?_, congrArg encode⟩
  have ht : decode? (encode t) = some t := decode?_eq_some.mpr rfl
  exact Option.some.inj ((decode?_eq_some.mpr h).symm.trans ht)

theorem decode?_eq_none {bytes : List UInt8} :
    decode? bytes = none ↔ ∀ s, encode s ≠ bytes := by
  rw [Option.eq_none_iff_forall_ne_some]
  simp only [ne_eq, decode?_eq_some]

section Ascii

variable {b : UInt8}

theorem utf8EncodeChar_ofUInt8 (hb : b < 128) :
    String.utf8EncodeChar (Char.ofUInt8 b) = [b] := by
  have hlt : b.toNat < 128 := by simpa [UInt8.lt_iff_toNat_lt] using hb
  have hval : (Char.ofUInt8 b).val.toNat = b.toNat := UInt8.toNat_toUInt32 b
  rw [String.utf8EncodeChar, hval, if_pos (by omega), UInt8.ofNat_toNat]

/-- A byte below 128 is all there is of a character. -/
theorem eq_ofUInt8_of_mem {c : Char} (hmem : b ∈ String.utf8EncodeChar c) (hb : b < 128) :
    c = Char.ofUInt8 b := by
  have hlt : b.toNat < 128 := by simpa [UInt8.lt_iff_toNat_lt] using hb
  -- every byte of a longer character has its highest bit set
  revert hmem
  fun_cases String.utf8EncodeChar c with
  | case1 v hv =>
    intro hmem
    rw [List.mem_singleton.mp hmem]
    have hofNat : (UInt8.ofNat v).toNat = v :=
      UInt8.toNat_ofNat_of_lt' (Nat.lt_of_le_of_lt hv (by decide))
    exact Char.ext (UInt32.toNat_inj.mp hofNat.symm)
  | case2 => simp +arith [← UInt8.toNat_inj]; omega
  | case3 => simp +arith [← UInt8.toNat_inj]; omega
  | case4 => simp +arith [← UInt8.toNat_inj]; omega

/-- The bytes of characters begin with a byte below 128 if the characters begin with that byte's. -/
theorem flatMap_eq_cons_iff (hb : b < 128) {cs : List Char} {rest : List UInt8} :
    cs.flatMap String.utf8EncodeChar = b :: rest ↔
      ∃ cs', cs = Char.ofUInt8 b :: cs' ∧ cs'.flatMap String.utf8EncodeChar = rest := by
  constructor
  · intro heq
    cases cs with
    | nil => cases heq
    | cons c cs =>
      rw [List.flatMap_cons] at heq
      have hmem : b ∈ String.utf8EncodeChar c := by
        cases hc : String.utf8EncodeChar c with
        | nil =>
          have hsize := String.length_utf8EncodeChar c
          rw [hc, List.length_nil] at hsize
          exact absurd c.utf8Size_pos (by omega)
        | cons x xs =>
          rw [hc] at heq
          exact (List.cons.inj heq).1 ▸ List.mem_cons_self
      obtain rfl := eq_ofUInt8_of_mem hmem hb
      rw [utf8EncodeChar_ofUInt8 hb] at heq
      exact ⟨cs, rfl, (List.cons.inj heq).2⟩
  · rintro ⟨cs', rfl, rfl⟩
    rw [List.flatMap_cons, utf8EncodeChar_ofUInt8 hb]
    rfl

/-- Where a byte below 128 stands, one character ends and the next begins. -/
theorem exists_of_getElem?_flatMap (hb : b < 128) {cs : List Char} {i : Nat}
    (hi : (cs.flatMap String.utf8EncodeChar)[i]? = some b) :
    ∃ before after, cs = before ++ Char.ofUInt8 b :: after ∧
      (before.flatMap String.utf8EncodeChar).length = i := by
  induction cs generalizing i with
  | nil => cases hi
  | cons c cs ih =>
    rw [List.flatMap_cons] at hi
    by_cases hlt : i < (String.utf8EncodeChar c).length
    · rw [List.getElem?_append_left hlt] at hi
      obtain rfl := eq_ofUInt8_of_mem (List.mem_of_getElem? hi) hb
      rw [utf8EncodeChar_ofUInt8 hb] at hlt
      exact ⟨[], cs, rfl, (Nat.lt_one_iff.mp hlt).symm⟩
    · have hge : (String.utf8EncodeChar c).length ≤ i := Nat.le_of_not_lt hlt
      rw [List.getElem?_append_right hge] at hi
      obtain ⟨before, after, rfl, hlength⟩ := ih hi
      refine ⟨c :: before, after, rfl, ?_⟩
      rw [List.flatMap_cons, List.length_append, hlength]
      omega

/-- Where a byte below 128 stands in the bytes of a text, its character stands in the text. -/
theorem exists_of_getElem?_encode (hb : b < 128) {s : String} {i : Nat}
    (hi : (encode s)[i]? = some b) :
    ∃ before after : String, s = before ++ String.singleton (Char.ofUInt8 b) ++ after ∧
      before.utf8ByteSize = i := by
  rw [encode_eq] at hi
  obtain ⟨before, after, hs, hlength⟩ := exists_of_getElem?_flatMap hb hi
  refine ⟨String.ofList before, String.ofList after, ?_, ?_⟩
  · rw [← String.toList_inj]
    simp [hs]
  · rw [← length_encode, encode_eq, String.toList_ofList, hlength]

end Ascii

end WasmEmbedding.Text.Utf8
