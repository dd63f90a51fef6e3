import WasmEmbedding.Proofs.Text.Utf8
import WasmEmbedding.Proofs.Wasi.Sessions

/-! # The grammar of preopened directories

A preopened directory is given as a text: a path of the host, a colon, a path for the guest; or one
path for both.  What makes this a grammar of its own is that a path of the host may have a colon
itself, when it starts with a drive.  So the first colon is passed over if it stands behind a letter
and before a slash of either kind.

A mapping is read as bytes here: a drive is three bytes (`driveBytes`), and the mapping is split at
the first colon that is not part of a drive (`ColonAt`).  The program looks for the colon at a place
in the bytes and cuts the text there, which is only right if the place is between two characters.
It is, since a colon is a byte of its own in any text and no part of another character, and so both
sides are texts again (`isValid_append`).

`parse_mapping` says which mappings are accepted and what they are read as, for every text.  The
other way round, two paths that are joined come back, with one exception that the grammar cannot
avoid: a path of one letter, joined with an absolute path, looks like a drive (`LooksLikeDrive`).
-/
namespace WasmEmbedding.Wasi

theorem splitOnce_eq_none {sep : Char} {l : List Char} : splitOnce sep l = none ↔ sep ∉ l := by
  induction l with
  | nil => simp [splitOnce]
  | cons c rest ih =>
    rw [splitOnce]
    by_cases hc : c = sep
    · simp [hc]
    · simp [hc, ih, Ne.symm hc]

namespace Preopen

open Text

/-- The letters of ASCII, as bytes. -/
def IsLetter (b : UInt8) : Prop := (0x41 ≤ b ∧ b ≤ 0x5A) ∨ (0x61 ≤ b ∧ b ≤ 0x7A)

instance : DecidablePred IsLetter := fun _ => inferInstanceAs (Decidable (_ ∨ _))

/-- A slash of either kind, as a byte. -/
def IsSlash (b : UInt8) : Prop := b = 0x2F ∨ b = 0x5C

instance : DecidablePred IsSlash := fun _ => inferInstanceAs (Decidable (_ ∨ _))

/-- How many bytes are not searched for a separator: two if a mapping starts with a drive. -/
def driveBytes (s : String) : Nat :=
  match Utf8.encode s with
  | letter :: colon :: slash :: _ =>
    if IsLetter letter ∧ colon = 0x3A ∧ IsSlash slash then 2 else 0
  | _ => 0

/-- A colon that is not part of a drive stands at a place in the bytes of a mapping. -/
def ColonAt (s : String) (i : Nat) : Prop := driveBytes s ≤ i ∧ (Utf8.encode s)[i]? = some 0x3A

/-- A host path and a guest path that look like a path on a drive when they are joined. -/
def LooksLikeDrive (host guest : String) : Prop :=
  (∃ letter, Utf8.encode host = [letter] ∧ IsLetter letter) ∧
    ∃ slash rest, Utf8.encode guest = slash :: rest ∧ IsSlash slash

/-- What a mapping with an empty side is refused with. -/
def refusal (mapping : String) : WasiError :=
  .environmentError ("Invalid preopen '" ++ mapping ++ "'")

/-! ## Drives, in characters and in bytes -/

theorem isAlpha_iff_toNat {c : Char} :
    c.isAlpha = true ↔
      (65 ≤ c.val.toNat ∧ c.val.toNat ≤ 90) ∨ (97 ≤ c.val.toNat ∧ c.val.toNat ≤ 122) := by
  have hupper : c.isUpper = true ↔ 65 ≤ c.val.toNat ∧ c.val.toNat ≤ 90 := decide_eq_true_iff
  have hlower : c.isLower = true ↔ 97 ≤ c.val.toNat ∧ c.val.toNat ≤ 122 :=
    Bool.and_eq_true_iff.trans (and_congr decide_eq_true_iff decide_eq_true_iff)
  exact Bool.or_eq_true_iff.trans (or_congr hupper hlower)

theorem isAlpha_iff {c : Char} : c.isAlpha = true ↔ ∃ b, IsLetter b ∧ c = Char.ofUInt8 b := by
  rw [isAlpha_iff_toNat]
  constructor
  · intro hrange
    have hbyte : c.val.toUInt8.toNat = c.val.toNat := by
      rw [UInt32.toNat_toUInt8]
      omega
    refine ⟨c.val.toUInt8, ?_, Char.ext (UInt32.toNat_inj.mp ?_)⟩
    · simp only [IsLetter, UInt8.le_iff_toNat_le, hbyte]
      exact hrange
    · exact hbyte.symm
  · rintro ⟨b, hb, rfl⟩
    have hval : (Char.ofUInt8 b).val.toNat = b.toNat := UInt8.toNat_toUInt32 b
    simp only [IsLetter, UInt8.le_iff_toNat_le] at hb
    rw [hval]
    exact hb

theorem startsWithDrive_iff {cs : List Char} :
    startsWithDrive cs = true ↔
      ∃ letter slash rest, cs = Char.ofUInt8 letter :: ':' :: Char.ofUInt8 slash :: rest ∧
        IsLetter letter ∧ IsSlash slash := by
  constructor
  · intro h
    rw [startsWithDrive.eq_def] at h
    split at h
    · rename_i c slash rest
      rw [Bool.and_eq_true, Bool.or_eq_true, beq_iff_eq, beq_iff_eq, isAlpha_iff] at h
      obtain ⟨⟨letter, hletter, rfl⟩, rfl | rfl⟩ := h
      · exact ⟨letter, 0x5C, rest, rfl, hletter, .inr rfl⟩
      · exact ⟨letter, 0x2F, rest, rfl, hletter, .inl rfl⟩
    · cases h
  · rintro ⟨letter, slash, rest, rfl, hletter, hslash⟩
    have halpha := (isAlpha_iff (c := Char.ofUInt8 letter)).mpr ⟨letter, hletter, rfl⟩
    rw [startsWithDrive, halpha]
    rcases hslash with rfl | rfl <;> rfl

theorem IsLetter.lt {b : UInt8} (h : IsLetter b) : b < 128 := by
  simp only [IsLetter, UInt8.le_iff_toNat_le, UInt8.lt_iff_toNat_lt] at *
  simp at *
  omega

theorem IsSlash.lt {b : UInt8} (h : IsSlash b) : b < 128 := by
  rcases h with rfl | rfl <;> decide

/-- How many characters are not searched for a separator. -/
def driveLength (cs : List Char) : Nat := if startsWithDrive cs then 2 else 0

theorem driveBytes_eq (s : String) : driveBytes s = driveLength s.toList := by
  rw [driveLength, driveBytes, Utf8.encode_eq]
  by_cases hdrive : startsWithDrive s.toList = true
  · rw [if_pos hdrive]
    obtain ⟨letter, slash, rest, hs, hletter, hslash⟩ := startsWithDrive_iff.mp hdrive
    have hcolon : String.utf8EncodeChar ':' = [0x3A] := rfl
    simp [hs, hcolon, Utf8.utf8EncodeChar_ofUInt8 hletter.lt, Utf8.utf8EncodeChar_ofUInt8 hslash.lt,
      hletter, hslash]
  · rw [if_neg hdrive]
    split
    · rename_i letter colon slash rest hbytes
      refine if_neg ?_
      rintro ⟨hletter, rfl, hslash⟩
      obtain ⟨_, hs, hcolon⟩ := (Utf8.flatMap_eq_cons_iff hletter.lt).mp hbytes
      obtain ⟨_, rfl, hrest⟩ := (Utf8.flatMap_eq_cons_iff (by decide)).mp hcolon
      obtain ⟨cs, rfl, -⟩ := (Utf8.flatMap_eq_cons_iff hslash.lt).mp hrest
      exact hdrive (startsWithDrive_iff.mpr ⟨letter, slash, cs, hs, hletter, hslash⟩)
    · rfl

theorem driveLength_le (cs : List Char) : driveLength cs ≤ cs.length := by
  unfold driveLength
  split
  · rename_i hdrive
    obtain ⟨letter, slash, rest, rfl, -⟩ := startsWithDrive_iff.mp hdrive
    simp
  · exact Nat.zero_le _

/-- A place between two characters is behind a drive by its bytes if it is by its characters. -/
theorem driveLength_le_iff (a b : String) :
    driveLength (a ++ b).toList ≤ a.toList.length ↔ driveBytes (a ++ b) ≤ a.utf8ByteSize := by
  rw [driveBytes_eq, driveLength]
  split
  · rename_i hdrive
    obtain ⟨letter, slash, rest, hs, hletter, -⟩ := startsWithDrive_iff.mp hdrive
    rw [← Utf8.length_encode, Utf8.encode_eq]
    rw [String.toList_append] at hs
    match hcs : a.toList with
    | [] => simp
    | [c] =>
      rw [hcs] at hs
      obtain rfl : c = Char.ofUInt8 letter := (List.cons.inj hs).1
      simp [Utf8.utf8EncodeChar_ofUInt8 hletter.lt]
    | c :: c' :: cs =>
      have hc := c.utf8Size_pos
      have hc' := c'.utf8Size_pos
      simp only [List.length_cons, List.flatMap_cons, List.length_append,
        String.length_utf8EncodeChar]
      omega
  · simp

/-! ## Separators -/

theorem ColonAt.lt {s : String} {i : Nat} (h : ColonAt s i) : i < s.utf8ByteSize := by
  obtain ⟨hlt, -⟩ := List.getElem?_eq_some_iff.mp h.2
  rwa [Utf8.length_encode] at hlt

/-- The colon splits a text in two. -/
theorem ColonAt.split {s : String} {i : Nat} (h : ColonAt s i) :
    ∃ host guest, host ++ ":" ++ guest = s ∧ host.utf8ByteSize = i ∧
      driveLength s.toList ≤ host.toList.length := by
  obtain ⟨hdrive, hcolon⟩ := h
  obtain ⟨host, guest, rfl, rfl⟩ := Utf8.exists_of_getElem?_encode (by decide) hcolon
  rw [String.append_assoc] at hdrive
  refine ⟨host, guest, rfl, rfl, ?_⟩
  rw [String.append_assoc]
  exact (driveLength_le_iff host _).mpr hdrive

/-- A colon behind a drive is one in the bytes. -/
theorem colonAt_append {host guest : String}
    (h : driveLength (host ++ ":" ++ guest).toList ≤ host.toList.length) :
    ColonAt (host ++ ":" ++ guest) host.utf8ByteSize := by
  rw [String.append_assoc] at h
  refine ⟨?_, ?_⟩
  · rw [String.append_assoc]
    exact (driveLength_le_iff host _).mp h
  · have hcolon : Utf8.encode ":" = [0x3A] := by
      rw [Utf8.encode_eq]
      rfl
    rw [Utf8.encode_append, Utf8.encode_append, hcolon, ← Utf8.length_encode]
    simp

theorem split_eq_some {cs a b : List Char} :
    split cs = some (a, b) ↔
      cs = a ++ ':' :: b ∧ driveLength cs ≤ a.length ∧ ':' ∉ a.drop (driveLength cs) := by
  rw [split, driveLength]
  split
  · rename_i hdrive
    have hlength : (cs.take 2).length = 2 := by
      obtain ⟨letter, slash, rest, rfl, -⟩ := startsWithDrive_iff.mp hdrive
      rfl
    rw [Option.map_eq_some_iff]
    constructor
    · rintro ⟨⟨a, b⟩, hsplit, ⟨⟩⟩
      obtain ⟨hdrop, hfirst⟩ := splitOnce_eq_some.mp hsplit
      refine ⟨?_, ?_, ?_⟩
      · rw [List.append_assoc, ← hdrop, List.take_append_drop]
      · rw [List.length_append]
        omega
      · rwa [List.drop_left' hlength]
    · rintro ⟨rfl, hle, hfirst⟩
      refine ⟨(a.drop 2, b), splitOnce_eq_some.mpr ⟨List.drop_append_of_le_length hle, hfirst⟩, ?_⟩
      dsimp only
      rw [List.take_append_of_le_length hle, List.take_append_drop]
  · rw [splitOnce_eq_some, List.drop_zero]
    simp

theorem split_eq_none {cs : List Char} : split cs = none ↔ ':' ∉ cs.drop (driveLength cs) := by
  rw [split, driveLength]
  split
  · rw [Option.map_eq_none_iff, splitOnce_eq_none]
  · rw [splitOnce_eq_none, List.drop_zero]

/-- A colon among the characters behind a drive stands at a place in the bytes. -/
theorem exists_colonAt {path rest : String}
    (h : ':' ∈ path.toList.drop (driveLength (path ++ rest).toList)) :
    ∃ j < path.utf8ByteSize, ColonAt (path ++ rest) j := by
  obtain ⟨u, v, huv⟩ := List.append_of_mem h
  generalize hd : driveLength (path ++ rest).toList = d at huv
  have hle : d ≤ path.toList.length := by
    by_contra hlt
    rw [List.drop_eq_nil_of_le (by omega)] at huv
    cases u <;> cases huv
  let before := String.ofList (path.toList.take d ++ u)
  let after := String.ofList v
  have hpath : path = before ++ ":" ++ after := by
    rw [← String.toList_inj]
    simp [before, after, ← huv]
  have hrest : path ++ rest = before ++ ":" ++ (after ++ rest) := by
    rw [hpath, String.append_assoc]
  refine ⟨before.utf8ByteSize, ?_, ?_⟩
  · rw [hpath, String.utf8ByteSize_append, String.utf8ByteSize_append]
    have hcolon : (":" : String).utf8ByteSize = 1 := rfl
    omega
  · rw [hrest] at hd ⊢
    refine colonAt_append ?_
    rw [hd, String.toList_ofList, List.length_append, List.length_take]
    omega

/-- A mapping is split at the first colon that is not part of a drive. -/
theorem split_of_first {host guest : String}
    (hdrive : driveLength (host ++ ":" ++ guest).toList ≤ host.toList.length)
    (hfirst : ∀ j < host.utf8ByteSize, ¬ ColonAt (host ++ ":" ++ guest) j) :
    split (host ++ ":" ++ guest).toList = some (host.toList, guest.toList) := by
  refine split_eq_some.mpr ⟨by simp, hdrive, fun hmem => ?_⟩
  rw [String.append_assoc] at hmem hfirst
  obtain ⟨j, hlt, hcolon⟩ := exists_colonAt hmem
  exact hfirst j hlt hcolon

/-- A mapping without such a colon is not split. -/
theorem split_of_forall_not {s : String} (h : ∀ i, ¬ ColonAt s i) : split s.toList = none := by
  refine split_eq_none.mpr fun hmem => ?_
  rw [← String.append_empty (s := s)] at h
  have hcolon : ':' ∈ s.toList.drop (driveLength (s ++ "").toList) := by
    rwa [String.append_empty]
  obtain ⟨j, -, hcolonAt⟩ := exists_colonAt hcolon
  exact h j hcolonAt

theorem parse_of_split {s host guest : String}
    (h : split s.toList = some (host.toList, guest.toList)) :
    parse s = if host = "" ∨ guest = "" then .error (refusal s) else .ok ⟨host, guest⟩ := by
  unfold parse
  rw [h]
  simp [refusal]

theorem parse_of_split_none {s : String} (h : split s.toList = none) :
    parse s = if s = "" then .error (refusal s) else .ok ⟨s, s⟩ := by
  unfold parse
  rw [h]
  simp [refusal]

/-! ## Slices at the boundaries of characters -/

theorem isValid_append (a b : String) : (⟨a.utf8ByteSize⟩ : String.Pos.Raw).IsValid (a ++ b) :=
  String.Pos.Raw.isValid_iff_exists_append.mpr ⟨a, b, rfl, rfl⟩

theorem isValid_driveBytes (s : String) : (⟨driveBytes s⟩ : String.Pos.Raw).IsValid s := by
  rw [driveBytes_eq, driveLength]
  split
  · rename_i hdrive
    obtain ⟨letter, slash, rest, hs, hletter, -⟩ := startsWithDrive_iff.mp hdrive
    let drive := String.ofList [Char.ofUInt8 letter, ':']
    have hsize : drive.utf8ByteSize = 2 := by
      have hcolon : String.utf8EncodeChar ':' = [0x3A] := rfl
      rw [← Utf8.length_encode, Utf8.encode_eq, String.toList_ofList]
      simp [Utf8.utf8EncodeChar_ofUInt8 hletter.lt, hcolon]
    have happend : s = drive ++ String.ofList (Char.ofUInt8 slash :: rest) := by
      rw [← String.toList_inj, hs]
      simp [drive]
    rw [happend, ← hsize]
    exact isValid_append drive _
  · exact String.Pos.Raw.isValid_zero

/-! ## Pairs of paths that are joined -/

theorem looksLikeDrive_iff {host guest : String} :
    LooksLikeDrive host guest ↔
      ∃ letter slash rest, host.toList = [Char.ofUInt8 letter] ∧
        guest.toList = Char.ofUInt8 slash :: rest ∧ IsLetter letter ∧ IsSlash slash := by
  constructor
  · rintro ⟨⟨letter, hhost, hletter⟩, slash, bytes, hguest, hslash⟩
    have hone : host = String.singleton (Char.ofUInt8 letter) := by
      rw [← Utf8.encode_inj, hhost, Utf8.encode_eq, String.toList_singleton]
      simp [Utf8.utf8EncodeChar_ofUInt8 hletter.lt]
    rw [Utf8.encode_eq] at hguest
    obtain ⟨rest, hrest, -⟩ := (Utf8.flatMap_eq_cons_iff hslash.lt).mp hguest
    exact ⟨letter, slash, rest, by rw [hone, String.toList_singleton], hrest, hletter, hslash⟩
  · rintro ⟨letter, slash, rest, hhost, hguest, hletter, hslash⟩
    refine ⟨⟨letter, ?_, hletter⟩, slash, rest.flatMap String.utf8EncodeChar, ?_, hslash⟩
    · rw [Utf8.encode_eq, hhost]
      simp [Utf8.utf8EncodeChar_ofUInt8 hletter.lt]
    · rw [Utf8.encode_eq, hguest, List.flatMap_cons, Utf8.utf8EncodeChar_ofUInt8 hslash.lt]
      rfl

/-- Joining a guest path makes no drive of a host path, unless this is the letter of one. -/
theorem startsWithDrive_join {host guest : String} (hhost : host ≠ "")
    (hdrive : ¬ LooksLikeDrive host guest) :
    startsWithDrive (host.toList ++ ':' :: guest.toList) = startsWithDrive host.toList := by
  rw [Bool.eq_iff_iff, startsWithDrive_iff, startsWithDrive_iff]
  constructor
  · rintro ⟨letter, slash, rest, hjoined, hletter, hslash⟩
    match hcs : host.toList with
    | [] => exact absurd (String.toList_eq_nil_iff.mp hcs) hhost
    | [c] =>
      rw [hcs] at hjoined
      simp only [List.cons_append, List.nil_append, List.cons.injEq, true_and] at hjoined
      obtain ⟨rfl, hguest⟩ := hjoined
      exact absurd (looksLikeDrive_iff.mpr
        ⟨letter, slash, rest, hcs, hguest, hletter, hslash⟩) hdrive
    | [c, c'] =>
      rw [hcs] at hjoined
      simp only [List.cons_append, List.nil_append, List.cons.injEq] at hjoined
      obtain ⟨-, -, hcolon, -⟩ := hjoined
      rcases hslash with rfl | rfl <;> exact absurd hcolon (by decide)
    | c :: c' :: c'' :: cs =>
      rw [hcs] at hjoined
      simp only [List.cons_append, List.cons.injEq] at hjoined
      obtain ⟨rfl, rfl, rfl, -⟩ := hjoined
      exact ⟨letter, slash, cs, rfl, hletter, hslash⟩
  · rintro ⟨letter, slash, rest, hcs, hletter, hslash⟩
    exact ⟨letter, slash, rest ++ ':' :: guest.toList, by rw [hcs]; rfl, hletter, hslash⟩

/-- Paths that do not look like a drive come back from the mapping that joins them. -/
theorem parse_join {host guest : String} (hhost : host ≠ "") (hguest : guest ≠ "")
    (hcolon : ∀ i, ¬ ColonAt host i) (hdrive : ¬ LooksLikeDrive host guest) :
    parse (host ++ ":" ++ guest) = .ok ⟨host, guest⟩ := by
  have hlength : driveLength (host ++ ":" ++ guest).toList = driveLength host.toList := by
    rw [String.toList_append, String.toList_append, List.append_assoc]
    simp only [driveLength]
    exact congrArg (fun b : Bool => if b then 2 else 0) (startsWithDrive_join hhost hdrive)
  have hsplit : split (host ++ ":" ++ guest).toList = some (host.toList, guest.toList) := by
    refine split_eq_some.mpr ⟨by simp, ?_, ?_⟩
    · rw [hlength]
      exact driveLength_le _
    · rw [hlength]
      exact split_eq_none.mp (split_of_forall_not hcolon)
  rw [parse_of_split hsplit, if_neg (not_or.mpr ⟨hhost, hguest⟩)]

/-- The host path of a mapping is longer than one letter if the mapping starts with a drive. -/
theorem parse_ne_of_looksLikeDrive {host guest : String} (h : LooksLikeDrive host guest) :
    parse (host ++ ":" ++ guest) ≠ .ok ⟨host, guest⟩ := by
  obtain ⟨letter, slash, rest, hhost, hguest, hletter, hslash⟩ := looksLikeDrive_iff.mp h
  have hone : host.toList.length = 1 := by rw [hhost]; rfl
  have hlength : driveLength (host ++ ":" ++ guest).toList = 2 := by
    refine if_pos (startsWithDrive_iff.mpr ⟨letter, slash, rest, ?_, hletter, hslash⟩)
    simp [hhost, hguest]
  intro hparse
  cases hsplit : split (host ++ ":" ++ guest).toList with
  | none =>
    have hne : host ++ ":" ++ guest ≠ "" := by
      rw [← String.toList_inj.ne]
      simp [hhost]
    rw [parse_of_split_none hsplit, if_neg hne] at hparse
    have hsame : host ++ ":" ++ guest = host := congrArg Preopen.host (Except.ok.inj hparse)
    have hlonger := congrArg (fun s : String => s.toList.length) hsame
    simp at hlonger
  | some sides =>
    obtain ⟨a, b⟩ := sides
    obtain ⟨-, hle, -⟩ := split_eq_some.mp hsplit
    have hsides : split (host ++ ":" ++ guest).toList =
        some ((String.ofList a).toList, (String.ofList b).toList) := by
      rw [hsplit, String.toList_ofList, String.toList_ofList]
    rw [parse_of_split hsides] at hparse
    split at hparse
    · cases hparse
    · have hsame : String.ofList a = host := congrArg Preopen.host (Except.ok.inj hparse)
      rw [← hsame, String.toList_ofList] at hone
      omega

/-- **A mapping is read by its grammar, and paths come back from the mapping that joins them.**
The bytes that are searched begin and end between characters.  A mapping with no colon behind its
drive, if it has one, is one path on both sides; otherwise it is split at the first such colon, into
two texts that it joins.  It is refused if and only if a side is empty.  Two paths come back, unless
the first is a letter and the second starts with a slash, and a path without a colon is itself on
both sides. -/
theorem parse_mapping :
    (∀ s : String,
      (⟨driveBytes s⟩ : String.Pos.Raw).IsValid s ∧
      ((∀ i, ¬ ColonAt s i) →
        parse s = if s = "" then .error (refusal s) else .ok ⟨s, s⟩) ∧
      ∀ i, ColonAt s i → (∀ j < i, ¬ ColonAt s j) →
        (⟨i⟩ : String.Pos.Raw).IsValid s ∧ (⟨i + 1⟩ : String.Pos.Raw).IsValid s ∧
        ∃ host guest, host ++ ":" ++ guest = s ∧ host.utf8ByteSize = i ∧
          parse s = if host = "" ∨ guest = "" then .error (refusal s) else .ok ⟨host, guest⟩) ∧
    (∀ host guest : String, host ≠ "" → guest ≠ "" → (∀ i, ¬ ColonAt host i) →
      (parse (host ++ ":" ++ guest) = .ok ⟨host, guest⟩ ↔ ¬ LooksLikeDrive host guest)) ∧
    ∀ path : String, path ≠ "" → ':' ∉ path.toList → parse path = .ok ⟨path, path⟩ := by
  refine ⟨fun s => ⟨isValid_driveBytes s, fun hnone => ?_, fun i hcolon hfirst => ?_⟩, ?_, ?_⟩
  · exact parse_of_split_none (split_of_forall_not hnone)
  · obtain ⟨host, guest, rfl, rfl, hdrive⟩ := hcolon.split
    refine ⟨?_, ?_, host, guest, rfl, rfl, parse_of_split (split_of_first hdrive hfirst)⟩
    · rw [String.append_assoc]
      exact isValid_append host _
    · have hnext := isValid_append (host ++ ":") guest
      rwa [String.utf8ByteSize_append] at hnext
  · intro host guest hhost hguest hcolon
    exact ⟨fun hparse hdrive => parse_ne_of_looksLikeDrive hdrive hparse,
      parse_join hhost hguest hcolon⟩
  · intro path hpath hcolon
    have hsplit : split path.toList = none :=
      split_eq_none.mpr fun hmem => hcolon (List.mem_of_mem_drop hmem)
    rw [parse_of_split_none hsplit, if_neg hpath]

/-- A path on a drive with characters of several bytes, joined with a guest path and read again; a
letter that is taken for a drive; and a path on its own. -/
theorem parse_mapping_drives :
    (∃ host guest, host ++ ":" ++ guest = "C:/données:/data" ∧ host.utf8ByteSize = 11 ∧
      parse "C:/données:/data" = if host = "" ∨ guest = "" then .error (refusal "C:/données:/data")
        else .ok ⟨host, guest⟩) ∧
      parse ("C:/données" ++ ":" ++ "/data") = .ok ⟨"C:/données", "/data"⟩ ∧
      parse ("C" ++ ":" ++ "/data") ≠ .ok ⟨"C", "/data"⟩ ∧
      parse "C" = .ok ⟨"C", "C"⟩ := by
  have hcolon : ColonAt "C:/données:/data" 11 ∧ ∀ j < 11, ¬ ColonAt "C:/données:/data" j := by
    simp only [ColonAt, driveBytes, Utf8.encode_eq]
    decide +kernel
  have hhost : ∀ i, ¬ ColonAt "C:/données" i := by
    refine fun i h => absurd h ((?_ : ∀ i < 11, ¬ ColonAt "C:/données" i) i h.lt)
    simp only [ColonAt, driveBytes, Utf8.encode_eq]
    decide +kernel
  have hletter : ∀ i, ¬ ColonAt "C" i := by
    refine fun i h => absurd h ((?_ : ∀ i < 1, ¬ ColonAt "C" i) i h.lt)
    simp only [ColonAt, driveBytes, Utf8.encode_eq]
    decide +kernel
  have hlonger : ¬ LooksLikeDrive "C:/données" "/data" := by
    rintro ⟨⟨letter, hone, -⟩, -⟩
    have hsize : "C:/données".utf8ByteSize = 1 := by rw [← Utf8.length_encode, hone]; rfl
    exact absurd hsize (by decide +kernel)
  have hdrive : LooksLikeDrive "C" "/data" :=
    looksLikeDrive_iff.mpr ⟨0x43, 0x2F, "data".toList, rfl, rfl, by decide, by decide⟩
  exact ⟨((parse_mapping.1 "C:/données:/data").2.2 11 hcolon.1 hcolon.2).2.2,
    (parse_mapping.2.1 "C:/données" "/data" (by decide) (by decide) hhost).mpr hlonger,
    fun h => (parse_mapping.2.1 "C" "/data" (by decide) (by decide) hletter).mp h hdrive,
    parse_mapping.2.2 "C" (by decide) (by decide)⟩

end Preopen

end WasmEmbedding.Wasi
