import Mathlib.Data.List.Basic
import WasmEmbedding.Config.Toml.Parser
import WasmEmbedding.Proofs.Config.Rendering

/-! # What is written in TOML: keys, texts and numbers

A text is written in quotes on one line, and read back by its characters (`string?_quoted`).  A key
is bare if it can be, and a path is read up to the mark behind it (`splitKey?_pathText`).  A number
of 63 bits and a sign is read back from its digits (`number?_integerText`): they have no zero before
them, no mark of another base, and nothing of a date behind them.
-/
namespace WasmEmbedding.Config.Toml

variable {fuel : Nat} {rest : List Char}

/-! ## Texts -/

theorem scalar?_ofNat {n : Nat} (h : n < 0xD800) :
    scalar? 4 ((Text.Hex.ofNat 4 n).toList ++ rest) = some (Char.ofNat n, rest) := by
  have hlength : (Text.Hex.ofNat 4 n).toList.length = 4 := by
    rw [Text.Hex.toList_ofNat]
    rfl
  rw [scalar?, List.take_left' hlength, List.drop_left' hlength, String.ofList_toList,
    Text.Hex.toNat?_ofNat (Nat.lt_trans h (by decide))]
  have hscalar : (decide (n < 0xD800) || decide (0xE000 ≤ n) && decide (n < 0x110000)) = true := by
    rw [decide_eq_true h, Bool.true_or]
  simp only [Option.bind_eq_bind, Option.bind_some, (Option.guard_eq_some' ()).mpr hlength,
    (Option.guard_eq_some' ()).mpr hscalar]
  rfl

/-- A character between quotes is read back. -/
theorem basic?_quotedChar (c : Char) (acc : List Char) :
    basic? (fuel + 1) acc (quotedChar isPlain c ++ rest) = basic? fuel (c :: acc) rest := by
  unfold quotedChar
  split
  · rename_i hc
    rcases hc with rfl | rfl
    · rfl
    · rfl
  · rename_i hc
    rw [not_or] at hc
    by_cases hplain : isPlain c = true
    · rw [if_pos hplain, List.singleton_append, basic?]
      · exact if_pos hplain
      · exact hc.1
      · exact hc.2
    · rw [if_neg hplain]
      have hcontrol : c.toNat < 0xD800 := by
        simp [isPlain] at hplain
        omega
      rw [List.cons_append, List.cons_append, basic?]
      change (scalar? 4 _ >>= _) = _
      rw [scalar?_ofNat hcontrol, Char.ofNat_toNat]
      rfl

theorem basic?_body (s : String) :
    basic? ((s.toList.flatMap (quotedChar isPlain) ++ '"' :: rest).length + 1) []
      (s.toList.flatMap (quotedChar isPlain) ++ '"' :: rest) = some (s, rest) := by
  obtain ⟨fuel, hfuel⟩ := exists_fuel isPlain s.toList rest
  rw [hfuel, read_quoted fun _ acc c _ => basic?_quotedChar c acc, List.append_nil]
  change some (String.ofList s.toList.reverse.reverse, rest) = _
  rw [List.reverse_reverse, String.ofList_toList]

/-- A text in quotes is on one line: it does not begin with three quotes. -/
theorem string?_quoted (s : String) (h : Delimited rest) :
    string? (quoted isPlain s ++ rest) = some (s, rest) := by
  have htext : quoted isPlain s ++ rest =
      '"' :: (s.toList.flatMap (quotedChar isPlain) ++ '"' :: rest) := by
    simp [quoted]
  rw [htext, string?]
  · exact basic?_body s
  · intro rest' hquotes
    cases hs : s.toList with
    | nil =>
      rw [hs] at hquotes
      have hhead := h '"' (by rw [(List.cons.inj hquotes).2]; rfl)
      simp at hhead
    | cons c cs =>
      rw [hs, List.flatMap_cons, List.append_assoc] at hquotes
      unfold quotedChar at hquotes
      split at hquotes
      · cases hquotes
      · rename_i hc
        split at hquotes
        · exact hc (.inl (List.cons.inj hquotes).1)
        · cases hquotes

/-! ## Keys -/

theorem skipBlanks_of_isSolid {c : Char} {cs : List Char} (h : isSolid c = true) :
    skipBlanks (c :: cs) = c :: cs := by
  refine List.dropWhile_cons_of_neg fun hblank => ?_
  simp only [isBlank, Bool.or_eq_true, beq_iff_eq] at hblank
  rcases hblank with rfl | rfl <;> cases h

theorem isSolid_of_isBareKey {c : Char} (h : isBareKey c = true) : isSolid c = true ∧ c ≠ '[' := by
  have hall : ([' ', '\t', '\n', '\r', '#', ',', '.', '=', ']', '\x7d', '\ufeff'].all
      fun c => !isBareKey c) = true := rfl
  refine ⟨decide_eq_true fun hmem => ?_, ?_⟩
  · have hc := List.all_eq_true.mp hall c hmem
    rw [h] at hc
    cases hc
  · rintro rfl
    cases h

/-- A key begins with a solid character that opens no header. -/
theorem keyText_eq_cons (k : String) :
    ∃ c cs, keyText k = c :: cs ∧ isSolid c = true ∧ c ≠ '[' := by
  unfold keyText
  split
  · rename_i hbare
    cases hk : k.toList with
    | nil => exact absurd (String.toList_eq_nil_iff.mp hk) hbare.1
    | cons c cs =>
      have hc : isBareKey c = true := by
        rw [hk, List.all_cons, Bool.and_eq_true] at hbare
        exact hbare.2.1
      exact ⟨c, cs, rfl, isSolid_of_isBareKey hc⟩
  · exact ⟨_, _, rfl, rfl, by decide⟩

theorem style_key_eq_cons (k : String) :
    ∃ c cs, style.key k = c :: cs ∧ isSolid c = true := by
  obtain ⟨c, cs, hk, hc, -⟩ := keyText_eq_cons k
  exact ⟨c, cs ++ [' ', '=', ' '], congrArg (· ++ [' ', '=', ' ']) hk, hc⟩

theorem pathText_eq_cons {path : List String} (h : path ≠ []) :
    ∃ c cs, pathText path = c :: cs ∧ isSolid c = true ∧ c ≠ '[' := by
  cases path with
  | nil => exact absurd rfl h
  | cons k ks =>
    obtain ⟨c, cs, hk, hc⟩ := keyText_eq_cons k
    cases ks with
    | nil => exact ⟨c, cs, hk, hc⟩
    | cons k' ks => exact ⟨c, cs ++ '.' :: pathText (k' :: ks), congrArg (· ++ _) hk, hc⟩

/-- What may come behind a key. -/
def EndsKey (rest : List Char) : Prop := ∃ r, rest = ' ' :: '=' :: r ∨ rest = ']' :: r

theorem simpleKey?_keyText (k : String) (h : ∀ c ∈ rest.head?, isBareKey c = false) :
    simpleKey? (keyText k ++ rest) = some (k, rest) := by
  unfold keyText
  split
  · rename_i hbare
    have hrun : ∀ c ∈ k.toList, isBareKey c = true := List.all_eq_true.mp hbare.2
    have hname : (k.toList ++ rest).takeWhile isBareKey = k.toList := takeWhile_run hrun h
    have hnonempty : k.toList.isEmpty = false := by
      cases hk : k.toList with
      | nil => exact absurd (String.toList_eq_nil_iff.mp hk) hbare.1
      | cons c cs => rfl
    obtain ⟨c, cs, hk⟩ := List.exists_cons_of_ne_nil (List.isEmpty_eq_false_iff.mp hnonempty)
    have hc : isBareKey c = true := hrun c (hk ▸ List.mem_cons_self)
    rw [simpleKey?]
    · rw [hname]
      simp [hnonempty, String.ofList_toList]
    · rintro rest' heq
      rw [hk] at heq
      cases (List.cons.inj heq).1
      cases hc
    · rintro rest' heq
      rw [hk] at heq
      cases (List.cons.inj heq).1
      cases hc
  · have htext : quoted isPlain k ++ rest =
        '"' :: (k.toList.flatMap (quotedChar isPlain) ++ '"' :: rest) := by
      simp [quoted]
    rw [htext, simpleKey?, basic?_body]

theorem EndsKey.head (h : EndsKey rest) : ∀ c ∈ rest.head?, isBareKey c = false := by
  obtain ⟨r, rfl | rfl⟩ := h <;> rintro c ⟨⟩ <;> rfl

/-- A path is read up to what comes behind it. -/
theorem key?_pathText {path : List String} (hpath : path ≠ []) (hfuel : path.length ≤ fuel)
    (h : EndsKey rest) : key? fuel (pathText path ++ rest) = some (path, skipBlanks rest) := by
  induction path generalizing fuel with
  | nil => exact absurd rfl hpath
  | cons k ks ih =>
    cases fuel with
    | zero => cases hfuel
    | succ fuel =>
      obtain ⟨c, cs, hk, hc, -⟩ := keyText_eq_cons k
      have hskip : ∀ r, skipBlanks (keyText k ++ r) = keyText k ++ r := by
        intro r
        rw [hk, List.cons_append, skipBlanks_of_isSolid hc]
      cases ks with
      | nil =>
        rw [pathText, key?, hskip, simpleKey?_keyText k h.head]
        obtain ⟨r, rfl | rfl⟩ := h <;> rfl
      | cons k' ks =>
        have hrest := ih (List.cons_ne_nil _ _) (Nat.le_of_succ_le_succ hfuel)
        rw [pathText, key?, List.append_assoc, hskip, simpleKey?_keyText k (by rintro c ⟨⟩; rfl)]
        · change (key? fuel (pathText (k' :: ks) ++ rest) >>= _) = _
          rw [hrest]
          rfl
        · exact List.cons_ne_nil _ _

theorem length_le_pathText (path : List String) : path.length ≤ (pathText path).length := by
  induction path with
  | nil => exact Nat.le_refl _
  | cons k ks ih =>
    obtain ⟨c, cs, hk, -⟩ := keyText_eq_cons k
    cases ks with
    | nil =>
      rw [pathText, hk]
      exact Nat.succ_le_succ (Nat.zero_le _)
    | cons k' ks =>
      rw [pathText, hk, List.length_append, List.length_cons (a := k), List.length_cons (a := c),
        List.length_cons (a := '.')]
      · omega
      · exact List.cons_ne_nil _ _

theorem splitKey?_pathText {path : List String} {k : String} (hdepth : path.length < maxDepth)
    (h : EndsKey rest) :
    splitKey? (pathText (path ++ [k]) ++ rest) = some ((path, k), skipBlanks rest) := by
  have hlength : (path ++ [k]).length ≤ (pathText (path ++ [k]) ++ rest).length + 1 := by
    have hpath := length_le_pathText (path ++ [k])
    have happend : (pathText (path ++ [k]) ++ rest).length = _ := List.length_append
    omega
  have hcount : (path ++ [k]).length ≤ maxDepth := by
    rw [List.length_append]
    exact hdepth
  rw [splitKey?, key?_pathText (by simp) hlength h]
  simp only [Option.bind_eq_bind, Option.bind_some, (Option.guard_eq_some' ()).mpr hcount]
  simp

theorem splitKey?_keyText (k : String) (h : EndsKey rest) :
    splitKey? (keyText k ++ rest) = some (([], k), skipBlanks rest) :=
  @splitKey?_pathText rest [] k (by decide) h

/-! ## Numbers -/

theorem isDigit_iff {c : Char} : c.isDigit = true ↔ '0' ≤ c ∧ c ≤ '9' := by
  rw [Char.isDigit, Bool.and_eq_true, decide_eq_true_eq, decide_eq_true_eq]
  rfl

theorem le_iff_toNat {c d : Char} : c ≤ d ↔ c.toNat ≤ d.toNat := by
  rw [Char.le_def, UInt32.le_iff_toNat_le]
  rfl

/-- The decimal digits are the hexadecimal ones below ten. -/
theorem any_value? (c : Char) : ((Text.Hex.value? c).any (· < 10)) = c.isDigit := by
  rw [Bool.eq_iff_iff, isDigit_iff, Text.Hex.value?]
  simp only [le_iff_toNat]
  change _ ↔ 48 ≤ c.toNat ∧ c.toNat ≤ 57
  split
  · rename_i h
    change 48 ≤ c.toNat ∧ c.toNat ≤ 57 at h
    simp
    omega
  · rename_i h
    change ¬ (48 ≤ c.toNat ∧ c.toNat ≤ 57) at h
    refine iff_of_false ?_ h
    split
    · rename_i h
      change 97 ≤ c.toNat ∧ c.toNat ≤ 102 at h
      simp
      omega
    · split
      · rename_i h
        change 65 ≤ c.toNat ∧ c.toNat ≤ 70 at h
        simp
        omega
      · simp

theorem digits?_toDigits (n : Nat) (h : ∀ c ∈ rest.head?, c.isDigit = false ∧ c ≠ '_') :
    digits? 10 (Nat.toDigits 10 n ++ rest) =
      some ((n, (Nat.toDigits 10 n).length), rest) := by
  have hrun : (Nat.toDigits 10 n ++ rest).takeWhile (fun c => c.isDigit || c == '_') =
      Nat.toDigits 10 n := by
    refine takeWhile_run (fun c hc => ?_) fun c hc => ?_
    · rw [isDigit_of_mem hc, Bool.true_or]
    · rw [(h c hc).1, beq_false_of_ne (h c hc).2]
      rfl
  have hsplit : (Nat.toDigits 10 n).splitOn '_' = [Nat.toDigits 10 n] :=
    List.splitOn_eq_singleton Nat.underscore_not_in_toDigits
  have hfilter : (Nat.toDigits 10 n).filter (· != '_') = Nat.toDigits 10 n := by
    refine List.filter_eq_self.mpr fun c hc => ?_
    rw [bne_iff_ne]
    rintro rfl
    exact Nat.underscore_not_in_toDigits hc
  have hvalue : (Nat.toDigits 10 n).foldl
      (fun n c => ((Text.Hex.value? c).map (n * 10 + ·)).getD n) 0 = n := by
    refine (List.foldl_ext _ _ 0 fun m c hc => ?_).trans (foldl_toDigits n)
    rw [Text.Hex.value?_of_isDigit (isDigit_of_mem hc)]
    rfl
  rw [digits?]
  simp only [any_value?, hrun, hsplit, hfilter, hvalue]
  simp [Nat.toDigits_ne_nil]

/-- The digits of a number have no zero before them. -/
theorem toDigits_lead (n : Nat) (rest : List Char) : (decide ((Nat.toDigits 10 n).length = 1) ||
    (Nat.toDigits 10 n ++ rest).head? != some '0') = true := by
  obtain ⟨c, cs, hdigits, -, hzero⟩ := toDigits_eq_cons n
  rw [hdigits]
  by_cases hc : c = '0'
  · rw [hzero hc]
    simp
  · simp [hc]

theorem not_digit_of_delimited (h : Delimited rest) :
    ∀ c ∈ rest.head?, c.isDigit = false ∧ c ≠ '_' := by
  intro c hc
  rcases h c hc with rfl | rfl | rfl | rfl <;> exact ⟨rfl, by decide⟩

theorem fraction?_of_delimited (h : Delimited rest) : fraction? rest = some (none, rest) := by
  cases rest with
  | nil => rfl
  | cons c rest => rcases h c rfl with rfl | rfl | rfl | rfl <;> rfl

theorem exponent?_of_delimited (h : Delimited rest) : exponent? rest = some (none, rest) := by
  cases rest with
  | nil => rfl
  | cons c rest => rcases h c rfl with rfl | rfl | rfl | rfl <;> rfl

theorem decimal?_toDigits (negative : Bool) {n : Nat} (h : Delimited rest)
    (low : -(Nat.pow 2 63 : Int) ≤ if negative then -(n : Int) else n)
    (high : (if negative then -(n : Int) else n) < (Nat.pow 2 63 : Int)) :
    decimal? negative (Nat.toDigits 10 n ++ rest) =
      some (.integer (if negative then -(n : Int) else n), rest) := by
  rw [decimal?, digits?_toDigits n (not_digit_of_delimited h)]
  simp only [Option.bind_eq_bind, Option.bind_some, fraction?_of_delimited h,
    exponent?_of_delimited h, (Option.guard_eq_some' ()).mpr (toDigits_lead n rest),
    (Option.guard_eq_some' ()).mpr (And.intro low high)]
  rfl

theorem decimal?_float (h : Delimited rest) :
    decimal? false ('0' :: '.' :: '0' :: rest) = some (.float, rest) := by
  have hwhole : digits? 10 ('0' :: '.' :: '0' :: rest) = some ((0, 1), '.' :: '0' :: rest) :=
    digits?_toDigits 0 (by rintro c ⟨⟩; exact ⟨rfl, by decide⟩)
  have hfraction : fraction? ('.' :: '0' :: rest) = some (some (0, 1), rest) := by
    rw [fraction?]
    change (digits? 10 (Nat.toDigits 10 0 ++ rest) >>= _) = _
    rw [digits?_toDigits 0 (not_digit_of_delimited h)]
    rfl
  rw [decimal?, hwhole]
  simp only [Option.bind_eq_bind, Option.bind_some, hfraction, exponent?_of_delimited h]
  rfl

theorem toDigits_append_ne {n : Nat} {c : Char} (hc : c.isDigit = false) (cs : List Char) :
    Nat.toDigits 10 n ++ rest ≠ c :: cs := by
  obtain ⟨d, ds, hdigits, hd, -⟩ := toDigits_eq_cons n
  rw [hdigits]
  rintro heq
  cases (List.cons.inj heq).1
  exact Bool.false_ne_true (hc.symm.trans hd)

/-- No number in digits is marked as one of another base. -/
theorem toDigits_append_ne_marked {n : Nat} {c : Char} (hc : c.isAlpha = true) (h : Delimited rest)
    (cs : List Char) : Nat.toDigits 10 n ++ rest ≠ '0' :: c :: cs := by
  obtain ⟨d, ds, hdigits, -, hzero⟩ := toDigits_eq_cons n
  rw [hdigits]
  rintro heq
  obtain ⟨hd, heq⟩ := List.cons.inj heq
  rw [hzero hd] at heq
  rcases h c (congrArg List.head? heq) with rfl | rfl | rfl | rfl <;> cases hc

theorem number?_toDigits {n : Nat} (h : Delimited rest) :
    number? (Nat.toDigits 10 n ++ rest) = decimal? false (Nat.toDigits 10 n ++ rest) := by
  rw [number?]
  · exact toDigits_append_ne_marked rfl h
  · exact toDigits_append_ne_marked rfl h
  · exact toDigits_append_ne_marked rfl h
  · exact toDigits_append_ne rfl
  · exact toDigits_append_ne rfl
  · exact fun _ => toDigits_append_ne rfl _
  · exact fun _ => toDigits_append_ne rfl _

theorem number?_neg {n : Nat} :
    number? ('-' :: (Nat.toDigits 10 n ++ rest)) = decimal? true (Nat.toDigits 10 n ++ rest) := by
  rw [number?]
  · rintro _ ⟨⟩
  · rintro _ ⟨⟩
  · rintro _ ⟨⟩
  · exact fun _ => toDigits_append_ne rfl _
  · exact fun _ => toDigits_append_ne rfl _

theorem number?_integerText {n : Int} (low : -(Nat.pow 2 63 : Int) ≤ n)
    (high : n < (Nat.pow 2 63 : Int)) (h : Delimited rest) :
    number? (integerText n ++ rest) = some (.integer n, rest) := by
  cases n with
  | ofNat n =>
    rw [integerText, number?_toDigits h]
    exact decimal?_toDigits false h low high
  | negSucc n =>
    rw [integerText, List.cons_append, number?_neg]
    exact decimal?_toDigits true h low high

/-- A number is no date: what comes behind its digits is no mark of a date or a time. -/
theorem looksLikeDate_integerText (n : Int) (h : Delimited rest) :
    looksLikeDate (integerText n ++ rest) = false := by
  cases n with
  | ofNat n =>
    rw [integerText, looksLikeDate,
      takeWhile_run (fun _ => isDigit_of_mem) (isDigit_of_delimited h), List.drop_left]
    cases rest with
    | nil => rfl
    | cons c rest => rcases h c rfl with rfl | rfl | rfl | rfl <;> rfl
  | negSucc n => rfl

end WasmEmbedding.Config.Toml
