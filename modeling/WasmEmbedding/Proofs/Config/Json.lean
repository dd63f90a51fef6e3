import WasmEmbedding.Config.Json
import WasmEmbedding.Proofs.Config.Rendering

/-! # JSON texts of documents

What is written of a document is read back piece by piece: a text by its characters, a number by its
digits up to a mark, a list and a table by their items.  The reader has fuel for twice the text,
which is enough (`ReadBack`).  A text is read as the document that it was written for, if its
integers have 64 bits and its texts and keys are texts (`Fits`, `parse?_write`).
-/
namespace WasmEmbedding.Config.Json

/-- A document that a JSON text can have: its integers have 64 bits, its texts and keys are
texts. -/
inductive Fits : Document → Prop
  | null : Fits .null
  | boolean (b : Bool) : Fits (.boolean b)
  | integer {n : Int} (low : -(Nat.pow 2 63 : Int) ≤ n) (high : n < (Nat.pow 2 64 : Int)) :
      Fits (.integer n)
  | float : Fits .float
  | text (s : String) : Fits (.text (some s))
  | list {items : List Document} (fit : ∀ v ∈ items, Fits v) : Fits (.list items)
  | table {entries : List (Option String × Document)} (named : ∀ e ∈ entries, e.1.isSome = true)
      (fit : ∀ e ∈ entries, Fits e.2) : Fits (.table entries)

/-! ## Texts -/

variable {fuel : Nat} {rest : List Char}

theorem hex4?_ofNat {n : Nat} (h : n < 0x10000) :
    hex4? ((Text.Hex.ofNat 4 n).toList ++ rest) = some (n, rest) := by
  have hread := Text.Hex.toNat?_ofNat h
  rw [← String.ofList_toList (s := Text.Hex.ofNat 4 n), Text.Hex.toList_ofNat] at hread
  rw [Text.Hex.toList_ofNat]
  change (Text.Hex.toNat? _ >>= _) = _
  rw [hread]
  rfl

/-- A character between quotes is read back. -/
theorem string?_quotedChar (c : Char) (acc : List Char) :
    string? (fuel + 1) (some acc) (quotedChar isPlain c ++ rest) =
      string? fuel (some (c :: acc)) rest := by
  unfold quotedChar
  split
  · rename_i hc
    rcases hc with rfl | rfl
    · rfl
    · rfl
  · rename_i hc
    rw [not_or] at hc
    by_cases hplain : isPlain c = true
    · rw [if_pos hplain]
      have hcontrol : ¬ c.toNat < 0x20 := Nat.not_lt.mpr (of_decide_eq_true hplain)
      rw [List.singleton_append, string?]
      · simp [hcontrol, hc.2]
      · exact hc.1
      · rintro rest' rfl
        exact absurd rfl hc.2
      · rintro c' rest' rfl
        exact absurd rfl hc.2
    · rw [if_neg hplain]
      have hcontrol : c.toNat < 0x20 := Nat.lt_of_not_le fun h => hplain (decide_eq_true h)
      rw [List.cons_append, List.cons_append, string?,
        hex4?_ofNat (Nat.lt_trans hcontrol (by decide))]
      have hhigh : ¬ (0xD800 ≤ c.toNat ∧ c.toNat < 0xDC00) := by omega
      have hlow : ¬ (0xDC00 ≤ c.toNat ∧ c.toNat < 0xE000) := by omega
      simp [hhigh, hlow]

theorem string?_body (s : String) :
    string? ((s.toList.flatMap (quotedChar isPlain) ++ '"' :: rest).length + 1) (some [])
      (s.toList.flatMap (quotedChar isPlain) ++ '"' :: rest) = some (some s, rest) := by
  obtain ⟨fuel, hfuel⟩ := exists_fuel isPlain s.toList rest
  have hread := @read_quoted _ (fun fuel acc => string? fuel (some acc)) isPlain
    (fun _ acc c _ => string?_quotedChar c acc) (fuel + 1) [] s.toList ('"' :: rest)
  rw [hfuel]
  refine hread.trans ?_
  rw [List.append_nil]
  change some (some (String.ofList s.toList.reverse.reverse), rest) = _
  rw [List.reverse_reverse, String.ofList_toList]

/-! ## Numbers -/

theorem fraction?_of_delimited (h : Delimited rest) : fraction? rest = some (false, rest) := by
  cases rest with
  | nil => rfl
  | cons c rest => rcases h c rfl with rfl | rfl | rfl | rfl <;> rfl

theorem exponent?_of_delimited (h : Delimited rest) : exponent? rest = some (false, rest) := by
  cases rest with
  | nil => rfl
  | cons c rest => rcases h c rfl with rfl | rfl | rfl | rfl <;> rfl

/-- The digits of a number are a number of the notation. -/
theorem toDigits_lead (n : Nat) : (!(Nat.toDigits 10 n).isEmpty &&
    ((Nat.toDigits 10 n).head? != some '0' || decide ((Nat.toDigits 10 n).length = 1))) = true := by
  obtain ⟨c, cs, hdigits, -, hzero⟩ := toDigits_eq_cons n
  rw [hdigits]
  by_cases hc : c = '0'
  · rw [hzero hc]
    simp
  · simp [hc]

theorem number?_toDigits (n : Nat) (h : Delimited rest) :
    number? (Nat.toDigits 10 n ++ rest) =
      some (if UInt64.size ≤ n then .float else .integer n, rest) := by
  rw [number?]
  · simp only [takeWhile_run (fun _ => isDigit_of_mem) (isDigit_of_delimited h),
      dropWhile_run (fun _ => isDigit_of_mem) (isDigit_of_delimited h),
      (Option.guard_eq_some' ()).mpr (toDigits_lead n), fraction?_of_delimited h, foldl_toDigits,
      Option.bind_eq_bind, Option.bind_some, exponent?_of_delimited h]
    rfl
  · obtain ⟨c, cs, hdigits, hc, -⟩ := toDigits_eq_cons n
    rintro rest' hminus
    rw [hdigits] at hminus
    cases (List.cons.inj hminus).1
    cases hc

theorem number?_neg (n : Nat) (h : Delimited rest) :
    number? ('-' :: (Nat.toDigits 10 n ++ rest)) =
      some (if n = 0 || Nat.pow 2 63 < n then .float else .integer (-(n : Int)), rest) := by
  rw [number?]
  simp only [takeWhile_run (fun _ => isDigit_of_mem) (isDigit_of_delimited h),
    dropWhile_run (fun _ => isDigit_of_mem) (isDigit_of_delimited h),
    (Option.guard_eq_some' ()).mpr (toDigits_lead n), fraction?_of_delimited h, foldl_toDigits,
    Option.bind_eq_bind, Option.bind_some, exponent?_of_delimited h]
  rfl

theorem number?_integerText {n : Int} (low : -(Nat.pow 2 63 : Int) ≤ n)
    (high : n < (Nat.pow 2 64 : Int)) (h : Delimited rest) :
    number? (integerText n ++ rest) = some (.integer n, rest) := by
  cases n with
  | ofNat n =>
    rw [integerText, number?_toDigits n h, if_neg]
    · rfl
    · exact Nat.not_le_of_lt (Int.ofNat_lt.mp high)
  | negSucc n =>
    have hle : n + 1 ≤ Nat.pow 2 63 := by omega
    rw [integerText, List.cons_append, number?_neg (n + 1) h, if_neg]
    · rfl
    · rw [Bool.or_eq_true, decide_eq_true_eq, decide_eq_true_eq]
      exact not_or.mpr ⟨Nat.succ_ne_zero n, Nat.not_lt_of_le hle⟩

theorem number?_float (h : Delimited rest) :
    number? ('0' :: '.' :: '0' :: rest) = some (.float, rest) := by
  have hrun : ∀ c ∈ ['0'], c.isDigit = true := List.forall_mem_singleton.mpr rfl
  have hfraction : fraction? ('.' :: '0' :: rest) = some (true, rest) := by
    have hdrop : ('0' :: rest).dropWhile Char.isDigit = rest :=
      dropWhile_run hrun (isDigit_of_delimited h)
    rw [fraction?, hdrop]
    rfl
  rw [number?]
  · change (guard _ >>= fun _ => fraction? ('.' :: '0' :: rest) >>= _) = _
    rw [hfraction]
    change (exponent? rest >>= _) = _
    rw [exponent?_of_delimited h]
    rfl
  · rintro rest' ⟨⟩

/-! ## Documents -/

theorem skip_of_isSolid {c : Char} {cs : List Char} (h : isSolid c = true) :
    skip (c :: cs) = c :: cs := by
  refine List.dropWhile_cons_of_neg fun hblank => ?_
  simp only [isBlank, Bool.or_eq_true, beq_iff_eq] at hblank
  rcases hblank with ((rfl | rfl) | rfl) | rfl <;> cases h

/-- A number is what remains when a text begins with nothing else. -/
theorem value?_number {c : Char} (hc : c = '-' ∨ c.isDigit = true) (cs : List Char) :
    value? (fuel + 1) (c :: cs) = number? (c :: cs) := by
  have hsolid : isSolid c = true := by
    rcases hc with rfl | hc
    · rfl
    · exact isSolid_of_isDigit hc
  have hall : (['n', 't', 'f', '"', '[', '\x7b'].all fun d => d != '-' && !d.isDigit) = true := rfl
  have hne : ∀ d ∈ ['n', 't', 'f', '"', '[', '\x7b'], c ≠ d :=
    fun d hd => ne_of_number hc (List.all_eq_true.mp hall d hd)
  rw [value?, skip_of_isSolid hsolid]
  split
  all_goals first
    | rfl
    | (rename_i heq; exact absurd (List.cons.inj heq).1 (hne _ (by decide)))

theorem value?_list {c : Char} (hc : isSolid c = true) (cs : List Char) :
    value? (fuel + 1) ('[' :: c :: cs) =
      (items? fuel (c :: cs) >>= fun (items, rest) => some (.list items, rest)) := by
  rw [value?, skip_of_isSolid rfl]
  simp only [skip_of_isSolid hc]
  split
  · rename_i heq
    exact absurd (List.cons.inj heq).1 (ne_of_isSolid hc rfl)
  · rfl

theorem value?_table {c : Char} (hc : isSolid c = true) (cs : List Char) :
    value? (fuel + 1) ('\x7b' :: c :: cs) =
      (entries? fuel (c :: cs) >>= fun (entries, rest) => some (.table entries, rest)) := by
  rw [value?, skip_of_isSolid rfl]
  simp only [skip_of_isSolid hc]
  split
  · rename_i heq
    exact absurd (List.cons.inj heq).1 (ne_of_isSolid hc rfl)
  · rfl

/-- The document is read back where there is fuel for twice its text. -/
def ReadBack (d : Document) : Prop :=
  ∀ fuel rest, 2 * (render style d).length ≤ fuel → Delimited rest →
    value? fuel (render style d ++ rest) = some (d, rest)

/-- Items are read up to the closing bracket: each takes one from the fuel, and its text is at
least that long. -/
theorem items?_render (rest : List Char) {v : Document} {vs : List Document}
    (h : ∀ w ∈ v :: vs, ReadBack w)
    (hfuel : 2 * (render style v ++ renderItems style vs).length ≤ fuel) :
    items? fuel (render style v ++ (renderItems style vs ++ rest)) = some (v :: vs, rest) := by
  obtain ⟨hv, hvs⟩ := List.forall_mem_cons.mp h
  have hpos := length_render_pos style v
  rw [List.length_append] at hfuel
  induction vs generalizing v fuel with
  | nil =>
    rw [renderItems, List.length_singleton] at hfuel
    cases fuel with
    | zero => omega
    | succ fuel =>
      rw [items?, hv fuel _ (by omega) (delimited_renderItems style [] rest)]
      rfl
  | cons w ws ih =>
    rw [renderItems, List.length_cons, List.length_append] at hfuel
    obtain ⟨hw, hws⟩ := List.forall_mem_cons.mp hvs
    cases fuel with
    | zero => omega
    | succ fuel =>
      have hrest : items? fuel (render style w ++ (renderItems style ws ++ rest)) =
          some (w :: ws, rest) := ih hvs (by omega) hw hws (length_render_pos style w)
      rw [items?, hv fuel _ (by omega) (delimited_renderItems style (w :: ws) rest), renderItems,
        List.cons_append, List.append_assoc]
      change (items? fuel (render style w ++ (renderItems style ws ++ rest)) >>= _) = _
      rw [hrest]
      rfl

/-- A key is read up to its value. -/
theorem entries?_key (k : String) (cs : List Char) :
    entries? (fuel + 1) (style.key k ++ cs) = (value? fuel cs >>= fun (v, rest) =>
      match skip rest with
      | ',' :: rest => do
        let (es, rest) ← entries? fuel rest
        return ((some k, v) :: es, rest)
      | '\x7d' :: rest => return ([(some k, v)], rest)
      | _ => none) := by
  have hkey : style.key k ++ cs =
      '"' :: (k.toList.flatMap (quotedChar isPlain) ++ '"' :: ':' :: cs) := by
    simp [style, quoted]
  rw [hkey, entries?, skip_of_isSolid rfl]
  change (string? (List.length (k.toList.flatMap (quotedChar isPlain) ++ '"' :: ':' :: cs) + 1)
    (some []) _ >>= _) = _
  rw [string?_body]
  rfl

theorem entries?_render (rest : List Char) {k : String} {v : Document}
    {es : List (Option String × Document)}
    (named : ∀ e ∈ es, e.1.isSome = true) (h : ∀ e ∈ (some k, v) :: es, ReadBack e.2)
    (hfuel : 2 * (style.key k ++ (render style v ++ renderEntries style es)).length ≤ fuel) :
    entries? fuel (style.key k ++ (render style v ++ (renderEntries style es ++ rest))) =
      some ((some k, v) :: es, rest) := by
  obtain ⟨hv, hes⟩ : ReadBack v ∧ ∀ e ∈ es, ReadBack e.2 := List.forall_mem_cons.mp h
  have hpos := length_render_pos style v
  rw [List.length_append, List.length_append] at hfuel
  induction es generalizing k v fuel with
  | nil =>
    cases fuel with
    | zero => omega
    | succ fuel =>
      rw [renderEntries, List.length_singleton] at hfuel
      rw [entries?_key, hv fuel _ (by omega) (delimited_renderEntries style [] rest)]
      rfl
  | cons e es ih =>
    obtain ⟨k', w⟩ := e
    obtain ⟨hk', hnamed⟩ := List.forall_mem_cons.mp named
    obtain ⟨k', rfl⟩ := Option.isSome_iff_exists.mp hk'
    obtain ⟨hw, hws⟩ : ReadBack w ∧ ∀ e ∈ es, ReadBack e.2 := List.forall_mem_cons.mp hes
    rw [renderEntries, List.length_cons, List.length_append, List.length_append,
      Option.getD_some] at hfuel
    cases fuel with
    | zero => omega
    | succ fuel =>
      have hread := hv fuel _ (by omega) (delimited_renderEntries style ((some k', w) :: es) rest)
      have hrest : entries? fuel
          (style.key k' ++ (render style w ++ (renderEntries style es ++ rest))) =
          some ((some k', w) :: es, rest) :=
        ih hnamed hes (by omega) hw hws (length_render_pos style w)
      rw [entries?_key, hread, renderEntries, List.cons_append, List.append_assoc,
        List.append_assoc]
      change (entries? fuel
        (style.key k' ++ (render style w ++ (renderEntries style es ++ rest))) >>= _) = _
      rw [hrest]
      rfl

/-! ## Every kind of document -/

/-- A text is not empty, so there is fuel for the first step on it. -/
theorem readBack_of_succ {d : Document}
    (h : ∀ fuel rest, 2 * (render style d).length ≤ fuel + 1 → Delimited rest →
      value? (fuel + 1) (render style d ++ rest) = some (d, rest)) : ReadBack d := by
  rintro (_ | fuel) rest hfuel hrest
  · have hpos := length_render_pos style d
    omega
  · exact h fuel rest hfuel hrest

theorem readBack_null : ReadBack .null :=
  readBack_of_succ fun _ _ _ _ => rfl

theorem readBack_boolean (b : Bool) : ReadBack (.boolean b) := by
  refine readBack_of_succ fun _ _ _ _ => ?_
  cases b <;> rfl

theorem readBack_integer {n : Int} (low : -(Nat.pow 2 63 : Int) ≤ n)
    (high : n < (Nat.pow 2 64 : Int)) : ReadBack (.integer n) := by
  refine readBack_of_succ fun fuel rest _ hrest => ?_
  obtain ⟨c, cs, htext, hc⟩ := integerText_eq_cons n
  have hread := number?_integerText low high hrest
  rw [htext] at hread
  rw [render, htext]
  exact (value?_number hc _).trans hread

theorem readBack_float : ReadBack .float :=
  readBack_of_succ fun _ _ _ hrest => (value?_number (.inr rfl) _).trans (number?_float hrest)

theorem readBack_text (s : String) : ReadBack (.text (some s)) := by
  refine readBack_of_succ fun fuel rest _ _ => ?_
  have htext : render style (.text (some s)) ++ rest =
      '"' :: (s.toList.flatMap (quotedChar isPlain) ++ '"' :: rest) := by
    simp [render, quoted, style]
  rw [htext, value?, skip_of_isSolid rfl]
  change (string? (List.length (s.toList.flatMap (quotedChar isPlain) ++ '"' :: rest) + 1)
    (some []) _ >>= _) = _
  rw [string?_body]
  rfl

theorem readBack_list {items : List Document} (h : ∀ d ∈ items, ReadBack d) :
    ReadBack (.list items) := by
  refine readBack_of_succ fun fuel rest hfuel _ => ?_
  cases items with
  | nil => rfl
  | cons v vs =>
    rw [render, List.length_cons] at hfuel
    have hitems := items?_render rest h (Nat.le_of_succ_le_succ (Nat.le_of_succ_le hfuel))
    obtain ⟨c, cs, hcons, hc⟩ := render_eq_cons style v
    rw [hcons] at hitems
    rw [render, hcons, List.cons_append, List.append_assoc]
    exact (value?_list hc _).trans (congrArg (· >>= _) hitems)

theorem readBack_table {entries : List (Option String × Document)}
    (named : ∀ e ∈ entries, e.1.isSome = true) (h : ∀ e ∈ entries, ReadBack e.2) :
    ReadBack (.table entries) := by
  refine readBack_of_succ fun fuel rest hfuel _ => ?_
  cases entries with
  | nil => rfl
  | cons e es =>
    obtain ⟨k, v⟩ := e
    obtain ⟨hk, hnamed⟩ := List.forall_mem_cons.mp named
    obtain ⟨k, rfl⟩ := Option.isSome_iff_exists.mp hk
    rw [render, List.length_cons] at hfuel
    have hentries := entries?_render rest hnamed h
      (Nat.le_of_succ_le_succ (Nat.le_of_succ_le hfuel))
    rw [render, List.cons_append, List.append_assoc, List.append_assoc]
    exact (value?_table rfl _).trans (congrArg (· >>= _) hentries)

/-- **Every document that fits is read back from its text.** -/
theorem readBack_of_fits {d : Document} (h : Fits d) : ReadBack d := by
  induction h with
  | null => exact readBack_null
  | boolean b => exact readBack_boolean b
  | integer low high => exact readBack_integer low high
  | float => exact readBack_float
  | text s => exact readBack_text s
  | list _ ih => exact readBack_list ih
  | table named _ ih => exact readBack_table named ih

/-- **A text is read as the document that it was written for.** -/
theorem parse?_write {d : Document} (h : Fits d) : parse? (write d) = some d := by
  have hread := readBack_of_fits h (2 * (render style d).length + 2) [] (Nat.le_add_right _ _)
    delimited_nil
  rw [List.append_nil] at hread
  rw [parse?, write, String.toList_ofList]
  simp only [hread]
  rfl

end WasmEmbedding.Config.Json
