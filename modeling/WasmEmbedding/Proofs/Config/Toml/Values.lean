import WasmEmbedding.Proofs.Config.Toml.Scalars
import WasmEmbedding.Proofs.Keyed

/-! # What is written in TOML: values

Values stand on one line behind a key, lists and inline tables with them.  What TOML can have as a
value is narrower than a document (`Fits`): it has no nulls, and refuses a key that is there twice,
so that an inline table grows by keys that are new to it (`entries?_render`).  All of it is read
back (`readBack_of_fits`).
-/
namespace WasmEmbedding.Config.Toml

variable {fuel depth : Nat} {rest : List Char}

/-- A document that TOML can have as a value: it has no nulls, its integers have 63 bits and a
sign, its texts and keys are texts, no table has a key twice, and it does not nest too deep. -/
inductive Fits : Nat → Document → Prop
  | boolean (depth : Nat) (b : Bool) : Fits depth (.boolean b)
  | integer (depth : Nat) {n : Int} (low : -(Nat.pow 2 63 : Int) ≤ n)
      (high : n < (Nat.pow 2 63 : Int)) : Fits depth (.integer n)
  | float (depth : Nat) : Fits depth .float
  | text (depth : Nat) (s : String) : Fits depth (.text (some s))
  | list {depth : Nat} {items : List Document} (fit : ∀ v ∈ items, Fits depth v) :
      Fits (depth + 1) (.list items)
  | table {depth : Nat} {entries : List (Option String × Document)}
      (named : ∀ e ∈ entries, e.1.isSome = true) (distinct : (entries.map Prod.fst).Nodup)
      (fit : ∀ e ∈ entries, Fits depth e.2) : Fits (depth + 1) (.table entries)

/-! ## Blanks and lines -/

theorem skipLines_of_isSolid {c : Char} (hc : isSolid c = true ∨ c = ',' ∨ c = ']')
    (n : Nat) (cs : List Char) : skipLines (n + 1) (c :: cs) = some (c :: cs) := by
  have hblank : skipBlanks (c :: cs) = c :: cs := by
    rcases hc with hc | rfl | rfl
    · exact skipBlanks_of_isSolid hc
    · rfl
    · rfl
  have hne : c ≠ '#' ∧ c ≠ '\n' ∧ c ≠ '\r' := by
    rcases hc with hc | rfl | rfl
    · exact ⟨ne_of_isSolid hc rfl, ne_of_isSolid hc rfl, ne_of_isSolid hc rfl⟩
    · decide
    · decide
  have hline : newline? (c :: cs) = none := by
    rw [newline?]
    · rintro rest' heq
      exact hne.2.1 (List.cons.inj heq).1
    · rintro rest' heq
      exact hne.2.2 (List.cons.inj heq).1
  rw [skipLines, hblank]
  split
  · rename_i heq
    exact absurd (List.cons.inj heq).1 hne.1
  · rw [hline]

/-! ## Tables -/

namespace Node

theorem put_of_not_mem {k : String} (n : Node) {es : Entries} (h : k ∉ es.map Prod.fst) :
    put k n es = es ++ [(k, n)] := by
  induction es with
  | nil => rfl
  | cons e es ih =>
    obtain ⟨hne, hes⟩ := not_or.mp (List.mem_cons.not.mp h)
    rw [put, if_neg fun heq => hne heq.symm, ih hes]
    rfl

theorem lookup_eq_none {k : String} {es : Entries} (h : k ∉ es.map Prod.fst) :
    es.lookup k = none := by
  rw [← Option.not_isSome_iff_eq_none, isSome_lookup]
  exact h

/-- A key without points is given its value in the table itself. -/
theorem assign_nil {k : String} {es : Entries} (h : k ∉ es.map Prod.fst) (v : Document) :
    assign [] k v false false es = some (.table false false (es ++ [(k, .value v)])) := by
  rw [assign, alter, lookup_eq_none h]
  simp only [put_of_not_mem (.value v) h]
  rfl

/-- The nodes of values. -/
def ofValues (es : List (Option String × Document)) : Entries :=
  es.map fun e => (e.1.getD "", .value e.2)

theorem documents_ofValues {es : List (Option String × Document)}
    (named : ∀ e ∈ es, e.1.isSome = true) : documents (ofValues es) = es := by
  induction es with
  | nil => rfl
  | cons e es ih =>
    obtain ⟨hk, hes⟩ := List.forall_mem_cons.mp named
    obtain ⟨k, v⟩ := e
    obtain ⟨k, rfl⟩ := Option.isSome_iff_exists.mp hk
    change (some k, v) :: documents (ofValues es) = _
    rw [ih hes]

/-- Keys that differ are names that differ. -/
theorem nodup_names {es : List (Option String × Document)} (named : ∀ e ∈ es, e.1.isSome = true)
    (distinct : (es.map Prod.fst).Nodup) : (es.map fun e => e.1.getD "").Nodup := by
  have hnames : es.map Prod.fst = (es.map fun e => e.1.getD "").map some := by
    rw [List.map_map]
    refine List.map_congr_left fun e he => ?_
    obtain ⟨k, hk⟩ := Option.isSome_iff_exists.mp (named e he)
    simp [hk]
  rw [hnames] at distinct
  exact distinct.of_map some

end Node

/-! ## Values -/

/-- A value that is read back where there is fuel for twice its text. -/
def ReadBack (depth : Nat) (d : Document) : Prop :=
  ∀ fuel rest, 2 * (render style d).length ≤ fuel → Delimited rest →
    value? fuel depth (render style d ++ rest) = some (d, rest)

theorem value?_number {c : Char} (hc : c = '-' ∨ c.isDigit = true) {cs : List Char}
    (hdate : looksLikeDate (c :: cs) = false) :
    value? (fuel + 1) depth (c :: cs) = (number? (c :: cs) >>= fun (n, rest) =>
      match n with
      | .integer n => some (.integer n, rest)
      | .float => some (.float, rest)) := by
  have hall : (['t', 'f', '"', '\'', '[', '\x7b'].all fun d => d != '-' && !d.isDigit) = true := rfl
  have hcons : ∀ d ∈ ['t', 'f', '"', '\'', '[', '\x7b'], ∀ ds, c :: cs ≠ d :: ds :=
    fun d hd ds heq => ne_of_number hc (List.all_eq_true.mp hall d hd) (List.cons.inj heq).1
  rw [value?, if_neg (Bool.eq_false_iff.mp hdate)]
  · rfl
  · exact hcons _ (by decide)
  · exact hcons _ (by decide)
  · exact hcons _ (by decide)
  · exact hcons _ (by decide)
  · exact fun _ => hcons _ (by decide) _
  · exact fun _ => hcons _ (by decide) _

theorem items?_last {c : Char} (hc : isSolid c = true) {cs : List Char} {v : Document}
    (hv : value? fuel depth (c :: cs) = some (v, ']' :: rest)) :
    items? (fuel + 1) depth (c :: cs) = some ([v], rest) := by
  rw [items?, skipLines_of_isSolid (.inl hc)]
  simp only [Option.bind_eq_bind, Option.bind_some]
  split
  · rename_i heq
    exact absurd (List.cons.inj heq).1 (ne_of_isSolid hc rfl)
  · rw [hv]
    rfl

theorem items?_next {c : Char} (hc : isSolid c = true) {cs : List Char} {v : Document}
    (hv : value? fuel depth (c :: cs) = some (v, ',' :: rest)) :
    items? (fuel + 1) depth (c :: cs) =
      (items? fuel depth rest).map fun r => (v :: r.1, r.2) := by
  rw [items?, skipLines_of_isSolid (.inl hc)]
  simp only [Option.bind_eq_bind, Option.bind_some]
  split
  · rename_i heq
    exact absurd (List.cons.inj heq).1 (ne_of_isSolid hc rfl)
  · rw [hv]
    simp only [Option.bind_some, skipLines_of_isSolid (.inr (.inl rfl))]
    cases items? fuel depth rest <;> rfl

theorem items?_render (rest : List Char) {v : Document} {vs : List Document}
    (h : ∀ w ∈ v :: vs, ReadBack depth w)
    (hfuel : 2 * (render style v ++ renderItems style vs).length ≤ fuel) :
    items? fuel depth (render style v ++ (renderItems style vs ++ rest)) =
      some (v :: vs, rest) := by
  induction vs generalizing v fuel with
  | nil =>
    obtain ⟨hv, -⟩ := List.forall_mem_cons.mp h
    obtain ⟨c, cs, htext, hc⟩ := render_eq_cons style v
    rw [List.length_append, renderItems, List.length_singleton] at hfuel
    cases fuel with
    | zero => omega
    | succ fuel =>
      have hread := hv fuel (']' :: rest) (by omega) (delimited_renderItems style [] rest)
      rw [htext] at hread ⊢
      exact items?_last hc hread
  | cons w ws ih =>
    obtain ⟨hv, hvs⟩ := List.forall_mem_cons.mp h
    obtain ⟨c, cs, htext, hc⟩ := render_eq_cons style v
    rw [List.length_append, renderItems, List.length_cons] at hfuel
    cases fuel with
    | zero => omega
    | succ fuel =>
      have hread := hv fuel _ (by omega) (delimited_renderItems style (w :: ws) rest)
      have hrest : items? fuel depth (render style w ++ (renderItems style ws ++ rest)) =
        some (w :: ws, rest) := ih hvs (by omega)
      rw [renderItems, List.cons_append, List.append_assoc] at hread ⊢
      rw [htext] at hread ⊢
      exact (items?_next hc hread).trans (congrArg (Option.map _) hrest)

/-- A key with a value is read up to what comes behind them. -/
theorem entries?_key {before : Node.Entries} {k : String} (hk : k ∉ before.map Prod.fst)
    {cs after : List Char} {v : Document} (hcs : ∃ c r, cs = c :: r ∧ isSolid c = true)
    (hv : value? fuel depth cs = some (v, after)) :
    entries? (fuel + 1) depth (.table false false before) (style.key k ++ cs) =
      match skipBlanks after with
      | ',' :: rest => entries? fuel depth (.table false false (before ++ [(k, .value v)])) rest
      | '\x7d' :: rest => some (.table false false (before ++ [(k, .value v)]), rest)
      | _ => none := by
  obtain ⟨c, r, rfl, hc⟩ := hcs
  have hkey : style.key k ++ c :: r = keyText k ++ ' ' :: '=' :: ' ' :: c :: r := by
    simp [style]
  have hends : EndsKey (' ' :: '=' :: ' ' :: c :: r) := ⟨_, .inl rfl⟩
  have hskip : skipBlanks (' ' :: '=' :: ' ' :: c :: r) = '=' :: ' ' :: c :: r := rfl
  have hvalue : skipBlanks (' ' :: c :: r) = c :: r := skipBlanks_of_isSolid hc
  rw [hkey, entries?, splitKey?_keyText k hends, hskip]
  simp only [Option.bind_eq_bind, Option.bind_some, hvalue, hv, Node.assign_nil hk]
  rfl

theorem value?_table {c : Char} (hc : isSolid c = true) (cs : List Char) :
    value? (fuel + 1) (depth + 1) ('\x7b' :: c :: cs) =
      (entries? fuel depth (.table false false []) (c :: cs) >>= fun (node, rest) =>
        some (node.toDocument, rest)) := by
  rw [value?]
  simp only [skipBlanks_of_isSolid hc]
  split
  · rename_i heq
    exact absurd (List.cons.inj heq).1 (ne_of_isSolid hc rfl)
  · rfl

theorem entries?_render (rest : List Char) {before : Node.Entries} {k : String} {v : Document}
    {es : List (Option String × Document)} (named : ∀ e ∈ es, e.1.isSome = true)
    (distinct : (before.map Prod.fst ++ k :: es.map fun e => e.1.getD "").Nodup)
    (h : ∀ e ∈ (some k, v) :: es, ReadBack depth e.2)
    (hfuel : 2 * (style.key k ++ (render style v ++ renderEntries style es)).length ≤ fuel) :
    entries? fuel depth (.table false false before)
        (style.key k ++ (render style v ++ (renderEntries style es ++ rest))) =
      some (.table false false (before ++ Node.ofValues ((some k, v) :: es)), rest) := by
  induction es generalizing before k v fuel with
  | nil =>
    have hv : ReadBack depth v := h (some k, v) List.mem_cons_self
    have hk : k ∉ before.map Prod.fst := fun hmem =>
      (List.nodup_append.mp distinct).2.2 k hmem k List.mem_cons_self rfl
    rw [renderEntries, List.length_append, List.length_append, List.length_singleton] at hfuel
    cases fuel with
    | zero => omega
    | succ fuel =>
      have hread := hv fuel _ (by omega) (delimited_renderEntries style [] rest)
      rw [entries?_key hk (render_append_eq_cons style v _) hread]
      rfl
  | cons e es ih =>
    obtain ⟨k', w⟩ := e
    obtain ⟨hk', hnamed⟩ := List.forall_mem_cons.mp named
    obtain ⟨k', rfl⟩ := Option.isSome_iff_exists.mp hk'
    have hv : ReadBack depth v := h (some k, v) List.mem_cons_self
    have hk : k ∉ before.map Prod.fst := fun hmem =>
      (List.nodup_append.mp distinct).2.2 k hmem k List.mem_cons_self rfl
    rw [renderEntries, List.length_append, List.length_append, List.length_cons,
      Option.getD_some] at hfuel
    cases fuel with
    | zero => omega
    | succ fuel =>
      have hread := hv fuel _ (by omega) (delimited_renderEntries style ((some k', w) :: es) rest)
      have hcomma : skipBlanks (renderEntries style ((some k', w) :: es) ++ rest) =
          ',' :: (style.key k' ++ (render style w ++ (renderEntries style es ++ rest))) := by
        simp [renderEntries, skipBlanks, isBlank]
      have hdistinct : ((before ++ [(k, Node.value v)]).map Prod.fst ++
          k' :: es.map fun e => e.1.getD "").Nodup := by
        simpa using distinct
      have hw : ∀ e ∈ (some k', w) :: es, ReadBack depth e.2 :=
        fun e he => h e (List.mem_cons_of_mem _ he)
      have hrest : entries? fuel depth (.table false false (before ++ [(k, .value v)]))
          (style.key k' ++ (render style w ++ (renderEntries style es ++ rest))) =
          some (.table false false (before ++ [(k, .value v)] ++
            Node.ofValues ((some k', w) :: es)), rest) :=
        ih hnamed hdistinct hw (by omega)
      rw [entries?_key hk (render_append_eq_cons style v _) hread, hcomma]
      rw [List.append_assoc] at hrest
      exact hrest

/-! ## Every kind of value -/

/-- A text is not empty, so there is fuel for the first step on it. -/
theorem readBack_of_succ {d : Document}
    (h : ∀ fuel rest, 2 * (render style d).length ≤ fuel + 1 → Delimited rest →
      value? (fuel + 1) depth (render style d ++ rest) = some (d, rest)) :
    ReadBack depth d := by
  rintro (_ | fuel) rest hfuel hrest
  · have hpos := length_render_pos style d
    omega
  · exact h fuel rest hfuel hrest

theorem readBack_boolean (b : Bool) : ReadBack depth (.boolean b) := by
  refine readBack_of_succ fun _ _ _ _ => ?_
  cases b <;> rfl

theorem readBack_integer {n : Int} (low : -(Nat.pow 2 63 : Int) ≤ n)
    (high : n < (Nat.pow 2 63 : Int)) : ReadBack depth (.integer n) := by
  refine readBack_of_succ fun fuel rest _ hrest => ?_
  obtain ⟨c, cs, htext, hc⟩ := integerText_eq_cons n
  have hdate := looksLikeDate_integerText n hrest
  have hread := number?_integerText low high hrest
  rw [htext] at hread hdate
  rw [render, htext]
  exact (value?_number hc hdate).trans (congrArg (· >>= _) hread)

theorem readBack_float : ReadBack depth .float := by
  refine readBack_of_succ fun fuel rest _ hrest => ?_
  have hnumber : number? ('0' :: '.' :: '0' :: rest) = some (.float, rest) := by
    rw [number?]
    · exact decimal?_float hrest
    all_goals rintro _ ⟨⟩
  exact (value?_number (.inr rfl) rfl).trans (congrArg (· >>= _) hnumber)

theorem readBack_text (s : String) : ReadBack depth (.text (some s)) := by
  refine readBack_of_succ fun fuel rest _ hrest => ?_
  have htext := string?_quoted s hrest
  rw [render, Option.getD_some]
  change value? (fuel + 1) depth ('"' :: (_ ++ rest)) = _
  rw [value?]
  exact congrArg (· >>= _) htext

theorem readBack_list {items : List Document} (h : ∀ d ∈ items, ReadBack depth d) :
    ReadBack (depth + 1) (.list items) := by
  refine readBack_of_succ fun fuel rest hfuel _ => ?_
  cases items with
  | nil =>
    cases fuel with
    | zero =>
      rw [render] at hfuel
      exact absurd hfuel (by decide)
    | succ fuel =>
      rw [render, List.cons_append, value?]
      change (items? (fuel + 1) depth (']' :: rest) >>= _) = _
      rw [items?, skipLines_of_isSolid (.inr (.inr rfl))]
      rfl
  | cons v vs =>
    rw [render, List.length_cons] at hfuel
    have hitems := items?_render rest h (Nat.le_of_succ_le_succ (Nat.le_of_succ_le hfuel))
    rw [render, List.cons_append, List.append_assoc, value?]
    exact congrArg (· >>= _) hitems

theorem readBack_table {entries : List (Option String × Document)}
    (named : ∀ e ∈ entries, e.1.isSome = true) (distinct : (entries.map Prod.fst).Nodup)
    (h : ∀ e ∈ entries, ReadBack depth e.2) : ReadBack (depth + 1) (.table entries) := by
  refine readBack_of_succ fun fuel rest hfuel _ => ?_
  cases entries with
  | nil => rfl
  | cons e es =>
    obtain ⟨k, v⟩ := e
    obtain ⟨hk, hnamed⟩ := List.forall_mem_cons.mp named
    obtain ⟨k, rfl⟩ := Option.isSome_iff_exists.mp hk
    obtain ⟨c, cs, hkey, hc⟩ := style_key_eq_cons k
    have hdistinct := Node.nodup_names named distinct
    rw [render, List.length_cons] at hfuel
    have hentries := @entries?_render fuel depth rest [] k v es hnamed hdistinct h
      (Nat.le_of_succ_le_succ (Nat.le_of_succ_le hfuel))
    rw [hkey] at hentries
    rw [render, Option.getD_some, hkey, List.cons_append, List.append_assoc, List.append_assoc]
    refine (value?_table hc _).trans ((congrArg (· >>= _) hentries).trans ?_)
    change some (Document.table (Node.documents (Node.ofValues ((some k, v) :: es))), rest) = _
    rw [Node.documents_ofValues named]

/-- **Every value that fits is read back from its text.** -/
theorem readBack_of_fits {d : Document} (h : Fits depth d) : ReadBack depth d := by
  induction h with
  | boolean _ b => exact readBack_boolean b
  | integer _ low high => exact readBack_integer low high
  | float => exact readBack_float
  | text _ s => exact readBack_text s
  | list _ ih => exact readBack_list ih
  | table named distinct _ ih => exact readBack_table named distinct ih

end WasmEmbedding.Config.Toml
