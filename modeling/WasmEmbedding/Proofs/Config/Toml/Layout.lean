import WasmEmbedding.Proofs.Config.Toml.Values

/-! # What is written in TOML: tables under headers

A document is laid out as lines and headers: first the entries of a table that are no tables, each
on a line, and then the tables among them, each under its header (`laidOut`).  The way from the top
to the table chosen last goes through the last entry of every table on it (`around`), so that a line
adds to that table and a header opens a new one, and nothing else changes (`line?_entry`,
`line?_header`).  A text is read as the layout of its document (`parse?_write`), which has the same
entries in another order (`perm_laidOut`).
-/
namespace WasmEmbedding.Config.Toml

/-- A document is a table. -/
def isTable : Document → Bool
  | .table _ => true
  | _ => false

/-- The entries that are no tables. -/
def plain (es : List (Option String × Document)) : List (Option String × Document) :=
  es.filter fun e => !isTable e.2

mutual

/-- A document as the layout has it: the tables of a table come behind its other entries. -/
def laidOut : Document → Document
  | .table es => .table (plain es ++ tablesOf es)
  | v => v

/-- The tables among entries, as the layout has them. -/
def tablesOf : List (Option String × Document) → List (Option String × Document)
  | [] => []
  | (k, v) :: es => if isTable v then (k, laidOut v) :: tablesOf es else tablesOf es

end

mutual

/-- The node of a table under a header. -/
def nodeOf : Document → Node
  | .table es => .table false false (Node.ofValues (plain es) ++ tableNodes es)
  | v => .value v

/-- The nodes of the tables among entries. -/
def tableNodes : List (Option String × Document) → Node.Entries
  | [] => []
  | (k, v) :: es => if isTable v then (k.getD "", nodeOf v) :: tableNodes es else tableNodes es

end

/-! ## The way to a table -/

/-- Entries, each table of which is the last of those around it. -/
def around : List (Node.Entries × String) → Node.Entries → Node.Entries
  | [], es => es
  | (before, k) :: way, es => before ++ [(k, .table false false (around way es))]

theorem around_append (way : List (Node.Entries × String)) (before : Node.Entries) (k : String)
    (es : Node.Entries) :
    around (way ++ [(before, k)]) es = around way (before ++ [(k, .table false false es)]) := by
  induction way with
  | nil => rfl
  | cons step way ih => rw [List.cons_append, around, around, ih]

/-- No key on the way is there before. -/
def Clear (way : List (Node.Entries × String)) : Prop := ∀ step ∈ way, step.2 ∉ step.1.map Prod.fst

theorem put_last {k : String} {before : Node.Entries} (h : k ∉ before.map Prod.fst) (m n : Node) :
    Node.put k n (before ++ [(k, m)]) = before ++ [(k, n)] := by
  induction before with
  | nil => exact if_pos rfl
  | cons e es ih =>
    obtain ⟨hne, hes⟩ := not_or.mp (List.mem_cons.not.mp h)
    rw [List.cons_append, Node.put, if_neg fun heq => hne heq.symm, ih hes]
    rfl

theorem lookup_last {k : String} {before : Node.Entries} (h : k ∉ before.map Prod.fst) (m : Node) :
    (before ++ [(k, m)]).lookup k = some m := by
  rw [List.lookup_append, Node.lookup_eq_none h, Option.none_or]
  simp

/-- The way leads to the table, and what becomes of it changes nothing around it. -/
theorem alter_around {way : List (Node.Entries × String)} (clear : Clear way)
    {f : Bool → Bool → Node.Entries → Option Node} {es es' : Node.Entries}
    (hf : f false false es = some (.table false false es')) :
    Node.alter false f (way.map Prod.snd) false false (around way es) =
      some (.table false false (around way es')) := by
  induction way with
  | nil => exact hf
  | cons step way ih =>
    obtain ⟨before, k⟩ := step
    obtain ⟨hk, hway⟩ := List.forall_mem_cons.mp clear
    rw [List.map_cons, around, Node.alter, lookup_last hk]
    simp only [Bool.false_and, Bool.false_eq_true, if_false, ih hway, Option.bind_eq_bind,
      Option.bind_some, put_last hk]
    rfl

/-! ## Lines -/

/-- The lines of a text make a tree into another one. -/
def Reads (p : Progress) (cs : List Char) (tree : Node) : Prop :=
  ∀ fuel, cs.length ≤ fuel → lines? fuel p cs = some tree

theorem reads_nil (p : Progress) : Reads p [] p.tree := by
  intro fuel _
  rw [lines?]

theorem Reads.step {p p' : Progress} {cs rest : List Char} {tree : Node}
    (hline : line? p cs = some (p', rest)) (hlength : rest.length < cs.length)
    (h : Reads p' rest tree) : Reads p cs tree := by
  intro fuel hfuel
  cases fuel with
  | zero => omega
  | succ fuel =>
    rw [lines?, hline]
    · exact h fuel (by omega)
    · rintro rfl
      exact absurd hlength (Nat.not_lt_zero _)

/-- The progress of a text: the way to the table chosen last, and what is in that so far. -/
def inside (way : List (Node.Entries × String)) (es : Node.Entries) : Progress :=
  ⟨.table false false (around way es), way.map Prod.snd⟩

theorem endOfLine?_of_isSolid {c : Char} (hc : isSolid c = true) (cs : List Char) :
    endOfLine? (c :: cs) = none := by
  have hcomment : skipComment (c :: cs) = c :: cs := by
    rw [skipComment]
    rintro r heq
    cases (List.cons.inj heq).1
    cases hc
  rw [endOfLine?, skipBlanks_of_isSolid hc, hcomment]
  change newline? (c :: cs) = none
  rw [newline?]
  · rintro r heq
    exact absurd (List.cons.inj heq).1 (ne_of_isSolid hc rfl)
  · rintro r heq
    exact absurd (List.cons.inj heq).1 (ne_of_isSolid hc rfl)

variable {way : List (Node.Entries × String)} {es : Node.Entries} {k : String}

/-- A line with a key gives it its value. -/
theorem line?_entry (clear : Clear way) (hk : k ∉ es.map Prod.fst) {v : Document}
    (hv : ReadBack maxDepth v) (rest : List Char) :
    line? (inside way es) (style.key k ++ (render style v ++ '\n' :: rest)) =
      some (inside way (es ++ [(k, .value v)]), rest) := by
  obtain ⟨c, cs, htext, hc, hne⟩ := keyText_eq_cons k
  obtain ⟨d, ds, hvalue, hd⟩ := render_append_eq_cons style v ('\n' :: rest)
  have hline : style.key k ++ (render style v ++ '\n' :: rest) =
      keyText k ++ ' ' :: '=' :: ' ' :: (render style v ++ '\n' :: rest) := by
    simp [style]
  have hends : EndsKey (' ' :: '=' :: ' ' :: (render style v ++ '\n' :: rest)) := ⟨_, .inl rfl⟩
  have hsplit := splitKey?_keyText k hends
  have hstart : skipBlanks (' ' :: (render style v ++ '\n' :: rest)) =
      render style v ++ '\n' :: rest := by
    rw [hvalue]
    exact skipBlanks_of_isSolid hd
  have hread := hv (3 * (render style v ++ '\n' :: rest).length + 3) ('\n' :: rest)
    (by rw [List.length_append]; omega) (by rintro c ⟨⟩; exact .inr (.inr (.inr rfl)))
  have hchange : (inside way es).change (inside way es).path (Node.assign [] k v) =
      some (.table false false (around way (es ++ [(k, .value v)]))) :=
    alter_around clear (Node.assign_nil hk v)
  rw [hline]
  rw [htext] at hsplit ⊢
  rw [List.cons_append] at hsplit ⊢
  rw [line?, skipBlanks_of_isSolid hc]
  split
  · rename_i heq
    exact absurd (List.cons.inj heq).1 hne
  · rename_i heq
    exact absurd (List.cons.inj heq).1 hne
  · rw [endOfLine?_of_isSolid hc, hsplit]
    change (value? (3 * (skipBlanks (' ' :: (render style v ++ '\n' :: rest))).length + 3) maxDepth
      (skipBlanks (' ' :: (render style v ++ '\n' :: rest))) >>= _) = _
    rw [hstart, hread]
    change ((inside way es).change (inside way es).path (Node.assign [] k v) >>= _) = _
    rw [hchange]
    rfl

/-- A header opens a table, wherever the text has been. -/
theorem line?_header (clear : Clear way) (hk : k ∉ es.map Prod.fst) (depth : way.length < maxDepth)
    {p : Progress} (hp : p.tree = .table false false (around way es)) (rest : List Char) :
    line? p ('[' :: (pathText (way.map Prod.snd ++ [k]) ++ ']' :: '\n' :: rest)) =
      some (inside (way ++ [(es, k)]) [], rest) := by
  have hends : EndsKey (']' :: '\n' :: rest) := ⟨_, .inr rfl⟩
  have hsplit : splitKey? (pathText (way.map Prod.snd ++ [k]) ++ ']' :: '\n' :: rest) =
      some ((way.map Prod.snd, k), ']' :: '\n' :: rest) :=
    splitKey?_pathText (by rwa [List.length_map]) hends
  have hopen : Node.openTable k false false es =
      some (.table false false (es ++ [(k, .table false false [])])) := by
    rw [Node.openTable, Node.lookup_eq_none hk]
    simp only [Node.put_of_not_mem _ hk]
  have hchange : p.change (way.map Prod.snd) (Node.openTable k) =
      some (.table false false (around (way ++ [(es, k)]) [])) := by
    rw [Progress.change, hp, around_append]
    exact alter_around clear hopen
  have hpath : way.map Prod.snd ++ [k] ≠ [] := List.append_ne_nil_of_right_ne_nil _ (by simp)
  obtain ⟨c, cs, htext, -, hne⟩ := pathText_eq_cons hpath
  rw [htext, List.cons_append] at hsplit ⊢
  rw [line?, skipBlanks_of_isSolid rfl]
  split
  · rename_i heq
    exact absurd (List.cons.inj (List.cons.inj heq).2).1 hne
  · rename_i heq
    cases heq
    rw [hsplit]
    change (p.change (way.map Prod.snd) (Node.openTable k) >>= _) = _
    rw [hchange, inside, List.map_append]
    rfl
  · rename_i hbracket
    exact absurd rfl (hbracket _)

/-! ## Tables -/

theorem lines_cons (k : Option String) (v : Document) (entries : List (Option String × Document)) :
    lines ((k, v) :: entries) =
      if isTable v then lines entries
      else style.key (k.getD "") ++ (render style v ++ '\n' :: lines entries) := by
  cases v <;> rfl

theorem plain_cons (k : Option String) (v : Document) (entries : List (Option String × Document)) :
    plain ((k, v) :: entries) =
      if isTable v then plain entries else (k, v) :: plain entries := by
  rw [plain, List.filter_cons]
  cases isTable v <;> rfl

theorem not_mem_of_distinct {n : Node} {after : Node.Entries}
    (distinct : ((es ++ (k, n) :: after).map Prod.fst).Nodup) : k ∉ es.map Prod.fst := by
  rw [List.map_append] at distinct
  exact fun hmem => (List.nodup_append.mp distinct).2.2 k hmem k List.mem_cons_self rfl

/-- The layout has the keys of a table. -/
theorem perm_names (entries : List (Option String × Document)) :
    ((Node.ofValues (plain entries) ++ tableNodes entries).map Prod.fst).Perm
      (entries.map fun e => e.1.getD "") := by
  induction entries with
  | nil => exact .nil
  | cons e entries ih =>
    obtain ⟨k, v⟩ := e
    rw [plain_cons, tableNodes]
    by_cases htable : isTable v = true
    · rw [if_pos htable, if_pos htable]
      refine (List.perm_middle.map Prod.fst).trans ?_
      exact ih.cons _
    · rw [if_neg htable, if_neg htable]
      exact ih.cons _

/-- The lines of a table add its values to it. -/
theorem reads_lines (clear : Clear way) {entries : List (Option String × Document)}
    (distinct : ((es ++ Node.ofValues (plain entries)).map Prod.fst).Nodup)
    (h : ∀ e ∈ entries, isTable e.2 = false → ReadBack maxDepth e.2) {rest : List Char}
    {tree : Node}
    (hrest : Reads (inside way (es ++ Node.ofValues (plain entries))) rest tree) :
    Reads (inside way es) (lines entries ++ rest) tree := by
  induction entries generalizing es with
  | nil =>
    rw [plain, List.filter_nil, Node.ofValues, List.map_nil, List.append_nil] at hrest
    exact hrest
  | cons e entries ih =>
    obtain ⟨k, v⟩ := e
    obtain ⟨hv, hvs⟩ := List.forall_mem_cons.mp h
    rw [lines_cons]
    rw [plain_cons] at hrest distinct
    by_cases htable : isTable v = true
    · rw [if_pos htable] at hrest distinct ⊢
      exact ih distinct hvs hrest
    · rw [if_neg htable] at hrest distinct ⊢
      rw [List.append_assoc, List.append_assoc, List.cons_append]
      have hk : k.getD "" ∉ es.map Prod.fst := not_mem_of_distinct distinct
      refine .step (line?_entry clear hk (hv (Bool.eq_false_iff.mpr htable)) _) ?_ ?_
      · simp only [List.length_append, List.length_cons]
        omega
      · refine ih ?_ hvs ?_
        · rw [List.append_assoc]
          exact distinct
        · rw [List.append_assoc]
          exact hrest

/-- A table is read under its header, with all that is below it. -/
def ReadUnder (depth : Nat) (d : Document) : Prop :=
  ∀ (way : List (Node.Entries × String)) (es : Node.Entries) (k : String) (p : Progress)
    (rest : List Char) (tree : Node), Clear way → k ∉ es.map Prod.fst →
    way.length + depth ≤ maxDepth → p.tree = .table false false (around way es) →
    (∀ p' : Progress, p'.tree = .table false false (around way (es ++ [(k, nodeOf d)])) →
      Reads p' rest tree) →
    Reads p (underHeader (way.map Prod.snd ++ [k]) d ++ rest) tree

theorem reads_sections (clear : Clear way) {depth : Nat}
    {entries : List (Option String × Document)}
    (distinct : ((es ++ tableNodes entries).map Prod.fst).Nodup)
    (h : ∀ e ∈ entries, isTable e.2 = true → ReadUnder depth e.2)
    (hdepth : way.length + depth ≤ maxDepth) {rest : List Char} {tree : Node} {p : Progress}
    (hp : p.tree = .table false false (around way es))
    (hrest : ∀ p' : Progress,
      p'.tree = .table false false (around way (es ++ tableNodes entries)) → Reads p' rest tree) :
    Reads p (sections (way.map Prod.snd) entries ++ rest) tree := by
  induction entries generalizing es p with
  | nil =>
    refine hrest p ?_
    rw [tableNodes, List.append_nil]
    exact hp
  | cons e entries ih =>
    obtain ⟨k, v⟩ := e
    obtain ⟨hv, hvs⟩ := List.forall_mem_cons.mp h
    rw [sections, List.append_assoc]
    rw [tableNodes] at hrest distinct
    -- What is read under one header leaves the text anywhere below it; the next header does not
    -- depend on that, since a path starts from the top.
    by_cases htable : isTable v = true
    · rw [if_pos htable] at hrest distinct
      have hk : k.getD "" ∉ es.map Prod.fst := not_mem_of_distinct distinct
      refine hv htable way es (k.getD "") p _ tree clear hk hdepth hp fun p' hp' => ?_
      refine ih ?_ hvs hp' fun p'' hp'' => hrest p'' ?_
      · rw [List.append_assoc]
        exact distinct
      · rw [List.append_assoc] at hp''
        exact hp''
    · rw [if_neg htable] at hrest distinct
      have hnone : underHeader (way.map Prod.snd ++ [k.getD ""]) v = [] := by
        cases v <;> first | rfl | exact absurd rfl htable
      rw [hnone]
      exact ih distinct hvs hp hrest

theorem Fits.mono {n m : Nat} {d : Document} (h : Fits n d) (hnm : n ≤ m) : Fits m d := by
  induction h generalizing m with
  | boolean _ b => exact .boolean m b
  | integer _ low high => exact .integer m low high
  | float _ => exact .float m
  | text _ s => exact .text m s
  | list _ ih =>
    cases m with
    | zero => cases hnm
    | succ m => exact .list fun v hv => ih v hv (Nat.le_of_succ_le_succ hnm)
  | table named distinct _ ih =>
    cases m with
    | zero => cases hnm
    | succ m => exact .table named distinct fun e he => ih e he (Nat.le_of_succ_le_succ hnm)

/-- What is in a table is read behind its header, or at the beginning of a text. -/
theorem reads_table (clear : Clear way) {depth : Nat}
    {entries : List (Option String × Document)} (named : ∀ e ∈ entries, e.1.isSome = true)
    (distinct : (entries.map Prod.fst).Nodup) (fit : ∀ e ∈ entries, Fits depth e.2)
    (h : ∀ e ∈ entries, isTable e.2 = true → ReadUnder depth e.2)
    (hdepth : way.length + depth ≤ maxDepth) {rest : List Char} {tree : Node}
    (hrest : ∀ p' : Progress, p'.tree =
      .table false false (around way (Node.ofValues (plain entries) ++ tableNodes entries)) →
      Reads p' rest tree) :
    Reads (inside way [])
      (lines entries ++ (sections (way.map Prod.snd) entries ++ rest)) tree := by
  have hdistinct := (perm_names entries).nodup_iff.mpr (Node.nodup_names named distinct)
  have hvalues : ∀ e ∈ entries, isTable e.2 = false → ReadBack maxDepth e.2 := fun e he _ =>
    readBack_of_fits ((fit e he).mono (Nat.le_of_add_left_le hdepth))
  refine reads_lines clear ?_ hvalues ?_
  · rw [List.map_append] at hdistinct
    exact hdistinct.of_append_left
  · exact reads_sections clear hdistinct h hdepth rfl hrest

/-- **Every table that fits is read under its header.** -/
theorem readUnder_of_fits {depth : Nat} {d : Document} (h : Fits depth d)
    (htable : isTable d = true) : ReadUnder depth d := by
  induction h with
  | @table depth entries named distinct fit ih =>
    intro way es k p rest tree clear hk hdepth hp hrest
    have hway : way.length < maxDepth := by omega
    -- Behind the header the way is one longer, and the table is empty until its lines are read.
    have hclear : Clear (way ++ [(es, k)]) := by
      intro step hstep
      rcases List.mem_append.mp hstep with hstep | hstep
      · exact clear step hstep
      · rw [List.mem_singleton.mp hstep]
        exact hk
    have hbody : Reads (inside (way ++ [(es, k)]) []) (lines entries ++
        (sections ((way ++ [(es, k)]).map Prod.snd) entries ++ rest)) tree := by
      refine reads_table hclear named distinct fit ih ?_ fun p' hp' => hrest p' ?_
      · rw [List.length_append, List.length_singleton]
        omega
      · rw [hp', around_append, nodeOf]
    rw [List.map_append] at hbody
    rw [underHeader, List.cons_append, List.append_assoc, List.cons_append, List.cons_append,
      List.append_assoc]
    refine .step (line?_header clear hk hway hp _) ?_ hbody
    simp only [List.length_append, List.length_cons]
    omega
  | _ => cases htable

/-! ## Texts -/

theorem documents_append (a b : Node.Entries) :
    Node.documents (a ++ b) = Node.documents a ++ Node.documents b := by
  induction a with
  | nil => rfl
  | cons e a ih =>
    obtain ⟨k, n⟩ := e
    rw [List.cons_append, Node.documents, Node.documents, ih, List.cons_append]

theorem documents_tableNodes {entries : List (Option String × Document)}
    (named : ∀ e ∈ entries, e.1.isSome = true)
    (h : ∀ e ∈ entries, (nodeOf e.2).toDocument = laidOut e.2) :
    Node.documents (tableNodes entries) = tablesOf entries := by
  induction entries with
  | nil => rfl
  | cons e entries ih =>
    obtain ⟨k, v⟩ := e
    obtain ⟨hk, hnamed⟩ := List.forall_mem_cons.mp named
    obtain ⟨k, rfl⟩ := Option.isSome_iff_exists.mp hk
    obtain ⟨hv, hvs⟩ := List.forall_mem_cons.mp h
    rw [tableNodes, tablesOf]
    by_cases htable : isTable v = true
    · rw [if_pos htable, if_pos htable, Node.documents, hv, ih hnamed hvs]
      rfl
    · rw [if_neg htable, if_neg htable, ih hnamed hvs]

theorem toDocument_nodeOf {depth : Nat} {d : Document} (h : Fits depth d) :
    (nodeOf d).toDocument = laidOut d := by
  induction h with
  | @table _ entries named _ _ ih =>
    have hplain : Node.documents (Node.ofValues (plain entries)) = plain entries :=
      Node.documents_ofValues fun e he => named e (List.mem_of_mem_filter he)
    rw [nodeOf, laidOut, Node.toDocument, documents_append, documents_tableNodes named ih, hplain]
  | _ => rfl

theorem laidOut_eq_self {v : Document} (htable : isTable v = false) : laidOut v = v := by
  cases v with
  | table => cases htable
  | _ => rfl

/-- The layout moves the entries of a table. -/
theorem perm_laidOut (entries : List (Option String × Document)) :
    (plain entries ++ tablesOf entries).Perm (entries.map fun e => (e.1, laidOut e.2)) := by
  induction entries with
  | nil => exact .nil
  | cons e entries ih =>
    obtain ⟨k, v⟩ := e
    rw [plain_cons, tablesOf, List.map_cons]
    cases htable : isTable v with
    | true => exact List.perm_middle.trans (ih.cons _)
    | false =>
      rw [laidOut_eq_self htable]
      exact ih.cons _

theorem lines_eq_nil_or (entries : List (Option String × Document)) :
    lines entries = [] ∨ ∃ c cs, lines entries = c :: cs ∧ isSolid c = true := by
  induction entries with
  | nil => exact .inl rfl
  | cons e entries ih =>
    obtain ⟨k, v⟩ := e
    rw [lines_cons]
    by_cases htable : isTable v = true
    · rwa [if_pos htable]
    · obtain ⟨c, cs, hkey, hc⟩ := style_key_eq_cons (k.getD "")
      rw [if_neg htable, hkey]
      exact .inr ⟨c, _, rfl, hc⟩

theorem sections_eq_nil_or (path : List String) (entries : List (Option String × Document)) :
    sections path entries = [] ∨ ∃ cs, sections path entries = '[' :: cs := by
  induction entries with
  | nil => exact .inl rfl
  | cons e entries ih =>
    obtain ⟨k, v⟩ := e
    rw [sections]
    cases v with
    | table es =>
      rw [underHeader]
      exact .inr ⟨_, rfl⟩
    | _ => exact ih

theorem skipMark_of_isSolid {c : Char} (hc : isSolid c = true) (cs : List Char) :
    skipMark (c :: cs) = c :: cs := by
  refine if_neg fun hmark => ?_
  have hmarked : c = '\ufeff' := by
    rw [← Char.ofNat_toNat c, hmark]
  rw [hmarked] at hc
  cases hc

/-- A text that is written has no byte order mark. -/
theorem skipMark_write (entries : List (Option String × Document)) :
    skipMark (lines entries ++ sections [] entries) = lines entries ++ sections [] entries := by
  rcases lines_eq_nil_or entries with hlines | ⟨c, cs, hlines, hc⟩
  · rw [hlines, List.nil_append]
    rcases sections_eq_nil_or [] entries with hsections | ⟨cs, hsections⟩
    · rw [hsections, skipMark]
    · rw [hsections]
      exact skipMark_of_isSolid rfl cs
  · rw [hlines]
    exact skipMark_of_isSolid hc _

/-- **A text is read as the layout of the document that it was written for.** -/
theorem parse?_write {entries : List (Option String × Document)}
    (h : Fits (maxDepth + 1) (.table entries)) :
    parse? (write (.table entries)) = some (laidOut (.table entries)) := by
  have hread : Reads (inside [] []) (lines entries ++ (sections [] entries ++ []))
      (nodeOf (.table entries)) := by
    generalize htop : maxDepth + 1 = top at h
    cases h with
    | table named distinct fit =>
      cases htop
      refine reads_table (List.forall_mem_nil _) named distinct fit
        (fun e he => readUnder_of_fits (fit e he)) (Nat.le_of_eq (Nat.zero_add _)) fun p' hp' => ?_
      rw [nodeOf]
      exact hp' ▸ reads_nil p'
  rw [List.append_nil] at hread
  rw [parse?, write, String.toList_ofList, skipMark_write, ← toDocument_nodeOf h]
  exact congrArg (· >>= _) (hread _ (Nat.le_succ _))

end WasmEmbedding.Config.Toml
