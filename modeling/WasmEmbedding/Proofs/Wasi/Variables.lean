import WasmEmbedding.Proofs.Computation
import WasmEmbedding.Proofs.Wasi.Preopens

/-! # Environment strings, from construction to lookup

An environment string is a key, an equals sign and a value, and nothing but the first equals sign
separates them: a value may have more.  `Environment.ofStrings` accepts strings whose first equals
sign stands behind a key (`WellFormed`), and refuses the first text that it cannot take, environment
strings before preopens (`ofStrings_eq_error`).  As a list is read from left to right, the text that
is blamed is the first that is not well formed, with everything before it accepted (`FirstNot`).

An environment is not a map.  It keeps its strings in the order in which they are given, repeated
keys included, and a lookup finds the value of the first string with the key (`get?_eq_some_iff`).
The guest is not given the lookup but the strings, each as it was split and joined again, and makes
of repeated keys what it likes.  Pushes of preopens leave both alone.  `ofStrings_outcome` puts
construction and lookup together.
-/
namespace WasmEmbedding.Wasi

namespace Preopen

theorem parse_eq_error {mapping : String} {w : WasiError} (h : parse mapping = .error w) :
    w = refusal mapping := by
  unfold parse at h
  dsimp only at h
  split at h
  · exact (Except.error.inj h).symm
  · cases h

/-- A mapping that can be read. -/
def Parses (mapping : String) : Prop := ∃ p, parse mapping = .ok p

theorem exists_mapM_parse {mappings : List String} :
    (∃ ps, mappings.mapM parse = .ok ps) ↔ ∀ m ∈ mappings, Parses m := by
  simp only [mapM_eq_ok_iff]
  induction mappings with
  | nil => simp
  | cons m mappings ih =>
    rw [List.forall_mem_cons, ← ih]
    simp [List.forall₂_cons_left_iff, Parses]

/-- The first mapping that cannot be read is what a list of mappings is refused with. -/
theorem mapM_parse_eq_error {mappings : List String} {w : WasiError} :
    mappings.mapM parse = .error w ↔ ∃ bad, FirstNot Parses mappings bad ∧ w = refusal bad := by
  rw [mapM_eq_error_iff]
  refine exists_congr fun bad => and_congr_right fun hbad => ⟨parse_eq_error, ?_⟩
  rintro rfl
  cases hparse : parse bad with
  | ok p => exact absurd ⟨p, hparse⟩ hbad.not_self
  | error w' => rw [parse_eq_error hparse]

end Preopen

namespace Environment

/-- The parts of an environment string on the two sides of its first equals sign. -/
def Splits (env key value : String) : Prop := env = key ++ "=" ++ value ∧ '=' ∉ key.toList

/-- An environment string with a key before its first equals sign. -/
def WellFormed (env : String) : Prop := ∃ key value, Splits env key value ∧ key ≠ ""

/-- What a malformed environment string is refused with. -/
def expected (env : String) : WasiError :=
  .environmentError ("Expected KEY=VALUE, got '" ++ env ++ "'")

/-- The string that the two parts of an environment string make. -/
def join (parts : List Char × List Char) : String :=
  String.ofList parts.1 ++ "=" ++ String.ofList parts.2

theorem splitVariable_iff {env key value : String} :
    splitVariable env = some (key.toList, value.toList) ↔ Splits env key value := by
  rw [splitVariable_eq_some, Splits, ← String.toList_inj]
  simp

theorem splits_of_splitVariable {env : String} {parts : List Char × List Char}
    (h : splitVariable env = some parts) :
    Splits env (String.ofList parts.1) (String.ofList parts.2) := by
  rw [← splitVariable_iff, String.toList_ofList, String.toList_ofList]
  exact h

theorem Splits.key_unique {env key key' value value' : String} (h : Splits env key value)
    (h' : Splits env key' value') : key = key' ∧ value = value' := by
  have hparts := (splitVariable_iff.mpr h).symm.trans (splitVariable_iff.mpr h')
  simpa only [Option.some.injEq, Prod.mk.injEq, String.toList_inj] using hparts

theorem isVariable_iff {env : String} : isVariable env = true ↔ WellFormed env := by
  unfold isVariable
  cases hsplit : splitVariable env with
  | none =>
    refine iff_of_false nofun ?_
    rintro ⟨key, value, hsplits, -⟩
    exact nomatch hsplit.symm.trans (splitVariable_iff.mpr hsplits)
  | some parts =>
    have hsplits := splits_of_splitVariable hsplit
    constructor
    · intro hkey
      refine ⟨_, _, hsplits, ?_⟩
      simpa using hkey
    · rintro ⟨key, value, hsplits', hkey⟩
      obtain ⟨rfl, -⟩ := hsplits'.key_unique hsplits
      simpa using hkey

theorem checkVariables_eq_error {envs : List String} {w : WasiError} :
    checkVariables envs = .error w ↔ ∃ bad, FirstNot WellFormed envs bad ∧ w = expected bad := by
  induction envs with
  | nil => exact iff_of_false nofun fun ⟨_, h, _⟩ => not_firstNot_nil h
  | cons env envs ih =>
    rw [checkVariables]
    split
    · rename_i henv
      simp only [firstNot_cons_of (isVariable_iff.mp henv), ih]
    · rename_i henv
      simp only [firstNot_cons_of_not (mt isVariable_iff.mpr henv), exists_eq_left]
      exact ⟨fun h => (Except.error.inj h).symm, fun h => h ▸ rfl⟩

/-! ## Construction -/

section Construction

variable {args envs preopens : List String}

theorem exists_ofStrings :
    (∃ e, ofStrings args envs preopens = .ok e) ↔
      (∀ env ∈ envs, WellFormed env) ∧ ∀ m ∈ preopens, Preopen.Parses m := by
  simp only [ofStrings_eq_ok, isVariable_iff]
  rw [← Preopen.exists_mapM_parse]
  constructor
  · rintro ⟨_, hvars, ps, hps, -⟩
    exact ⟨hvars, ps, hps⟩
  · rintro ⟨hvars, ps, hps⟩
    exact ⟨_, hvars, ps, hps, rfl⟩

/-- A construction that fails names the first malformed environment string if there is one, and the
first malformed preopen otherwise. -/
theorem ofStrings_eq_error {w : WasiError} :
    ofStrings args envs preopens = .error w ↔
      (∃ bad, FirstNot WellFormed envs bad ∧ w = expected bad) ∨
      (∀ env ∈ envs, WellFormed env) ∧
        ∃ bad, FirstNot Preopen.Parses preopens bad ∧ w = Preopen.refusal bad := by
  rw [← checkVariables_eq_error, ← Preopen.mapM_parse_eq_error]
  simp only [← isVariable_iff]
  rw [← checkVariables_eq_ok]
  unfold ofStrings
  cases checkVariables envs with
  | error w' => simp [bind, Except.bind]
  | ok _ => cases preopens.mapM Preopen.parse <;> simp [bind, Except.bind, pure, Except.pure]

end Construction

/-! ## Lookup -/

/-- What one environment string has for a key. -/
def valueOf (key env : String) : Option String :=
  (splitVariable env).bind fun (k, v) => if k = key.toList then some (String.ofList v) else none

theorem valueOf_eq_some_iff {key env value : String} :
    valueOf key env = some value ↔ Splits env key value := by
  rw [valueOf, Option.bind_eq_some_iff]
  constructor
  · rintro ⟨⟨k, v⟩, hsplit, hvalue⟩
    dsimp only at hvalue
    split at hvalue
    · rename_i hkey
      cases hvalue
      have hsplits := splits_of_splitVariable hsplit
      dsimp only at hsplits
      rwa [hkey, String.ofList_toList] at hsplits
    · cases hvalue
  · intro hsplits
    refine ⟨_, splitVariable_iff.mpr hsplits, ?_⟩
    dsimp only
    rw [if_pos rfl, String.ofList_toList]

theorem valueOf_eq_none_iff {key env : String} :
    valueOf key env = none ↔ ∀ value, ¬ Splits env key value := by
  simp only [Option.eq_none_iff_forall_ne_some, ne_eq, valueOf_eq_some_iff]

theorem get?_eq_findSome? (e : Environment) (key : String) :
    e.get? key = e.envs.findSome? (valueOf key) := by
  unfold get?
  induction e.envs with
  | nil => rfl
  | cons env envs ih =>
    rw [List.findSome?_cons, ← ih, valueOf]
    cases hsplit : splitVariable env with
    | none => rw [List.filterMap_cons_none hsplit]; rfl
    | some parts => rw [List.filterMap_cons_some hsplit, List.findSome?_cons]; rfl

/-- A lookup takes the value of the first environment string with the key. -/
theorem get?_eq_some_iff {e : Environment} {key value : String} :
    e.get? key = some value ↔
      ∃ before env after, e.envs = before ++ env :: after ∧ Splits env key value ∧
        ∀ earlier ∈ before, ∀ v, ¬ Splits earlier key v := by
  simp only [get?_eq_findSome?, List.findSome?_eq_some_iff, valueOf_eq_some_iff,
    valueOf_eq_none_iff]

/-- A lookup fails if no environment string has the key. -/
theorem get?_eq_none_iff {e : Environment} {key : String} :
    e.get? key = none ↔ ∀ env ∈ e.envs, ∀ value, ¬ Splits env key value := by
  simp only [get?_eq_findSome?, List.findSome?_eq_none_iff, valueOf_eq_none_iff]

/-- Pushes add preopens behind those that are there, and change nothing else. -/
theorem foldl_push (e : Environment) (pushed : List Preopen) :
    pushed.foldl push e = { e with preopens := e.preopens ++ pushed } := by
  induction pushed generalizing e with
  | nil => simp
  | cons p pushed ih =>
    rw [List.foldl_cons, ih]
    simp [push]

/-- The strings of well-formed variables are what their parts make. -/
theorem map_join_filterMap {envs : List String} (h : ∀ env ∈ envs, WellFormed env) :
    (envs.filterMap splitVariable).map join = envs := by
  induction envs with
  | nil => rfl
  | cons env envs ih =>
    obtain ⟨henv, hrest⟩ := List.forall_mem_cons.mp h
    obtain ⟨key, value, hsplits, -⟩ := henv
    rw [List.filterMap_cons_some (splitVariable_iff.mpr hsplits), List.map_cons, ih hrest]
    simp [join, hsplits.1]

/-- What is read back from an environment with given strings: lookups, and the strings that a
session hands to the system interface. -/
structure ReadsBack (envs : List String) (e : Environment) : Prop where
  /-- A lookup gives the value of the first string with the key, and nothing without one. -/
  lookup : ∀ key value, e.get? key = some value ↔
    ∃ before env after, envs = before ++ env :: after ∧ Splits env key value ∧
      ∀ earlier ∈ before, ∀ v, ¬ Splits earlier key v
  /-- The empty key is never found. -/
  empty : e.get? "" = none
  /-- A key with an equals sign is never found. -/
  equals : ∀ key : String, '=' ∈ key.toList → e.get? key = none
  /-- The key of every string is found, and the string is its two parts joined. -/
  entries : ∀ env ∈ envs, ∃ key value, splitVariable env = some (key.toList, value.toList) ∧
    key ++ "=" ++ value = env ∧ (e.get? key).isSome
  /-- A session has the strings as they are split and joined again, which are the strings. -/
  session : ∀ fs s, Session.start fs e = .ok s →
    s.envs = (envs.filterMap splitVariable).map join ∧ s.envs = envs

theorem readsBack {e : Environment} (h : ∀ env ∈ e.envs, WellFormed env) :
    ReadsBack e.envs e where
  lookup _ _ := get?_eq_some_iff
  empty := by
    refine get?_eq_none_iff.mpr fun env henv value hsplits => ?_
    obtain ⟨key, value', hsplits', hkey⟩ := h env henv
    exact hkey (hsplits'.key_unique hsplits).1
  equals key hkey := get?_eq_none_iff.mpr fun _ _ _ hsplits => hsplits.2 hkey
  entries env henv := by
    obtain ⟨key, value, hsplits, -⟩ := h env henv
    refine ⟨key, value, splitVariable_iff.mpr hsplits, hsplits.1.symm, ?_⟩
    rw [Option.isSome_iff_ne_none, Ne, get?_eq_none_iff]
    exact fun hnone => hnone env henv value hsplits
  session fs s hs := by
    obtain ⟨ds, -, rfl⟩ := Session.start_eq_ok.mp hs
    exact ⟨(map_join_filterMap h).symm, rfl⟩

/-- **An environment keeps what it is made from, and is read back by keys.**  It is made if and only
if the first equals sign of every environment string comes after at least one character and every
preopen can be read; then it has the arguments and environment strings as they are and the preopens
as they are read, all in order.  Otherwise the error names the first malformed environment string,
or the first malformed preopen if there is none.  After any pushes, a lookup gives the part after
the first equals sign of the first string with the key before it. -/
theorem ofStrings_outcome (args envs preopens : List String) :
    ((∃ e, ofStrings args envs preopens = .ok e) ↔
      (∀ env ∈ envs, WellFormed env) ∧ ∀ m ∈ preopens, Preopen.Parses m) ∧
    (∀ w, ofStrings args envs preopens = .error w ↔
      (∃ bad, FirstNot WellFormed envs bad ∧ w = expected bad) ∨
      (∀ env ∈ envs, WellFormed env) ∧
        ∃ bad, FirstNot Preopen.Parses preopens bad ∧ w = Preopen.refusal bad) ∧
    ∀ e, ofStrings args envs preopens = .ok e →
      e.args = args ∧ e.envs = envs ∧
      List.Forall₂ (fun m p => Preopen.parse m = .ok p) preopens e.preopens ∧
      ∀ pushed : List Preopen,
        pushed.foldl push e = ⟨args, envs, e.preopens ++ pushed⟩ ∧
        ReadsBack envs (pushed.foldl push e) := by
  refine ⟨exists_ofStrings, fun w => ofStrings_eq_error, fun e he => ?_⟩
  obtain ⟨hvars, ps, hps, rfl⟩ := ofStrings_eq_ok.mp he
  refine ⟨rfl, rfl, mapM_eq_ok_iff.mp hps, fun pushed => ?_⟩
  have hpushed : pushed.foldl push ⟨args, envs, ps⟩ = ⟨args, envs, ps ++ pushed⟩ := foldl_push _ _
  rw [hpushed]
  exact ⟨rfl, readsBack (e := ⟨args, envs, ps ++ pushed⟩) fun env henv =>
    isVariable_iff.mp (hvars env henv)⟩

/-- A value with an equals sign in it, an empty value and a key that comes again, with a preopen
that is pushed afterwards. -/
theorem ofStrings_outcome_repeated :
    ofStrings ["app"] ["A=1=2", "É=", "A=3"] ["/a:/b"] =
        .ok ⟨["app"], ["A=1=2", "É=", "A=3"], [⟨"/a", "/b"⟩]⟩ ∧
      ReadsBack ["A=1=2", "É=", "A=3"]
        ([⟨"/c", "/d"⟩].foldl push ⟨["app"], ["A=1=2", "É=", "A=3"], [⟨"/a", "/b"⟩]⟩) :=
  ⟨rfl, (((ofStrings_outcome ["app"] ["A=1=2", "É=", "A=3"] ["/a:/b"]).2.2 _ rfl).2.2.2 _).2⟩

/-- An equals sign behind the first one is no key's: the first comes after no character. -/
theorem ofStrings_second_equals :
    ¬ ((∃ e, ofStrings [] ["=A=b"] [] = .ok e) ↔
      (∀ env ∈ ["=A=b"], ∃ before after, env = before ++ "=" ++ after ∧ before ≠ "") ∧
        ∀ m ∈ ([] : List String), Preopen.Parses m) := by
  intro hiff
  have hlater : ∀ env ∈ ["=A=b"], ∃ before after, env = before ++ "=" ++ after ∧ before ≠ "" := by
    simp only [List.mem_singleton, forall_eq]
    exact ⟨"=A", "b", rfl, by decide⟩
  obtain ⟨e, he⟩ := hiff.mpr ⟨hlater, nofun⟩
  exact nomatch he

end Environment

end WasmEmbedding.Wasi
