import Mathlib.Data.List.Forall2
import WasmEmbedding.Wasi.Session

/-! # Environments and the sessions that are started under them

An environment that is made from texts keeps them as they are (`Environment.ofStrings_eq_ok`), and a
lookup takes the first string with the key (`Environment.get?_append`).  A session that is started
under an environment has its arguments and environment strings, and a descriptor for each of its
preopens in their order (`Session.start_eq_ok`); it can be started if and only if every preopen can
be opened (`Session.start_eq_error`).
-/
namespace WasmEmbedding.Wasi

theorem splitOnce_eq_some {sep : Char} {l a b : List Char} :
    splitOnce sep l = some (a, b) ↔ l = a ++ sep :: b ∧ sep ∉ a := by
  induction l generalizing a with
  | nil => simp [splitOnce]
  | cons c rest ih =>
    rw [splitOnce]
    by_cases hc : c = sep
    · subst hc
      rw [if_pos rfl]
      cases a with
      | nil => simp
      | cons x a => simp_all
    · rw [if_neg hc, Option.map_eq_some_iff]
      cases a with
      | nil => simp_all
      | cons x a =>
        constructor
        · rintro ⟨⟨a', b'⟩, hsplit, heq⟩
          cases heq
          obtain ⟨rfl, hnot⟩ := ih.mp hsplit
          exact ⟨rfl, by simp [hnot, Ne.symm hc]⟩
        · rintro ⟨heq, hnot⟩
          obtain ⟨rfl, rfl⟩ := List.cons.inj heq
          exact ⟨(a, b), ih.mpr ⟨rfl, fun h => hnot (List.mem_cons_of_mem _ h)⟩, rfl⟩

namespace Environment

/-- The key of an environment string is what comes before the first equals sign. -/
theorem splitVariable_eq_some {env : String} {key value : List Char} :
    splitVariable env = some (key, value) ↔ env.toList = key ++ '=' :: value ∧ '=' ∉ key :=
  splitOnce_eq_some

theorem checkVariables_eq_ok {envs : List String} :
    checkVariables envs = .ok () ↔ ∀ env ∈ envs, isVariable env = true := by
  induction envs with
  | nil => simp [checkVariables]
  | cons env rest ih =>
    rw [checkVariables, List.forall_mem_cons]
    by_cases h : isVariable env = true
    · rw [if_pos h, ih]
      exact ⟨fun hrest => ⟨h, hrest⟩, And.right⟩
    · rw [if_neg h]
      exact iff_of_false nofun fun hall => h hall.1

/-- An environment string at the end does not change what is wrong with those before it. -/
theorem checkVariables_append {env : String} (h : isVariable env = true) (envs : List String) :
    checkVariables (envs ++ [env]) = checkVariables envs := by
  induction envs with
  | nil => simp [checkVariables, h]
  | cons first rest ih => rw [List.cons_append, checkVariables, checkVariables, ih]

/-- One more environment string is one more environment string of the environment. -/
theorem ofStrings_append {env : String} (h : isVariable env = true)
    (args envs preopens : List String) :
    ofStrings args (envs ++ [env]) preopens =
      (ofStrings args envs preopens).map fun e => { e with envs := e.envs ++ [env] } := by
  unfold ofStrings
  rw [checkVariables_append h]
  cases checkVariables envs with
  | error w => rfl
  | ok _ => cases preopens.mapM Preopen.parse <;> rfl

/-- An environment keeps the texts that it is made from. -/
theorem ofStrings_eq_ok {args envs preopens : List String} {e : Environment} :
    ofStrings args envs preopens = .ok e ↔
      (∀ env ∈ envs, isVariable env = true) ∧
        ∃ ps, preopens.mapM Preopen.parse = .ok ps ∧ e = ⟨args, envs, ps⟩ := by
  rw [← checkVariables_eq_ok]
  unfold ofStrings
  cases checkVariables envs with
  | error w => exact iff_of_false nofun fun h => nomatch h.1
  | ok _ =>
    cases hps : preopens.mapM Preopen.parse with
    | error w => exact iff_of_false nofun fun ⟨_, _, hps, _⟩ => nomatch hps
    | ok ps =>
      constructor
      · rintro ⟨⟩
        exact ⟨rfl, ps, rfl, rfl⟩
      · rintro ⟨-, _, ⟨⟩, rfl⟩
        rfl

/-- Strings that come behind others are found if no string before them has the key. -/
theorem get?_append (args envs more : List String) (ps : List Preopen) (key : String) :
    Environment.get? ⟨args, envs ++ more, ps⟩ key =
      (Environment.get? ⟨args, envs, ps⟩ key).or (Environment.get? ⟨args, more, ps⟩ key) := by
  unfold Environment.get?
  rw [List.filterMap_append, List.findSome?_append]

/-- The value of a string is found under its key. -/
theorem get?_singleton {key : String} (hkey : '=' ∉ key.toList) (args : List String)
    (value : String) (ps : List Preopen) :
    Environment.get? ⟨args, [key ++ "=" ++ value], ps⟩ key = some value := by
  have hsplit : splitVariable (key ++ "=" ++ value) = some (key.toList, value.toList) := by
    refine splitVariable_eq_some.mpr ⟨?_, hkey⟩
    rw [String.toList_append, String.toList_append, List.append_assoc]
    rfl
  unfold Environment.get?
  rw [List.filterMap_cons_some hsplit]
  simp

end Environment

namespace Session

/-- A descriptor stands for the directory of a preopen. -/
def Opens (fs : FileSystem) (p : Preopen) (d : Descriptor) : Prop :=
  ∃ path, fs.openDirectory p.host = .ok path ∧ d = .directory path (some p.guest)

theorem openAll_eq_ok {fs : FileSystem} {ps : List Preopen} {ds : List Descriptor} :
    openAll fs ps = .ok ds ↔ List.Forall₂ (Opens fs) ps ds := by
  induction ps generalizing ds with
  | nil =>
    rw [List.forall₂_nil_left_iff]
    exact ⟨fun h => (Except.ok.inj h).symm, fun h => h ▸ rfl⟩
  | cons p ps ih =>
    rw [List.forall₂_cons_left_iff, openAll]
    cases hp : fs.openDirectory p.host with
    | error fault =>
      exact iff_of_false nofun fun ⟨_, _, ⟨_, hopen, _⟩, _⟩ => nomatch hp.symm.trans hopen
    | ok path =>
      dsimp only
      constructor
      · intro h
        cases hrest : openAll fs ps with
        | error w =>
          rw [hrest] at h
          cases h
        | ok rest =>
          rw [hrest] at h
          cases h
          exact ⟨_, rest, ⟨path, hp, rfl⟩, ih.mp hrest, rfl⟩
      · rintro ⟨_, rest, ⟨_, hopen, rfl⟩, hrest, rfl⟩
        cases hp.symm.trans hopen
        rw [ih.mpr hrest]
        rfl

/-- The session that starts under an environment with descriptors for its preopens. -/
def under (e : Environment) (ds : List Descriptor) : Session :=
  ⟨e.args, e.envs, bare.descriptors ++ ds.mapIdx fun i d => (i + 3, d)⟩

theorem start_eq_ok {fs : FileSystem} {e : Environment} {s : Session} :
    start fs e = .ok s ↔ ∃ ds, List.Forall₂ (Opens fs) e.preopens ds ∧ s = under e ds := by
  unfold start
  constructor
  · intro h
    cases hds : openAll fs e.preopens with
    | error w =>
      rw [hds] at h
      cases h
    | ok ds =>
      rw [hds] at h
      cases h
      exact ⟨ds, openAll_eq_ok.mp hds, rfl⟩
  · rintro ⟨ds, hds, rfl⟩
    rw [openAll_eq_ok.mpr hds]
    rfl

theorem openAll_eq_error {fs : FileSystem} {ps : List Preopen} :
    (∃ w, openAll fs ps = .error w) ↔
      ∃ p ∈ ps, ∃ fault, fs.openDirectory p.host = .error fault := by
  induction ps with
  | nil => exact iff_of_false (fun ⟨_, h⟩ => nomatch h) fun ⟨_, h, _⟩ => nomatch h
  | cons p ps ih =>
    rw [List.exists_mem_cons_iff, ← ih, openAll]
    cases hp : fs.openDirectory p.host with
    | error fault => exact iff_of_true ⟨_, rfl⟩ (.inl ⟨fault, rfl⟩)
    | ok path =>
      dsimp only
      rw [or_iff_right fun ⟨_, h⟩ => nomatch h]
      cases openAll fs ps with
      | error w => exact iff_of_true ⟨w, rfl⟩ ⟨w, rfl⟩
      | ok ds => exact iff_of_false (fun ⟨_, h⟩ => nomatch h) fun ⟨_, h⟩ => nomatch h

/-- A session cannot be started if and only if there is a preopen that cannot be opened. -/
theorem start_eq_error {fs : FileSystem} {e : Environment} :
    (∃ w, start fs e = .error w) ↔
      ∃ p ∈ e.preopens, ∃ fault, fs.openDirectory p.host = .error fault := by
  rw [← openAll_eq_error]
  unfold start
  cases openAll fs e.preopens with
  | error w => exact iff_of_true ⟨w, rfl⟩ ⟨w, rfl⟩
  | ok ds => exact iff_of_false (fun ⟨_, h⟩ => nomatch h) fun ⟨_, h⟩ => nomatch h

end Session

end WasmEmbedding.Wasi
