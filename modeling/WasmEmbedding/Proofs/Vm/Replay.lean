import WasmEmbedding.Proofs.Vm.Registration

/-! # Replaying the link environment

The link environment of a machine is a list of entries (`Vm.entries`): the names of `linkOrder`,
each with what is registered under it.  A rebuild links the entries again, one by one, on a new
store.  `Links` is what linking one of them is: an import object is defined as it was when it was
registered, and a module becomes a new instance, whose imports stand for what the entries before
it have defined and whose exports are defined under its name.  `Replays` repeats this along a list
of entries, and `rebuild_post` says what a rebuild comes to in these terms.
-/
namespace WasmEmbedding

open Engine Wasm

/-- The names that an entry of the link environment takes in the linker. -/
def Registered.names (name : String) : Registered → List (String × String)
  | .imports linked _ => linked.names
  | .module m => m.exports.map fun e => (name, e.name)

namespace Vm

/-- What is registered under names, in the order of these. -/
def entriesOf (vm : Vm) (names : List String) : List (String × Registered) :=
  names.filterMap fun name => (vm.registered? name).map (name, ·)

/-- The entries of the link environment in the order of registration. -/
def entries (vm : Vm) : List (String × Registered) := vm.entriesOf vm.linkOrder

theorem entriesOf_of_eq {s t : Setting} (hregistered : t.vm.registered = s.vm.registered) :
    t.vm.entriesOf = s.vm.entriesOf := by
  funext names
  unfold entriesOf registered?
  rw [hregistered]

theorem entries_of_eq {s t : Setting} (hregistered : t.vm.registered = s.vm.registered)
    (horder : t.vm.linkOrder = s.vm.linkOrder) : t.vm.entries = s.vm.entries := by
  unfold entries
  rw [entriesOf_of_eq hregistered, horder]

/-- What linking an entry again makes of a setting. -/
inductive Links : String × Registered → Setting → Setting → Prop
  /-- The symbols are defined that the import object had when it was registered. -/
  | imports {name : String} {linked : LinkedImports} {functions : List (String × Signature)}
      {s : Setting} {store : Store} {linker : Linker}
      (defined : linked.define s.vm.store s.vm.linker = .ok (store, linker)) :
      Links (name, .imports linked functions) s { s with vm := { s.vm with store, linker } }
  /-- The module is linked against what has been defined before. -/
  | module {name : String} {m : Module} {s t : Setting} (linked : LinksModule name m s t) :
      Links (name, .module m) s t

/-- Entries are linked again, one by one, each where the one before it has been linked. -/
inductive Replays : List (String × Registered) → Setting → Setting → Prop
  | nil (s : Setting) : Replays [] s s
  | cons {name : String} {entry : Registered} {rest : List (String × Registered)} {s t u : Setting}
      (run : EStateM.run (Action.replay name entry) s = .ok () t) (links : Links (name, entry) s t)
      (later : Replays rest t u) : Replays ((name, entry) :: rest) s u

theorem links_of_run {name : String} {entry : Registered} {s t : Setting}
    (h : EStateM.run (Action.replay name entry) s = .ok () t) : Links (name, entry) s t := by
  cases entry with
  | imports linked functions =>
    have hrun : EStateM.run (Action.define linked) s = .ok () t := h
    obtain ⟨store, linker, hd, rfl⟩ := Action.run_define_eq_ok.mp hrun
    exact .imports hd
  | module m => exact .module ((Action.instantiateRegistered_post name m s).ok h).2

/-- An entry takes its names behind those of the entries before it. -/
theorem Links.continues {name : String} {entry : Registered} {s t : Setting}
    (h : Links (name, entry) s t) : s.vm.linker.Continues t.vm.linker (entry.names name) := by
  cases h with
  | imports defined => exact (LinkedImports.define_ok defined).2
  | @module _ m _ _ linked =>
    obtain ⟨items, i, -, hreal, hdefine⟩ := linked.linked
    have hnames : i.exports.map (fun x => (name, x.1)) =
        m.exports.map fun e => (name, e.name) := by
      have h := congrArg (List.map (name, ·)) hreal.names_exports
      rw [List.map_map, List.map_map] at h
      exact h
    change s.vm.linker.Continues t.vm.linker (m.exports.map fun e => (name, e.name))
    rw [← hnames]
    exact Linker.continues_defineAll hdefine

namespace Replays

variable {s t : Setting} {done : List (String × Registered)}

/-- Linking entries again is work on the store that spends fuel. -/
theorem builds (h : Replays done s t) : Builds s t := by
  induction h with
  | nil s => exact Std.Refl.refl s
  | cons run _ _ ih => exact IsTrans.trans _ _ _ ((Action.keeps_replay _ _).ok run) ih

/-- The linker has the names of the entries behind those it had. -/
theorem continues (h : Replays done s t) :
    s.vm.linker.Continues t.vm.linker (done.flatMap fun e => e.2.names e.1) := by
  induction h with
  | nil s => exact Linker.Continues.refl _
  | cons _ links _ ih => exact links.continues.trans ih

end Replays

theorem entriesOf_cons (vm : Vm) (name : String) (names : List String) :
    vm.entriesOf (name :: names) =
      match vm.registered? name with
      | some entry => (name, entry) :: vm.entriesOf names
      | none => vm.entriesOf names := by
  unfold entriesOf
  rw [List.filterMap_cons]
  cases vm.registered? name <;> rfl

namespace Action

/-- Links what is registered under a name again. -/
def replay? (name : String) : Action Unit := do
  match (← vm).registered? name with
  | some entry => replay name entry
  | none => pure ()

/-- **The entries are replayed one after the other; the first that fails ends it.** -/
theorem forM_replay?_post : ∀ (names : List String) (s : Setting),
    Post (names.forM replay?) s fun r t =>
      match r with
      | .ok _ => Replays (s.vm.entriesOf names) s t
      | .error e => ∃ done name entry rest u,
          s.vm.entriesOf names = done ++ (name, entry) :: rest ∧ Replays done s u ∧
            EStateM.run (replay name entry) u = .error e t
  | [], s => Replays.nil s
  | name :: names, s => by
    have hrun : EStateM.run (replay? name) s = EStateM.run (match s.vm.registered? name with
      | some entry => replay name entry
      | none => pure ()) s := rfl
    rw [entriesOf_cons]
    refine Post.bind (fun _ t ht => ?_) fun e t ht => ?_
    · rw [hrun] at ht
      cases hentry : s.vm.registered? name with
      | none =>
        rw [hentry] at ht
        cases ht
        exact forM_replay?_post names s
      | some entry =>
        rw [hentry] at ht
        have hbuilds : Builds s t := (keeps_replay name entry).ok ht
        have hsame : t.vm.entriesOf = s.vm.entriesOf :=
          entriesOf_of_eq hbuilds.registered
        -- Replaying registers nothing, so that the other entries are still those of `s`.
        refine Post.intro (fun _ u hu => ?_) fun e u hu => ?_
        · have hlater := (forM_replay?_post names t).ok hu
          rw [hsame] at hlater
          exact .cons ht (links_of_run ht) hlater
        · obtain ⟨done, name', entry', rest, v, hsplit, hdone, hv⟩ :=
            (forM_replay?_post names t).error hu
          rw [hsame] at hsplit
          refine ⟨(name, entry) :: done, name', entry', rest, v, ?_, ?_, hv⟩
          · exact congrArg ((name, entry) :: ·) hsplit
          · exact .cons ht (links_of_run ht) hdone
    · rw [hrun] at ht
      cases hentry : s.vm.registered? name with
      | none =>
        rw [hentry] at ht
        cases ht
      | some entry =>
        rw [hentry] at ht
        exact ⟨[], name, entry, _, s, rfl, .nil s, ht⟩

/-- What is put back after a failed rebuild is all of the machine but its counts. -/
theorem restore_eq {s t : Setting} (h : Builds (blank s) t) :
    restore s.vm t.vm = { s.vm with statistics := t.vm.statistics } := by
  have hrecord := h.record
  have hstale : t.vm.stale = s.vm.stale := h.stale
  obtain ⟨⟨config, store, linker, stage, loaded, compiled, active, registered, linkOrder, wasi,
    environment, stale, statistics⟩, host⟩ := t
  injection hrecord
  subst_vars
  rfl

/-- What a rebuild comes to, entry by entry. -/
theorem rebuild_post (s : Setting) :
    Post rebuild s fun r t =>
      match r with
      | .ok _ => ∃ u, Replays s.vm.entries (blank s) u ∧ t = ⟨inherit s.vm u.vm, u.host⟩
      | .error e => t.vm = { s.vm with statistics := t.vm.statistics } ∧
          ∃ done name entry rest u v, s.vm.entries = done ++ (name, entry) :: rest ∧
            Replays done (blank s) u ∧ EStateM.run (replay name entry) u = .error e v ∧
            t.host = v.host := by
  have hall : EStateM.run replayAll (blank s) =
      EStateM.run (s.vm.linkOrder.forM replay?) (blank s) := rfl
  have hentries : (blank s).vm.entriesOf s.vm.linkOrder = s.vm.entries := rfl
  have hpost := forM_replay?_post s.vm.linkOrder (blank s)
  rw [hentries] at hpost
  have hrun := run_rebuild s
  rw [hall] at hrun
  cases h : EStateM.run (s.vm.linkOrder.forM replay?) (blank s) with
  | ok a u =>
    rw [h] at hrun
    exact Post.of_ok hrun ⟨u, hpost.ok h, rfl⟩
  | error e u =>
    rw [h] at hrun
    have hbuilds : Builds (blank s) u := keeps_replayAll.error (hall.trans h)
    obtain ⟨done, name, entry, rest, v, hsplit, hdone, hv⟩ := hpost.error h
    exact Post.of_error hrun
      ⟨restore_eq hbuilds, done, name, entry, rest, v, u, hsplit, hdone, hv, rfl⟩

end Action

end Vm

end WasmEmbedding
