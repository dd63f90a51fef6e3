import WasmEmbedding.Proofs.Engine.Layout
import WasmEmbedding.Proofs.Vm.Additions

/-! # The layout of reachable machines

In the store of every reachable machine there is something behind every address that an instance
has (`invariant_layout`), and so it is at every host call of every run of an operation
(`sound_of_mem_calls`).  Three things have to be seen for it.  An instantiation refers to the items
that the linker has found for the imports, and these have been looked up in the store, since their
types are held against what is there (`Linker.has_of_resolve`).  An import object brings more of
everything, but no instances.  And a rebuild starts from a store with nothing in it.
-/
namespace WasmEmbedding

open Chronicle Engine Wasm

namespace Engine

/-- Only what is there can have the type that is asked for. -/
theorem Linker.has_of_fits {s : Store} {m : Module} {expected : ImportType} {x : Item}
    (h : fits s m expected x = true) : s.rows.Has x := by
  unfold fits at h
  split at h
  · split at h
    · rename_i hu
      obtain ⟨f, hf, -⟩ := Option.map_eq_some_iff.mp hu
      exact (Array.getElem?_eq_some_iff.mp hf).1
    · cases h
  · split at h
    · rename_i hu
      exact (Array.getElem?_eq_some_iff.mp hu).1
    · cases h
  · split at h
    · rename_i hu
      exact (Array.getElem?_eq_some_iff.mp hu).1
    · cases h
  · split at h
    · rename_i hu
      exact (Array.getElem?_eq_some_iff.mp hu).1
    · cases h
  · cases h

/-- What an import finds is there. -/
theorem Linker.has_of_resolve {l : Linker} {s : Store} {m : Module} {items : List Item}
    (h : l.resolve s m = .ok items) : ∀ x ∈ items, s.rows.Has x := by
  intro x hx
  obtain ⟨i, -, hi⟩ := forall₂_mem_right (mapM_eq_ok_iff.mp h) hx
  unfold resolveOne at hi
  split at hi
  · cases hi
  · split at hi
    · rename_i hfits
      cases hi
      exact has_of_fits hfits
    · cases hi

/-- Everything stays in its place, so there is as much of it. -/
theorem Store.Within.grows {s t : Store} (h : s.Within t) : s.rows.Grows t.rows where
  functions := h.functions.size_le
  tables := h.tables.size_le
  memories := h.memories.size_le
  globals := h.globals.size_le
  elements := h.elements.size_le
  datas := h.datas.size_le

theorem tells_grounded_build (bulkMemory : Bool) (linker : Linker) (m : Module) :
    Tells (Grounded fun n => n.layout.Sound) (Told.build bulkMemory linker m) := by
  refine Tells.get fun n => ?_
  cases hitems : linker.resolve n.store m with
  | error reason =>
    exact Tells.quietly (fun _ h => ⟨h, List.forall_mem_nil _⟩) n
  | ok items =>
    refine (tells_grounded_instantiate bulkMemory m items n).mono fun calls r t h hn => ?_
    obtain ⟨ht, hcalls⟩ := h ⟨hn, Linker.has_of_resolve hitems⟩
    exact ⟨ht.sound, hcalls⟩

theorem tells_unmoved_exchange (address : Nat) (signature : Signature) (args : List Value) :
    Tells Unmoved (Told.exchange address signature args) := by
  refine Anchored.andThen fun m => Anchored.andThen fun operands => ?_
  split
  · exact Anchored.told (Anchored.tells_invoke address operands) fun _ => Anchored.quiet _
  · exact Anchored.quiet _

end Engine

namespace Vm

theorem Task.tells_grounded (s : Setting) (task : Task) :
    Tells (Grounded fun n => n.layout.Sound) (task.told s) := by
  cases task with
  | build m =>
    exact Tells.bind (history_grounded _) (tells_grounded_build _ _ m) fun _ =>
      Tells.pure (history_grounded _) _
  | call address signature args =>
    refine Tells.bind (history_grounded _) ?_ fun _ => Tells.pure (history_grounded _) _
    refine (tells_unmoved_exchange address signature args).mono fun _ _ _ _ h => ?_
    exact h.grounded (fun _ h => h) fun m t hm ht => by rw [ht]; exact hm

/-- From a sound layout a run comes to a sound one, and there are no others at its host calls. -/
theorem EngineRun.sound {r : EngineRun} (h : r.setting.vm.store.layout.Sound) :
    r.ending.layout.Sound ∧ ∀ c ∈ r.calls, c.machine.layout.Sound :=
  (r.task.tells_grounded r.setting).events (r.task.erases_told r.setting) r.machine h

/-- The machine goes from sound layout to sound layout, and so do the runs. -/
def Lays (s : Setting) (runs : List EngineRun) (_ : Except RuntimeError Unit)
    (t : Setting) : Prop :=
  (s.vm.store.layout.Sound → t.vm.store.layout.Sound) ∧
    ∀ r ∈ runs, s.vm.store.layout.Sound → r.setting.vm.store.layout.Sound

theorem lays_of_layout {s t : Setting} {r : Except RuntimeError Unit}
    (h : t.vm.store.layout = s.vm.store.layout) : Lays s [] r t :=
  ⟨fun hs => h ▸ hs, List.forall_mem_nil _⟩

theorem lays_run (run : EngineRun) {r : Except RuntimeError Unit} {t : Setting}
    (h : t.vm.store.layout = run.ending.layout) : Lays run.setting [run] r t :=
  ⟨fun hs => h ▸ (EngineRun.sound hs).1, List.forall_mem_singleton.mpr id⟩

theorem sound_fresh (config : VmConfig) (id : StoreId) : (Store.fresh config id).layout.Sound :=
  fun _ hi => absurd hi (Array.not_mem_empty _)

theorem sound_blank (s : Setting) : (Action.blank s).vm.store.layout.Sound := sound_fresh _ _

/-- The runs of a rebuild start from a fresh store. -/
theorem lays_rebuild {s t u : Setting} {runs : List EngineRun} {r r' : Except RuntimeError Unit}
    (h : Lays (Action.blank s) runs r u)
    (ht : t.vm.store.layout = u.vm.store.layout ∨ t.vm.store.layout = s.vm.store.layout) :
    Lays s (runs.map EngineRun.again) r' t := by
  refine ⟨fun hs => ?_, fun run hrun _ => ?_⟩
  · rcases ht with ht | ht
    · exact ht ▸ h.1 (sound_blank s)
    · exact ht ▸ hs
  · obtain ⟨first, hfirst, rfl⟩ := List.mem_map.mp hrun
    exact h.2 first hfirst (sound_blank s)

/-- An import object brings no instances. -/
theorem sound_define {l : LinkedImports} {s t : Store} {k k' : Linker}
    (h : l.define s k = .ok (t, k')) (hs : s.layout.Sound) : t.layout.Sound :=
  hs.mono (LinkedImports.instances_define h) (LinkedImports.within_define h).grows

theorem lays_define {s t : Setting} {linked : LinkedImports} {r : Except RuntimeError Unit}
    {store : Store} {linker : Linker}
    (hd : linked.define s.vm.store s.vm.linker = .ok (store, linker))
    (ht : t.vm.store.layout = store.layout) : Lays s [] r t :=
  ⟨fun hs => ht ▸ sound_define hd hs, List.forall_mem_nil _⟩

theorem throughout_lays : Throughout Lays where
  still _ := lays_of_layout rfl
  append h h' := by
    refine ⟨h'.1 ∘ h.1, fun run hrun hs => ?_⟩
    rcases List.mem_append.mp hrun with hrun | hrun
    · exact h.2 run hrun hs
    · exact h'.2 run hrun (h.1 hs)
  beside hx s := lays_of_layout ((congrArg Store.layout (hx.keeps s).store).trans rfl)
  define {s name linked functions} _ := by
    obtain ⟨store, linker, hd, hafter⟩ | hafter := Action.ending_define linked s <;> rw [hafter]
    · exact lays_define hd rfl
    · exact lays_of_layout rfl
  build m s := by
    rw [Action.ending_instance?]
    exact lays_run ⟨.build m, s, false⟩ rfl
  call address signature args s := by
    obtain ⟨code, hcode⟩ := Action.ending_engage address signature args s
    rw [hcode]
    exact lays_run ⟨.call address signature args, s, false⟩ rfl
  rebuilt h := lays_rebuild h (.inl rfl)
  restored h := lays_rebuild h (.inr rfl)
  registerImport o s := by
    have hstep := importStep s o
    generalize outcome (Action.registerImport o) s = r,
      ending (Action.registerImport o) s = t at hstep ⊢
    cases hstep with
    | refused => exact lays_of_layout rfl
    | entered _ _ _ defined => exact lays_define defined rfl
    | stranded _ _ defined => exact lays_define defined rfl
  putOff h := lays_rebuild h (.inr rfl)

theorem lays_after (s : Setting) (o : Operation) :
    Lays s (s.runs o) (s.answer o) (s.after o) := by
  cases hamends : o.amends with
  | false => exact throughout_lays.perform hamends s
  | true =>
    cases o with
    | amendStatistics f => exact lays_of_layout rfl
    | amendContext f => exact lays_of_layout rfl
    | _ => cases hamends

/-- **Everything that an instance of a reachable machine refers to is there.** -/
theorem invariant_layout : Invariant fun vm => vm.store.layout.Sound where
  empty config id := sound_fresh config id
  enableWasi config id host e t h := by
    obtain ⟨v, hv, rfl⟩ := enableWasi_ok h
    obtain ⟨linked, store, linker, c, functions, -, hd, rfl⟩ := Action.link_ok hv
    have hempty : (Vm.empty config id).store.layout.Sound := sound_fresh config id
    have hstore : store.layout.Sound := sound_define hd hempty
    exact hstore
  operate s o h := (lays_after s o).1 h

/-- **So it is at every host call of every run of an operation.** -/
theorem sound_of_mem_calls {s : Setting} (h : s.vm.store.layout.Sound) {o : Operation}
    {r : EngineRun} (hr : r ∈ s.runs o) {c : HostCall} (hc : c ∈ r.calls) :
    c.machine.layout.Sound :=
  (EngineRun.sound ((lays_after s o).2 r hr h)).2 c hc

end Vm

end WasmEmbedding
