import WasmEmbedding.Proofs.Vm.Isolation
import WasmEmbedding.Proofs.Vm.MainInstance
import WasmEmbedding.Proofs.Vm.Orderly

/-! # The stores of machines

An operation keeps the store of its machine, with all functions and instances in their places, or
puts a new one in its place, and so it is with the stores that the runs of the engine work on
(`conveys_after`).  In a world of machines only one of them at a time gets another store
(`Turns.changes`), whose identity has not been given out before.  So machines have stores of their
own at all times (`Apart.comes`), and a store that a machine has had is nowhere else afterwards:
with this machine as it was or larger, or gone for good (`Places.comes`).
-/
namespace WasmEmbedding

open Chronicle Engine Wasm

namespace Vm

/-! ## Stores that are kept or replaced -/

/-- The store is the one that it was, with everything in its place, or a new one; and no store is
unmade. -/
structure Carries (s t : Setting) : Prop where
  stores : s.host.stores ≤ t.host.stores
  store : s.vm.store.code.Extends t.vm.store.code ∨
    s.host.stores ≤ t.vm.store.id.val ∧ t.vm.store.id.val < t.host.stores

instance : IsPreorder Setting Carries where
  refl _ := ⟨Nat.le_refl _, .inl (Std.Refl.refl _)⟩
  trans s t u h h' := by
    refine ⟨Nat.le_trans h.stores h'.stores, ?_⟩
    rcases h'.store with hcode' | ⟨hle, hlt⟩
    · rcases h.store with hcode | ⟨hle, hlt⟩
      · exact .inl (IsTrans.trans _ _ _ hcode hcode')
      · have hid : u.vm.store.id = t.vm.store.id := hcode'.id
        exact .inr ⟨hid ▸ hle, hid ▸ Nat.lt_of_lt_of_le hlt h'.stores⟩
    · exact .inr ⟨Nat.le_trans h.stores hle, hlt⟩

theorem Carries.of_code {s t : Setting} (hstores : s.host.stores ≤ t.host.stores)
    (hcode : t.vm.store.code = s.vm.store.code) : Carries s t := by
  refine ⟨hstores, .inl ?_⟩
  rw [hcode]
  exact Std.Refl.refl _

theorem carries_blank (s : Setting) : Carries s (Action.blank s) :=
  ⟨Nat.le_succ _, .inr ⟨Nat.le_refl _, Nat.lt_succ_self _⟩⟩

/-- What a run leaves has the store that it starts with. -/
theorem EngineRun.extends_ending (r : EngineRun) :
    r.setting.vm.store.code.Extends r.ending.store.code := by
  obtain ⟨task, s, replayed⟩ := r
  cases task with
  | build m =>
    have h := Action.keeps_build s.vm.config.engine.bulkMemory s.vm.linker m (Action.computer s)
    rwa [← ending_discard] at h
  | call address signature args =>
    have h := Action.keeps_exchange address signature args (Action.computer s)
    rwa [← ending_discard] at h

theorem carries_run (r : EngineRun) {t : Setting} (hhost : t.host = r.ending.host)
    (hcode : t.vm.store.code = r.ending.store.code) : Carries r.setting t := by
  refine ⟨?_, .inl ?_⟩
  · rw [hhost]
    exact (r.told (witnessed_host Host.effects_abides)).1.stores
  · rw [hcode]
    exact r.extends_ending

/-- The store is kept or replaced, and so are the ones that the runs start with. -/
def Conveys (s : Setting) (runs : List EngineRun) (_ : Except RuntimeError Unit) (t : Setting) :
    Prop :=
  Carries s t ∧ ∀ run ∈ runs, Carries s run.setting

theorem conveys_run (run : EngineRun) {r : Except RuntimeError Unit} {t : Setting}
    (hhost : t.host = run.ending.host) (hcode : t.vm.store.code = run.ending.store.code) :
    Conveys run.setting [run] r t :=
  ⟨carries_run run hhost hcode, List.forall_mem_singleton.mpr (Std.Refl.refl _)⟩

/-- The runs of a rebuild have a new store, whatever becomes of it. -/
theorem conveys_rebuild {s t u : Setting} {runs : List EngineRun} {r r' : Except RuntimeError Unit}
    (h : Conveys (Action.blank s) runs r u) (ht : Carries (Action.blank s) u → Carries s t) :
    Conveys s (runs.map EngineRun.again) r' t := by
  refine ⟨ht h.1, fun run hrun => ?_⟩
  obtain ⟨first, hfirst, rfl⟩ := List.mem_map.mp hrun
  exact IsTrans.trans _ _ _ (carries_blank s) (h.2 first hfirst)

/-- The old store is put back. -/
theorem carries_restore {s u : Setting} (h : Carries (Action.blank s) u) :
    Carries s ⟨Action.restore s.vm u.vm, u.host⟩ :=
  .of_code (Nat.le_trans (Nat.le_succ _) h.stores) rfl

theorem throughout_conveys : Throughout Conveys where
  still s := ⟨Std.Refl.refl s, List.forall_mem_nil _⟩
  append {s t u l l' _} h h' := by
    refine ⟨IsTrans.trans _ _ _ h.1 h'.1, fun run hrun => ?_⟩
    rcases List.mem_append.mp hrun with hrun | hrun
    · exact h.2 run hrun
    · exact IsTrans.trans _ _ _ h.1 (h'.2 run hrun)
  beside hx s := by
    have hidle := hx.keeps s
    exact ⟨.of_code (Nat.le_of_eq (congrArg Host.stores hidle.host.symm)) hidle.code,
      List.forall_mem_nil _⟩
  define {s _ linked _} _ := by
    have hhost := (Action.keeps_unspent_define linked s).host
    exact ⟨⟨Nat.le_of_eq (congrArg Host.stores hhost.symm),
      .inl (Action.keeps_define linked s).code⟩, List.forall_mem_nil _⟩
  build m s := by
    rw [Action.ending_instance?]
    exact conveys_run ⟨.build m, s, false⟩ rfl rfl
  call address signature args s := by
    obtain ⟨code, hcode⟩ := Action.ending_engage address signature args s
    rw [hcode]
    exact conveys_run ⟨.call address signature args, s, false⟩ rfl rfl
  rebuilt {s _ u} h := by
    refine conveys_rebuild h fun hu => ?_
    have hinherit : Carries u ⟨Action.inherit s.vm u.vm, u.host⟩ := .of_code (Nat.le_refl _) rfl
    exact IsTrans.trans _ _ _ (carries_blank s) (IsTrans.trans _ _ _ hu hinherit)
  restored h := conveys_rebuild h carries_restore
  registerImport o s := by
    have hhost := (Action.keeps_unspent_registerImport o s).host
    exact ⟨⟨Nat.le_of_eq (congrArg Host.stores hhost.symm),
      .inl (Action.keeps_registerImport o s).code⟩, List.forall_mem_nil _⟩
  putOff h := conveys_rebuild h carries_restore

/-- **An operation keeps the store or replaces it by a new one**, and its runs have such stores. -/
theorem conveys_after (s : Setting) (o : Operation) :
    Conveys s (s.runs o) (s.answer o) (s.after o) := by
  cases hamends : o.amends with
  | false => exact throughout_conveys.perform hamends s
  | true =>
    cases o with
    | amendStatistics f => exact ⟨.of_code (Nat.le_refl _) rfl, List.forall_mem_nil _⟩
    | amendContext f => exact ⟨.of_code (Nat.le_refl _) rfl, List.forall_mem_nil _⟩
    | _ => cases hamends

/-- A new machine has a new store. -/
theorem store_of_new {config : VmConfig} {vm : Vm} {h k : Host}
    (H : Vm.new h config = (.ok vm, k)) :
    h.stores ≤ vm.store.id.val ∧ vm.store.id.val < k.stores := by
  refine ⟨?_, (filed_new H).current⟩
  have hrun := new_ok H
  split at hrun
  · have hid : vm.store.id = h.newStore.1 := ((held_enableWasi _).ok hrun).code.id
    rw [hid]
    exact Nat.le_refl _
  · cases hrun
    exact Nat.le_refl _

end Vm

/-! ## Worlds -/

namespace World

/-- What can happen next as far as stores are concerned. -/
inductive Turns (w : World) : World → Prop
  | new {config : VmConfig} {vm : Vm} {h : Host} (H : Vm.new w.host config = (.ok vm, h)) :
      Turns w ⟨h, w.vms ++ [vm]⟩
  | operate {i : Nat} {vm : Vm} (hvm : w.vms[i]? = some vm) (o : Vm.Operation) :
      Turns w (w.operate i vm o)
  /-- Something else happens on the host, which does not give out the identity of a store again. -/
  | elsewhere {h : Host} (stores : w.host.stores ≤ h.stores) : Turns w ⟨h, w.vms⟩

/-- What can happen in the course of time. -/
abbrev Comes : World → World → Prop := Relation.ReflTransGen Turns

/-- The machine at one place is another one at most, and its store is the one that it was, with
everything in its place, or a new one. -/
structure Changes (w v : World) (i : Nat) : Prop where
  stores : w.host.stores ≤ v.host.stores
  others : ∀ j, i ≠ j → v.vms[j]? = w.vms[j]?
  orderly : (∀ vm, w.vms[i]? = some vm → vm.Orderly) → ∀ u, v.vms[i]? = some u → u.Orderly
  store : ∀ u, v.vms[i]? = some u →
    (∃ vm, w.vms[i]? = some vm ∧ vm.store.code.Extends u.store.code) ∨
      w.host.stores ≤ u.store.id.val ∧ u.store.id.val < v.host.stores

variable {w v : World} {i : Nat}

/-- **One machine at a time gets another store**, and this is a new one. -/
theorem Turns.changes (h : Turns w v) : ∃ i, Changes w v i := by
  cases h with
  | @new config vm h H =>
    obtain ⟨hle, hlt⟩ := Vm.store_of_new H
    have hlast : (w.vms ++ [vm])[w.vms.length]? = some vm := List.getElem?_concat_length ..
    refine ⟨w.vms.length, Nat.le_of_lt (Nat.lt_of_le_of_lt hle hlt), fun j hij => ?_,
      fun _ u hu => ?_, fun u hu => ?_⟩
    · rcases Nat.lt_or_gt_of_ne hij with hlt | hgt
      · have hlen : (w.vms ++ [vm]).length ≤ j := by
          rw [List.length_append]
          exact hlt
        rw [List.getElem?_eq_none_iff.mpr (Nat.le_of_lt hlt)]
        exact List.getElem?_eq_none_iff.mpr hlen
      · exact List.getElem?_append_left hgt
    · cases hlast.symm.trans hu
      exact Vm.invariant_orderly.reachable (.new H)
    · cases hlast.symm.trans hu
      exact .inr ⟨hle, hlt⟩
  | @operate i vm hvm o =>
    have hafter := (Vm.conveys_after ⟨vm, w.host⟩ o).1
    have hself : (w.operate i vm o).vms[i]? = some (Vm.Setting.after ⟨vm, w.host⟩ o).vm :=
      List.getElem?_set_self (List.getElem?_eq_some_iff.mp hvm).1
    refine ⟨i, hafter.stores, fun j hij => List.getElem?_set_ne hij, fun horderly u hu => ?_,
      fun u hu => ?_⟩
    · cases hself.symm.trans hu
      exact (Vm.orders_after _ o).2.1 (horderly vm hvm)
    · cases hself.symm.trans hu
      exact hafter.store.imp (fun hcode => ⟨vm, hvm, hcode⟩) id
  | elsewhere stores =>
    exact ⟨w.vms.length, stores, fun _ _ => rfl, fun horderly => horderly,
      fun u hu => .inl ⟨u, hu, Std.Refl.refl _⟩⟩

/-- The machines have stores of their own, which are orderly and have been given out. -/
structure Apart (w : World) : Prop where
  orderly : ∀ (i : Nat) vm, w.vms[i]? = some vm → vm.Orderly
  current : ∀ (i : Nat) vm, w.vms[i]? = some vm → vm.store.id.val < w.host.stores
  unique : ∀ (i j : Nat) vm u, w.vms[i]? = some vm → w.vms[j]? = some u →
    vm.store.id = u.store.id → i = j

namespace Apart

theorem nil (h : Host) : Apart ⟨h, []⟩ := by
  have hnone : ∀ (i : Nat) (vm : Vm), ([] : List Vm)[i]? ≠ some vm := fun i vm => by simp
  exact ⟨fun i vm hvm => absurd hvm (hnone i vm), fun i vm hvm => absurd hvm (hnone i vm),
    fun i _ vm _ hvm _ => absurd hvm (hnone i vm)⟩

theorem changes (hw : w.Apart) (h : Changes w v i) : v.Apart := by
  -- The machine that is another one has no store of the others.
  have hdistinct : ∀ j u u', i ≠ j → v.vms[i]? = some u → w.vms[j]? = some u' →
      u.store.id ≠ u'.store.id := by
    intro j u u' hij hu hu' hid
    rcases h.store u hu with ⟨vm, hvm, hcode⟩ | ⟨hle, -⟩
    · have hsame : u.store.id = vm.store.id := hcode.id
      exact hij (hw.unique i j vm u' hvm hu' (hsame.symm.trans hid))
    · have hlt := hw.current j u' hu'
      rw [← hid] at hlt
      exact Nat.not_lt_of_le hle hlt
  refine ⟨fun j u hu => ?_, fun j u hu => ?_, fun j k u u' hu hu' hid => ?_⟩
  · by_cases hij : i = j
    · subst hij
      exact h.orderly (hw.orderly i) u hu
    · exact hw.orderly j u (h.others j hij ▸ hu)
  · by_cases hij : i = j
    · subst hij
      rcases h.store u hu with ⟨vm, hvm, hcode⟩ | ⟨-, hlt⟩
      · have hsame : u.store.id = vm.store.id := hcode.id
        exact hsame ▸ Nat.lt_of_lt_of_le (hw.current i vm hvm) h.stores
      · exact hlt
    · exact Nat.lt_of_lt_of_le (hw.current j u (h.others j hij ▸ hu)) h.stores
  · by_cases hij : i = j
    · by_cases hik : i = k
      · exact hij.symm.trans hik
      · exact absurd hid (hdistinct k u u' hik (hij ▸ hu) (h.others k hik ▸ hu'))
    · by_cases hik : i = k
      · exact absurd hid.symm (hdistinct j u' u hij (hik ▸ hu') (h.others j hij ▸ hu))
      · exact hw.unique j k u u' (h.others j hij ▸ hu) (h.others k hik ▸ hu') hid

/-- **Machines never come to share a store.** -/
theorem comes (hw : w.Apart) (h : Comes w v) : v.Apart := by
  induction h with
  | refl => exact hw
  | tail _ next ih =>
    obtain ⟨i, hchanges⟩ := next.changes
    exact ih.changes hchanges

end Apart

/-- A store has been given out.  If any machine has it, this is the one at the place, and it has
everything that was in the store. -/
structure Places (w : World) (i : Nat) (origin : Code) : Prop where
  given : origin.id.val < w.host.stores
  placed : ∀ j u, w.vms[j]? = some u → u.store.id = origin.id →
    j = i ∧ origin.Extends u.store.code

namespace Places

variable {origin : Code}

/-- The store that a machine has now. -/
theorem of_apart (hw : w.Apart) {vm : Vm} (hvm : w.vms[i]? = some vm) :
    w.Places i vm.store.code := by
  refine ⟨hw.current i vm hvm, fun j u hu hid => ?_⟩
  cases hw.unique j i u vm hu hvm hid
  cases hvm.symm.trans hu
  exact ⟨rfl, Std.Refl.refl _⟩

theorem changes (hw : w.Places i origin) {j : Nat} (h : Changes w v j) : v.Places i origin := by
  refine ⟨Nat.lt_of_lt_of_le hw.given h.stores, fun k u hu hid => ?_⟩
  by_cases hjk : j = k
  · subst hjk
    rcases h.store u hu with ⟨vm, hvm, hcode⟩ | ⟨hle, -⟩
    · have hsame : u.store.id = vm.store.id := hcode.id
      obtain ⟨hplace, hextends⟩ := hw.placed j vm hvm (hsame.symm.trans hid)
      exact ⟨hplace, IsTrans.trans _ _ _ hextends hcode⟩
    · rw [hid] at hle
      exact absurd hw.given (Nat.not_lt_of_le hle)
  · exact hw.placed k u (h.others k hjk ▸ hu) hid

/-- **A store stays where it is, and keeps everything that is in it**, until it is replaced; then it
never comes back. -/
theorem comes (hw : w.Places i origin) (h : Comes w v) : v.Places i origin := by
  induction h with
  | refl => exact hw
  | tail _ next ih =>
    obtain ⟨j, hchanges⟩ := next.changes
    exact ih.changes hchanges

end Places

end World

end WasmEmbedding
