import Mathlib.Algebra.GroupWithZero.Nat
import WasmEmbedding.Proofs.Engine.Fuel
import WasmEmbedding.Proofs.Vm.Restart
import WasmEmbedding.Proofs.Vm.Runs

/-! # The accounts of a machine

Fuel is given to every run of the engine and counted after it, on success and on every failure, and
in rebuilds as well as outside of them.  There are three places where this is done, and the store
that holds the fuel may be replaced between two of them, so the account is kept run by run: an
operation comes with the list of the runs that it makes (`Setting.runs`), each run with the setting
that it starts in, and `Charged` says that each of them starts with the counts that the one before
it has left.  `spending_perform` is the statement for one operation, for every operation and every
way in which it may end.

What is said of a whole history is said relative to three things that are read off the history and
not off the machine (`Accounted`): the runs that have been made since the counts were last cleared,
the limit in force, which is the last one that was set and before that the one of the
configuration, and the mark, which is what had been consumed when the limit was set.  The machine
agrees with all three (`Balanced`): it has the limit in force whatever it has been used for since,
it has consumed what the runs have spent, it reports what the calls among them have spent, and it
has not consumed more than the larger of limit and mark.  The last point needs no more than that
every run is given what the limit leaves (`Assigned.budget`) and spends at most that
(`EngineRun.consumed_le`).

Everything is counted in words that stop at the largest one; the sums on the other side of the
equations are those of the natural numbers, cut off at `maxCount`.
-/
namespace WasmEmbedding

open Engine Wasm

/-- Any number of sums, one after the other, stop at the largest word. -/
theorem toNat_foldl_addSaturating (l : List UInt64) (a : UInt64) :
    (l.foldl addSaturating a).toNat = min maxCount (a.toNat + (l.map UInt64.toNat).sum) := by
  induction l generalizing a with
  | nil =>
    have hlt := a.toNat_lt
    simp only [List.foldl_nil, List.map_nil, List.sum_nil, maxCount]
    omega
  | cons x l ih =>
    rw [List.foldl_cons, ih, toNat_addSaturating, List.map_cons, List.sum_cons]
    omega

namespace Vm

/-! ## The fuel of a run -/

namespace EngineRun

/-- The run is a call. -/
def isCall (r : EngineRun) : Bool :=
  match r.task with
  | .build _ => false
  | .call _ _ _ => true

/-- The fuel that the run is given, if anybody counts. -/
def budget (r : EngineRun) : Option Nat := r.machine.meter.budget

/-- What a machine gives to a run is what its limit leaves. -/
theorem budget_eq (r : EngineRun) :
    r.budget =
      if r.setting.vm.config.meters then some r.setting.vm.statistics.remainingBudget.toNat
      else none := rfl

theorem keepsBudget (r : EngineRun) : KeepsBudget r.machine r.calls r.outcome r.ending :=
  r.told witnessed_keepsBudget

/-- **A run spends no more than it is given**, and all that it spends is counted. -/
theorem consumed_le (r : EngineRun) {budget : Nat} (h : r.budget = some budget) :
    r.fuel.toNat = r.ending.meter.consumed ∧ r.fuel.toNat ≤ budget := by
  have hle : r.ending.meter.consumed ≤ budget :=
    Meter.consumed_le_budget _ (r.keepsBudget.1.trans h)
  have hword : budget < 2 ^ 64 := by
    rw [budget_eq] at h
    split at h
    · cases h
      exact UInt64.toNat_lt _
    · cases h
  have hfuel : r.fuel.toNat = r.ending.meter.consumed := by
    rw [fuel, UInt64.toNat_ofNat']
    exact Nat.mod_eq_of_lt (by omega)
  exact ⟨hfuel, hfuel ▸ hle⟩

theorem budget_eq_none (r : EngineRun) (h : r.setting.vm.config.meters = false) :
    r.budget = none := by
  rw [budget_eq, h]
  rfl

/-- Nothing is spent if nobody counts. -/
theorem fuel_eq_zero (r : EngineRun) (h : r.setting.vm.config.meters = false) : r.fuel = 0 := by
  have hbudget : r.ending.meter.budget = none := r.keepsBudget.1.trans (r.budget_eq_none h)
  rw [fuel, Meter.consumed, hbudget]
  rfl

/-- No run ends for want of fuel if nobody counts. -/
theorem outcome_ne_outOfFuel (r : EngineRun) (h : r.setting.vm.config.meters = false) :
    r.outcome ≠ .error .outOfFuel :=
  r.keepsBudget.2 (r.budget_eq_none h)

end EngineRun

/-! ## The fuel of many runs -/

/-- The fuel that runs have spent. -/
def spent (runs : List EngineRun) : Nat := (runs.map fun r => r.fuel.toNat).sum

/-- The fuel that those runs have spent that are calls. -/
def spentInCalls (runs : List EngineRun) : Nat := spent (runs.filter EngineRun.isCall)

/-- The counts after runs have been counted. -/
def countAll (c : Statistics) (runs : List EngineRun) : Statistics :=
  runs.foldl (fun c r => r.count c) c

theorem spent_append (l l' : List EngineRun) : spent (l ++ l') = spent l + spent l' := by
  unfold spent
  rw [List.map_append, List.sum_append]

theorem spentInCalls_append (l l' : List EngineRun) :
    spentInCalls (l ++ l') = spentInCalls l + spentInCalls l' := by
  unfold spentInCalls
  rw [List.filter_append, spent_append]

theorem spent_cons (r : EngineRun) (l : List EngineRun) :
    spent (r :: l) = r.fuel.toNat + spent l := rfl

theorem spentInCalls_le (l : List EngineRun) : spentInCalls l ≤ spent l := by
  unfold spentInCalls
  induction l with
  | nil => exact Nat.le_refl _
  | cons r l ih =>
    cases hr : r.isCall with
    | false =>
      rw [List.filter_cons_of_neg (by rw [hr]; exact nofun), spent_cons]
      omega
    | true =>
      rw [List.filter_cons_of_pos hr, spent_cons, spent_cons]
      omega

theorem countAll_append (c : Statistics) (l l' : List EngineRun) :
    countAll c (l ++ l') = countAll (countAll c l) l' := List.foldl_append

/-- A replayed run counts like any other. -/
theorem countAll_again (c : Statistics) (l : List EngineRun) :
    countAll c (l.map EngineRun.again) = countAll c l := by
  unfold countAll
  rw [List.foldl_map]
  rfl

namespace EngineRun

theorem config_count (r : EngineRun) (c : Statistics) : (r.count c).config = c.config := by
  unfold count
  split <;> rfl

theorem costLimit_count (r : EngineRun) (c : Statistics) : (r.count c).costLimit = c.costLimit := by
  unfold count
  split <;> rfl

theorem consumed_count (r : EngineRun) (c : Statistics) :
    (r.count c).consumed = addSaturating c.consumed r.fuel := by
  unfold count
  split <;> rfl

end EngineRun

theorem config_countAll (c : Statistics) (runs : List EngineRun) :
    (countAll c runs).config = c.config := by
  induction runs generalizing c with
  | nil => rfl
  | cons r runs ih => exact (ih (r.count c)).trans (r.config_count c)

theorem costLimit_countAll (c : Statistics) (runs : List EngineRun) :
    (countAll c runs).costLimit = c.costLimit := by
  induction runs generalizing c with
  | nil => rfl
  | cons r runs ih => exact (ih (r.count c)).trans (r.costLimit_count c)

/-- Whatever is spent is consumed. -/
theorem consumed_countAll (c : Statistics) (runs : List EngineRun) :
    (countAll c runs).consumed.toNat = min maxCount (c.consumed.toNat + spent runs) := by
  have hfold : ∀ c, (countAll c runs).consumed =
      (runs.map EngineRun.fuel).foldl addSaturating c.consumed := by
    induction runs with
    | nil => exact fun _ => rfl
    | cons r runs ih =>
      intro c
      rw [List.map_cons, List.foldl_cons, ← r.consumed_count c]
      exact ih (r.count c)
  rw [hfold, toNat_foldl_addSaturating, List.map_map]
  rfl

/-- A count of what calls spend, if there is one. -/
theorem reported_countAll (on : StatisticsConfig → Bool) (count : Statistics → UInt64)
    (hbuild : ∀ (c : Statistics) fuel, count (c.recordInstantiation fuel) = count c)
    (hcall : ∀ (c : Statistics) fuel elapsed, count (c.recordCall fuel elapsed) =
      if on c.config then addSaturating (count c) fuel else count c)
    (c : Statistics) (runs : List EngineRun) :
    (count (countAll c runs)).toNat =
      if on c.config then min maxCount ((count c).toNat + spentInCalls runs)
      else (count c).toNat := by
  have hfold : ∀ c, count (countAll c runs) =
      if on c.config then
        ((runs.filter EngineRun.isCall).map EngineRun.fuel).foldl addSaturating (count c)
      else count c := by
    induction runs with
    | nil =>
      intro c
      split <;> rfl
    | cons r runs ih =>
      intro c
      refine (ih (r.count c)).trans ?_
      rw [r.config_count]
      cases htask : r.task with
      | build m =>
        have hcount : count (r.count c) = count c := by
          rw [EngineRun.count, htask]
          exact hbuild c _
        rw [hcount, List.filter_cons_of_neg (by rw [EngineRun.isCall, htask]; exact nofun)]
      | call address signature args =>
        have hcount : count (r.count c) =
            if on c.config then addSaturating (count c) r.fuel else count c := by
          rw [EngineRun.count, htask]
          exact hcall c _ _
        rw [hcount, List.filter_cons_of_pos (by rw [EngineRun.isCall, htask])]
        split <;> rfl
  rw [hfold]
  split
  · rw [toNat_foldl_addSaturating, List.map_map]
    rfl
  · rfl

/-- Every run is given its fuel by what has been counted before it. -/
def Charged (config : VmConfig) : Statistics → List EngineRun → Prop
  | _, [] => True
  | c, r :: runs =>
    (r.setting.vm.config = config ∧ r.setting.vm.statistics = c) ∧ Charged config (r.count c) runs

theorem charged_append {config : VmConfig} {c : Statistics} {l l' : List EngineRun} :
    Charged config c (l ++ l') ↔ Charged config c l ∧ Charged config (countAll c l) l' := by
  induction l generalizing c with
  | nil => exact (iff_of_eq (true_and _)).symm
  | cons r l ih => exact (and_congr_right fun _ => ih).trans and_assoc.symm

theorem charged_again {config : VmConfig} {c : Statistics} {l : List EngineRun}
    (h : Charged config c l) : Charged config c (l.map EngineRun.again) := by
  induction l generalizing c with
  | nil => trivial
  | cons r l ih => exact ⟨h.1, ih h.2⟩

/-- One run consumes what the limit leaves, or nothing. -/
theorem EngineRun.consumed_count_le (r : EngineRun) {limit : UInt64}
    (h : r.setting.vm.statistics.costLimit = some limit) :
    (r.count r.setting.vm.statistics).consumed.toNat ≤
      max limit.toNat r.setting.vm.statistics.consumed.toNat := by
  rw [r.consumed_count, toNat_addSaturating]
  cases hmeters : r.setting.vm.config.meters with
  | false =>
    rw [r.fuel_eq_zero hmeters, UInt64.toNat_zero]
    omega
  | true =>
    have hbudget : r.budget = some (limit.toNat - r.setting.vm.statistics.consumed.toNat) := by
      rw [r.budget_eq, hmeters, if_pos rfl, Statistics.remainingBudget, h]
      exact congrArg some (toNat_subSaturating _ _)
    have hle := (r.consumed_le hbudget).2
    omega

/-- **The limit is kept**, unless more had been consumed when it was set. -/
theorem consumed_le_of_charged {config : VmConfig} {c : Statistics} {limit : UInt64}
    (hlimit : c.costLimit = some limit) {runs : List EngineRun} (h : Charged config c runs) :
    (countAll c runs).consumed.toNat ≤ max limit.toNat c.consumed.toNat := by
  induction runs generalizing c with
  | nil => exact Nat.le_max_right _ _
  | cons r runs ih =>
    obtain ⟨⟨-, rfl⟩, hrest⟩ := h
    have hlater : (countAll (r.count r.setting.vm.statistics) runs).consumed.toNat ≤
        max limit.toNat (r.count r.setting.vm.statistics).consumed.toNat :=
      ih ((r.costLimit_count _).trans hlimit) hrest
    have hfirst := r.consumed_count_le hlimit
    change (countAll (r.count r.setting.vm.statistics) runs).consumed.toNat ≤ _
    omega

/-- Nothing is spent where nobody counts. -/
theorem spent_eq_zero_of_charged {config : VmConfig} (hmeters : config.meters = false)
    {c : Statistics} {runs : List EngineRun} (h : Charged config c runs) : spent runs = 0 := by
  induction runs generalizing c with
  | nil => rfl
  | cons r runs ih =>
    obtain ⟨⟨rfl, -⟩, hrest⟩ := h
    rw [spent_cons, r.fuel_eq_zero hmeters, ih hrest]
    rfl

/-! ## The counts of an operation -/

/-- What is counted is what the runs spend, and each is given its fuel by what has been counted
before it.  Without metering, nothing fails for what it costs. -/
structure Spending (s : Setting) (runs : List EngineRun) (r : Except RuntimeError Unit)
    (t : Setting) : Prop where
  config : t.vm.config = s.vm.config
  statistics : t.vm.statistics = countAll s.vm.statistics runs
  charged : Charged s.vm.config s.vm.statistics runs
  unpriced : s.vm.config.meters = false → ∀ e, r = .error e → Unpriced e

theorem spending_of_unspent {s t : Setting} (h : Unspent s t) {r : Except RuntimeError Unit}
    (hr : ∀ e, r = .error e → Unpriced e) : Spending s [] r t :=
  ⟨h.config, h.statistics, trivial, fun _ => hr⟩

/-- A guest that stops for another reason than want of fuel is not told that the limit is
exceeded. -/
theorem Action.throws_unpriced_settle (signature : Signature) {stop : Stop}
    (h : stop ≠ .outOfFuel) : Throws Unpriced (settle signature stop) := by
  unfold settle
  split
  · exact Throws.modify.bind fun _ => Throws.pure _
  · exact Throws.pure _
  · exact Throws.throw nofun
  · exact Throws.throw nofun
  · exact Throws.throw nofun
  · exact absurd rfl h
  · exact Throws.throw nofun
  · exact Throws.throw nofun

theorem spending_build (m : Module) (s : Setting) :
    Spending s [⟨.build m, s, false⟩] (succeeded (outcome (Action.instance? m) s))
      (ending (Action.instance? m) s) := by
  have hunpriced : Throws Unpriced (Action.instance? m) :=
    (Action.throws_ofLinking_instance? m).mono fun _ => unpriced_of_linking
  refine ⟨?_, ?_, ⟨⟨rfl, rfl⟩, trivial⟩, fun _ _ => hunpriced.succeeded⟩
  · rw [Action.ending_instance?]
    rfl
  · rw [Action.ending_instance?]
    rfl

theorem spending_call (address : Nat) (signature : Signature) (args : List Value) (s : Setting) :
    Spending s [⟨.call address signature args, s, false⟩]
      (succeeded (outcome (Action.engage address signature args) s))
      (ending (Action.engage address signature args) s) := by
  obtain ⟨code, hending⟩ := Action.ending_engage address signature args s
  refine ⟨?_, ?_, ⟨⟨rfl, rfl⟩, trivial⟩, fun hmeters e he => ?_⟩
  · rw [hending]
    rfl
  · rw [hending]
    rfl
  · have hfuel : outcome (Action.exchange address signature args) (Action.computer s) ≠
        .error .outOfFuel := by
      intro h
      refine EngineRun.outcome_ne_outOfFuel ⟨.call address signature args, s, false⟩ hmeters ?_
      rw [Action.outcome_call_eq, h]
      rfl
    have hreport : Throws Unpriced (Action.report signature
        (outcome (Action.exchange address signature args) (Action.computer s))) := by
      generalize outcome (Action.exchange address signature args) (Action.computer s) = r at hfuel
      cases r with
      | ok values => exact Throws.pure _
      | error stop => exact Action.throws_unpriced_settle signature fun h => hfuel (h ▸ rfl)
    obtain ⟨t, ht⟩ := run_of_succeeded_error he
    rw [Action.run_engage] at ht
    exact hreport _ e t ht

/-- Replayed runs spend what they spend. -/
theorem spending_again {s t u : Setting} {l : List EngineRun} {r r' : Except RuntimeError Unit}
    (h : Spending (Action.blank s) l r u) (hconfig : t.vm.config = u.vm.config)
    (hstatistics : t.vm.statistics = u.vm.statistics)
    (hr : s.vm.config.meters = false → ∀ e, r' = .error e → Unpriced e) :
    Spending s (l.map EngineRun.again) r' t := by
  refine ⟨hconfig.trans h.config, ?_, charged_again h.charged, hr⟩
  rw [countAll_again, hstatistics]
  exact h.statistics

theorem throughout_spending : Throughout Spending where
  still s := spending_of_unspent (Std.Refl.refl s) fun _ => nofun
  append {s t u l l' r} h h' := by
    refine ⟨h'.config.trans h.config, ?_, charged_append.mpr ⟨h.charged, ?_⟩, fun hmeters => ?_⟩
    · rw [h'.statistics, h.statistics, countAll_append]
    · rw [← h.config, ← h.statistics]
      exact h'.charged
    · exact h'.unpriced (by rw [h.config, hmeters])
  beside hx s := spending_of_unspent (hx.keeps s).toUnspent fun _ => hx.throws.succeeded
  define {s name linked functions} _ :=
    spending_of_unspent (Action.keeps_unspent_define linked s)
      fun _ => (Action.throws_unpriced_define linked).succeeded
  registerImport o s :=
    spending_of_unspent (Action.keeps_unspent_registerImport o s)
      fun _ => (Action.throws_unpriced_registerImport o).succeeded
  build := spending_build
  call := spending_call
  rebuilt h := spending_again h rfl rfl fun _ _ => nofun
  restored h := spending_again h rfl rfl h.unpriced
  putOff h := spending_again h rfl rfl fun _ _ => nofun

/-- **What an operation counts is what its runs spend.** -/
theorem spending_perform {o : Operation} (ho : ∀ f, o ≠ .amendStatistics f) (s : Setting) :
    Spending s (s.runs o) (s.answer o) (s.after o) := by
  cases hamends : o.amends with
  | false => exact throughout_spending.perform hamends s
  | true =>
    cases o with
    | amendStatistics f => exact absurd rfl (ho f)
    | amendContext f => exact ⟨rfl, rfl, trivial, fun _ _ => nofun⟩
    | _ => cases hamends

/-! ## Whole histories -/

/-- A new machine has counted nothing, and counts what it is to count. -/
theorem statistics_new {host after : Host} {config : VmConfig} {vm : Vm}
    (h : Vm.new host config = (.ok vm, after)) :
    vm.config = config ∧ vm.statistics = .new config.statistics config.costLimit := by
  have hrun := new_ok h
  split at hrun
  · rw [run_enableWasi] at hrun
    have kept : Keeps Unspent (Action.link (host.newStore.2.newWasiObject .empty).1 >>= fun _ =>
        Action.modifyVm fun vm =>
          { vm with wasi := some (host.newStore.2.newWasiObject .empty).1 }) :=
      (Action.keeps_unspent_link _).bind fun _ =>
        Action.keeps_modifyVm fun _ => ⟨rfl, rfl, rfl, rfl⟩
    have hunspent := kept.ok hrun
    exact ⟨hunspent.config, hunspent.statistics⟩
  · cases hrun
    exact ⟨rfl, rfl⟩

/-- A setting that comes from a new machine, with the runs since the counts were last cleared, the
limit in force, and what had been consumed when the limit was last set or the counts cleared.

The limit in force is the last one that was set.  No other operation has a say in it, clearing the
counts included. -/
inductive Accounted : Setting → List EngineRun → Option UInt64 → UInt64 → Prop
  | new {host after : Host} {config : VmConfig} {vm : Vm}
      (h : Vm.new host config = (.ok vm, after)) : Accounted ⟨vm, after⟩ [] config.costLimit 0
  | operate {s : Setting} {runs : List EngineRun} {limit : Option UInt64} {mark : UInt64}
      (h : Accounted s runs limit mark) (o : Operation) (ho : ∀ f, o ≠ .amendStatistics f) :
      Accounted (s.after o) (runs ++ s.runs o) limit mark
  | setCostLimit {s : Setting} {runs : List EngineRun} {limit : Option UInt64} {mark : UInt64}
      (h : Accounted s runs limit mark) (limit' : Option UInt64) :
      Accounted (s.after (.amendStatistics fun c => c.setCostLimit limit')) runs limit'
        s.vm.statistics.consumed
  | clear {s : Setting} {runs : List EngineRun} {limit : Option UInt64} {mark : UInt64}
      (h : Accounted s runs limit mark) :
      Accounted (s.after (.amendStatistics Statistics.clear)) [] limit 0
  /-- Something else happens on the host. -/
  | elsewhere {s : Setting} {runs : List EngineRun} {limit : Option UInt64} {mark : UInt64}
      (h : Accounted s runs limit mark) (host : Host) : Accounted { s with host } runs limit mark

/-- The counts of a machine agree with the runs that it has made since they were cleared, and with
the limit that it has been set. -/
structure Balanced (s : Setting) (runs : List EngineRun) (limit : Option UInt64) (mark : UInt64) :
    Prop where
  switches : s.vm.statistics.config = s.vm.config.statistics
  /-- The machine has the limit that is in force. -/
  costLimit : s.vm.statistics.costLimit = limit
  consumed : s.vm.statistics.consumed.toNat = min maxCount (spent runs)
  instrCount : s.vm.statistics.instrCount.toNat =
    if s.vm.config.statistics.instructionCounting then min maxCount (spentInCalls runs) else 0
  totalCost : s.vm.statistics.totalCost.toNat =
    if s.vm.config.statistics.costMeasuring then min maxCount (spentInCalls runs) else 0
  /-- The limit is kept, unless more had been consumed when it was set. -/
  limited : ∀ l, limit = some l →
    s.vm.statistics.consumed.toNat ≤ max l.toNat mark.toNat
  unmetered : s.vm.config.meters = false → spent runs = 0

theorem Balanced.operate {s : Setting} {runs : List EngineRun} {limit : Option UInt64}
    {mark : UInt64} (h : Balanced s runs limit mark) {o : Operation}
    (ho : ∀ f, o ≠ .amendStatistics f) : Balanced (s.after o) (runs ++ s.runs o) limit mark := by
  have hspending := spending_perform ho s
  have hstatistics := hspending.statistics
  constructor
  · rw [hspending.config, hstatistics, config_countAll, h.switches]
  · rw [hstatistics, costLimit_countAll, h.costLimit]
  · rw [hstatistics, consumed_countAll, h.consumed, spent_append]
    omega
  · rw [hspending.config, hstatistics, reported_countAll (·.instructionCounting)
      (·.instrCount) (fun _ _ => rfl) (fun _ _ _ => rfl), h.switches, h.instrCount,
      spentInCalls_append]
    split <;> omega
  · rw [hspending.config, hstatistics, reported_countAll (·.costMeasuring)
      (·.totalCost) (fun _ _ => rfl) (fun _ _ _ => rfl), h.switches, h.totalCost,
      spentInCalls_append]
    split <;> omega
  · intro l hl
    have hop := consumed_le_of_charged (h.costLimit.trans hl) hspending.charged
    have hbefore := h.limited l hl
    rw [hstatistics]
    omega
  · intro hmeters
    rw [hspending.config] at hmeters
    rw [spent_append, h.unmetered hmeters, spent_eq_zero_of_charged hmeters hspending.charged]

theorem Accounted.balanced {s : Setting} {runs : List EngineRun} {limit : Option UInt64}
    {mark : UInt64} (h : Accounted s runs limit mark) : Balanced s runs limit mark := by
  induction h with
  | new h =>
    obtain ⟨hconfig, hstatistics⟩ := statistics_new h
    refine ⟨?_, ?_, ?_, ?_, ?_, fun l _ => ?_, fun _ => rfl⟩
    · rw [hstatistics, hconfig]
      rfl
    · rw [hstatistics]
      rfl
    · rw [hstatistics]
      rfl
    · rw [hstatistics]
      exact (ite_self 0).symm
    · rw [hstatistics]
      exact (ite_self 0).symm
    · rw [hstatistics]
      exact Nat.zero_le _
  | operate h o ho ih => exact ih.operate ho
  | setCostLimit h limit' ih =>
    -- The mark is moved to what has been consumed by now, so the new limit is kept at once.
    refine ⟨ih.switches, rfl, ih.consumed, ih.instrCount, ih.totalCost, fun _ _ => ?_, ih.unmetered⟩
    exact Nat.le_max_right _ _
  | clear h ih =>
    refine ⟨ih.switches, ih.costLimit, rfl, (ite_self 0).symm, (ite_self 0).symm, fun _ _ => ?_,
      fun _ => rfl⟩
    exact Nat.zero_le _
  | elsewhere h host ih => exact ⟨ih.1, ih.2, ih.3, ih.4, ih.5, ih.6, ih.7⟩

/-- What a run is given under a limit and what it is charged, after earlier runs of the same
operation. -/
structure Assigned (s : Setting) (limit : Option UInt64) (earlier : List EngineRun)
    (r : EngineRun) : Prop where
  /-- What has been consumed when the run starts. -/
  consumed : r.setting.vm.statistics.consumed.toNat =
    min maxCount (s.vm.statistics.consumed.toNat + spent earlier)
  /-- What the limit leaves then, which is everything if there is none. -/
  budget : s.vm.config.meters = true → r.budget = some (limit.elim maxCount
    fun l => l.toNat - r.setting.vm.statistics.consumed.toNat)
  unmetered : s.vm.config.meters = false → r.budget = none ∧ r.fuel = 0
  charge : ∀ budget, r.budget = some budget →
    r.fuel.toNat = r.ending.meter.consumed ∧ r.fuel.toNat ≤ budget

theorem assigned_of_charged {s : Setting} {earlier later : List EngineRun} {r : EngineRun}
    (h : Charged s.vm.config s.vm.statistics (earlier ++ r :: later)) :
    Assigned s s.vm.statistics.costLimit earlier r := by
  obtain ⟨-, ⟨hconfig, hstatistics⟩, -⟩ := charged_append.mp h
  refine ⟨?_, fun hmeters => ?_, fun hmeters => ?_, fun _ => r.consumed_le⟩
  · rw [hstatistics, consumed_countAll]
  · rw [r.budget_eq, hconfig, hmeters, if_pos rfl, Statistics.remainingBudget]
    have hlimit : r.setting.vm.statistics.costLimit = s.vm.statistics.costLimit := by
      rw [hstatistics, costLimit_countAll]
    rw [hlimit]
    cases s.vm.statistics.costLimit with
    | none => rfl
    | some limit => exact congrArg some (toNat_subSaturating _ _)
  · rw [← hconfig] at hmeters
    exact ⟨r.budget_eq_none hmeters, r.fuel_eq_zero hmeters⟩

/-- A run with data goes into the accounts like any other. -/
theorem Accounted.runWithData {s : Setting} {runs : List EngineRun} {limit : Option UInt64}
    {mark : UInt64} (h : Accounted s runs limit mark) (source : Source) (name : String)
    (data : List UInt8) (args envs preopens : List String) (params : List Value) :
    Accounted (ending (Action.runWithData source name data args envs preopens params) s)
      (runs ++ s.runsWithData source name data args envs preopens params) limit mark := by
  have hpost := runWithData_post source name data args envs preopens params s
  unfold Post at hpost
  generalize ending (Action.runWithData source name data args envs preopens params) s = t at hpost
  obtain ⟨vm, host⟩ := t
  unfold Setting.runsWithData
  rcases hpost with ⟨e, hsupplied, -, rfl⟩ | ⟨host', hsupplied, -, rfl, -⟩
  · rw [hsupplied, List.append_nil]
    exact h.elsewhere host
  · rw [hsupplied]
    exact ((h.elsewhere host').operate (.run source name params) fun _ => nofun).elsewhere host

/-- Its runs of the engine are given and charged the same. -/
theorem assigned_runWithData {s : Setting} {source : Source} {name : String} {data : List UInt8}
    {args envs preopens : List String} {params : List Value} {earlier later : List EngineRun}
    {r : EngineRun}
    (h : s.runsWithData source name data args envs preopens params = earlier ++ r :: later) :
    Assigned s s.vm.statistics.costLimit earlier r := by
  unfold Setting.runsWithData at h
  split at h
  · rename_i host _
    have hcharged := (spending_perform (o := .run source name params) (fun _ => nofun)
      ⟨s.vm, host⟩).charged
    exact { assigned_of_charged (s := ⟨s.vm, host⟩) (h ▸ hcharged) with }
  · exact absurd h.symm (List.append_ne_nil_of_right_ne_nil _ (List.cons_ne_nil _ _))

/-- Without metering, a run with data does not fail for what it costs either. -/
theorem unpriced_runWithData {s : Setting} (hmeters : s.vm.config.meters = false) (source : Source)
    (name : String) (data : List UInt8) (args envs preopens : List String) (params : List Value) :
    outcome (Action.runWithData source name data args envs preopens params) s ≠
      .error (.execution .costLimitExceeded) := by
  intro h
  have hpost := runWithData_post source name data args envs preopens params s
  unfold Post at hpost
  rw [h] at hpost
  rcases hpost with ⟨e, -, he, -⟩ | ⟨host, -, hrun, -, -⟩
  · cases he
  · have hspending := spending_perform (o := .run source name params) (fun _ => nofun) ⟨s.vm, host⟩
    have hanswer : Setting.answer ⟨s.vm, host⟩ (.run source name params) =
        .error (.execution .costLimitExceeded) := by
      rw [Setting.answer, Operation.perform, outcome_discard, ← hrun]
      rfl
    exact hspending.unpriced hmeters _ hanswer rfl

/-- **The accounts of a machine balance**, whatever has been run on it.

What it has consumed is what all its runs since the last clearing have spent, and what it reports
is what the calls among them have spent, under the switches of its configuration.  Its limit is the
one that was last set, no matter what has been done since, and it is kept unless more had been
consumed when it was set.  Each run of an operation is given what that limit leaves over what has
been consumed when the run starts, which is everything if there is no limit, and it is charged at
most that.

An operation consumes but never gives back: only clearing does.  Without metering nothing is
consumed and nothing fails for what it costs.  A run with data is no exception to any of this. -/
theorem accounts {s : Setting} {runs : List EngineRun} {limit : Option UInt64} {mark : UInt64}
    (h : Accounted s runs limit mark) :
    Balanced s runs limit mark ∧
    (s.vm.statistics.instrCount ≤ s.vm.statistics.consumed ∧
      s.vm.statistics.totalCost ≤ s.vm.statistics.consumed ∧
      (s.vm.config.statistics.instructionCounting = true →
        s.vm.config.statistics.costMeasuring = true →
        s.vm.statistics.instrCount = s.vm.statistics.totalCost)) ∧
    (∀ o : Operation, (∀ f, o ≠ .amendStatistics f) →
      s.vm.statistics.consumed ≤ (s.after o).vm.statistics.consumed ∧
      ∀ earlier r later, s.runs o = earlier ++ r :: later → Assigned s limit earlier r) ∧
    (s.vm.config.meters = false → s.vm.statistics.consumed = 0 ∧
      ∀ o : Operation, s.answer o ≠ .error (.execution .costLimitExceeded)) ∧
    ∀ source name data args envs preopens params,
      Accounted (ending (Action.runWithData source name data args envs preopens params) s)
        (runs ++ s.runsWithData source name data args envs preopens params) limit mark ∧
      (∀ earlier r later,
        s.runsWithData source name data args envs preopens params = earlier ++ r :: later →
          Assigned s limit earlier r) ∧
      (s.vm.config.meters = false →
        outcome (Action.runWithData source name data args envs preopens params) s ≠
          .error (.execution .costLimitExceeded)) := by
  have hbalanced := h.balanced
  have hle := spentInCalls_le runs
  refine ⟨hbalanced, ⟨?_, ?_, fun hinstr hcost => ?_⟩, fun o ho => ⟨?_, ?_⟩,
    fun hmeters => ⟨?_, ?_⟩, fun source name data args envs preopens params => ⟨?_, ?_, ?_⟩⟩
  · rw [UInt64.le_iff_toNat_le, hbalanced.instrCount, hbalanced.consumed]
    split <;> omega
  · rw [UInt64.le_iff_toNat_le, hbalanced.totalCost, hbalanced.consumed]
    split <;> omega
  · refine UInt64.toNat_inj.mp ?_
    rw [hbalanced.instrCount, hbalanced.totalCost, hinstr, hcost]
  · rw [UInt64.le_iff_toNat_le, (spending_perform ho s).statistics, consumed_countAll]
    have hlt := s.vm.statistics.consumed.toNat_lt
    simp only [maxCount]
    omega
  · intro earlier r later hruns
    rw [← hbalanced.costLimit]
    exact assigned_of_charged (hruns ▸ (spending_perform ho s).charged)
  · refine UInt64.toNat_inj.mp ?_
    rw [hbalanced.consumed, hbalanced.unmetered hmeters]
    rfl
  · intro o ho
    have hother : ∀ f, o ≠ .amendStatistics f := by
      rintro f rfl
      cases ho
    exact (spending_perform hother s).unpriced hmeters _ ho rfl
  · exact h.runWithData source name data args envs preopens params
  · intro earlier r later hruns
    rw [← hbalanced.costLimit]
    exact assigned_runWithData hruns
  · exact fun hmeters => unpriced_runWithData hmeters source name data args envs preopens params

/-! ## A limit that is spent -/

/-- What a machine is to measure that may spend little. -/
def thrifty : VmConfig := { statistics := .all, costLimit := some 6 }

/-- A new machine that may spend little, on which the counter has been registered and called. -/
def thriftyBumped : Setting :=
  (Setting.after ⟨empty thrifty ⟨0⟩, (Host.newStore {}).2⟩ registerCounter).after
    (.executeRegistered "counter" "bump" [])

/-- The counter is registered and called; the next call exceeds the limit. -/
theorem accounts_thriftyBumped :
    ∃ runs, Accounted thriftyBumped runs (some 6) 0 ∧ Balanced thriftyBumped runs (some 6) 0 ∧
      spent runs = 6 ∧
      (thriftyBumped.runs (.executeRegistered "counter" "bump" [])).map EngineRun.budget =
        [some 0] ∧
      thriftyBumped.answer (.executeRegistered "counter" "bump" []) =
        .error (.execution .costLimitExceeded) := by
  have hnew : Vm.new {} thrifty = (.ok (empty thrifty ⟨0⟩), (Host.newStore {}).2) := rfl
  have haccounted := ((Accounted.new hnew).operate registerCounter fun _ => nofun).operate
    (.executeRegistered "counter" "bump" []) fun _ => nofun
  exact ⟨_, haccounted, (accounts haccounted).1, by decide +kernel, by decide +kernel,
    by decide +kernel⟩

end Vm

end WasmEmbedding
