import WasmEmbedding.Proofs.Vm.Stock

/-! # What has been registered

The roster of a machine has the names under which its owner has tried to register something, each
with whether it was registered.  The order of registration is read off the roster
(`Roster.linkOrder`), whatever else has happened and however often the store has been rebuilt.

As long as no registration has failed, a machine is `Tidy`: its linker has the names of its entries
and no others, and what is linked for the system interface is linked under the name of this, which
is the only one that an import object for it can have (`Made.named`).  A registration that strands
would leave names of no entry behind.
-/
namespace WasmEmbedding

open Engine Wasm

namespace Host.ImportObject

/-- An import object as it can come to be. -/
inductive Made : ImportObject → Prop
  | new {moduleName : String} {context : Option ContextKey} {o : ImportObject}
      (h : ImportObject.new moduleName context = .ok o) : Made o
  | wasi (key : EnvironmentKey) : Made (.wasi key)
  | add {o o' : ImportObject} {name : String} {s : Symbol} (h : Made o)
      (added : o.add name s = .ok o') : Made o'
  | addFunction {o o' : ImportObject} {r r' : Registry} {name : String} {f : HostFunction}
      (h : Made o) (added : o.addFunction r name f = .ok (o', r')) : Made o'
  | delete {o : ImportObject} (h : Made o) (r : Registry) : Made (o.delete r).1

/-- Import objects for the system interface have its name. -/
theorem Made.named {o : ImportObject} (h : o.Made) (hwasi : o.isWasi = true) :
    o.moduleName = Wasi.moduleName := by
  induction h with
  | @new moduleName context o h =>
    unfold ImportObject.new at h
    split at h
    · cases h
    · cases h
      cases hwasi
  | wasi key => rfl
  | @add o o' name s _ added ih =>
    rw [add_eq] at added
    cases hcheck : o.checkInsert name with
    | error e =>
      rw [hcheck] at added
      cases added
    | ok _ =>
      rw [hcheck] at added
      cases added
      exact ih hwasi
  | @addFunction o o' r r' name f _ added ih =>
    rw [addFunction_eq] at added
    cases hcheck : o.checkInsert name with
    | error e =>
      rw [hcheck] at added
      cases added
    | ok _ =>
      rw [hcheck] at added
      cases added
      exact ih hwasi
  | delete _ r ih => exact ih hwasi

end Host.ImportObject

namespace Vm

/-- The name under which an operation registers something. -/
def Operation.enrolls? : Operation → Option String
  | .register name _ => some name
  | .registerImport o => some o.moduleName
  | _ => none

/-- A machine with the names that were to be registered, the first one first, each with whether it
was registered.  The built-in import object is registered from the beginning. -/
inductive Roster : List (String × Bool) → Setting → Prop
  | new {host after : Host} {config : VmConfig} {vm : Vm}
      (h : Vm.new host config = (.ok vm, after)) :
      Roster (if config.hostRegistrations.wasi then [(Wasi.moduleName, true)] else []) ⟨vm, after⟩
  | operate {calls : List (String × Bool)} {s : Setting} (h : Roster calls s) (o : Operation)
      (made : ∀ object, o = .registerImport object → object.Made) :
      Roster (calls ++ o.enrolls?.toList.map fun name => (name, (s.answer o).isOk)) (s.after o)
  /-- Something else happens on the host. -/
  | elsewhere {calls : List (String × Bool)} {s : Setting} (h : Roster calls s) (host : Host) :
      Roster calls { s with host }

/-- The names that were registered. -/
def enrolled (calls : List (String × Bool)) : List String :=
  (calls.filter fun c => c.2).map Prod.fst

theorem enrolled_append (calls calls' : List (String × Bool)) :
    enrolled (calls ++ calls') = enrolled calls ++ enrolled calls' := by
  unfold enrolled
  rw [List.filter_append, List.map_append]

namespace Roster

variable {calls : List (String × Bool)} {s : Setting}

theorem reachable (h : Roster calls s) : Reachable s := by
  induction h with
  | new h => exact .new h
  | operate _ o _ ih => exact .operate ih o
  | elsewhere _ host ih => exact .elsewhere ih host

theorem listed (h : Roster calls s) : s.vm.Listed := (invariant_linked.reachable h.reachable).listed

/-- What registers nothing is not put on the roster. -/
theorem proceed (h : Roster calls s) {o : Operation} (ho : o.enrolls? = none) :
    Roster calls (s.after o) := by
  have made : ∀ object, o = .registerImport object → object.Made := by
    rintro _ rfl
    cases ho
  have hstep := h.operate o made
  rwa [ho, Option.toList_none, List.map_nil, List.append_nil] at hstep

/-- A machine from a configuration file has the roster of a new one. -/
theorem ofConfigFile {host after : Host} {file : ConfigFile} {vm : Vm}
    (h : Vm.ofConfigFile host file = (.ok vm, after)) :
    Roster (if file.vm.hostRegistrations.wasi then [(Wasi.moduleName, true)] else [])
      ⟨vm, after⟩ := by
  obtain ⟨made, hnew, -⟩ := new_of_ofConfigFile h
  exact .elsewhere (.new hnew) after

end Roster

/-! ## The order of registration -/

/-- What registers nothing leaves the order. -/
theorem linkOrder_after_of_registers {s : Setting} {o : Operation} (ho : o.registers = false) :
    (s.after o).vm.linkOrder = s.vm.linkOrder := by
  have hstep := linkStep_after s o
  generalize s.answer o = r, s.after o = t at hstep
  cases hstep with
  | relinked h => exact congrArg LinkRecord.linkOrder h.link
  | module registers => exact nomatch ho.symm.trans registers
  | imports registers => exact nomatch ho.symm.trans registers
  | stranded registers => exact nomatch ho.symm.trans registers

/-- **An operation puts the name that it registers behind the others.** -/
theorem linkOrder_after (s : Setting) (o : Operation) :
    (s.after o).vm.linkOrder = s.vm.linkOrder ++
      enrolled (o.enrolls?.toList.map fun name => (name, (s.answer o).isOk)) := by
  -- a name that is registered, and one that is not
  have accepted {name : String} (ho : o.enrolls? = some name) (hok : s.answer o = .ok ())
      (horder : (s.after o).vm.linkOrder = s.vm.linkOrder ++ [name]) :
      (s.after o).vm.linkOrder = s.vm.linkOrder ++
        enrolled (o.enrolls?.toList.map fun name => (name, (s.answer o).isOk)) := by
    rw [ho, hok]
    exact horder
  have refused {e : RuntimeError} (ho : o.registers = true) (he : s.answer o = .error e) :
      (s.after o).vm.linkOrder = s.vm.linkOrder ++
        enrolled (o.enrolls?.toList.map fun name => (name, (s.answer o).isOk)) := by
    rw [he, (failed_registration ho he).2.2.1]
    cases o.enrolls? <;> exact (List.append_nil _).symm
  cases o with
  | register name source =>
    cases hrun : EStateM.run (Action.register name source) s with
    | ok _ t =>
      refine accepted rfl (outcome_of_ok hrun) ?_
      obtain ⟨-, -, image, m, u, -, -, hlinks, rfl⟩ := (Action.register_post name source s).ok hrun
      rw [show s.after (.register name source) = u.entered name (.module m) from ending_of_ok hrun]
      exact congrArg (· ++ [name]) hlinks.linkOrder
    | error e t => exact refused rfl (outcome_of_error hrun)
  | registerImport object =>
    cases hrun : EStateM.run (Action.registerImport object) s with
    | ok _ t =>
      refine accepted rfl (outcome_of_ok hrun) ?_
      obtain ⟨_, _, _, c, _, -, -, rfl⟩ := Action.link_ok (Action.registerImport_ok hrun).2.2
      exact congrArg (·.vm.linkOrder) (ending_of_ok hrun)
    | error e t => exact refused rfl (outcome_of_error hrun)
  | _ =>
    rw [linkOrder_after_of_registers rfl]
    exact (List.append_nil _).symm

namespace Roster

variable {calls : List (String × Bool)} {s : Setting}

/-- **The order of registration is that of the roster.** -/
theorem linkOrder (h : Roster calls s) : s.vm.linkOrder = enrolled calls := by
  induction h with
  | @new host after config vm h =>
    have hrun := new_ok h
    split at hrun
    · rename_i hwasi
      obtain ⟨_, _, -, -, horder⟩ := entries_enableWasi hrun
      rw [if_pos hwasi]
      exact horder
    · rename_i hwasi
      cases hrun
      rw [if_neg hwasi]
      rfl
  | operate _ o _ ih => rw [linkOrder_after, ih, enrolled_append]
  | elsewhere _ _ ih => exact ih

end Roster

/-! ## Machines where no registration has failed -/

/-- The linker has the names of the entries and no others, and what is linked for the system
interface is linked under its name. -/
structure Tidy (vm : Vm) : Prop where
  names : vm.linker.names = vm.entries.flatMap fun e => e.2.names e.1
  system : ∀ name linked functions, (name, .imports linked functions) ∈ vm.entries →
    linked.environment.isSome = true → name = Wasi.moduleName

namespace Tidy

variable {s t : Setting}

/-- One more entry is linked. -/
theorem append (h : s.vm.Tidy) {name : String} {entry : Registered}
    (hentries : t.vm.entries = s.vm.entries ++ [(name, entry)])
    (hnames : t.vm.linker.names = s.vm.linker.names ++ entry.names name)
    (hsystem : ∀ linked functions, entry = .imports linked functions →
      linked.environment.isSome = true → name = Wasi.moduleName) : t.vm.Tidy where
  names := by
    rw [hnames, hentries, h.names, List.flatMap_append, List.flatMap_singleton]
  system other linked functions he := by
    rw [hentries] at he
    rcases List.mem_append.mp he with he | he
    · exact h.system other linked functions he
    · cases List.mem_singleton.mp he
      exact hsystem linked functions rfl

/-- Operations that do not fail to register something keep a machine tidy. -/
theorem after (h : s.vm.Tidy) (listed : s.vm.Listed) {o : Operation}
    (made : ∀ object, o = .registerImport object → object.Made)
    (registered : o.registers = true → s.answer o = .ok ()) : (s.after o).vm.Tidy := by
  have hstep := linkStep_after s o
  generalize s.answer o = r, s.after o = t at hstep registered
  cases hstep with
  | relinked hst =>
    have hentries := entries_of_link hst.link
    refine ⟨?_, by rw [hentries]; exact h.system⟩
    rw [hentries]
    rcases hst.linker with hsame | hnames
    · rw [hsame]
      exact h.names
    · exact hnames
  | @module name m u _ _ _ free linked =>
    refine h.append (listed.entries_appended _ free linked.registered linked.linkOrder)
      (Links.module linked).continues.names_eq ?_
    rintro _ _ ⟨⟩
  | @imports name linked store linker c functions _ enters _ free defined =>
    refine h.append (listed.entries_appended _ free rfl rfl)
      (LinkedImports.define_ok defined).2.names_eq ?_
    rintro _ _ ⟨⟩ hsome
    cases o with
    | registerImport object =>
      obtain ⟨rfl, hsnap⟩ := enters
      obtain ⟨_, _, rfl⟩ := Host.ImportObject.snapshot_eq_ok_iff.mp hsnap
      exact (made object rfl).named hsome
    | _ => exact absurd enters id
  | stranded registers => exact nomatch registered registers

/-- A name in the linker is one of the entry that is registered under its first part. -/
theorem entry_of_name {vm : Vm} (h : vm.Tidy) (linked : vm.Linked) {moduleName name : String}
    (hname : (moduleName, name) ∈ vm.linker.names) :
    ∃ entry, (moduleName, entry) ∈ vm.entries ∧ (moduleName, name) ∈ entry.names moduleName := by
  rw [h.names] at hname
  obtain ⟨⟨other, entry⟩, he, hname⟩ := List.mem_flatMap.mp hname
  have hother : other = moduleName := by
    cases entry with
    | module m =>
      obtain ⟨_, -, heq⟩ := List.mem_map.mp hname
      exact congrArg Prod.fst heq
    | imports l functions =>
      have hnamed := linked.named he
      change (moduleName, name) ∈ l.names at hname
      unfold LinkedImports.names at hname
      split at hname
      · rename_i key hkey
        obtain ⟨_, -, heq⟩ := List.mem_map.mp hname
        exact (h.system _ _ _ he (Option.isSome_of_eq_some hkey)).trans (congrArg Prod.fst heq)
      · obtain ⟨_, -, heq⟩ := List.mem_map.mp hname
        exact hnamed.symm.trans (congrArg Prod.fst heq)
  subst hother
  exact ⟨entry, he, hname⟩

end Tidy

/-- **A machine is tidy if no registration has failed.** -/
theorem Roster.tidy {calls : List (String × Bool)} {s : Setting} (h : Roster calls s)
    (registered : ∀ c ∈ calls, c.2 = true) : s.vm.Tidy := by
  induction h with
  | @new host after config vm h =>
    have hrun := new_ok h
    split at hrun
    · obtain ⟨linked, functions, hentries, hnames, -⟩ := entries_enableWasi hrun
      refine ⟨?_, fun name linked functions he _ => ?_⟩
      · rw [hnames, hentries]
        exact (List.append_nil _).symm
      · rw [hentries] at he
        cases List.mem_singleton.mp he
        rfl
    · cases hrun
      exact ⟨rfl, nofun⟩
  | @operate calls s h o made ih =>
    have before := ih fun c hc => registered c (List.mem_append_left _ hc)
    refine before.after h.listed made fun ho => ?_
    obtain ⟨name, hname⟩ : ∃ name, o.enrolls? = some name := by
      cases o with
      | register name source => exact ⟨name, rfl⟩
      | registerImport object => exact ⟨_, rfl⟩
      | _ => cases ho
    rw [hname] at registered
    have hok := registered (name, (s.answer o).isOk) (List.mem_append_right _ List.mem_cons_self)
    cases hanswer : s.answer o with
    | ok _ => rfl
    | error e =>
      rw [hanswer] at hok
      cases hok
  | elsewhere _ _ ih => exact ih registered

end Vm

end WasmEmbedding
