import WasmEmbedding.Proofs.Vm.Stock
import WasmEmbedding.Proofs.Vm.Trail

/-! # Import objects that machines share

Any number of machines on one host register import objects, which change and go away behind their
backs.  A `World` is a host with its machines, and `World.Follows` is any interleaving of deeds and
operations of machines, in which host functions may do deeds of their own.

The main result, `isolation`, is that a machine keeps to what an import object had when it was
registered (`Vm.Shows`), and that each call of one of the object's functions, whichever machine
makes it and wherever it comes from, runs the body that was added, until the object is deleted or
let go of.  Any later call runs nothing and fails its run (`Vm.Refused`).

A run that fails in this way fails the operation, with one exception: load, cleanup and whole runs
let go of the main module, and put off a rebuild that fails on the way
(`load_survives_refused_call`).
-/
namespace WasmEmbedding

open Engine Host Wasm

/-- A host and its machines. -/
structure World where
  host : Host
  vms : List Vm

/-- What an operation registers is an import object of the host, or brings no functions. -/
def Vm.Operation.Known (h : Host) : Vm.Operation → Prop
  | .registerImport o => o.functionIds = [] ∨ ∃ name, (name, o) ∈ h.objects
  | _ => True

namespace World

/-- The world after an operation of a machine. -/
def operate (w : World) (i : Nat) (vm : Vm) (o : Vm.Operation) : World where
  host := (Vm.Setting.after ⟨vm, w.host⟩ o).host
  vms := w.vms.set i (Vm.Setting.after ⟨vm, w.host⟩ o).vm

/-- What can happen next, with the numbers that are given out. -/
inductive Moves (w : World) : List Grant → World → Prop
  | deed (d : Deed) : Moves w (d.granted w.host) ⟨d.after w.host, w.vms⟩
  | new {config : VmConfig} {vm : Vm} {h : Host} (H : Vm.new w.host config = (.ok vm, h)) :
      Moves w [] ⟨h, w.vms ++ [vm]⟩
  /-- A machine does something, and so may the host functions that it calls. -/
  | operate {i : Nat} {vm : Vm} (hvm : w.vms[i]? = some vm) {o : Vm.Operation} {more : List Grant}
      (known : o.Known w.host) (H : Proceeds w.host more (w.operate i vm o).host) :
      Moves w more (w.operate i vm o)
  /-- Something else happens on the host. -/
  | elsewhere {h : Host} (hregistry : h.registry = w.host.registry)
      (hobjects : h.objects = w.host.objects)
      (hcontexts : w.host.contexts.size ≤ h.contexts.size) : Moves w [] ⟨h, w.vms⟩

/-- What can happen in the course of time. -/
inductive Follows (w : World) : List Grant → World → Prop
  | refl : Follows w [] w
  | step {v u : World} {more later : List Grant} (H : Follows w more v) (next : Moves v later u) :
      Follows w (more ++ later) u

/-- A world that has begun without machines and import objects. -/
def Reached (w : World) (grants : List Grant) : Prop :=
  ∃ h : Host, h.registry = {} ∧ h.objects = [] ∧ Follows ⟨h, []⟩ grants w

end World

namespace Vm

/-! ## What a machine has of an import object -/

/-- The functions that a machine has registered have been granted under the module name that they
are registered under. -/
def Sworn (vm : Vm) (grants : List Grant) : Prop :=
  ∀ name linked functions, (name, .imports linked functions) ∈ vm.entries →
    ∀ symbol id signature, (symbol, .function id signature) ∈ linked.symbols →
      ∃ g ∈ grants, g.id = id ∧ g.moduleName = name

theorem Sworn.mono {vm : Vm} {grants : List Grant} (h : vm.Sworn grants) (more : List Grant) :
    vm.Sworn (grants ++ more) := by
  intro name linked functions he symbol id signature hsymbol
  obtain ⟨g, hg, hgid⟩ := h name linked functions he symbol id signature hsymbol
  exact ⟨g, List.mem_append_left _ hg, hgid⟩

/-- A machine does not know a name of a module: it is not linked, nobody can call it, and a module
that imports it is refused. -/
structure Lacks (vm : Vm) (moduleName name : String) : Prop where
  linked : vm.linker.get? moduleName name = none
  called : ∀ host args, outcome (Action.executeRegistered moduleName name args) ⟨vm, host⟩ =
    .error (.execution (.functionNotFound (moduleName ++ "." ++ name)))
  resolved : ∀ (m : Module) (i : Import), i.moduleName = moduleName → i.name = name →
    vm.linker.resolveOne vm.store m i =
      .error ("unknown import: " ++ moduleName ++ "::" ++ name ++ " has not been defined")

/-- Functions of the system interface have been linked under a name, which is what a registration
that could not start a session leaves. -/
def SystemAt (vm : Vm) (moduleName name : String) : Prop :=
  moduleName = Wasi.moduleName ∧ ∃ a call, vm.linker.get? moduleName name = some (.function a) ∧
    vm.store.functions[a]? = some (.system call)

/-- A machine has of an import object what the object had when it was registered, and nothing that
has been added to it or to another object of this module name. -/
structure Shows (vm : Vm) (grants : List Grant) (o : ImportObject) : Prop where
  entry : ∃ functions, (o.environment = none → functions = o.functions) ∧
    vm.registered? o.moduleName =
      some (.imports ⟨o.moduleName, o.symbolList, o.environment⟩ functions)
  linked : o.environment = none → ∀ x ∈ o.symbolList, ∃ item,
    vm.linker.get? o.moduleName x.1 = some item ∧ x.2.Becomes vm.store.code item
  hidden : ∀ name, name ∉ o.symbolNames →
    vm.Lacks o.moduleName name ∨ vm.SystemAt o.moduleName name
  confined : ∀ g ∈ grants, g.moduleName = o.moduleName → g.id ∉ o.functionIds →
    ∀ (a : Nat) signature, vm.store.functions[a]? ≠ some (.host g.id signature)

theorem lacks_of_get? {vm : Vm} {moduleName name : String}
    (h : vm.linker.get? moduleName name = none) : vm.Lacks moduleName name where
  linked := h
  called host args := by
    have hfound : (vm.registered? moduleName >>= fun _ =>
        vm.linker.get? moduleName name >>= Item.function?) = none := by
      rw [h]
      cases vm.registered? moduleName <;> rfl
    refine outcome_of_error (t := ⟨vm, host⟩) ?_
    unfold Action.executeRegistered
    rw [run_bind_of_ok (x := Action.vm) (a := vm) (t := ⟨vm, host⟩) rfl]
    dsimp only
    rw [hfound]
    rfl
  resolved m i hmodule hname := by
    subst hmodule hname
    unfold Linker.resolveOne
    rw [h]

/-- What is registered of an import object says what the machine has of it. -/
theorem Hosted.shows {vm : Vm} (h : vm.Hosted) {host : Host} {grants : List Grant}
    (hgrants : Holds host grants) (hsworn : vm.Sworn grants) {o : ImportObject}
    {functions : List (String × Signature)}
    (hfunctions : o.environment = none → functions = o.functions)
    (he : (o.moduleName, .imports ⟨o.moduleName, o.symbolList, o.environment⟩ functions) ∈
      vm.entries) : vm.Shows grants o := by
  have hnames : vm.linker.names.Nodup := h.laid.nodup List.nodup_nil
  -- There is one entry under the name.
  have hunique : ∀ entry, (o.moduleName, entry) ∈ vm.entries →
      entry = .imports ⟨o.moduleName, o.symbolList, o.environment⟩ functions := by
    intro entry hentry
    have hentry := (h.listed.mem_entries_iff).mp hentry
    exact Option.some.inj (hentry.symm.trans ((h.listed.mem_entries_iff).mp he))
  refine ⟨⟨functions, hfunctions, (h.listed.mem_entries_iff).mp he⟩, fun hnone x hx => ?_,
    fun name hname => ?_, fun g hg hmodule hid a signature ha => ?_⟩
  · obtain ⟨item, hitem, hbecomes⟩ := h.laid.linked _ _ _ he hnone x hx
    exact ⟨item, (Linker.get?_eq_some hnames).mpr hitem, hbecomes⟩
  · cases hget : vm.linker.get? o.moduleName name with
    | none => exact .inl (lacks_of_get? hget)
    | some item =>
      right
      rcases h.laid.origins _ ((Linker.get?_eq_some hnames).mp hget) with hnone | horigin
      · cases hnone
      · generalize hmodule : o.moduleName = moduleName at horigin hget
        cases horigin with
        | @symbol other _ linked fs s _ hentry halone hmem hbecomes =>
          -- The entry is the object's own, whose symbols do not have the name.
          have hother : other = o.moduleName := (h.named hentry).symm.trans hmodule.symm
          cases hunique _ (hother ▸ hentry)
          exact absurd (List.mem_map_of_mem hmem) hname
        | «export» hentry hmem => cases hunique _ (hmodule ▸ hentry)
        | system hcall => exact ⟨rfl, _, _, hget, hcall⟩
  · obtain ⟨name, linked, fs, symbol, hentry, hsymbol⟩ := h.hosts a g.id signature ha
    obtain ⟨g', hg', hid', hname⟩ := hsworn name linked fs hentry symbol g.id signature hsymbol
    -- The number is of this module name, so that it is an object's of this name.
    cases hgrants.eq_of_id hg' hg hid'
    rw [← hname, hmodule] at hentry
    cases hunique _ hentry
    exact hid (ImportObject.mem_functionIds.mpr ⟨symbol, signature, hsymbol⟩)

/-- A new machine is made beside the import objects. -/
theorem host_new {host after : Host} {config : VmConfig} {vm : Vm}
    (h : Vm.new host config = (.ok vm, after)) :
    after.registry = host.registry ∧ after.objects = host.objects ∧
      host.contexts.size ≤ after.contexts.size := by
  have hrun := new_ok h
  split at hrun
  · obtain ⟨v, hv, ht⟩ := enableWasi_ok hrun
    cases ht
    have hhost : v.host = (host.newStore.2.newWasiObject .empty).2 :=
      ((Action.keeps_unspent_link _).ok hv).host
    rw [hhost]
    exact ⟨rfl, rfl, Nat.le_refl _⟩
  · cases hrun
    exact ⟨rfl, rfl, Nat.le_refl _⟩

/-- An operation of a machine keeps to what has been granted. -/
theorem Sworn.after {s : Setting} {grants : List Grant} (h : s.vm.Sworn grants)
    (hlisted : s.vm.Listed) (H : Holds s.host grants) {o : Operation} (known : o.Known s.host) :
    (s.after o).vm.Sworn grants := by
  intro name linked functions he symbol id signature hsymbol
  rcases entries_after hlisted o with heq | ⟨e, henters, -, heq⟩
  · exact h name linked functions (heq ▸ he) symbol id signature hsymbol
  · rw [heq] at he
    rcases List.mem_append.mp he with he | he
    · exact h name linked functions he symbol id signature hsymbol
    · cases List.mem_singleton.mp he
      cases o with
      | registerImport object =>
        obtain ⟨rfl, hsnap⟩ := henters
        obtain ⟨symbols, hsymbols, rfl⟩ := Host.ImportObject.snapshot_eq_ok_iff.mp hsnap
        have hlist : (symbol, .function id signature) ∈ object.symbolList := by
          rw [ImportObject.symbolList, hsymbols]
          exact hsymbol
        rcases known with hnone | ⟨other, hobject⟩
        · have hid := ImportObject.mem_functionIds.mpr ⟨symbol, signature, hlist⟩
          rw [hnone] at hid
          cases hid
        · obtain ⟨f, -, hf⟩ := (H.objects other object hobject).functions _ _ _ hlist
          exact ⟨_, hf, rfl, rfl⟩
      | _ => exact False.elim henters

end Vm

/-! ## Worlds -/

namespace World

/-- What holds of a world that has been reached. -/
structure Sound (w : World) (grants : List Grant) : Prop where
  owned : Owned w.host grants
  hosted : ∀ vm ∈ w.vms, vm.Hosted
  sworn : ∀ vm ∈ w.vms, vm.Sworn grants

variable {w v : World} {grants more : List Grant}

theorem Moves.leads (h : Moves w more v) : Leads w.host v.host := by
  cases h with
  | deed d => exact .deed w.host d
  | new hnew =>
    obtain ⟨hregistry, hobjects, hcontexts⟩ := Vm.host_new hnew
    exact .elsewhere hregistry hobjects hcontexts
  | operate _ _ hmore => exact ⟨_, hmore⟩
  | elsewhere hregistry hobjects hcontexts => exact .elsewhere hregistry hobjects hcontexts

theorem Follows.trans {u : World} {later : List Grant} (H : w.Follows more v)
    (H' : v.Follows later u) : w.Follows (more ++ later) u := by
  induction H' with
  | refl =>
    rw [List.append_nil]
    exact H
  | step _ next ih =>
    rw [← List.append_assoc]
    exact ih.step next

theorem Follows.leads (h : Follows w more v) : Leads w.host v.host := by
  induction h with
  | refl => exact Std.Refl.refl _
  | step _ next ih => exact IsTrans.trans _ _ _ ih next.leads

/-- **Whatever happens next, a sound world stays sound.** -/
theorem Sound.moves (H : w.Sound grants) (h : Moves w more v) : v.Sound (grants ++ more) := by
  cases h with
  | deed d => exact ⟨H.owned.deed d, H.hosted, fun vm hvm => (H.sworn vm hvm).mono _⟩
  | @new config vm h hnew =>
    rw [List.append_nil]
    obtain ⟨hregistry, hobjects, hcontexts⟩ := Vm.host_new hnew
    have hhosted : vm.Hosted := Vm.invariant_hosted.reachable (.new hnew)
    refine ⟨H.owned.elsewhere hregistry hobjects hcontexts, fun u hu => ?_, fun u hu => ?_⟩
    · rcases List.mem_append.mp hu with hu | hu
      · exact H.hosted u hu
      · exact List.mem_singleton.mp hu ▸ hhosted
    · rcases List.mem_append.mp hu with hu | hu
      · exact H.sworn u hu
      · rw [List.mem_singleton.mp hu]
        intro name linked functions he symbol id signature hsymbol
        exact ((Vm.confined_new hnew fun _ _ => False).registered name linked functions
          (hhosted.listed.mem_entries_iff.mp he) symbol id signature hsymbol).elim
  | @operate i vm hvm o more known hmore =>
    have hmem := List.mem_of_getElem? hvm
    have hhosted := Vm.invariant_hosted.operate ⟨vm, w.host⟩ o (H.hosted vm hmem)
    have hsworn : (Vm.Setting.after ⟨vm, w.host⟩ o).vm.Sworn grants :=
      Vm.Sworn.after (H.sworn vm hmem) (H.hosted vm hmem).listed H.owned.holds known
    refine ⟨H.owned.proceeds hmore, fun u hu => ?_, fun u hu => ?_⟩
    · rcases List.mem_or_eq_of_mem_set hu with hu | rfl
      · exact H.hosted u hu
      · exact hhosted
    · rcases List.mem_or_eq_of_mem_set hu with hu | rfl
      · exact (H.sworn u hu).mono _
      · exact hsworn.mono _
  | elsewhere hregistry hobjects hcontexts =>
    rw [List.append_nil]
    exact ⟨H.owned.elsewhere hregistry hobjects hcontexts, H.hosted, H.sworn⟩

theorem Sound.follows (H : w.Sound grants) (h : Follows w more v) : v.Sound (grants ++ more) := by
  induction h with
  | refl =>
    rw [List.append_nil]
    exact H
  | step _ next ih =>
    rw [← List.append_assoc]
    exact ih.moves next

theorem Reached.sound (H : w.Reached grants) : w.Sound grants := by
  obtain ⟨h, hregistry, hobjects, hfollows⟩ := H
  have hnew : Sound ⟨h, []⟩ [] :=
    ⟨.new hregistry hobjects, List.forall_mem_nil _, List.forall_mem_nil _⟩
  exact hnew.follows hfollows

/-- A machine keeps the entries of its link environment. -/
theorem Sound.retains (H : w.Sound grants) (h : Follows w more v) {i : Nat} {vm : Vm}
    (hvm : w.vms[i]? = some vm) {e : String × Registered} (he : e ∈ vm.entries) :
    ∃ vm', v.vms[i]? = some vm' ∧ e ∈ vm'.entries := by
  induction h with
  | refl => exact ⟨vm, hvm, he⟩
  | @step v u more later hfollows next ih =>
    obtain ⟨vm', hvm', he'⟩ := ih
    cases next with
    | deed d => exact ⟨vm', hvm', he'⟩
    | new hnew =>
      have hlt : i < v.vms.length := (List.getElem?_eq_some_iff.mp hvm').1
      exact ⟨vm', (List.getElem?_append_left hlt).trans hvm', he'⟩
    | @operate j other hother o _ known hmore =>
      by_cases hij : j = i
      · subst hij
        cases hvm'.symm.trans hother
        have hlt : j < v.vms.length := (List.getElem?_eq_some_iff.mp hother).1
        have hlisted := ((H.follows hfollows).hosted vm' (List.mem_of_getElem? hother)).listed
        refine ⟨_, List.getElem?_set_self hlt, ?_⟩
        rcases Vm.entries_after (s := ⟨vm', v.host⟩) hlisted _ with heq | ⟨_, -, -, heq⟩
        · exact heq ▸ he'
        · exact heq ▸ List.mem_append_left _ he'
      · refine ⟨vm', ?_, he'⟩
        exact (List.getElem?_set_ne hij).trans hvm'
    | elsewhere => exact ⟨vm', hvm', he'⟩

/-- An operation of a machine is something that can happen next. -/
theorem exists_moves {i : Nat} {vm : Vm} (hvm : w.vms[i]? = some vm) {o : Vm.Operation}
    (known : o.Known w.host) : ∃ more, Moves w more (w.operate i vm o) := by
  obtain ⟨more, hmore⟩ := (Vm.trail_after ⟨vm, w.host⟩ o).leads
  exact ⟨more, .operate hvm known hmore⟩

/-- From a world in which a machine is in one setting comes one in which it is in the other. -/
def Passes (s t : Vm.Setting) : Prop :=
  ∀ (w : World) (i : Nat), w.host = s.host → w.vms[i]? = some s.vm →
    ∃ more, w.Follows more ⟨t.host, w.vms.set i t.vm⟩

theorem set_of_getElem? {i : Nat} {vm : Vm} {l : List Vm} (h : l[i]? = some vm) :
    l.set i vm = l := by
  obtain ⟨hlt, rfl⟩ := List.getElem?_eq_some_iff.mp h
  exact List.set_getElem_self hlt

instance : IsPreorder Vm.Setting Passes where
  refl s w i hhost hvm := by
    rw [set_of_getElem? hvm, ← hhost]
    exact ⟨[], .refl⟩
  trans s t u h h' w i hhost hvm := by
    have hlt : i < w.vms.length := (List.getElem?_eq_some_iff.mp hvm).1
    obtain ⟨more, hmore⟩ := h w i hhost hvm
    obtain ⟨later, hlater⟩ := h' ⟨t.host, w.vms.set i t.vm⟩ i rfl (List.getElem?_set_self hlt)
    rw [List.set_set] at hlater
    exact ⟨_, hmore.trans hlater⟩

theorem passes_elsewhere {s : Vm.Setting} {h : Host} (hregistry : h.registry = s.host.registry)
    (hobjects : h.objects = s.host.objects)
    (hcontexts : s.host.contexts.size ≤ h.contexts.size) : Passes s ⟨s.vm, h⟩ := by
  intro w i hhost hvm
  rw [set_of_getElem? hvm]
  rw [← hhost] at hregistry hobjects hcontexts
  exact ⟨_, .step .refl (.elsewhere hregistry hobjects hcontexts)⟩

theorem passes_after {s : Vm.Setting} {o : Vm.Operation} (known : o.Known s.host) :
    Passes s (s.after o) := by
  rintro ⟨_, vms⟩ i rfl hvm
  obtain ⟨more, hmoves⟩ := exists_moves (w := ⟨s.host, vms⟩) hvm known
  exact ⟨_, .step .refl hmoves⟩

/-- A run with data can happen next, like any operation. -/
theorem passes_runWithData (source : Source) (name : String) (data : List UInt8)
    (args envs preopens : List String) (params : List Value) :
    Keeps Passes (Vm.Action.runWithData source name data args envs preopens params) :=
  Vm.keeps_runWithData
    (fun _ _ hregistry hobjects hcontexts _ => passes_elsewhere hregistry hobjects hcontexts)
    (fun _ => passes_after trivial) data args envs preopens

/-- **Registered import objects are isolated, and revocation is permanent.**  A machine that has
registered an import object has of it what the object had at that moment and nothing that is added
to it later, whatever happens afterwards; tables, memories and globals stay linked when the object
is deleted.  A function of the object runs with the data of the object for every machine that calls
it, until the object is deleted or let go of, and however the call goes on from there; from then on
every call of it is refused. -/
theorem isolation {w : World} {grants : List Grant} (H : w.Reached grants) {name : String}
    {o : ImportObject} (ho : (name, o) ∈ w.host.objects) :
    (∀ i vm, w.vms[i]? = some vm → Vm.Setting.answer ⟨vm, w.host⟩ (.registerImport o) = .ok () →
      ∀ more v, (w.operate i vm (.registerImport o)).Follows more v →
        ∃ vm', v.vms[i]? = some vm' ∧ vm'.Shows (grants ++ more) o) ∧
    ∀ symbol id signature, (symbol, .function id signature) ∈ o.symbolList →
      ∃ f : HostFunction, f.signature = signature ∧ o.grant name symbol f id ∈ grants ∧
        ∀ (more : List Grant) (v : World) (i : Nat) (vm : Vm) (op : Vm.Operation),
          w.Follows more v → v.vms[i]? = some vm →
          Along v.host ((Vm.hostCalls (Vm.Setting.runs ⟨vm, v.host⟩ op)).map HostCall.host)
            (Vm.Setting.after ⟨vm, v.host⟩ op).host ∧
          ∀ run ∈ Vm.Setting.runs ⟨vm, v.host⟩ op, ∀ c ∈ run.calls, c.id = id →
            (¬ w.host.Released name c.host →
              EStateM.run c.perform c.machine =
                EStateM.run (c.serve ⟨f.body, o.context⟩) c.machine) ∧
            (w.host.Released name c.host → Vm.Refused ⟨vm, v.host⟩ op run c) := by
  have hsound := H.sound
  refine ⟨fun i vm hvm hok more v hfollows => ?_, fun symbol id signature hsymbol => ?_⟩
  · obtain ⟨functions, hfunctions, hentries⟩ := Vm.registered_of_ok (s := ⟨vm, w.host⟩)
      (hsound.hosted vm (List.mem_of_getElem? hvm)).listed hok
    have hhost : (w.operate i vm (.registerImport o)).host = w.host :=
      (Vm.Action.keeps_unspent_registerImport o ⟨vm, w.host⟩).host
    have hmoves : Moves w [] (w.operate i vm (.registerImport o)) :=
      .operate hvm (.inr ⟨name, ho⟩) (hhost.symm ▸ .refl)
    have hregistered := hsound.moves hmoves
    rw [List.append_nil] at hregistered
    have hlt : i < w.vms.length := (List.getElem?_eq_some_iff.mp hvm).1
    obtain ⟨vm', hvm', he⟩ := hregistered.retains hfollows (List.getElem?_set_self hlt)
      (hentries ▸ List.mem_append_right _ List.mem_cons_self)
    have hlater := hregistered.follows hfollows
    have hmem := List.mem_of_getElem? hvm'
    exact ⟨vm', hvm', (hlater.hosted vm' hmem).shows hlater.owned.holds (hlater.sworn vm' hmem)
      hfunctions he⟩
  · obtain ⟨f, hsignature, hf⟩ :=
      (hsound.owned.holds.objects name o ho).functions symbol id signature hsymbol
    have hoffers : w.host.Offers name id :=
      ⟨o, ho, ImportObject.mem_functionIds.mpr ⟨symbol, signature, hsymbol⟩⟩
    refine ⟨f, hsignature, hf, fun more v i vm op hfollows hvm => ?_⟩
    refine ⟨Vm.trail_after ⟨vm, v.host⟩ op, ?_⟩
    rintro run hrun c hc rfl
    have hlater := (hsound.follows hfollows).owned
    have hleads : Leads w.host c.host :=
      IsTrans.trans _ _ _ hfollows.leads (Vm.leads_call (s := ⟨vm, v.host⟩) hrun hc)
    have hiff := Holds.offers_iff_not_released hsound.owned hf hoffers hleads
    refine ⟨fun hnot => ?_, fun hreleased => ?_⟩
    · exact Vm.call_of_offers hlater (List.mem_append_left _ hf) hrun hc rfl (hiff.mpr hnot)
    · exact Vm.refused_of_not_offers hlater (List.mem_append_left _ hf) hrun hc rfl rfl
        fun h => hiff.mp h hreleased

/-! ## A shared import object -/

theorem exists_follows_deeds (w : World) (ds : List Deed) :
    ∃ more, w.Follows more ⟨afterAll w.host ds, w.vms⟩ := by
  induction ds generalizing w with
  | nil => exact ⟨[], .refl⟩
  | cons d ds ih =>
    obtain ⟨more, hmore⟩ := ih ⟨d.after w.host, w.vms⟩
    exact ⟨_, (Follows.refl.step (.deed d)).trans hmore⟩

/-- A world with one machine. -/
def ofSetting (s : Vm.Setting) : World := ⟨s.host, [s.vm]⟩

theorem exists_follows_after (s : Vm.Setting) {o : Vm.Operation} (known : o.Known s.host) :
    ∃ more, (ofSetting s).Follows more (ofSetting (s.after o)) := by
  obtain ⟨more, hmoves⟩ := exists_moves (w := ofSetting s) (i := 0) rfl known
  exact ⟨_, .step .refl hmoves⟩

/-- A host with an import object that has a function and a memory. -/
def sharedHost : Host :=
  afterAll {} [.create "e" "env" none, .addFunction "e" "f" echo,
    .add "e" "m" ⟨.memory ⟨1, none⟩, rfl⟩]

/-- The import object. -/
def sharedObject : ImportObject :=
  ⟨"env", some [("f", .function ⟨1⟩ ⟨[], []⟩), ("m", .memory ⟨1, none⟩)], none, none⟩

theorem mem_sharedHost : ("e", sharedObject) ∈ sharedHost.objects := by decide +kernel

/-- A new machine on the host. -/
def sharing : Vm.Setting := ⟨Vm.empty {} ⟨0⟩, sharedHost.newStore.2⟩

theorem reached_sharing : ∃ grants, (ofSetting sharing).Reached grants := by
  obtain ⟨more, hmore⟩ := exists_follows_deeds ⟨{}, []⟩
    [.create "e" "env" none, .addFunction "e" "f" echo, .add "e" "m" ⟨.memory ⟨1, none⟩, rfl⟩]
  have hnew : Vm.new sharedHost {} = (.ok (Vm.empty {} ⟨0⟩), sharedHost.newStore.2) := rfl
  exact ⟨_, {}, rfl, rfl, hmore.step (.new hnew)⟩

/-- The machine with the import object registered. -/
def shared : Vm.Setting := sharing.after (.registerImport sharedObject)

theorem follows_shared : ∃ more, (ofSetting sharing).Follows more (ofSetting shared) :=
  exists_follows_after sharing (.inr ⟨"e", mem_sharedHost⟩)

/-- The same after the import object has got another function and has been deleted. -/
def revoked : Vm.Setting :=
  ⟨shared.vm, afterAll shared.host [.addFunction "e" "g" echo, .delete "e"]⟩

/-- Calls the function of the import object. -/
def callShared : Vm.Operation := .executeRegistered "env" "f" []

/-- The machine still has the function and the memory and nothing else, and a call of the function
is refused. -/
theorem isolation_revoked :
    ∃ grants, (ofSetting sharing).Reached grants ∧
      ("e", sharedObject) ∈ (ofSetting sharing).host.objects ∧
      (∃ more vm, (ofSetting revoked).vms[0]? = some vm ∧ vm.Shows (grants ++ more) sharedObject) ∧
      ∃ run ∈ revoked.runs callShared, ∃ c ∈ run.calls,
        c.id = ⟨1⟩ ∧ Vm.Refused revoked callShared run c := by
  obtain ⟨grants, H⟩ := reached_sharing
  have hmem : ("e", sharedObject) ∈ (ofSetting sharing).host.objects := mem_sharedHost
  have hshared := isolation H hmem
  refine ⟨grants, H, hmem, ?_, ?_⟩
  · have hrun := run_of_isOk (x := Vm.Operation.perform (.registerImport sharedObject))
      (s := sharing) (by decide +kernel)
    obtain ⟨more, hmore⟩ := exists_follows_deeds (ofSetting shared)
      [.addFunction "e" "g" echo, .delete "e"]
    exact ⟨more, hshared.1 0 sharing.vm rfl (outcome_of_ok hrun) more (ofSetting revoked) hmore⟩
  · have hcalls : (Vm.hostCalls (revoked.runs callShared)).map HostCall.id = [⟨1⟩] := by
      decide +kernel
    have hcall : (⟨1⟩ : FunctionId) ∈ (Vm.hostCalls (revoked.runs callShared)).map HostCall.id := by
      rw [hcalls]
      exact List.mem_cons_self
    obtain ⟨c, hc, hid⟩ := List.mem_map.mp hcall
    obtain ⟨run, hrun, hc⟩ := List.mem_flatMap.mp hc
    obtain ⟨first, hfirst⟩ := follows_shared
    obtain ⟨later, hlater⟩ := exists_follows_deeds (ofSetting shared) [.addFunction "e" "g" echo]
    have hrevoked : (ofSetting sharing).Follows _ (ofSetting revoked) :=
      (hfirst.trans hlater).step (.deed (.delete "e"))
    obtain ⟨f, -, -, hf⟩ := hshared.2 "f" ⟨1⟩ ⟨[], []⟩ List.mem_cons_self
    have hreleased : (ofSetting sharing).host.Released "e" c.host :=
      ⟨_, .delete "e", (hfirst.trans hlater).leads, rfl, Vm.leads_call hrun hc⟩
    have hrefused := (hf _ _ 0 revoked.vm callShared hrevoked rfl).2 run hrun c hc hid
    exact ⟨run, hrun, c, hc, hid, hrefused.2 hreleased⟩

/-! ## A rebuild that is put off -/

/-- The bytes of a module that imports the function and starts with it. -/
def starterBytes : List UInt8 :=
  Vm.emptyBytes ++ [1, 4, 1, 0x60, 0, 0] ++
    [2, 9, 1, 3, 0x65, 0x6e, 0x76, 1, 0x66, 0, 0] ++ [8, 1, 0]

/-- Loads a module with nothing in it. -/
def loadEmpty : Vm.Operation := .load (.bytes Vm.emptyBytes)

/-- The machine after the module has been registered and a main module instantiated. -/
def started : Vm.Setting :=
  ((shared.after (.register "starter" (.bytes starterBytes))).after loadEmpty).after .instantiate

/-- The same after the import object has been deleted. -/
def startedRevoked : Vm.Setting := ⟨started.vm, (Deed.delete "e").after started.host⟩

theorem follows_startedRevoked :
    ∃ more, (ofSetting sharing).Follows more (ofSetting startedRevoked) := by
  obtain ⟨_, hshared⟩ := follows_shared
  obtain ⟨_, hregister⟩ := exists_follows_after shared
    (o := .register "starter" (.bytes starterBytes)) trivial
  obtain ⟨_, hload⟩ := exists_follows_after
    (shared.after (.register "starter" (.bytes starterBytes))) (o := loadEmpty) trivial
  obtain ⟨_, hinstantiate⟩ := exists_follows_after
    ((shared.after (.register "starter" (.bytes starterBytes))).after loadEmpty)
    (o := .instantiate) trivial
  have hstarted := ((hshared.trans hregister).trans hload).trans hinstantiate
  exact ⟨_, hstarted.step (.deed (.delete "e"))⟩

/-- There is a world in which an import object has been deleted, and a load of a machine in which a
function that was given to the object is called all the same.  The call is refused, but the load
succeeds. -/
theorem load_survives_refused_call :
    (∃ grants f, (ofSetting startedRevoked).Reached grants ∧
      sharedObject.grant "e" "f" f ⟨1⟩ ∈ grants) ∧
    (startedRevoked.host.objects.map fun e => (e.1, e.2.isDeleted)) = [("e", true)] ∧
    (∃ run ∈ startedRevoked.runs loadEmpty, ∃ c ∈ run.calls, c.id = ⟨1⟩ ∧
      EStateM.run c.perform c.machine = .error (.registry (.unknownHostFunction 1)) c.machine) ∧
    startedRevoked.answer loadEmpty = .ok () := by
  have hrun := run_of_isOk (x := loadEmpty.perform) (s := startedRevoked) (by decide +kernel)
  refine ⟨?_, by decide +kernel, ?_, outcome_of_ok hrun⟩
  · obtain ⟨grants, H⟩ := reached_sharing
    obtain ⟨more, hmore⟩ := follows_startedRevoked
    obtain ⟨f, -, hf⟩ := (H.sound.owned.holds.objects "e" sharedObject mem_sharedHost).functions
      "f" ⟨1⟩ ⟨[], []⟩ List.mem_cons_self
    obtain ⟨h, hregistry, hobjects, hsharing⟩ := H
    exact ⟨_, f, ⟨h, hregistry, hobjects, hsharing.trans hmore⟩, List.mem_append_left _ hf⟩
  have hcalls : ((Vm.hostCalls (startedRevoked.runs loadEmpty)).map fun c =>
      (c.id, (c.host.registry.lookup c.id).isOk)) = [(⟨1⟩, false)] := by decide +kernel
  have hcall : ((⟨1⟩, false) : FunctionId × Bool) ∈
      (Vm.hostCalls (startedRevoked.runs loadEmpty)).map fun c =>
        (c.id, (c.host.registry.lookup c.id).isOk) := by
    rw [hcalls]
    exact List.mem_cons_self
  obtain ⟨c, hc, heq⟩ := List.mem_map.mp hcall
  obtain ⟨run, hrun, hc⟩ := List.mem_flatMap.mp hc
  obtain ⟨hid, hdead⟩ := Prod.mk.inj heq
  refine ⟨run, hrun, c, hc, hid, HostCall.run_of_dead ?_⟩
  unfold Registry.lookup at hdead ⊢
  rw [hid] at hdead ⊢
  cases hentry : c.host.registry.entries.lookup ⟨1⟩ with
  | none => rfl
  | some e =>
    rw [hentry] at hdead
    cases hdead

end World

end WasmEmbedding
