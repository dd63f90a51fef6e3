import WasmEmbedding.Proofs.Vm.Replay

/-! # Rebuilding the store

What an operation does to the link environment is one of four things (`LinkStep`): it leaves the
entries alone, with the linker as it was or made again from the entries; it puts a module or
an import object behind the other entries; or it strands.  From this follows what holds of the link
environment of every reachable machine (`Linked`), and in particular that its order of registration
is one of exactly the registered names, each once (`Listed`).

A rebuild replays the entries in this order, each as it was registered, on a store and a linker that
start with nothing.  Every entry can fail: a module may find its imports changed or quit in its
start function, and an import object may have been deleted.  As the new store and linker take the
place of the old ones only when the last entry has been replayed, the main result,
`rebuild_transaction`, is that a rebuild either replays all entries from a new store and a linker
without names, or leaves the machine as it was but for spent fuel.
-/
namespace WasmEmbedding.Vm

open Engine Wasm

/-! ## The order of registration -/

/-- The order of registration is one of the registered names, each of them once, and no name is
empty. -/
structure Listed (vm : Vm) : Prop where
  nodup : vm.linkOrder.Nodup
  mem_iff : ∀ name, name ∈ vm.linkOrder ↔ (vm.registered? name).isSome
  named : ∀ name ∈ vm.linkOrder, name.isEmpty = false

/-- An entry may be registered under any name that is free. -/
theorem Listed.entered {vm : Vm} (h : vm.Listed) {name : String} (hname : name.isEmpty = false)
    (hfree : vm.registered? name = none) (entry : Registered) : (vm.entered name entry).Listed := by
  have hnot : name ∉ vm.linkOrder := by
    rw [h.mem_iff, hfree]
    exact nofun
  refine ⟨?_, fun other => ?_, fun other hother => ?_⟩
  · refine List.nodup_append.mpr ⟨h.nodup, List.pairwise_singleton _ _, ?_⟩
    rintro a ha b hb rfl
    exact hnot (List.mem_singleton.mp hb ▸ ha)
  · rw [registered?_entered]
    change other ∈ vm.linkOrder ++ [name] ↔ _
    rw [List.mem_append, List.mem_singleton, h.mem_iff]
    by_cases hother : other = name
    · rw [if_pos hother]
      exact iff_of_true (.inr hother) rfl
    · rw [if_neg hother]
      exact or_iff_left hother
  · rcases List.mem_append.mp hother with hother | hother
    · exact h.named other hother
    · rw [List.mem_singleton.mp hother]
      exact hname

/-- A new entry comes behind the others, and these stay what they are. -/
theorem Listed.entries_entered {vm : Vm} (h : vm.Listed) {name : String}
    (hfree : vm.registered? name = none) (entry : Registered) :
    (vm.entered name entry).entries = vm.entries ++ [(name, entry)] := by
  have hold : (vm.entered name entry).entriesOf vm.linkOrder = vm.entriesOf vm.linkOrder := by
    refine List.filterMap_congr fun other hother => ?_
    have hne : other ≠ name := by
      rintro rfl
      have hsome := (h.mem_iff other).mp hother
      rw [hfree] at hsome
      cases hsome
    rw [registered?_entered, if_neg hne]
  have hnew : (vm.entered name entry).entriesOf [name] = [(name, entry)] := by
    unfold entriesOf
    rw [List.filterMap_cons, registered?_entered, if_pos rfl]
    rfl
  unfold entries
  change (vm.entered name entry).entriesOf (vm.linkOrder ++ [name]) = _
  rw [← hold, ← hnew]
  exact List.filterMap_append

/-- A listed machine has an entry for each name of its order. -/
theorem Listed.names_entries {vm : Vm} (h : vm.Listed) :
    vm.entries.map Prod.fst = vm.linkOrder := by
  have hall : ∀ names : List String, (∀ name ∈ names, (vm.registered? name).isSome) →
      (vm.entriesOf names).map Prod.fst = names := by
    intro names
    induction names with
    | nil => exact fun _ => rfl
    | cons name names ih =>
      intro hsome
      obtain ⟨entry, hentry⟩ := Option.isSome_iff_exists.mp (hsome name List.mem_cons_self)
      rw [entriesOf_cons, hentry]
      exact congrArg (name :: ·) (ih fun other hother =>
        hsome other (List.mem_cons_of_mem _ hother))
  exact hall vm.linkOrder fun name hname => (h.mem_iff name).mp hname

/-! ## What operations do to the link environment -/

/-- What an operation registers when it succeeds: an import object with the symbols of that
moment, or the module of an image. -/
def Operation.Enters (s : Setting) : Operation → String × Registered → Prop
  | .registerImport o, (name, .imports linked _) =>
    name = o.moduleName ∧ o.snapshot = .ok linked
  | .register name source, (name', .module m) => name' = name ∧ ∃ image,
    s.host.load source = .ok image ∧ image.validate s.vm.config.engine.features = .ok m
  | _, _ => False

/-- What a machine has on record about its link environment. -/
structure LinkRecord where
  config : VmConfig
  registered : List (String × Registered)
  linkOrder : List String
  environment : Option Host.EnvironmentKey

/-- The link environment on record. -/
def Record.link (r : Record) : LinkRecord := ⟨r.config, r.registered, r.linkOrder, r.environment⟩

/-- The link environment of a setting on record. -/
def Setting.link (s : Setting) : LinkRecord := s.vm.record.link

/-- The setting of a machine whose main module is left out of account. -/
def Setting.aside (s : Setting) : Setting := { s with vm := Action.cleared s.vm }

/-- The linker stays while the code grows, or it is made again from the entries on a new store,
whose code grows from there. -/
inductive Restocked (s t : Setting) : Prop
  | grown (linker : t.vm.linker = s.vm.linker)
      (code : s.vm.store.code.Extends t.vm.store.code)
  | replayed {u v : Setting} (replays : Replays s.vm.entries (Action.blank u) v)
      (linker : t.vm.linker = v.vm.linker) (code : v.vm.store.code.Extends t.vm.store.code)

/-- The entries stay, and the linker stays or is made again from them. -/
structure Relinked (s t : Setting) : Prop where
  link : t.link = s.link
  stock : Restocked s t

theorem entries_of_link {s t : Setting} (h : t.link = s.link) : t.vm.entries = s.vm.entries :=
  entries_of_eq (congrArg LinkRecord.registered h) (congrArg LinkRecord.linkOrder h)

instance : IsPreorder Setting Relinked where
  refl _ := ⟨rfl, .grown rfl (Std.Refl.refl _)⟩
  trans s t u h h' := by
    refine ⟨h'.link.trans h.link, ?_⟩
    rcases h'.stock with ⟨hlinker, hcode⟩ | ⟨hreplays, hlinker, hcode⟩
    · rcases h.stock with ⟨hlinker₀, hcode₀⟩ | ⟨hreplays, hlinker₀, hcode₀⟩
      · exact .grown (hlinker.trans hlinker₀) (IsTrans.trans _ _ _ hcode₀ hcode)
      · exact .replayed hreplays (hlinker.trans hlinker₀) (IsTrans.trans _ _ _ hcode₀ hcode)
    · rw [entries_of_link h.link] at hreplays
      exact .replayed hreplays hlinker hcode

/-- A linker that is made again has the names of the entries. -/
theorem Relinked.linker {s t : Setting} (h : Relinked s t) :
    t.vm.linker = s.vm.linker ∨
      t.vm.linker.names = s.vm.entries.flatMap fun e => e.2.names e.1 := by
  rcases h.stock with ⟨hlinker, -⟩ | ⟨hreplays, hlinker, -⟩
  · exact .inl hlinker
  · rw [hlinker]
    exact .inr hreplays.continues.names_eq

/-- Something that the link environment does not take part in. -/
theorem relinked_of_eq {s t : Setting} (hlink : t.link = s.link)
    (hlinker : t.vm.linker = s.vm.linker) (hcode : t.vm.store.code = s.vm.store.code) :
    Relinked s t :=
  ⟨hlink, .grown hlinker (hcode ▸ Std.Refl.refl _)⟩

theorem Works.link {s t : Setting} (h : Works s t) : t.link = s.link :=
  congrArg Record.link h.record

namespace Action

variable {α : Type}

/-- Validation is about the main module alone. -/
theorem keeps_aside_validate : Keeps (SameBy Setting.aside) validate := by
  refine keeps_vm.bind fun vm => ?_
  split
  · exact keeps_vm.bind fun _ => Keeps.throw _
  · exact Keeps.pure _
  · exact Keeps.pure _
  · refine keeps_vm.bind fun vm => ?_
    split
    · exact keeps_vm.bind fun _ => Keeps.throw _
    · refine Keeps.bind (keeps_vm.bind fun _ => keeps_ofExcept _ _) fun m => ?_
      exact Keeps.bind (keeps_modifyVm fun _ => rfl) fun _ => keeps_modifyVm fun _ => rfl

/-- So is letting go of the instance. -/
theorem keeps_aside_deactivate : Keeps (SameBy Setting.aside) deactivate := by
  refine keeps_vm.bind fun vm => ?_
  split
  · exact Keeps.bind (keeps_modifyVm fun _ => rfl) fun _ => keeps_modifyVm fun _ => rfl
  · exact Keeps.pure _

theorem keeps_relinked_of_works {x : Action α} (h : Keeps Works x) (hl : Keeps SameLinker x) :
    Keeps Relinked x :=
  fun s => ⟨(h s).link, .grown (hl s) (h s).code⟩

theorem keeps_relinked_of_aside {x : Action α} (h : Keeps (SameBy Setting.aside) x) :
    Keeps Relinked x := by
  refine h.mono fun s t (hst : t.aside = s.aside) => relinked_of_eq ?_ ?_ ?_
  · change t.aside.link = s.aside.link
    rw [hst]
  · change t.aside.vm.linker = s.aside.vm.linker
    rw [hst]
  · change t.aside.vm.store.code = s.aside.vm.store.code
    rw [hst]

theorem keeps_relinked_rebuild : Keeps Relinked rebuild := by
  refine Keeps.intro (fun s _ t ht => ?_) fun s e t ht => ?_
  · obtain ⟨u, hreplays, rfl⟩ := (rebuild_post s).ok ht
    exact ⟨hreplays.builds.link, .replayed hreplays rfl (Std.Refl.refl _)⟩
  · obtain ⟨hvm, -⟩ := (rebuild_post s).error ht
    refine relinked_of_eq ?_ ?_ ?_
    · rw [Setting.link, hvm]
      rfl
    · rw [hvm]
    · rw [hvm]

theorem keeps_relinked_reset : Keeps Relinked reset := by
  intro s
  rw [ending_of_ok (run_reset s)]
  have hcleared : Relinked s { s with vm := cleared s.vm } := relinked_of_eq rfl rfl rfl
  split
  · exact IsTrans.trans _ _ _ hcleared (keeps_relinked_rebuild { s with vm := cleared s.vm })
  · exact hcleared

theorem keeps_relinked_load (source : Source) : Keeps Relinked (load source) := by
  refine keeps_relinked_reset.bind fun _ => ?_
  refine Keeps.bind (Keeps.get.bind fun _ => keeps_ofExcept _ _) fun image => ?_
  refine Keeps.bind (keeps_modifyVm fun _ => relinked_of_eq rfl rfl rfl) fun _ => ?_
  exact keeps_modifyVm fun _ => relinked_of_eq rfl rfl rfl

theorem keeps_relinked_start (m : Module) : Keeps Relinked (start m) := by
  have rest : Keeps Relinked (refresh >>= fun _ =>
      modifyVm (fun vm => { vm with stale := true }) >>= fun _ => instance? m) := by
    refine Keeps.bind (keeps_relinked_of_works (keeps_works keeps_refresh) keeps_linker_refresh)
      fun _ => ?_
    refine Keeps.bind (keeps_modifyVm fun _ => relinked_of_eq rfl rfl rfl) fun _ => ?_
    exact keeps_relinked_of_works (keeps_works (keeps_instance? m)) (keeps_linker_instance? m)
  rw [start_eq]
  refine (keeps_relinked_of_aside keeps_aside_deactivate).bind fun _ =>
    Keeps.bind ?_ fun index => ?_
  · refine keeps_vm.bind fun vm => ?_
    dsimp only
    split
    · exact keeps_relinked_rebuild.bind fun _ => rest
    · exact rest
  · refine Keeps.bind (keeps_modifyVm fun _ => relinked_of_eq rfl rfl rfl) fun _ => ?_
    exact keeps_modifyVm fun _ => relinked_of_eq rfl rfl rfl

theorem keeps_relinked_instantiate : Keeps Relinked instantiate := by
  intro s
  have refused : Keeps Relinked (refuseStage (α := Unit) "instantiate") :=
    keeps_vm.bind fun _ => Keeps.throw _
  refine Keeps.of_run_eq ?_ (run_instantiate s)
  split
  · exact refused
  · refine (keeps_relinked_of_aside keeps_aside_validate).bind fun _ => keeps_vm.bind fun vm => ?_
    split
    · exact refused
    · exact keeps_relinked_start _

theorem keeps_relinked_execute (name : String) (args : List Value) :
    Keeps Relinked (execute name args) :=
  keeps_relinked_of_works (keeps_execute name args) (keeps_linker_execute name args)

theorem keeps_relinked_executeRegistered (moduleName name : String) (args : List Value) :
    Keeps Relinked (executeRegistered moduleName name args) :=
  keeps_relinked_of_works (keeps_executeRegistered moduleName name args)
    (keeps_linker_executeRegistered moduleName name args)

theorem keeps_relinked_run (source : Source) (name : String) (args : List Value) :
    Keeps Relinked (run source name args) := by
  refine (keeps_relinked_load source).bind fun _ => ?_
  refine (keeps_relinked_of_aside keeps_aside_validate).bind fun _ => ?_
  exact keeps_relinked_instantiate.bind fun _ => keeps_relinked_execute name args

/-- On a store that has seen a main module, the next one is instantiated after a rebuild only. -/
theorem instantiate_rebuilds {s t : Setting} (hstale : s.vm.stale = true)
    (h : EStateM.run instantiate s = .ok () t) :
    ∃ u v, u.aside = s.aside ∧ EStateM.run rebuild u = .ok () v := by
  rw [run_instantiate] at h
  split at h
  · cases h
  · obtain ⟨_, u, hu, h⟩ := run_bind_eq_ok.mp h
    have hu' : u.aside = s.aside := keeps_aside_validate.ok hu
    obtain ⟨vm, _, hvm, h⟩ := run_bind_eq_ok.mp h
    cases hvm
    split at h
    · cases h
    · rename_i m _
      rw [start_eq] at h
      obtain ⟨_, v, hv, h⟩ := run_bind_eq_ok.mp h
      have hv' : v.aside = u.aside := keeps_aside_deactivate.ok hv
      obtain ⟨_, _, h, -⟩ := run_bind_eq_ok.mp h
      obtain ⟨vm, _, hvm, h⟩ := run_bind_eq_ok.mp h
      cases hvm
      have hvs : v.vm.stale = true := by
        change v.aside.vm.stale = true
        rw [hv', hu']
        exact hstale
      rw [if_pos hvs] at h
      obtain ⟨_, w, hw, -⟩ := run_bind_eq_ok.mp h
      exact ⟨v, w, hv'.trans hu', hw⟩

end Action

/-- What an operation does to the link environment of a machine. -/
inductive LinkStep (s : Setting) (o : Operation) : Except RuntimeError Unit → Setting → Prop
  | relinked {r : Except RuntimeError Unit} {t : Setting} (h : Relinked s t) : LinkStep s o r t
  /-- A module is registered. -/
  | module {name : String} {m : Module} {u : Setting} (registers : o.registers = true)
      (enters : o.Enters s (name, .module m)) (named : name.isEmpty = false)
      (free : s.vm.registered? name = none) (linked : LinksModule name m s u) :
      LinkStep s o (.ok ()) (u.entered name (.module m))
  /-- An import object is registered. -/
  | imports {name : String} {linked : LinkedImports} {store : Store} {linker : Linker} {c : Context}
      {functions : List (String × Signature)} (registers : o.registers = true)
      (enters : o.Enters s (name, .imports linked functions)) (named : name.isEmpty = false)
      (free : s.vm.registered? name = none)
      (defined : linked.define s.vm.store s.vm.linker = .ok (store, linker)) :
      LinkStep s o (.ok ()) ((s.furnished linked store linker c).entered name
        (.imports linked functions))
  /-- An import object is stranded. -/
  | stranded {object : Host.ImportObject} {key : Host.EnvironmentKey} {e : RuntimeError}
      {linked : LinkedImports} {store : Store} {linker : Linker} (registers : o.registers = true)
      (h : Strands s object key) (system : linked.environment = some key)
      (defined : linked.define s.vm.store s.vm.linker = .ok (store, linker)) :
      LinkStep s o (.error e) (strand s key store linker)

/-- **Every operation does one of these things.** -/
theorem linkStep (s : Setting) (o : Operation) : Post o.perform s (LinkStep s o) := by
  have of_keeps : ∀ {x : Action Unit}, Keeps Relinked x → Post x s (LinkStep s o) :=
    fun h => .relinked (h s)
  have discard : ∀ {α : Type} {x : Action α}, Keeps Relinked x →
      Keeps Relinked (x >>= fun _ => pure ()) := fun h => h.bind fun _ => Keeps.pure _
  cases o with
  | load source => exact of_keeps (Action.keeps_relinked_load source)
  | validate => exact of_keeps (Action.keeps_relinked_of_aside Action.keeps_aside_validate)
  | instantiate => exact of_keeps Action.keeps_relinked_instantiate
  | execute name args => exact of_keeps (discard (Action.keeps_relinked_execute name args))
  | executeRegistered moduleName name args =>
    exact of_keeps (discard (Action.keeps_relinked_executeRegistered moduleName name args))
  | run source name args => exact of_keeps (discard (Action.keeps_relinked_run source name args))
  | cleanup => exact of_keeps Action.keeps_relinked_reset
  | amendStatistics f => exact .relinked (relinked_of_eq rfl rfl rfl)
  | amendContext f => exact .relinked (relinked_of_eq rfl rfl rfl)
  | amendWasi f => exact .relinked (relinked_of_eq rfl rfl rfl)
  | register name source =>
    refine Post.intro (fun _ t ht => ?_) fun e t ht => ?_
    · obtain ⟨hnamed, hfree, image, m, u, himage, hm, hlinks, rfl⟩ :=
        (Action.register_post name source s).ok ht
      exact .module rfl ⟨rfl, image, himage, hm⟩ hnamed hfree hlinks
    · obtain ⟨hbuilds, hlinker⟩ := (Action.register_post name source s).error ht
      exact .relinked ⟨hbuilds.link, .grown hlinker hbuilds.code⟩
  | registerImport object =>
    have hstep := importStep s object
    change LinkStep s _ (outcome (Action.registerImport object) s)
      (ending (Action.registerImport object) s)
    generalize outcome (Action.registerImport object) s = r,
      ending (Action.registerImport object) s = t at hstep ⊢
    cases hstep with
    | refused => exact .relinked (Std.Refl.refl s)
    | entered named free snapshot defined =>
      exact .imports rfl ⟨rfl, snapshot⟩ named free defined
    | stranded strands system defined => exact .stranded rfl strands system defined

theorem linkStep_after (s : Setting) (o : Operation) : LinkStep s o (s.answer o) (s.after o) :=
  linkStep s o

/-- No operation changes the configuration. -/
theorem config_after (s : Setting) (o : Operation) : (s.after o).vm.config = s.vm.config := by
  have hstep := linkStep_after s o
  generalize s.answer o = r, s.after o = t at hstep
  cases hstep with
  | relinked h => exact congrArg LinkRecord.config h.link
  | module _ _ _ _ linked => exact linked.config
  | imports => rfl
  | stranded => rfl

/-! ## The link environment of reachable machines -/

/-- What holds of the link environment of every reachable machine. -/
structure Linked (vm : Vm) : Prop where
  listed : vm.Listed
  /-- There is an operation that registers the entry whatever the host has become. -/
  again : ∀ e ∈ vm.entries, ∃ o : Operation, ∀ u : Setting, u.vm.config = vm.config → o.Enters u e
  /-- If functions of the system interface are registered, they are all linked, and the environment
  that they came with is attached. -/
  attached : ∀ name linked functions key, (name, .imports linked functions) ∈ vm.entries →
    linked.environment = some key → vm.environment = some key ∧
      ∀ c ∈ Wasi.Syscall.all, (Wasi.moduleName, c.name) ∈ vm.linker.names

theorem linked_empty (config : VmConfig) (id : StoreId) : Linked (Vm.empty config id) where
  listed := ⟨List.nodup_nil, fun _ => iff_of_false List.not_mem_nil nofun, nofun⟩
  again := nofun
  attached := nofun

/-- What is registered under the same names in the same order. -/
theorem Listed.of_eq {vm vm' : Vm} (h : vm.Listed) (hregistered : vm'.registered = vm.registered)
    (horder : vm'.linkOrder = vm.linkOrder) : vm'.Listed := by
  refine ⟨horder ▸ h.nodup, fun name => ?_, fun name hname => h.named name (horder ▸ hname)⟩
  rw [horder, registered?, hregistered]
  exact h.mem_iff name

namespace Linked

variable {s t : Setting}

theorem relinked (h : s.vm.Linked) (hst : Relinked s t) : t.vm.Linked := by
  have hentries : t.vm.entries = s.vm.entries := entries_of_link hst.link
  have hconfig : t.vm.config = s.vm.config := congrArg LinkRecord.config hst.link
  have henvironment : t.vm.environment = s.vm.environment :=
    congrArg LinkRecord.environment hst.link
  refine ⟨?_, ?_, fun name linked functions key he hkey => ?_⟩
  · exact h.listed.of_eq (congrArg LinkRecord.registered hst.link)
      (congrArg LinkRecord.linkOrder hst.link)
  · rw [hentries, hconfig]
    exact h.again
  · rw [hentries] at he
    obtain ⟨hattached, hlinked⟩ := h.attached name linked functions key he hkey
    refine ⟨henvironment.trans hattached, fun c hc => ?_⟩
    -- The linker is the same, or has been made again from entries that hold these names.
    rcases hst.linker with hsame | hnames
    · rw [hsame]
      exact hlinked c hc
    · rw [hnames]
      refine List.mem_flatMap_of_mem he ?_
      change _ ∈ linked.names
      rw [LinkedImports.names, hkey]
      exact List.mem_map_of_mem hc

/-- One more entry, with all that the entries before it have and need. -/
theorem entered (h : s.vm.Linked) {name : String} {entry : Registered}
    (hnamed : name.isEmpty = false) (hfree : s.vm.registered? name = none)
    (hregistered : t.vm.registered = s.vm.registered) (horder : t.vm.linkOrder = s.vm.linkOrder)
    (hconfig : t.vm.config = s.vm.config)
    (hagain : ∃ o : Operation, ∀ u : Setting, u.vm.config = s.vm.config → o.Enters u (name, entry))
    (hlinker : ∃ names, s.vm.linker.Continues t.vm.linker names)
    (hold : (∀ c ∈ Wasi.Syscall.all, (Wasi.moduleName, c.name) ∈ s.vm.linker.names) →
      t.vm.environment = s.vm.environment)
    (hnew : ∀ linked functions key, entry = .imports linked functions →
      linked.environment = some key → t.vm.environment = some key ∧
        ∀ c ∈ Wasi.Syscall.all, (Wasi.moduleName, c.name) ∈ t.vm.linker.names) :
    (t.entered name entry).vm.Linked := by
  have hlisted : t.vm.Listed := h.listed.of_eq hregistered horder
  have hfree' : t.vm.registered? name = none := by
    rw [registered?, hregistered]
    exact hfree
  have hentries : (t.entered name entry).vm.entries = s.vm.entries ++ [(name, entry)] := by
    rw [← entries_of_eq hregistered horder]
    exact hlisted.entries_entered hfree' entry
  obtain ⟨names, hnames⟩ := hlinker
  refine ⟨hlisted.entered hnamed hfree' entry, fun e he => ?_, ?_⟩
  · change ∃ o : Operation, ∀ u : Setting, u.vm.config = t.vm.config → o.Enters u e
    rw [hconfig]
    rw [hentries] at he
    rcases List.mem_append.mp he with he | he
    · exact h.again e he
    · rw [List.mem_singleton.mp he]
      exact hagain
  · intro other linked functions key he hkey
    rw [hentries] at he
    rcases List.mem_append.mp he with he | he
    -- What an earlier entry has linked stays linked, which keeps the environment from changing.
    · obtain ⟨hattached, hlinked⟩ := h.attached other linked functions key he hkey
      refine ⟨(hold hlinked).trans hattached, fun c hc => ?_⟩
      change _ ∈ t.vm.linker.names
      rw [hnames.names_eq]
      exact List.mem_append_left _ (hlinked c hc)
    · cases List.mem_singleton.mp he
      exact hnew linked functions key rfl hkey

/-- A registered import object is linked with its environment, or with the one before. -/
theorem imports (h : s.vm.Linked) {name : String} {linked : LinkedImports} {store : Store}
    {linker : Linker} (c : Context) (functions : List (String × Signature))
    (hnamed : name.isEmpty = false) (hfree : s.vm.registered? name = none)
    (hagain : ∃ o : Operation, ∀ u : Setting, u.vm.config = s.vm.config →
      o.Enters u (name, .imports linked functions))
    (hd : linked.define s.vm.store s.vm.linker = .ok (store, linker)) :
    ((s.furnished linked store linker c).entered name (.imports linked functions)).vm.Linked := by
  have hcontinues := (LinkedImports.define_ok hd).2
  refine h.entered hnamed hfree rfl rfl rfl hagain ⟨_, hcontinues⟩ (fun hall => ?_) ?_
  · cases hkey : linked.environment with
    | none =>
      change linked.environment.or s.vm.environment = s.vm.environment
      rw [hkey]
      rfl
    | some key =>
      -- All of it is linked already, so that it could not have been linked once more.
      have hnot := (LinkedImports.define_system_iff hkey _ _).mp ⟨_, hd⟩
      exact absurd (hall .argsGet (by decide)) (hnot .argsGet (by decide))
  · rintro _ _ key ⟨⟩ hkey
    refine ⟨?_, fun c hc => ?_⟩
    · change linked.environment.or s.vm.environment = some key
      rw [hkey]
      rfl
    · change _ ∈ linker.names
      rw [hcontinues.names_eq, LinkedImports.names, hkey]
      exact List.mem_append_right _ (List.mem_map_of_mem hc)

end Linked

/-- Whatever the host has become, an operation that has entered something can be done again, if it
is given the image instead of the place that it came from. -/
theorem Operation.Enters.again {s : Setting} {o : Operation} {e : String × Registered}
    (h : o.Enters s e) :
    ∃ o : Operation, ∀ u : Setting, u.vm.config = s.vm.config → o.Enters u e := by
  obtain ⟨name, entry⟩ := e
  cases o with
  | register name' source =>
    cases entry with
    | module m =>
      obtain ⟨hname, image, -, hm⟩ := h
      refine ⟨.register name' (.image image), fun u hu => ⟨hname, image, rfl, ?_⟩⟩
      rw [hu]
      exact hm
    | imports linked functions => exact absurd h id
  | registerImport object =>
    cases entry with
    | module m => exact absurd h id
    | imports linked functions => exact ⟨.registerImport object, fun _ _ => h⟩
  | _ => exact absurd h id

theorem invariant_linked : Invariant Linked where
  empty := linked_empty
  enableWasi config id host e t h := by
    obtain ⟨v, hv, rfl⟩ := enableWasi_ok h
    obtain ⟨linked, store, linker, c, functions, hsnap, hd, rfl⟩ := Action.link_ok hv
    have hempty : Linked (Vm.empty config id) := linked_empty config id
    have h := hempty.imports (s := ⟨Vm.empty config id, (host.newWasiObject e).2⟩) c functions
      (by decide : Wasi.moduleName.isEmpty = false) rfl
      ⟨.registerImport (host.newWasiObject e).1, fun _ _ => ⟨rfl, hsnap⟩⟩ hd
    exact ⟨⟨h.listed.nodup, h.listed.mem_iff, h.listed.named⟩, h.again, h.attached⟩
  operate s o h := by
    have hstep := linkStep_after s o
    generalize s.answer o = r, s.after o = t at hstep
    cases hstep with
    | relinked hst => exact h.relinked hst
    | @module name m u _ enters named free linked =>
      obtain ⟨items, i, -, -, hdefine⟩ := linked.linked
      exact h.entered named free linked.registered linked.linkOrder linked.config enters.again
        ⟨_, Linker.continues_defineAll hdefine⟩ (fun _ => linked.environment) nofun
    | imports _ enters named free defined =>
      exact h.imports _ _ named free enters.again defined
    | @stranded object key e linked store linker _ hkey system defined =>
      refine ⟨⟨h.listed.nodup, h.listed.mem_iff, h.listed.named⟩, h.again, ?_⟩
      -- Nothing strands where functions of the system interface are registered.
      intro name linked functions other he hother
      obtain ⟨-, hlinked⟩ := h.attached name linked functions other he hother
      exact absurd (hlinked .argsGet (by decide)) (hkey.undefined .argsGet (by decide))

/-- A new machine that has linked the built-in import object has nothing else. -/
theorem entries_enableWasi {config : VmConfig} {id : StoreId} {host : Host} {e : Wasi.Environment}
    {t : Setting} (h : EStateM.run (enableWasi e) ⟨Vm.empty config id, host⟩ = .ok () t) :
    ∃ linked functions, t.vm.entries = [(Wasi.moduleName, .imports linked functions)] ∧
      t.vm.linker.names = linked.names ∧ t.vm.linkOrder = [Wasi.moduleName] := by
  obtain ⟨v, hv, rfl⟩ := enableWasi_ok h
  obtain ⟨linked, store, linker, c, functions, -, hd, rfl⟩ := Action.link_ok hv
  exact ⟨linked, functions, rfl, (LinkedImports.define_ok hd).2.names_eq, rfl⟩

/-- An entry comes behind those that were there when it was linked. -/
theorem Listed.entries_appended {s u : Setting} (h : s.vm.Listed) {name : String}
    (entry : Registered) (hfree : s.vm.registered? name = none)
    (hregistered : u.vm.registered = s.vm.registered) (horder : u.vm.linkOrder = s.vm.linkOrder) :
    (u.entered name entry).vm.entries = s.vm.entries ++ [(name, entry)] := by
  rw [← entries_of_eq hregistered horder]
  refine (h.of_eq hregistered horder).entries_entered ?_ entry
  rw [registered?, hregistered]
  exact hfree

/-- **An operation appends the entry that it registers, or leaves the entries alone.** -/
theorem entries_after {s : Setting} (h : s.vm.Listed) (o : Operation) :
    (s.after o).vm.entries = s.vm.entries ∨ ∃ e, o.Enters s e ∧ s.answer o = .ok () ∧
      (s.after o).vm.entries = s.vm.entries ++ [e] := by
  have hstep := linkStep_after s o
  generalize s.answer o = r, s.after o = t at hstep
  cases hstep with
  | relinked hst => exact .inl (entries_of_link hst.link)
  | module _ enters _ free linked =>
    exact .inr ⟨_, enters, rfl, h.entries_appended _ free linked.registered linked.linkOrder⟩
  | imports _ enters _ free _ =>
    exact .inr ⟨_, enters, rfl, h.entries_appended _ free rfl rfl⟩
  | stranded => exact .inl rfl

/-! ## Rebuilding -/

/-- A rebuild of `s` has succeeded and left `t`: the entries have been replayed from a new store
and a linker without names, and logs and exit code are taken over. -/
structure Rebuilt (s t : Setting) : Prop where
  replayed : ∃ u, Replays s.vm.entries (Action.blank s) u ∧ t = ⟨Action.inherit s.vm u.vm, u.host⟩
  names : t.vm.linker.names = s.vm.entries.flatMap fun e => e.2.names e.1
  logs : t.vm.logs = s.vm.logs
  exitCode : t.vm.exitCode = s.vm.exitCode
  stale : t.vm.stale = false

/-- A rebuild of `s` has failed with `e` and left `t`: an entry could not be replayed after those
before it, and the machine has spent fuel at most. -/
structure RolledBack (s : Setting) (e : RuntimeError) (t : Setting) : Prop where
  failed : ∃ done name entry rest u v, s.vm.entries = done ++ (name, entry) :: rest ∧
    Replays done (Action.blank s) u ∧ EStateM.run (Action.replay name entry) u = .error e v ∧
    t.host = v.host
  same : t.vm = { s.vm with statistics := t.vm.statistics }
  /-- Only another rebuild makes the machine instantiate a module. -/
  retried : s.vm.stale = true → ∀ w, EStateM.run Action.instantiate t = .ok () w →
    ∃ u v, u.aside = t.aside ∧ EStateM.run Action.rebuild u = .ok () v

/-- **A rebuild is a transaction.**  The order of registration is one of exactly the registered
names, and an operation appends the entry that it registers or leaves the entries alone.  A rebuild
replays these entries, all of them or none, and changes nothing that the machine has on record. -/
theorem rebuild_transaction {s : Setting} (h : Reachable s) :
    s.vm.Listed ∧ s.vm.entries.map Prod.fst = s.vm.linkOrder ∧
    (∀ o : Operation, (s.after o).vm.entries = s.vm.entries ∨
      ∃ e, o.Enters s e ∧ s.answer o = .ok () ∧ (s.after o).vm.entries = s.vm.entries ++ [e]) ∧
    Post Action.rebuild s fun r t =>
      t.vm.record = s.vm.record ∧ s.vm.statistics.Spends t.vm.statistics ∧
      match r with
      | .ok _ => Rebuilt s t
      | .error e => RolledBack s e t := by
  have hlisted : s.vm.Listed := (invariant_linked.reachable h).listed
  refine ⟨hlisted, hlisted.names_entries, entries_after hlisted, ?_⟩
  refine Post.intro (fun _ t ht => ?_) fun e t ht => ?_
  · obtain ⟨hrecord, hspends⟩ := Action.keeps_rebuild.ok ht
    obtain ⟨u, hreplays, rfl⟩ := (Action.rebuild_post s).ok ht
    exact ⟨hrecord, hspends, ⟨u, hreplays, rfl⟩, hreplays.continues.names_eq, rfl, rfl, rfl⟩
  · obtain ⟨hrecord, hspends⟩ := Action.keeps_rebuild.error ht
    obtain ⟨hvm, hfailed⟩ := (Action.rebuild_post s).error ht
    refine ⟨hrecord, hspends, hfailed, hvm, fun hstale w hw => ?_⟩
    refine Action.instantiate_rebuilds ?_ hw
    rw [hvm]
    exact hstale

/-- The bytes of a module that exports a global. -/
def globalBytes : List UInt8 :=
  emptyBytes ++ [6, 6, 1, 0x7f, 0, 0x41, 7, 0x0b] ++ [7, 5, 1, 1, 0x67, 3, 0]

/-- A new machine after such a module has been registered. -/
def globalRegistered : Setting :=
  Setting.after ⟨empty {} ⟨0⟩, (Host.newStore {}).2⟩ (.register "lib" (.bytes globalBytes))

theorem reachable_globalRegistered : Reachable globalRegistered := by
  have hnew : Vm.new {} {} = (.ok (empty {} ⟨0⟩), (Host.newStore {}).2) := rfl
  exact .operate (.new hnew) _

/-- The registered module is linked again on another store. -/
theorem rebuild_transaction_globalRegistered :
    ∃ t, EStateM.run Action.rebuild globalRegistered = .ok () t ∧ Rebuilt globalRegistered t ∧
      t.vm.store.id = ⟨1⟩ ∧ t.vm.linker.names = [("lib", "g")] := by
  obtain ⟨-, -, -, hpost⟩ := rebuild_transaction reachable_globalRegistered
  have hrun : EStateM.run Action.rebuild globalRegistered =
      .ok () (ending Action.rebuild globalRegistered) := run_of_isOk (by decide +kernel)
  exact ⟨_, hrun, (hpost.ok hrun).2.2, by decide +kernel, by decide +kernel⟩

end Vm

end WasmEmbedding
