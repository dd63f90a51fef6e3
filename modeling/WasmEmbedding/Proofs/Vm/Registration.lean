import WasmEmbedding.Proofs.Keyed
import WasmEmbedding.Proofs.Vm.Reachable

/-! # Registration

What a registration leaves behind, success and failure apart.  Until the entry is put into the link
environment nothing of the machine's record changes, and the linker is replaced only when all names
of an entry are defined: for a module at the very end (`LinksModule`), for an import object before
the session of the system interface is started anew.  A session that cannot be started is therefore
the one failure that leaves something behind (`Strands`), and the registration of an import object
comes to one of three things (`ImportStep`).

All that is said later of registrations splits on these and does not look at the code again.  The
cases of a module and of an import object are kept apart because they commit at different points:
what a module has defined is in the linker and in the registry of the machine at once, and what
an import object for the system interface has defined is in the linker before anybody knows whether
it can be registered.  `failed_registration` says for both what a failure leaves as it was, and
`registration_leaves_trace` is a machine on which a second registration fails because of what the
first has left.
-/
namespace WasmEmbedding.Vm

open Engine Wasm

/-- A machine that has one more entry in its link environment. -/
def entered (vm : Vm) (name : String) (entry : Registered) : Vm :=
  { vm with
    registered := (name, entry) :: vm.registered.filter fun e => e.1 ≠ name
    linkOrder := vm.linkOrder ++ [name] }

/-- The same for the machine of a setting. -/
def Setting.entered (s : Setting) (name : String) (entry : Registered) : Setting :=
  { s with vm := s.vm.entered name entry }

/-- A machine under another environment of the system interface. -/
def Setting.attach (s : Setting) (key : Host.EnvironmentKey) : Setting :=
  { s with vm := { s.vm with environment := some key } }

/-- A setting after an import object has been defined and its environment, if it has one, has been
attached. -/
def Setting.furnished (s : Setting) (linked : LinkedImports) (store : Store) (linker : Linker)
    (c : Context) : Setting :=
  Action.withContext { s with vm := { s.vm with
    store, linker, environment := linked.environment.or s.vm.environment } } c

/-- An entry changes what is registered under its own name. -/
theorem registered?_entered (vm : Vm) (name other : String) (entry : Registered) :
    (vm.entered name entry).registered? other =
      if other = name then some entry else vm.registered? other := by
  unfold entered registered?
  by_cases h : other = name
  · rw [if_pos h, List.lookup_cons, beq_iff_eq.mpr h]
  · rw [if_neg h, List.lookup_cons, beq_false_of_ne h]
    exact lookup_filter_ne h _

/-- A module has been linked under a name: it has become an instance behind those of the store,
its imports stand for what the linker had, and its exports are defined behind what the linker
had. -/
structure LinksModule (name : String) (m : Module) (s t : Setting) : Prop extends Builds s t where
  linked : ∃ (items : List Item) (i : Instance),
    s.vm.linker.resolve s.vm.store m = .ok items ∧
      t.vm.store.code.Realizes s.vm.store.instances.size m items i ∧
      s.vm.linker.defineAll name i.exports = some t.vm.linker

namespace Action

/-! ## Names -/

theorem run_checkName (name : String) (s : Setting) :
    EStateM.run (checkName name) s =
      if name.isEmpty then .error (.link .emptyModuleName) s
      else if (s.vm.registered? name).isSome then .error (.link (.duplicateModule name)) s
      else .ok () s := by
  by_cases hempty : name.isEmpty
  · rw [if_pos hempty]
    unfold checkName
    rw [if_pos hempty]
    rfl
  · rw [if_neg hempty]
    unfold checkName
    rw [if_neg hempty]
    by_cases hsome : (s.vm.registered? name).isSome
    · rw [if_pos hsome]
      change EStateM.run (if (s.vm.registered? name).isSome then _ else _) s = _
      rw [if_pos hsome]
      rfl
    · rw [if_neg hsome]
      change EStateM.run (if (s.vm.registered? name).isSome then _ else _) s = _
      rw [if_neg hsome]
      rfl

/-- A name that passes is not empty, and nothing is registered under it. -/
theorem checkName_post (name : String) (s : Setting) :
    Post (checkName name) s fun r t => t = s ∧
      match r with
      | .ok _ => name.isEmpty = false ∧ s.vm.registered? name = none
      | .error e => ∃ f, e = .link f := by
  unfold Post outcome ending
  rw [run_checkName]
  by_cases hempty : name.isEmpty
  · rw [if_pos hempty]
    exact ⟨rfl, _, rfl⟩
  · rw [if_neg hempty]
    by_cases hsome : (s.vm.registered? name).isSome
    · rw [if_pos hsome]
      exact ⟨rfl, _, rfl⟩
    · rw [if_neg hsome]
      exact ⟨rfl, Bool.eq_false_iff.mpr hempty, Option.not_isSome_iff_eq_none.mp hsome⟩

/-! ## Modules -/

/-- **A module is linked altogether or its names are not defined at all.** -/
theorem instantiateRegistered_post (name : String) (m : Module) (s : Setting) :
    Post (instantiateRegistered name m) s fun r t => Builds s t ∧
      match r with
      | .ok _ => LinksModule name m s t
      | .error e => e.OfLinking ∧ t.vm.linker = s.vm.linker := by
  suffices h : Post (instantiateRegistered name m) s fun r t =>
      match r with
      | .ok _ => ∃ (items : List Item) (i : Instance),
          s.vm.linker.resolve s.vm.store m = .ok items ∧
            t.vm.store.code.Realizes s.vm.store.instances.size m items i ∧
            s.vm.linker.defineAll name i.exports = some t.vm.linker
      | .error _ => t.vm.linker = s.vm.linker by
    refine Post.intro (fun _ t ht => ?_) fun e t ht => ?_
    · have hbuilds : Builds s t := (keeps_instantiateRegistered name m).ok ht
      exact ⟨hbuilds, hbuilds, h.ok ht⟩
    · exact ⟨(keeps_instantiateRegistered name m).error ht,
        throws_instantiateRegistered name m _ _ _ ht, h.error ht⟩
  refine Post.bind (fun _ t ht => ?_) fun e t ht => ?_
  · obtain ⟨c, rfl, -⟩ := (refresh_post s).ok ht
    refine Post.bind (fun index u hu => ?_) fun e u hu => ?_
    · have hlinker : u.vm.linker = (withContext s c).vm.linker := (keeps_linker_instance? m).ok hu
      obtain ⟨rfl, items, i, hitems, hi⟩ := instance?_ok hu
      refine Post.bind (fun vm v hv => ?_) fun e v hv => nomatch hv
      cases hv
      have hexports :
          (u.vm.store.instances[(withContext s c).vm.store.instances.size]?.getD {}).exports =
            i.exports := by
        have hfound : u.vm.store.instances[(withContext s c).vm.store.instances.size]? = some i :=
          hi.instance_eq
        rw [hfound]
        rfl
      change u.vm.linker = s.vm.linker at hlinker
      rw [hexports, hlinker]
      cases hd : s.vm.linker.defineAll name i.exports with
      | some linker => exact Post.of_ok rfl ⟨items, i, hitems, hi, hd⟩
      | none => exact Post.of_error rfl hlinker
    · have hlinker : u.vm.linker = (withContext s c).vm.linker :=
        (keeps_linker_instance? m).error hu
      exact hlinker
  · rw [(refresh_post s).error ht]

/-! ## Import objects -/

/-- What committing comes to. -/
theorem run_commit (o : Host.ImportObject) (linked : LinkedImports) (s : Setting) :
    EStateM.run (commit o linked) s =
      match linked.environment with
      | none => .ok ()
          (s.entered o.moduleName (.imports linked (Host.functionsOf linked.symbols)))
      | some key =>
        match EStateM.run refresh (s.attach key) with
        | .ok _ t => .ok ()
            (t.entered o.moduleName (.imports linked (t.vm.linkedFunctions Wasi.moduleName)))
        | .error e t => .error e t := by
  unfold commit
  cases linked.environment with
  | none => rfl
  | some key =>
    dsimp only
    change EStateM.run (refresh >>= fun _ => vm >>= fun vm =>
      enter o.moduleName (.imports linked (vm.linkedFunctions Wasi.moduleName))) (s.attach key) = _
    rw [EStateM.run_bind]
    cases EStateM.run refresh (s.attach key) <;> rfl

/-- An import object is committed with the environment it brings, or with the one before. -/
theorem commit_ok {o : Host.ImportObject} {linked : LinkedImports} {s t : Setting}
    (h : EStateM.run (commit o linked) s = .ok () t) :
    ∃ c functions, t = (withContext { s with vm := { s.vm with
      environment := linked.environment.or s.vm.environment } } c).entered
        o.moduleName (.imports linked functions) := by
  rw [run_commit] at h
  cases hkey : linked.environment with
  | none =>
    rw [hkey] at h
    cases h
    exact ⟨s.vm.store.context, _, rfl⟩
  | some key =>
    rw [hkey] at h
    dsimp only at h
    cases hrefresh : EStateM.run refresh (s.attach key) with
    | error e u =>
      rw [hrefresh] at h
      cases h
    | ok a u =>
      rw [hrefresh] at h
      cases h
      obtain ⟨c, rfl, -⟩ := (refresh_post _).ok hrefresh
      exact ⟨c, _, rfl⟩

/-- What keeps an import object from being committed is its environment, which is attached by
then. -/
theorem commit_error {o : Host.ImportObject} {linked : LinkedImports} {s t : Setting}
    {e : RuntimeError} (h : EStateM.run (commit o linked) s = .error e t) :
    ∃ key w, linked.environment = some key ∧
      Wasi.Session.start s.host.files (s.host.environment key) = .error w ∧
      e = .wasi w ∧ t = s.attach key := by
  rw [run_commit] at h
  cases hkey : linked.environment with
  | none =>
    rw [hkey] at h
    cases h
  | some key =>
    rw [hkey] at h
    dsimp only at h
    cases hrefresh : EStateM.run refresh (s.attach key) with
    | ok a u =>
      rw [hrefresh] at h
      cases h
    | error f u =>
      rw [hrefresh] at h
      cases h
      obtain ⟨w, hw, rfl, rfl⟩ := (run_refresh_eq_error rfl).mp hrefresh
      exact ⟨key, w, rfl, hw, rfl, rfl⟩

/-- What linking an import object comes to. -/
theorem run_link (o : Host.ImportObject) (s : Setting) :
    EStateM.run (link o) s =
      match o.snapshot with
      | .error e => .error (.link e) s
      | .ok linked =>
        match linked.define s.vm.store s.vm.linker with
        | .error e => .error e s
        | .ok (store, linker) =>
          EStateM.run (commit o linked) { s with vm := { s.vm with store, linker } } := by
  rw [link_eq]
  cases o.snapshot with
  | error e => rfl
  | ok linked =>
    change EStateM.run (define linked >>= fun _ => commit o linked) s = _
    rw [EStateM.run_bind, run_define]
    dsimp only
    cases linked.define s.vm.store s.vm.linker <;> rfl

end Action

/-- An import object for the system interface that passes every check and can be linked, but
under whose environment no session can be started. -/
structure Strands (s : Setting) (o : Host.ImportObject) (key : Host.EnvironmentKey) : Prop where
  named : o.moduleName.isEmpty = false
  free : s.vm.registered? o.moduleName = none
  alive : o.isDeleted = false
  system : o.environment = some key
  undefined : ∀ c ∈ Wasi.Syscall.all, (Wasi.moduleName, c.name) ∉ s.vm.linker.names
  unstartable : ∃ w, Wasi.Session.start s.host.files (s.host.environment key) = .error w

/-- What a stranded registration leaves: the functions of the system interface are linked, and the
environment is attached. -/
def strand (s : Setting) (key : Host.EnvironmentKey) (store : Store) (linker : Linker) : Setting :=
  Setting.attach { s with vm := { s.vm with store, linker } } key

theorem Host.ImportObject.snapshot_eq_ok_iff {o : Host.ImportObject} {linked : LinkedImports} :
    o.snapshot = .ok linked ↔
      ∃ symbols, o.symbols = some symbols ∧ linked = ⟨o.moduleName, symbols, o.environment⟩ := by
  unfold Host.ImportObject.snapshot
  cases o.symbols with
  | none => exact ⟨(nomatch ·), fun ⟨_, h, _⟩ => nomatch h⟩
  | some symbols =>
    constructor
    · rintro ⟨⟩
      exact ⟨symbols, rfl, rfl⟩
    · rintro ⟨_, ⟨⟩, rfl⟩
      rfl

namespace Action

/-- **A failed registration of an import object leaves no trace, unless it strands.** -/
theorem registerImport_error {o : Host.ImportObject} {s t : Setting} {e : RuntimeError}
    (h : EStateM.run (registerImport o) s = .error e t) :
    (t = s ∧ ∀ key, ¬ Strands s o key) ∨ ∃ key, Strands s o key := by
  rcases run_bind_eq_error.mp h with hname | ⟨_, u, hu, hlink⟩
  · obtain ⟨rfl, -⟩ := (checkName_post _ _).error hname
    refine .inl ⟨rfl, fun key hkey => ?_⟩
    rw [run_checkName, hkey.named, hkey.free] at hname
    cases hname
  · obtain ⟨hus, hnamed, hfree⟩ := (checkName_post _ _).ok hu
    rw [hus, run_link] at hlink
    cases hsnap : o.snapshot with
    | error f =>
      rw [hsnap] at hlink
      cases hlink
      refine .inl ⟨rfl, fun key hkey => ?_⟩
      obtain ⟨symbols, hsymbols⟩ := Option.isSome_iff_exists.mp
        (Option.isNone_eq_false_iff.mp hkey.alive)
      have hok := Host.ImportObject.snapshot_eq_ok_iff.mpr ⟨symbols, hsymbols, rfl⟩
      exact nomatch hsnap.symm.trans hok
    | ok linked =>
      rw [hsnap] at hlink
      dsimp only at hlink
      obtain ⟨symbols, hsymbols, rfl⟩ := Host.ImportObject.snapshot_eq_ok_iff.mp hsnap
      cases hd : LinkedImports.define ⟨o.moduleName, symbols, o.environment⟩ s.vm.store
          s.vm.linker with
      | error f =>
        rw [hd] at hlink
        cases hlink
        refine .inl ⟨rfl, fun key hkey => ?_⟩
        obtain ⟨r, hr⟩ := (LinkedImports.define_system_iff (l := ⟨o.moduleName, symbols,
          o.environment⟩) hkey.system _ _).mpr hkey.undefined
        exact nomatch hd.symm.trans hr
      | ok r =>
        obtain ⟨store, linker⟩ := r
        rw [hd] at hlink
        dsimp only at hlink
        obtain ⟨key, w, hkey, hstart, -, rfl⟩ := commit_error hlink
        have hundefined := (LinkedImports.define_system_iff hkey s.vm.store s.vm.linker).mp ⟨_, hd⟩
        have halive : o.isDeleted = false := by rw [Host.ImportObject.isDeleted, hsymbols]; rfl
        exact .inr ⟨key, hnamed, hfree, halive, hkey, hundefined, w, hstart⟩

/-- An import object that is linked has been linked as it was, and is the last entry. -/
theorem link_ok {o : Host.ImportObject} {s t : Setting} (h : EStateM.run (link o) s = .ok () t) :
    ∃ linked store linker c functions, o.snapshot = .ok linked ∧
      linked.define s.vm.store s.vm.linker = .ok (store, linker) ∧
      t = (s.furnished linked store linker c).entered o.moduleName (.imports linked functions) := by
  rw [run_link] at h
  cases hsnap : o.snapshot with
  | error f =>
    rw [hsnap] at h
    cases h
  | ok linked =>
    rw [hsnap] at h
    dsimp only at h
    cases hd : linked.define s.vm.store s.vm.linker with
    | error f =>
      rw [hd] at h
      cases h
    | ok r =>
      obtain ⟨store, linker⟩ := r
      rw [hd] at h
      dsimp only at h
      obtain ⟨c, functions, rfl⟩ := commit_ok h
      exact ⟨linked, store, linker, c, functions, rfl, hd, rfl⟩

/-- A registered import object has been linked under a name that was free. -/
theorem registerImport_ok {o : Host.ImportObject} {s t : Setting}
    (h : EStateM.run (registerImport o) s = .ok () t) :
    o.moduleName.isEmpty = false ∧ s.vm.registered? o.moduleName = none ∧
      EStateM.run (link o) s = .ok () t := by
  obtain ⟨_, u, hu, hlink⟩ := run_bind_eq_ok.mp h
  obtain ⟨rfl, hnamed, hfree⟩ := (checkName_post _ _).ok hu
  exact ⟨hnamed, hfree, hlink⟩

/-- **A module is registered last, or nothing but the store has changed.** -/
theorem register_post (name : String) (source : Source) (s : Setting) :
    Post (register name source) s fun r t =>
      match r with
      | .ok _ => name.isEmpty = false ∧ s.vm.registered? name = none ∧ ∃ image m u,
          s.host.load source = .ok image ∧
          image.validate s.vm.config.engine.features = .ok m ∧
          LinksModule name m s u ∧ t = u.entered name (.module m)
      | .error _ => Builds s t ∧ t.vm.linker = s.vm.linker := by
  have refl : Builds s s := Std.Refl.refl s
  refine Post.bind (fun image t ht => ?_) fun e t ht => ?_
  · obtain ⟨himage, rfl⟩ := run_ofExcept_eq_ok.mp ht
    refine Post.bind (fun _ t ht => ?_) fun e t ht => ?_
    · obtain ⟨rfl, hnamed, hfree⟩ := (checkName_post _ _).ok ht
      refine Post.bind (fun m u hu => ?_) fun e u hu => ?_
      · obtain ⟨hm, rfl⟩ := run_ofExcept_eq_ok.mp hu
        refine Post.bind (fun _ u hu => ?_) fun e u hu => ?_
        · obtain ⟨-, hlinks⟩ := (instantiateRegistered_post name m _).ok hu
          exact Post.of_ok rfl ⟨hnamed, hfree, image, m, u, himage, hm, hlinks, rfl⟩
        · obtain ⟨hbuilds, -, hlinker⟩ := (instantiateRegistered_post name m _).error hu
          exact ⟨hbuilds, hlinker⟩
      · obtain ⟨-, rfl⟩ := run_ofExcept_eq_error.mp hu
        exact ⟨refl, rfl⟩
    · obtain ⟨rfl, -⟩ := (checkName_post _ _).error ht
      exact ⟨refl, rfl⟩
  · obtain ⟨-, rfl⟩ := run_ofExcept_eq_error.mp ht
    exact ⟨refl, rfl⟩

end Action

/-! ## Failed registrations -/

/-- The operation registers something. -/
def Operation.registers : Operation → Bool
  | .register _ _ => true
  | .registerImport _ => true
  | _ => false

/-- The operation registers an import object that strands. -/
def Operation.Stranded (s : Setting) : Operation → Prop
  | .registerImport o => ∃ key, Strands s o key
  | _ => False

/-- Nothing of the system interface can be linked where all of it is. -/
theorem registerImport_system_error {o : Host.ImportObject} {s : Setting} (ho : o.isWasi = true)
    (hs : ∀ c ∈ Wasi.Syscall.all, (Wasi.moduleName, c.name) ∈ s.vm.linker.names) :
    ∃ e, s.answer (.registerImport o) = .error e := by
  obtain ⟨key, hkey⟩ := Option.isSome_iff_exists.mp ho
  unfold Setting.answer
  cases h : EStateM.run (Operation.registerImport o).perform s with
  | error e t => exact ⟨e, outcome_of_error h⟩
  | ok a t =>
    obtain ⟨-, -, hlink⟩ := Action.registerImport_ok h
    obtain ⟨linked, store, linker, -, -, hsnap, hd, -⟩ := Action.link_ok hlink
    obtain ⟨symbols, -, rfl⟩ := Host.ImportObject.snapshot_eq_ok_iff.mp hsnap
    have hfree := (LinkedImports.define_system_iff hkey _ _).mp ⟨_, hd⟩
    exact absurd (hs .argsGet (by decide)) (hfree .argsGet (by decide))

/-- A stranded registration fails, with the system interface linked. -/
theorem system_of_strands {s : Setting} {o : Host.ImportObject} {key : Host.EnvironmentKey}
    (h : Strands s o key) :
    ∃ (w : WasiError) (linked : LinkedImports) (store : Store) (linker : Linker),
      linked.environment = some key ∧
      linked.define s.vm.store s.vm.linker = .ok (store, linker) ∧
      EStateM.run (Action.registerImport o) s = .error (.wasi w) (strand s key store linker) := by
  obtain ⟨symbols, hsymbols⟩ := Option.isSome_iff_exists.mp
    (Option.isNone_eq_false_iff.mp h.alive)
  have hsnap : o.snapshot = .ok ⟨o.moduleName, symbols, o.environment⟩ :=
    Host.ImportObject.snapshot_eq_ok_iff.mpr ⟨symbols, hsymbols, rfl⟩
  rw [h.system] at hsnap
  obtain ⟨⟨store, linker⟩, hd⟩ := (LinkedImports.define_system_iff
    (l := ⟨o.moduleName, symbols, some key⟩) rfl s.vm.store s.vm.linker).mpr h.undefined
  obtain ⟨w, hw⟩ := h.unstartable
  have hrefresh : EStateM.run Action.refresh (strand s key store linker) =
      .error (.wasi w) (strand s key store linker) :=
    (Action.run_refresh_eq_error rfl).mpr ⟨w, hw, rfl, rfl⟩
  have hname : EStateM.run (Action.checkName o.moduleName) s = .ok () s := by
    rw [Action.run_checkName, h.named, h.free]
    rfl
  refine ⟨w, ⟨o.moduleName, symbols, some key⟩, store, linker, rfl, hd, ?_⟩
  change EStateM.run (Action.checkName o.moduleName >>= fun _ => Action.link o) s = _
  rw [run_bind_of_ok hname, Action.run_link, hsnap]
  dsimp only
  rw [hd]
  dsimp only
  rw [Action.run_commit]
  dsimp only
  rw [strand] at hrefresh
  rw [hrefresh]
  rfl

/-- A stranded registration fails, with everything of the import object linked. -/
theorem run_of_strands {s : Setting} {o : Host.ImportObject} {key : Host.EnvironmentKey}
    (h : Strands s o key) :
    ∃ (w : WasiError) (linked : LinkedImports) (store : Store) (linker : Linker), linked.names =
        Wasi.Syscall.all.map (fun c => (Wasi.moduleName, c.name)) ∧
      linked.define s.vm.store s.vm.linker = .ok (store, linker) ∧
      EStateM.run (Action.registerImport o) s = .error (.wasi w) (strand s key store linker) := by
  obtain ⟨w, linked, store, linker, hsystem, hd, hrun⟩ := system_of_strands h
  refine ⟨w, linked, store, linker, ?_, hd, hrun⟩
  rw [LinkedImports.names, hsystem]

/-- What the registration of an import object comes to. -/
inductive ImportStep (s : Setting) (o : Host.ImportObject) :
    Except RuntimeError Unit → Setting → Prop
  /-- It is refused, and leaves no trace. -/
  | refused {e : RuntimeError} (safe : ∀ key, ¬ Strands s o key) : ImportStep s o (.error e) s
  /-- The object is linked, and entered behind what has been registered. -/
  | entered {linked : LinkedImports} {store : Store} {linker : Linker} {c : Context}
      {functions : List (String × Signature)} (named : o.moduleName.isEmpty = false)
      (free : s.vm.registered? o.moduleName = none) (snapshot : o.snapshot = .ok linked)
      (defined : linked.define s.vm.store s.vm.linker = .ok (store, linker)) :
      ImportStep s o (.ok ()) ((s.furnished linked store linker c).entered o.moduleName
        (.imports linked functions))
  /-- The object is linked, and stranded. -/
  | stranded {key : Host.EnvironmentKey} {w : WasiError} {linked : LinkedImports} {store : Store}
      {linker : Linker} (strands : Strands s o key) (system : linked.environment = some key)
      (defined : linked.define s.vm.store s.vm.linker = .ok (store, linker)) :
      ImportStep s o (.error (.wasi w)) (strand s key store linker)

/-- **The registration of an import object does one of these things.** -/
theorem importStep (s : Setting) (o : Host.ImportObject) :
    ImportStep s o (outcome (Action.registerImport o) s) (ending (Action.registerImport o) s) := by
  change Post (Action.registerImport o) s (ImportStep s o)
  refine Post.intro (fun _ t ht => ?_) fun e t ht => ?_
  · obtain ⟨named, free, hlink⟩ := Action.registerImport_ok ht
    obtain ⟨linked, store, linker, c, functions, hsnap, hd, rfl⟩ := Action.link_ok hlink
    exact .entered named free hsnap hd
  · rcases Action.registerImport_error ht with ⟨rfl, safe⟩ | ⟨key, hkey⟩
    · exact .refused safe
    · obtain ⟨w, linked, store, linker, hsystem, hd, hrun⟩ := system_of_strands hkey
      cases ht.symm.trans hrun
      exact .stranded hkey hsystem hd

/-- **A failed registration leaves the main module, the registered names and their order as they
were, and it leaves the linker and the environment of the system interface as they were exactly
if it has not stranded.**  An import object that is refused otherwise leaves no trace at all.  One
that strands has all its functions linked and its environment attached, so that no import object
for the system interface can be registered any more. -/
theorem failed_registration {s : Setting} {o : Operation} {e : RuntimeError}
    (ho : o.registers = true) (he : s.answer o = .error e) :
    (s.after o).vm.main = s.vm.main ∧ (s.after o).vm.registered = s.vm.registered ∧
    (s.after o).vm.linkOrder = s.vm.linkOrder ∧ (s.after o).vm.wasi = s.vm.wasi ∧
    (s.after o).vm.stale = s.vm.stale ∧
    s.vm.store.code.Extends (s.after o).vm.store.code ∧
    ((s.after o).vm.linker = s.vm.linker ∧ (s.after o).vm.environment = s.vm.environment ↔
      ¬ o.Stranded s) ∧
    (∀ object, o = .registerImport object → ¬ o.Stranded s → s.after o = s) ∧
    (∀ object key, o = .registerImport object → Strands s object key →
      (s.after o).vm.linker.names =
        s.vm.linker.names ++ Wasi.Syscall.all.map (fun c => (Wasi.moduleName, c.name)) ∧
      (s.after o).vm.environment = some key ∧
      ∀ later : Host.ImportObject, later.isWasi = true →
        ∃ f, (s.after o).answer (.registerImport later) = .error f) := by
  cases o with
  | register name source =>
    have hpost := Action.register_post name source s
    cases hrun : EStateM.run (Action.register name source) s with
    | ok a t => exact nomatch (outcome_of_ok hrun).symm.trans he
    | error f t =>
      have hafter : s.after (.register name source) = t := ending_of_error hrun
      obtain ⟨hbuilds, hlinker⟩ := hpost.error hrun
      rw [hafter]
      refine ⟨hbuilds.main, hbuilds.registered, hbuilds.linkOrder, hbuilds.wasi, hbuilds.stale,
        hbuilds.code, ?_, nofun, nofun⟩
      exact iff_of_true ⟨hlinker, hbuilds.environment⟩ id
  | registerImport object =>
    cases hrun : EStateM.run (Action.registerImport object) s with
    | ok a t => exact nomatch (outcome_of_ok hrun).symm.trans he
    | error f t =>
      have hafter : s.after (.registerImport object) = t := ending_of_error hrun
      rw [hafter]
      rcases Action.registerImport_error hrun with ⟨rfl, hnot⟩ | ⟨key, hkey⟩
      · have hnot' : ¬ (Operation.registerImport object).Stranded t :=
          fun ⟨key, hkey⟩ => hnot key hkey
        refine ⟨rfl, rfl, rfl, rfl, rfl, Std.Refl.refl _, iff_of_true ⟨rfl, rfl⟩ hnot',
          fun _ _ _ => rfl, ?_⟩
        rintro _ key ⟨⟩ hkey
        exact absurd hkey (hnot key)
      · obtain ⟨w, linked, store, linker, hnames, hd, hstrand⟩ := run_of_strands hkey
        cases hrun.symm.trans hstrand
        obtain ⟨hext, hcontinues⟩ := LinkedImports.define_ok hd
        have hlinker := hcontinues.names_eq
        rw [hnames] at hlinker
        refine ⟨rfl, rfl, rfl, rfl, rfl, hext, iff_of_false ?_ fun hnot => hnot ⟨key, hkey⟩,
          fun _ _ hnot => absurd ⟨key, hkey⟩ hnot, ?_⟩
        -- The names that have been linked are not none.
        · rintro ⟨hsame, -⟩
          have hnil := hlinker.symm.trans (congrArg Linker.names hsame)
          exact absurd (List.append_right_eq_self.mp hnil) (by decide)
        · rintro _ key' ⟨⟩ hkey'
          have hkeys : some key = some key' := hkey.system.symm.trans hkey'.system
          refine ⟨hlinker, hkeys, fun later hlater => registerImport_system_error hlater ?_⟩
          intro c hc
          change (Wasi.moduleName, c.name) ∈ linker.names
          rw [hlinker]
          exact List.mem_append_right _ (List.mem_map_of_mem hc)
  | _ => cases ho

/-- An environment whose only directory has no path, so that it is not there. -/
def missingDirectory : Wasi.Environment := ⟨[], [], [⟨"", "/"⟩]⟩

/-- A new machine on a host that has an import object with such an environment. -/
def unstarted : Setting :=
  ⟨empty {} ⟨0⟩, (Host.newWasiObject (Host.newStore {}).2 missingDirectory).2⟩

theorem reachable_unstarted : Reachable unstarted := by
  have hnew : Vm.new {} {} = (.ok (empty {} ⟨0⟩), (Host.newStore {}).2) := rfl
  exact .elsewhere (.new hnew) _

theorem strands_unstarted : Strands unstarted (.wasi ⟨0⟩) ⟨0⟩ where
  named := by decide
  free := rfl
  alive := rfl
  system := rfl
  undefined _ _ := List.not_mem_nil
  unstartable := ⟨_, rfl⟩

/-- The failed registration of an import object whose directory is not there. -/
theorem failed_registration_unstarted :
    ∃ e, unstarted.answer (.registerImport (.wasi ⟨0⟩)) = .error e ∧
      (unstarted.after (.registerImport (.wasi ⟨0⟩))).vm.registered = [] ∧
      (unstarted.after (.registerImport (.wasi ⟨0⟩))).vm.linker.names =
        Wasi.Syscall.all.map fun c => (Wasi.moduleName, c.name) := by
  obtain ⟨w, linked, store, linker, -, -, hrun⟩ := run_of_strands strands_unstarted
  have he : unstarted.answer (.registerImport (.wasi ⟨0⟩)) = .error (.wasi w) :=
    outcome_of_error hrun
  obtain ⟨-, hregistered, -, -, -, -, -, -, hstranded⟩ := failed_registration rfl he
  exact ⟨_, he, hregistered, (hstranded _ _ rfl strands_unstarted).1⟩

/-- There is a reachable machine that a failed registration leaves with another linker and
another environment. -/
theorem registration_leaves_trace :
    ∃ (s : Setting) (o : Operation) (e : RuntimeError), Reachable s ∧ o.registers = true ∧
      s.answer o = .error e ∧ (s.after o).vm.linker.names ≠ s.vm.linker.names ∧
      (s.after o).vm.environment ≠ s.vm.environment := by
  obtain ⟨w, linked, store, linker, hnames, hd, hrun⟩ := run_of_strands strands_unstarted
  have hafter : unstarted.after (.registerImport (.wasi ⟨0⟩)) =
      strand unstarted ⟨0⟩ store linker := ending_of_error hrun
  refine ⟨unstarted, .registerImport (.wasi ⟨0⟩), .wasi w, reachable_unstarted, rfl,
    outcome_of_error hrun, ?_, ?_⟩
  · have hlinker := (LinkedImports.define_ok hd).2.names_eq
    rw [hnames] at hlinker
    rw [hafter]
    exact fun hsame => absurd (hlinker.symm.trans hsame) (by decide +kernel)
  · rw [hafter]
    exact nofun

end WasmEmbedding.Vm
