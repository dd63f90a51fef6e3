import WasmEmbedding.Proofs.Vm.Rebuild
import WasmEmbedding.Proofs.Vm.Twins

/-! # Registering anew what is replayed

A rebuild replays the entries of the link environment on a new store; a new machine on which they
are registered again does the same in another way.  The rebuilt machine has its environment of the
system interface from the start and begins a session before each module; the new machine gets the
environment with the import object that brings it, and begins a session there too.

The two stay `Level`.  As long as the new machine has no environment, no function of the system
interface is linked, so that sessions make no difference, and those that the replay begins all
start from the same grounds.  From then on both machines begin the same sessions; until the first
module comes, sessions may differ, but there is no instance to see it.
-/
namespace WasmEmbedding.Vm

open Engine Wasm

variable {C : Scene → Prop} {S : Wasi.Session → Wasi.Session → Prop}

/-- Sessions start the same way where the grounds are the same. -/
theorem start_of_grounds {h h' : Host} (hg : h'.grounds = h.grounds) (key : Host.EnvironmentKey) :
    Wasi.Session.start h'.files (h'.environment key) =
      Wasi.Session.start h.files (h.environment key) := by
  have hfiles : h'.files = h.files := congrArg Host.Grounds.files hg
  have henvironments : h'.environments = h.environments := congrArg Host.Grounds.environments hg
  rw [Host.environment, Host.environment, hfiles, henvironments]

/-- The new machine of `f` has come as far with its registrations as the replay of `s`. -/
inductive Level (s f : Setting) : Prop
  /-- The new machine has no environment yet. -/
  | apart (alone : f.vm.environment = none)
      (twin : Twin (Quiet s.host.grounds) (fun _ _ => True) s f)
      (started : ∀ key, s.vm.environment = some key → s.vm.store.instances = #[] ∨
        Wasi.Session.start s.host.files (s.host.environment key) = .ok s.session)
  /-- It has the environment that the rebuilt machine had from the start. -/
  | joined (key : Host.EnvironmentKey) (attached : s.vm.environment = some key)
      (same : f.vm.environment = some key)
      (system : ∀ c ∈ Wasi.Syscall.all, (Wasi.moduleName, c.name) ∈ s.vm.linker.names)
      (twin : Twin (fun a => a.code.instances = #[]) (fun _ _ => True) s f ∨
        Twin (fun _ => True) Eq s f)

namespace Level

variable {s t f : Setting}

theorem twin (h : Level s f) : Twin (fun _ => True) (fun _ _ => True) s f := by
  cases h with
  | apart _ twin _ => exact twin.mono (fun _ => trivial) fun _ => trivial
  | joined _ _ _ _ twin =>
    rcases twin with twin | twin
    · exact twin.mono (fun _ => trivial) fun _ => trivial
    · exact twin.mono (fun _ => trivial) fun _ => trivial

/-- Entries make no difference. -/
theorem entered (h : Level s f) (name : String) (entry : Registered) :
    Level s (f.entered name entry) := by
  have hentered : ∀ {C : Scene → Prop} {S : Wasi.Session → Wasi.Session → Prop},
      Twin C S s f → Twin C S s (f.entered name entry) :=
    fun h => ⟨h.config, h.statistics, h.linker, h.host, h.store, h.scene, h.sessions⟩
  cases h with
  | apart alone twin started => exact .apart alone (hentered twin) started
  | joined key attached same system twin =>
    exact .joined key attached same system (twin.imp hentered hentered)

/-- What is linked without functions of the system interface, linked again the same way. -/
theorem place_apart {g : Host.Grounds} {name : String} {m : Module} (h : Twin (Quiet g) S s f)
    (hplace : EStateM.run (Action.place name m) s = .ok () t) :
    ∃ u, EStateM.run (Action.place name m) f = .ok () u ∧ Twin (Quiet g) S t u ∧
      u.vm.environment = f.vm.environment := by
  have hquiet : Respects (Twin (Quiet g) S) (Action.place name m) (Action.place name m) :=
    Action.respects_place (growing_quiet _) (.systemFree fun _ ha => ha.systemFree) name m
  obtain ⟨u, hu, htu⟩ := hquiet.ok h hplace
  exact ⟨u, hu, htu, ((Action.keeps_place name m).ok hu).environment⟩

theorem instantiateRegistered_apart (alone : f.vm.environment = none)
    (twin : Twin (Quiet s.host.grounds) (fun _ _ => True) s f) {name : String} {m : Module}
    (hrun : EStateM.run (Action.instantiateRegistered name m) s = .ok () t) :
    ∃ g, EStateM.run (Action.instantiateRegistered name m) f = .ok () g ∧ Level t g := by
  have henvironment : t.vm.environment = s.vm.environment :=
    ((Action.keeps_instantiateRegistered name m).ok hrun).environment
  rw [Action.instantiateRegistered_eq] at hrun ⊢
  obtain ⟨_, u, hu, hplace⟩ := run_bind_eq_ok.mp hrun
  rw [run_bind_of_ok (Action.run_refresh_of_none alone)]
  cases hs : s.vm.environment with
  | none =>
    cases (Action.run_refresh_of_none hs).symm.trans hu
    obtain ⟨g, hg, htg, hsame⟩ := place_apart twin hplace
    have hgrounds : t.host.grounds = s.host.grounds := htg.scene.grounds
    refine ⟨g, hg, .apart (hsame.trans alone) ?_ fun key hkey => ?_⟩
    · rw [hgrounds]
      exact htg
    · rw [henvironment, hs] at hkey
      cases hkey
  | some key =>
    obtain ⟨session, hstart, rfl⟩ := (Action.run_refresh_eq_ok hs).mp hu
    -- The replay has begun a session, which guests without system functions leave as it is.
    have hbegun : Twin (Quiet s.host.grounds) (fun a _ => a = session)
        (Action.begun s session) f := by
      refine ⟨twin.config, twin.statistics, twin.linker, twin.host, ?_, ?_, rfl⟩
      · have hexit : s.vm.store.context.exitCode = none := twin.scene.exitCode
        rw [Action.begun, ← hexit]
        exact twin.store
      · exact ⟨twin.scene.systemFree, rfl, rfl⟩
    obtain ⟨g, hg, htg, hsame⟩ := place_apart hbegun hplace
    have hgrounds : t.host.grounds = s.host.grounds := htg.scene.grounds
    refine ⟨g, hg, .apart (hsame.trans alone) ?_ fun other hother => .inr ?_⟩
    · rw [hgrounds]
      exact htg.mono id fun _ => trivial
    · rw [henvironment, hs] at hother
      cases hother
      rw [start_of_grounds hgrounds, hstart, htg.sessions]

/-- Twins that begin the same session differ in nothing. -/
theorem twin_begun (h : Twin C S s f) (session : Wasi.Session) :
    Twin (fun _ => True) Eq (Action.begun s session) (Action.begun f session) := by
  refine ⟨h.config, h.statistics, h.linker, h.host, ?_, trivial, rfl⟩
  exact congrArg (fun store : Store =>
    { store with context := { store.context with session, exitCode := none } }) h.store

theorem instantiateRegistered_joined {key : Host.EnvironmentKey}
    (attached : s.vm.environment = some key) (same : f.vm.environment = some key)
    (system : ∀ c ∈ Wasi.Syscall.all, (Wasi.moduleName, c.name) ∈ s.vm.linker.names)
    (twin : Twin C S s f) {name : String} {m : Module}
    (hrun : EStateM.run (Action.instantiateRegistered name m) s = .ok () t) :
    ∃ g, EStateM.run (Action.instantiateRegistered name m) f = .ok () g ∧ Level t g := by
  obtain ⟨hbuilds, hlinks⟩ := (Action.instantiateRegistered_post name m s).ok hrun
  rw [Action.instantiateRegistered_eq] at hrun ⊢
  obtain ⟨_, u, hu, hplace⟩ := run_bind_eq_ok.mp hrun
  obtain ⟨session, hstart, rfl⟩ := (Action.run_refresh_eq_ok attached).mp hu
  have hrefresh : EStateM.run Action.refresh f = .ok () (Action.begun f session) := by
    rw [← twin.host] at hstart
    exact (Action.run_refresh_eq_ok same).mpr ⟨session, hstart, rfl⟩
  have hplaces := Action.respects_place (C := fun _ => True) (S := Eq) growing_true
    (.equal fun _ _ _ _ => trivial) name m
  -- From here on the machines differ in nothing, whatever their sessions were before.
  obtain ⟨g, hg, htg⟩ := hplaces.ok (twin_begun twin session) hplace
  have hstays : g.vm.environment = f.vm.environment :=
    ((Action.keeps_place name m).ok hg).environment
  rw [run_bind_of_ok hrefresh]
  refine ⟨g, hg, .joined key (hbuilds.environment.trans attached) (hstays.trans same) ?_
    (.inr htg)⟩
  obtain ⟨items, i, -, -, hdefine⟩ := hlinks.linked
  intro c hc
  rw [(Linker.continues_defineAll hdefine).names_eq]
  exact List.mem_append_left _ (system c hc)

/-- **A module that has been replayed can be registered**, and what is made of it is the same. -/
theorem instantiateRegistered (h : Level s f) {name : String} {m : Module}
    (hrun : EStateM.run (Action.instantiateRegistered name m) s = .ok () t) :
    ∃ g, EStateM.run (Action.instantiateRegistered name m) f = .ok () g ∧ Level t g := by
  have htwin := h.twin
  cases h with
  | apart alone twin _ => exact instantiateRegistered_apart alone twin hrun
  | joined _ attached same system _ =>
    exact instantiateRegistered_joined attached same system htwin hrun

/-- What an import object brings to a machine that is about to link it. -/
theorem twin_define {linked : LinkedImports} {store : Store} {linker : Linker}
    (h : Twin C S s f) (hd : linked.define s.vm.store s.vm.linker = .ok (store, linker))
    {D : Scene → Prop} (hD : D ⟨store.code, s.host.grounds, s.vm.store.context.exitCode⟩) :
    Twin D S { s with vm := { s.vm with store, linker } } (f.defining store linker) := by
  have hcontext := LinkedImports.context_define hd
  refine ⟨h.config, h.statistics, rfl, h.host, rfl, ?_, ?_⟩
  · change D ⟨store.code, s.host.grounds, store.context.exitCode⟩
    rw [hcontext]
    exact hD
  · change S store.context.session f.session
    rw [hcontext]
    exact h.sessions

/-- **Symbols that have been replayed can be registered.** -/
theorem define (h : Level s f) {linked : LinkedImports} {store : Store} {linker : Linker}
    (hnone : linked.environment = none)
    (hd : linked.define s.vm.store s.vm.linker = .ok (store, linker)) :
    Level { s with vm := { s.vm with store, linker } } (f.defining store linker) := by
  have hinstances : store.instances = s.vm.store.instances := LinkedImports.instances_define hd
  cases h with
  | apart alone twin started =>
    refine .apart alone (twin_define twin hd ⟨?_, rfl, twin.scene.exitCode⟩) fun key hkey => ?_
    · refine LinkedImports.define_symbols_ok (fun c id signature hc address call => ?_) hnone hd
        twin.scene.systemFree
      rw [Array.getElem?_push]
      split
      · exact nofun
      · exact hc address call
    · rcases started key hkey with hempty | hstart
      · exact .inl (hinstances.trans hempty)
      · refine .inr (hstart.trans ?_)
        change _ = Except.ok store.context.session
        rw [LinkedImports.context_define hd]
        rfl
  | joined key attached same system twin =>
    refine .joined key attached same (fun c hc => ?_) ?_
    · change _ ∈ linker.names
      rw [(LinkedImports.define_ok hd).2.names_eq]
      exact List.mem_append_left _ (system c hc)
    · rcases twin with twin | twin
      · exact .inl (twin_define twin hd (hinstances.trans twin.scene))
      · exact .inr (twin_define twin hd trivial)

/-- The machine that attaches an environment begins a session, which the replay has not. -/
theorem twin_attach {linked : LinkedImports} {store : Store} {linker : Linker}
    (h : Twin C S s f) (hexit : s.vm.store.context.exitCode = none)
    (hd : linked.define s.vm.store s.vm.linker = .ok (store, linker)) (key : Host.EnvironmentKey)
    {session : Wasi.Session} {D : Scene → Prop} {T : Wasi.Session → Wasi.Session → Prop}
    (hD : D ⟨store.code, s.host.grounds, none⟩) (hT : T s.session session) :
    Twin D T { s with vm := { s.vm with store, linker } }
      (Action.begun ((f.defining store linker).attach key) session) := by
  have hcontext := LinkedImports.context_define hd
  refine ⟨h.config, h.statistics, rfl, h.host, ?_, ?_, ?_⟩
  · change store.under { store.context with session, exitCode := none } =
      store.under { store.context with session }
    rw [hcontext, ← hexit]
  · change D ⟨store.code, s.host.grounds, store.context.exitCode⟩
    rw [hcontext, hexit]
    exact hD
  · change T store.context.session session
    rw [hcontext]
    exact hT

/-- **The system interface can be registered as it has been replayed, unless no session can be
started.** -/
theorem attach (h : Level s f) {linked : LinkedImports} {key : Host.EnvironmentKey} {store : Store}
    {linker : Linker} (hkey : linked.environment = some key) (hs : s.vm.environment = some key)
    (hd : linked.define s.vm.store s.vm.linker = .ok (store, linker)) :
    Post Action.refresh ((f.defining store linker).attach key) fun r g =>
      match r with
      | .ok _ => Level { s with vm := { s.vm with store, linker } } g ∧
          g.vm.registered = f.vm.registered
      | .error e => ∃ w, e = .wasi w := by
  have hsystem : ∀ c ∈ Wasi.Syscall.all, (Wasi.moduleName, c.name) ∈ linker.names := by
    intro c hc
    rw [(LinkedImports.define_ok hd).2.names_eq, LinkedImports.names, hkey]
    exact List.mem_append_right _ (List.mem_map_of_mem hc)
  cases h with
  | apart alone twin started =>
    refine Post.intro (fun _ g hg => ?_) fun e g hg => ?_
    · obtain ⟨session, hstart, rfl⟩ := (Action.run_refresh_eq_ok rfl).mp hg
      have hexit : s.vm.store.context.exitCode = none := twin.scene.exitCode
      refine ⟨.joined key hs rfl hsystem ?_, rfl⟩
      -- The replay has begun this very session, unless it has not come to a module yet.
      rcases started key hs with hempty | hsame
      · exact .inl (twin_attach twin hexit hd key
          ((LinkedImports.instances_define hd).trans hempty) trivial)
      · change Wasi.Session.start f.host.files (f.host.environment key) = .ok session at hstart
        rw [twin.host, hsame] at hstart
        cases hstart
        exact .inr (twin_attach twin hexit hd key trivial rfl)
    · obtain ⟨w, -, rfl, -⟩ := (Action.run_refresh_eq_error rfl).mp hg
      exact ⟨w, rfl⟩
  | joined _ _ _ system _ =>
    -- The system interface is linked already, and cannot be linked twice.
    have hnot := (LinkedImports.define_system_iff hkey s.vm.store s.vm.linker).mp ⟨_, hd⟩
    exact absurd (system .argsGet (by decide)) (hnot .argsGet (by decide))

end Level

/-- The new machine of `f` has registered the entries that have been replayed in `s`. -/
structure Follows (done : List (String × Registered)) (s f : Setting) : Prop where
  level : Level s f
  known : ∀ name, (f.vm.registered? name).isSome ↔ name ∈ done.map Prod.fst

namespace Follows

variable {s t f : Setting} {done : List (String × Registered)}

theorem entered {u : Setting} (h : Follows done s f) (hlevel : Level t u)
    (hregistered : u.vm.registered = f.vm.registered) (name : String) (entry made : Registered) :
    Follows (done ++ [(name, entry)]) t (u.entered name made) := by
  refine ⟨hlevel.entered name made, fun other => ?_⟩
  have hold : u.vm.registered? other = f.vm.registered? other := by
    rw [registered?, hregistered, registered?]
  have hnew : (u.entered name made).vm.registered? other =
      if other = name then some made else u.vm.registered? other := registered?_entered _ _ _ _
  rw [hnew, List.map_append, List.mem_append, ← h.known, hold]
  by_cases hother : other = name
  · rw [if_pos hother]
    exact iff_of_true rfl (.inr (List.mem_singleton.mpr hother))
  · rw [if_neg hother]
    exact (or_iff_left fun hmem => hother (List.mem_singleton.mp hmem)).symm

/-- An entry may be registered under a name of its own. -/
theorem run_checkName (h : Follows done s f) {name : String} (hnamed : name.isEmpty = false)
    (hfree : name ∉ done.map Prod.fst) : EStateM.run (Action.checkName name) f = .ok () f := by
  have hnone : (f.vm.registered? name).isSome = false :=
    Bool.eq_false_iff.mpr fun hsome => hfree ((h.known name).mp hsome)
  rw [Action.run_checkName, hnamed, hnone]
  rfl

/-- An import object that has been replayed is registered, unless its environment is of no use. -/
theorem registerImport (h : Follows done s f) {o : Host.ImportObject} {linked : LinkedImports}
    {functions : List (String × Signature)} (hsnap : o.snapshot = .ok linked)
    (hrun : EStateM.run (Action.define linked) s = .ok () t)
    (hnamed : o.moduleName.isEmpty = false) (hfree : o.moduleName ∉ done.map Prod.fst)
    (hattached : ∀ key, linked.environment = some key → s.vm.environment = some key) :
    Post (Action.registerImport o) f fun r g =>
      match r with
      | .ok _ => Follows (done ++ [(o.moduleName, .imports linked functions)]) t g
      | .error e => ∃ w, e = .wasi w := by
  obtain ⟨store, linker, hd, rfl⟩ := Action.run_define_eq_ok.mp hrun
  have hlink : EStateM.run (Action.registerImport o) f =
      EStateM.run (Action.commit o linked) (f.defining store linker) := by
    change EStateM.run (Action.checkName o.moduleName >>= fun _ => Action.link o) f = _
    rw [run_bind_of_ok (h.run_checkName hnamed hfree), Action.run_link, hsnap]
    dsimp only
    rw [Action.define_of_twin h.level.twin hd]
    rfl
  have hcommit := hlink.trans (Action.run_commit o linked (f.defining store linker))
  cases hkey : linked.environment with
  | none =>
    rw [hkey] at hcommit
    exact Post.of_ok hcommit (h.entered (h.level.define hkey hd) rfl _ _ _)
  | some key =>
    rw [hkey] at hcommit
    dsimp only at hcommit
    have hattach := h.level.attach hkey (hattached key hkey) hd
    cases hrefresh : EStateM.run Action.refresh ((f.defining store linker).attach key) with
    | ok a g =>
      rw [hrefresh] at hcommit
      obtain ⟨hlevel, hregistered⟩ := hattach.ok hrefresh
      exact Post.of_ok hcommit (h.entered hlevel hregistered _ _ _)
    | error e g =>
      rw [hrefresh] at hcommit
      exact Post.of_error hcommit (hattach.error hrefresh)

/-- A module that has been replayed is registered. -/
theorem register (h : Follows done s f) {name : String} {source : Source} {image : Image}
    {m : Module} (himage : f.host.load source = .ok image)
    (hm : image.validate f.vm.config.engine.features = .ok m)
    (hrun : EStateM.run (Action.instantiateRegistered name m) s = .ok () t)
    (hnamed : name.isEmpty = false) (hfree : name ∉ done.map Prod.fst) :
    ∃ g, EStateM.run (Action.register name source) f = .ok () g ∧
      Follows (done ++ [(name, .module m)]) t g := by
  obtain ⟨g, hg, hlevel⟩ := h.level.instantiateRegistered hrun
  have hregistered : g.vm.registered = f.vm.registered :=
    ((Action.keeps_instantiateRegistered name m).ok hg).registered
  refine ⟨g.entered name (.module m), ?_, h.entered hlevel hregistered name _ _⟩
  have hopen : EStateM.run (Action.open? source) f = .ok image f :=
    Action.run_ofExcept_eq_ok.mpr ⟨himage, rfl⟩
  have hcompile : EStateM.run (Action.compile image) f = .ok m f :=
    Action.run_ofExcept_eq_ok.mpr ⟨hm, rfl⟩
  change EStateM.run (Action.open? source >>= fun image => Action.checkName name >>= fun _ =>
    Action.compile image >>= fun m => Action.instantiateRegistered name m >>= fun _ =>
      Action.enter name (.module m)) f = _
  rw [run_bind_of_ok hopen, run_bind_of_ok (h.run_checkName hnamed hfree), run_bind_of_ok hcompile,
    run_bind_of_ok hg]
  rfl

/-- **What has been replayed can be registered**, unless it needs a session that cannot be
started. -/
theorem step (h : Follows done s f) {name : String} {entry : Registered}
    (hrun : EStateM.run (Action.replay name entry) s = .ok () t) (hnamed : name.isEmpty = false)
    (hfree : name ∉ done.map Prod.fst)
    (hattached : ∀ linked functions key, entry = .imports linked functions →
      linked.environment = some key → s.vm.environment = some key)
    {o : Operation} (ho : o.Enters f (name, entry)) :
    Post o.perform f fun r g =>
      match r with
      | .ok _ => Follows (done ++ [(name, entry)]) t g
      | .error e => ∃ w, e = .wasi w := by
  cases o with
  | registerImport object =>
    cases entry with
    | module m => exact absurd ho id
    | imports linked functions =>
      obtain ⟨rfl, hsnap⟩ := ho
      exact h.registerImport hsnap hrun hnamed hfree fun key => hattached linked functions key rfl
  | register name' source =>
    cases entry with
    | imports linked functions => exact absurd ho id
    | module m =>
      obtain ⟨rfl, image, himage, hm⟩ := ho
      obtain ⟨g, hg, hfollows⟩ := h.register himage hm hrun hnamed hfree
      exact Post.of_ok hg hfollows
  | _ => exact absurd ho id

/-- **A replay of entries can be repeated by registrations**, one after the other, until one of them
needs a session that cannot be started. -/
theorem run {entries : List (String × Registered)} (hreplays : Replays entries s t) :
    ∀ {done : List (String × Registered)} {f : Setting} {os : List Operation}, Follows done s f →
      ((done ++ entries).map Prod.fst).Nodup → (∀ e ∈ entries, e.1.isEmpty = false) →
      (∀ name linked functions key, (name, .imports linked functions) ∈ entries →
        linked.environment = some key → s.vm.environment = some key) →
      List.Forall₂ (fun o e => ∀ u : Setting, u.vm.config = s.vm.config → o.Enters u e) os entries →
      Post (os.forM Operation.perform) f fun r g =>
        match r with
        | .ok _ => Follows (done ++ entries) t g
        | .error e => ∃ w, e = .wasi w := by
  induction hreplays with
  | nil s =>
    intro done f os h _ _ _ hos
    cases hos
    rw [List.append_nil]
    exact Post.of_ok rfl h
  | @cons name entry rest s u t hrun links later ih =>
    intro done f os h hnodup hnamed hattached hos
    cases hos with
    | @cons o _ os _ ho hos =>
      have hbuilds : Builds s u := (Action.keeps_replay name entry).ok hrun
      have hconfig : u.vm.config = s.vm.config := hbuilds.config
      have henvironment : u.vm.environment = s.vm.environment := hbuilds.environment
      have hfree : name ∉ done.map Prod.fst := by
        intro hmem
        rw [List.map_append] at hnodup
        exact (List.nodup_append.mp hnodup).2.2 name hmem name List.mem_cons_self rfl
      have hstep := h.step hrun (hnamed _ List.mem_cons_self) hfree
        (fun linked functions key hentry hkey => hattached name linked functions key
          (hentry ▸ List.mem_cons_self) hkey) (ho f h.level.twin.config)
      refine Post.bind (fun _ g hg => ?_) fun e g hg => hstep.error hg
      have hsplit : done ++ (name, entry) :: rest = done ++ [(name, entry)] ++ rest := by
        rw [List.append_assoc]
        rfl
      rw [hsplit] at hnodup ⊢
      refine ih (hstep.ok hg) hnodup (fun e he => hnamed e (List.mem_cons_of_mem _ he)) ?_ ?_
      · intro other linked functions key he hkey
        rw [henvironment]
        exact hattached other linked functions key (List.mem_cons_of_mem _ he) hkey
      · rw [hconfig]
        exact hos

end Follows

end WasmEmbedding.Vm
