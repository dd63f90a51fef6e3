import WasmEmbedding.Proofs.Vm.Environments
import WasmEmbedding.Proofs.Vm.Shadows

/-! # Sites

A `Site` is a host with machines under handles, and an `Event` is one thing that is done there, with
a machine, with objects that machines link, or with what is around the host.  A `Share` is what
belongs to a party that uses a site together with another one.

Where two parties use a site, each of them has a site of its own woven into it (`Site.Shared`).  An
event of a party comes to the same on both, and leaves the other party out of it (`Event.tallies`).
-/
namespace WasmEmbedding

open Engine Host Wasm

/-! ## Sites and events -/

/-- A host and the machines on it, under handles. -/
structure Site where
  host : Host
  machine? : Nat → Option Vm

namespace Site

/-- A site on which nothing has been done. -/
def new (around : Surroundings) : Site := ⟨amid {} around, fun _ => none⟩

/-- The site with another host, and with a machine under a handle or none. -/
def put (s : Site) (handle : Nat) (vm : Option Vm) (host : Host) : Site where
  host
  machine? other := if other = handle then vm else s.machine? other

/-- Something that is done on a site, with what it answers. -/
abbrev Work := EStateM RuntimeError Site (List Value)

/-- Does something on the host. -/
def onHost (x : EStateM LinkError Host Unit) : Work := fun s =>
  match x.run s.host with
  | .ok _ host => .ok [] { s with host }
  | .error e host => .error (.link e) { s with host }

/-- Does something with the machine under a handle, if there is one. -/
def onMachine (handle : Nat) (x : Vm.Action (List Value)) : Work := fun s =>
  match s.machine? handle with
  | none => .ok [] s
  | some vm =>
    match EStateM.run x ⟨vm, s.host⟩ with
    | .ok values t => .ok values (s.put handle (some t.vm) t.host)
    | .error e t => .error e (s.put handle (some t.vm) t.host)

/-- Makes a machine and keeps it under a handle. -/
def keep (handle : Nat) (make : Host → Except RuntimeError Vm × Host) : Work := fun s =>
  match make s.host with
  | (.ok vm, host) => .ok [] (s.put handle (some vm) host)
  | (.error e, host) => .error e { s with host }

end Site

namespace Vm

/-- Gives an import object another environment, if that is well formed. -/
def Action.refit (o : ImportObject) (e : Except WasiError Wasi.Environment) : Action Unit := do
  Action.replaceEnvironment o (← ofExcept .wasi e)

/-- What is done with a machine. -/
inductive Command where
  | load (source : Source)
  | validate
  | instantiate
  | execute (name : String) (args : List Value)
  | executeRegistered (moduleName name : String) (args : List Value)
  | run (source : Source) (name : String) (args : List Value)
  | runWithData (source : Source) (name : String) (data : List UInt8)
      (args envs preopens : List String) (params : List Value)
  | register (name : String) (source : Source)
  /-- Registers the import object under a name of the host. -/
  | registerImport (name : String)
  | cleanup
  /-- Changes the counts or the limit. -/
  | amendStatistics (f : Statistics → Statistics)
  /-- Changes the context that guests share, such as the log. -/
  | amendContext (f : Context → Context)
  /-- Gives the built-in import object another environment. -/
  | refit (e : Except WasiError Wasi.Environment)
  /-- Deletes the built-in import object. -/
  | deleteBuiltIn

namespace Command

/-- What a command comes to. -/
def perform : Command → Action (List Value)
  | .load source => do Action.load source; return []
  | .validate => do Action.validate; return []
  | .instantiate => do Action.instantiate; return []
  | .execute name args => Action.execute name args
  | .executeRegistered moduleName name args => Action.executeRegistered moduleName name args
  | .run source name args => Action.run source name args
  | .runWithData source name data args envs preopens params =>
    Action.runWithData source name data args envs preopens params
  | .register name source => do Action.register name source; return []
  | .registerImport name => do
    match (← get).host.object? name with
    | some o => Action.registerImport o
    | none => pure ()
    return []
  | .cleanup => do Action.cleanup; return []
  | .amendStatistics f => do
    Action.modifyVm fun vm => { vm with statistics := f vm.statistics }
    return []
  | .amendContext f => do Action.modifyContext f; return []
  | .refit e => do
    match (← Action.vm).wasi with
    | some o => Action.refit o e
    | none => pure ()
    return []
  | .deleteBuiltIn => do
    Action.modifyVm fun vm => { vm with wasi := vm.wasi.map fun o => { o with symbols := none } }
    return []

/-- The import object that a command names is under one of the names. -/
def Of (names : String → Prop) : Command → Prop
  | .registerImport name => names name
  | _ => True

end Command

end Vm

/-- What is done on a site. -/
inductive Event where
  /-- Something is done with the import objects of the host. -/
  | deed (d : Deed)
  /-- An import object gets another environment, if that is well formed. -/
  | refit (name : String) (e : Except WasiError Wasi.Environment)
  /-- A machine is made and kept under a handle. -/
  | new (handle : Nat) (config : VmConfig)
  /-- The same from a configuration file. -/
  | newFromFile (handle : Nat) (file : ConfigFile)
  /-- The machine under a handle is let go of. -/
  | drop (handle : Nat)
  | command (handle : Nat) (c : Vm.Command)
  /-- Something else is around the host. -/
  | around (s : Surroundings)

namespace Event

/-- What an event comes to. -/
def perform : Event → Site.Work
  | .deed d => Site.onHost d.perform
  | .refit name e => fun s =>
    match s.host.object? name with
    | none => .ok [] s
    | some o =>
      match s.host.refit o e with
      | .ok host => .ok [] { s with host }
      | .error e => .error (.wasi e) s
  | .new handle config => Site.keep handle (Vm.new · config)
  | .newFromFile handle file => Site.keep handle (Vm.ofConfigFile · file)
  | .drop handle => fun s => .ok [] (s.put handle none s.host)
  | .command handle c => Site.onMachine handle c.perform
  | .around a => fun s => .ok [] { s with host := s.host.amid a }

end Event

namespace Site

/-- What an event answers. -/
def answer (s : Site) (e : Event) : Except RuntimeError (List Value) := outcome e.perform s

/-- The site after an event. -/
def after (s : Site) (e : Event) : Site := ending e.perform s

/-- The site after events. -/
def afterAll (s : Site) (events : List Event) : Site := events.foldl after s

end Site

/-! ## Shares -/

/-- What belongs to a party. -/
structure Share where
  /-- The names of its import objects. -/
  names : String → Prop
  /-- The handles of its machines. -/
  handles : Nat → Prop

/-- Two shares have no import object and no machine in common. -/
structure Share.Disjoint (own others : Share) : Prop where
  names : ∀ name, own.names name → ¬ others.names name
  handles : ∀ handle, own.handles handle → ¬ others.handles handle

/-- An event is about import objects and machines of a share. -/
def Event.Of (own : Share) : Event → Prop
  | .deed d => d.Of own.names
  | .refit name _ => own.names name
  | .new handle _ => own.handles handle
  | .newFromFile handle _ => own.handles handle
  | .drop handle => own.handles handle
  | .command handle c => own.handles handle ∧ c.Of own.names
  | .around _ => True

namespace Site

/-- A machine of a share has a host function of this number. -/
def Links (s : Site) (own : Share) (id : FunctionId) : Prop :=
  ∃ handle vm, own.handles handle ∧ s.machine? handle = some vm ∧ id ∈ vm.store.hostIds

/-! ## What a party has of a site -/

/-- The machines of a share are on the second site what they are on the first one, and their numbers
are known. -/
structure Sees (own : Share) (σ : Renaming) (g s : Site) : Prop where
  machine? : ∀ handle, own.handles handle →
    s.machine? handle = (g.machine? handle).map (·.rename σ)
  known : ∀ handle vm, own.handles handle → g.machine? handle = some vm → vm.Known σ

variable {own others : Share} {σ τ ρ : Renaming} {k g s : Site}

namespace Sees

theorem mono (h : Sees own σ g s) (hgrows : σ.Grows ρ) : Sees own ρ g s where
  machine? handle hown := by
    rw [h.machine? handle hown]
    exact Option.map_congr fun vm hvm => ((h.known handle vm hown hvm).rename_of_grows hgrows).symm
  known handle vm hown hvm := (h.known handle vm hown hvm).mono hgrows

/-- Other hosts. -/
theorem host (h : Sees own σ g s) (gh sh : Host) :
    Sees own σ { g with host := gh } { s with host := sh } :=
  ⟨h.machine?, h.known⟩

/-- Another machine of the share. -/
theorem put (h : Sees own σ g s) (handle : Nat) {vm : Option Vm}
    (hvm : ∀ v, vm = some v → v.Known σ) (gh sh : Host) :
    Sees own σ (g.put handle vm gh) (s.put handle (vm.map (·.rename σ)) sh) where
  machine? other hother := by
    unfold Site.put
    dsimp only
    split
    · rfl
    · exact h.machine? other hother
  known other v hother hv := by
    unfold Site.put at hv
    dsimp only at hv
    split at hv
    · exact hvm v hv
    · exact h.known other v hother hv

/-- Another machine that is not of the share. -/
theorem spare (h : Sees own σ g s) {handle : Nat} (hown : ¬ own.handles handle) (vm : Option Vm)
    (sh : Host) : Sees own σ g (s.put handle vm sh) where
  machine? other hother := by
    have hne : other ≠ handle := fun heq => hown (heq ▸ hother)
    exact (if_neg hne).trans (h.machine? other hother)
  known := h.known

end Sees

/-- A site that two parties use, and what each of them has of it on a site of its own. -/
structure Shared (own others : Share) (σ τ : Renaming) (k g s : Site) : Prop where
  hosts : Woven own.names others.names σ τ k.host g.host s.host
  machines : Sees own σ g s
  rest : Sees others τ k s
  disjoint : ∀ handle, own.handles handle → ¬ others.handles handle

namespace Shared

variable (H : Shared own others σ τ k g s)

include H

theorem swap (hk : s.host.surroundings = k.host.surroundings) : Shared others own τ σ g k s :=
  ⟨H.hosts.swap hk, H.rest, H.machines, fun handle hothers hown => H.disjoint handle hown hothers⟩

/-- The party has come to know more on the host. -/
theorem grown {gh sh : Host} (h : Grown own.names others.names σ τ k.host gh sh) :
    ∃ ρ, Shared own others ρ τ k { g with host := gh } { s with host := sh } := by
  obtain ⟨ρ, hgrows, hosts⟩ := h
  exact ⟨ρ, hosts, (H.machines.mono hgrows).host gh sh, ⟨H.rest.machine?, H.rest.known⟩, H.disjoint⟩

/-- A machine of the party has become another one, and the party may have come to know more. -/
theorem put {gh sh : Host} (hgrows : σ.Grows ρ)
    (hosts : Woven own.names others.names ρ τ k.host gh sh) {handle : Nat}
    (hown : own.handles handle) {m : Option Vm} (hm : ∀ vm, m = some vm → vm.Known ρ) :
    Shared own others ρ τ k (g.put handle m gh) (s.put handle (m.map (·.rename ρ)) sh) :=
  ⟨hosts, (H.machines.mono hgrows).put handle hm gh sh, H.rest.spare (H.disjoint handle hown) _ sh,
    H.disjoint⟩

/-- Something else is around the host where the other party is alone. -/
theorem besides (a : Surroundings) :
    Shared own others σ τ { k with host := k.host.amid a } g s :=
  { H with
    hosts := { H.hosts with rest := H.hosts.rest.spared (.amid a) (Std.Refl.refl _) rfl }
    rest := H.rest.host _ s.host }

/-- A number that a machine of the party has is a known one. -/
theorem known_of_links {id : FunctionId} (h : s.Links own id) :
    ∃ id₀, σ.functions.known id₀.val ∧ id = σ.id id₀ := by
  obtain ⟨handle, vm, hown, hvm, hid⟩ := h
  rw [H.machines.machine? handle hown] at hvm
  obtain ⟨v, hv, rfl⟩ := Option.map_eq_some_iff.mp hvm
  have hids : (v.rename σ).store.hostIds = v.store.hostIds.map σ.id := v.store.hostIds_rename σ.id
  rw [hids] at hid
  obtain ⟨id₀, hid₀, rfl⟩ := List.mem_map.mp hid
  exact ⟨id₀, (H.machines.known handle v hown hv).store.hostIds hid₀, rfl⟩

end Shared

/-- The first site is where a party is alone, and the other party has something of the second site
as well. -/
def Joint (own others : Share) (τ : Renaming) (k g s : Site) : Prop :=
  ∃ σ, Shared own others σ τ k g s

/-- Work that comes to the same where a party is alone. -/
abbrev Tallies (own others : Share) (τ : Renaming) (k : Site) (x y : Work) : Prop :=
  WasmEmbedding.Tallies (Joint own others τ k) RuntimeError.Like Eq x y

end Site

/-! ## Events -/

theorem Host.Woven.refit {names others : String → Prop} {σ τ : Renaming} {k g h : Host}
    (H : Woven names others σ τ k g h) {o : ImportObject} (ho : o.Known σ)
    (e : Except WasiError Wasi.Environment) :
    Likewise Eq (fun g' h' => Woven names others σ τ k g' h') (g.refit o e)
      (h.refit (o.rename σ) e) := by
  cases e with
  | error e => exact .error rfl
  | ok e => exact H.replaceEnvironment ho e

namespace Vm.Action

variable {names others : String → Prop} {σ τ : Renaming} {k : Host}

theorem matches_refit {o : ImportObject} (ho : o.Known σ) (e : Except WasiError Wasi.Environment) :
    Matches names others σ τ k Eq (refit o e) (refit (o.rename σ) e) :=
  (echoes_ofExcept _ e).seq fun e => matches_replaceEnvironment ho e

/-- What is done on the way, whatever it answers. -/
theorem echoes_done {x : Action Unit} (hx : Echoes names others σ τ k x) :
    Echoes names others σ τ k (x >>= fun _ => pure ([] : List Value)) :=
  hx.seq fun _ => Tallies.pure rfl

end Vm.Action

open Vm.Action in
/-- **A command comes to the same where a party is alone.** -/
theorem Vm.Command.echoes {names others : String → Prop} {σ τ : Renaming} {k : Host}
    {c : Vm.Command} (hc : c.Of names) : Vm.Echoes names others σ τ k c.perform := by
  cases c with
  | load source => exact echoes_done (echoes_load source)
  | validate => exact echoes_done echoes_validate
  | instantiate => exact echoes_done echoes_instantiate
  | execute name args => exact echoes_execute name args
  | executeRegistered moduleName name args => exact echoes_executeRegistered moduleName name args
  | run source name args => exact echoes_run source name args
  | runWithData source name data args envs preopens params =>
    exact echoes_runWithData source name data args envs preopens params
  | register name source => exact echoes_done (echoes_register name source)
  | cleanup => exact echoes_done echoes_reset
  | amendStatistics f =>
    exact echoes_done (echoes_modifyVm fun _ known => ⟨{ known with store := known.store }, rfl⟩)
  | amendContext f => exact echoes_done (echoes_modifyContext f)
  | registerImport name =>
    refine Tallies.get ?_
    rintro _ _ ⟨known, hosts⟩
    rename_i g h
    dsimp only
    rw [hosts.own.object? name hc]
    cases ho : g.object? name with
    | none => exact Tallies.pure rfl
    | some o =>
      exact (matches_registerImport (hosts.own.known_of_object? ho)).seq fun _ => Tallies.pure rfl
  | refit e =>
    refine matches_vm fun vm known => ?_
    have hrename : (vm.rename σ).wasi = vm.wasi.map (ImportObject.rename · σ) := rfl
    rw [hrename]
    cases ho : vm.wasi with
    | none => exact Tallies.pure rfl
    | some o => exact (matches_refit (known.wasi o ho) e).seq fun _ => Tallies.pure rfl
  | deleteBuiltIn =>
    refine echoes_done (echoes_modifyVm fun vm known => ⟨{ known with wasi := ?_ }, ?_⟩)
    · intro o ho
      obtain ⟨o', ho', rfl⟩ := Option.map_eq_some_iff.mp ho
      exact (known.wasi o' ho').deleted
    · unfold Vm.rename
      cases vm.wasi <;> rfl

namespace Vm

variable {names others : String → Prop} {σ τ : Renaming} {k g h : Host}

/-- **The built-in import object is linked on both hosts or on none.** -/
theorem tally_enableWasi (H : Woven names others σ τ k g h) {vm : Vm} (known : vm.Known σ)
    (e : Wasi.Environment) :
    ∃ ρ, σ.Grows ρ ∧ Tally (Shadows names others ρ τ k) RuntimeError.Like Eq
      (EStateM.run (enableWasi e) ⟨vm, g⟩) (EStateM.run (enableWasi e) ⟨vm.rename σ, h⟩) := by
  obtain ⟨ρ, hgrows, hosts, hobject, heq⟩ := H.newWasiObject e
  refine ⟨ρ, hgrows, ?_⟩
  rw [run_enableWasi, run_enableWasi, ← known.rename_of_grows hgrows]
  dsimp only
  rw [heq]
  refine ((Action.matches_link hobject).seq fun _ => Action.matches_modifyVm fun vm known => ?_) _ _
    (.intro (known.mono hgrows) hosts)
  refine ⟨{ known with wasi := ?_ }, rfl⟩
  rintro _ ⟨⟩
  exact hobject

/-- What comes of making a machine on two hosts, of which one is woven into the other. -/
def Made (names others : String → Prop) (σ τ : Renaming) (k : Host)
    (r r' : Except RuntimeError Vm × Host) : Prop :=
  ∃ ρ, σ.Grows ρ ∧ Woven names others ρ τ k r.2 r'.2 ∧
    Likewise RuntimeError.Like (fun vm vm' => vm.Known ρ ∧ vm' = vm.rename ρ) r.1 r'.1

/-- **A new machine is the same under the numbers that are known there.** -/
theorem made_new (H : Woven names others σ τ k g h) (config : VmConfig) :
    Made names others σ τ k (Vm.new g config) (Vm.new h config) := by
  obtain ⟨hid, hstore⟩ := H.newStore
  -- Whether or not the built-in import object is linked, the machines are companions.
  have hrun : ∃ ρ, σ.Grows ρ ∧ Tally (Shadows names others ρ τ k) RuntimeError.Like Eq
      (EStateM.run (if config.hostRegistrations.wasi then enableWasi .empty else pure ())
        ⟨empty config g.newStore.1, g.newStore.2⟩)
      (EStateM.run (if config.hostRegistrations.wasi then enableWasi .empty else pure ())
        ⟨empty config h.newStore.1, h.newStore.2⟩) := by
    rw [hid]
    split
    · have henable := tally_enableWasi hstore (known_empty config g.newStore.1) .empty
      rwa [empty_rename] at henable
    · have hintro := Shadows.intro (known_empty config g.newStore.1) hstore
      rw [empty_rename] at hintro
      exact ⟨σ, Std.Refl.refl σ, .ok rfl hintro⟩
  obtain ⟨ρ, hgrows, hrun⟩ := hrun
  refine ⟨ρ, hgrows, ?_⟩
  unfold Vm.new act
  dsimp only
  generalize EStateM.run (if config.hostRegistrations.wasi then enableWasi .empty else pure ())
      (⟨empty config g.newStore.1, g.newStore.2⟩ : Setting) = r,
    EStateM.run (if config.hostRegistrations.wasi then enableWasi .empty else pure ())
      (⟨empty config h.newStore.1, h.newStore.2⟩ : Setting) = r' at hrun ⊢
  cases hrun with
  | ok _ hst =>
    cases hst with
    | intro known hosts => exact ⟨hosts, .ok ⟨known, rfl⟩⟩
  | error he hst =>
    cases hst with
    | intro known hosts => exact ⟨hosts, .error he⟩

/-- A machine from a configuration file is a new machine whose built-in import object has got the
environment of the file. -/
theorem made_ofConfigFile (H : Woven names others σ τ k g h) (file : ConfigFile) :
    Made names others σ τ k (Vm.ofConfigFile g file) (Vm.ofConfigFile h file) := by
  obtain ⟨ρ, hgrows, hosts, hlike⟩ := made_new H file.vm
  refine ⟨ρ, hgrows, ?_⟩
  unfold Vm.ofConfigFile
  generalize Vm.new g file.vm = r, Vm.new h file.vm = r' at hosts hlike ⊢
  obtain ⟨x, g'⟩ := r
  obtain ⟨x', h'⟩ := r'
  cases hlike with
  | error he => exact ⟨hosts, .error he⟩
  | @ok vm _ hvm =>
    obtain ⟨known, rfl⟩ := hvm
    have hrename : (vm.rename ρ).wasi = vm.wasi.map (ImportObject.rename · ρ) := rfl
    dsimp only
    rw [hrename]
    cases ho : vm.wasi with
    | none => exact ⟨hosts, .ok ⟨known, rfl⟩⟩
    | some o =>
      have hrefit := hosts.refit (known.wasi o ho)
        (Wasi.Environment.ofStrings file.wasi.args file.wasi.envs file.wasi.preopens)
      unfold Host.refit at hrefit
      dsimp only [Option.map_some] at hrefit ⊢
      generalize (Wasi.Environment.ofStrings file.wasi.args file.wasi.envs file.wasi.preopens >>=
          fun e => g'.replaceEnvironment o e) = q,
        (Wasi.Environment.ofStrings file.wasi.args file.wasi.envs file.wasi.preopens >>=
          fun e => h'.replaceEnvironment (o.rename ρ) e) = q' at hrefit ⊢
      cases hrefit with
      | error he => exact ⟨hosts, .error (he ▸ .refl _)⟩
      | ok hosts' => exact ⟨hosts', .ok ⟨known, rfl⟩⟩

end Vm

namespace Site

variable {own others : Share} {τ : Renaming} {k : Site}

theorem tallies_onHost {d : Deed} (hd : d.Of own.names) :
    Tallies own others τ k (onHost d.perform) (onHost d.perform) := by
  rintro g s ⟨σ, H⟩
  have hdeed := H.hosts.deed hd
  change Tally _ _ _ (onHost d.perform g) (onHost d.perform s)
  unfold onHost
  generalize d.perform.run g.host = r, d.perform.run s.host = r' at hdeed ⊢
  cases hdeed with
  | ok _ hgrown => exact .ok rfl (H.grown hgrown)
  | error he hgrown => exact .error (he ▸ .refl _) (H.grown hgrown)

theorem tallies_onMachine {handle : Nat} (hown : own.handles handle)
    {x : Vm.Action (List Value)} (hx : ∀ σ, Vm.Echoes own.names others.names σ τ k.host x) :
    Tallies own others τ k (onMachine handle x) (onMachine handle x) := by
  rintro g s ⟨σ, H⟩
  change Tally _ _ _ (onMachine handle x g) (onMachine handle x s)
  unfold onMachine
  rw [H.machines.machine? handle hown]
  cases hvm : g.machine? handle with
  | none => exact .ok rfl ⟨σ, H⟩
  | some vm =>
    have hrun := hx σ _ _ (.intro (H.machines.known handle vm hown hvm) H.hosts)
    dsimp only [Option.map_some]
    generalize EStateM.run x ⟨vm, g.host⟩ = r, EStateM.run x ⟨vm.rename σ, s.host⟩ = r' at hrun ⊢
    -- Companions come back, and are put where the machines were.
    have hput : ∀ {v : Vm} {g' h' : Host}, v.Known σ →
        Woven own.names others.names σ τ k.host g' h' →
        Joint own others τ k (g.put handle (some v) g') (s.put handle (some (v.rename σ)) h') := by
      intro v g' h' known hosts
      refine ⟨σ, H.put (Std.Refl.refl σ) hosts hown (m := some v) ?_⟩
      rintro _ ⟨⟩
      exact known
    cases hrun with
    | ok ha hst =>
      cases hst with
      | intro known hosts => exact .ok ha (hput known hosts)
    | error he hst =>
      cases hst with
      | intro known hosts => exact .error he (hput known hosts)

theorem tallies_keep {handle : Nat} (hown : own.handles handle)
    {make : Host → Except RuntimeError Vm × Host}
    (hmake : ∀ {σ : Renaming} {g h : Host}, Woven own.names others.names σ τ k.host g h →
      Vm.Made own.names others.names σ τ k.host (make g) (make h)) :
    Tallies own others τ k (keep handle make) (keep handle make) := by
  rintro g s ⟨σ, H⟩
  obtain ⟨ρ, hgrows, hosts, hlike⟩ := hmake H.hosts
  change Tally _ _ _ (keep handle make g) (keep handle make s)
  unfold keep
  generalize make g.host = r, make s.host = r' at hosts hlike ⊢
  obtain ⟨x, g'⟩ := r
  obtain ⟨x', h'⟩ := r'
  cases hlike with
  | error he => exact .error he (H.grown ⟨ρ, hgrows, hosts⟩)
  | @ok vm _ hvm =>
    obtain ⟨known, rfl⟩ := hvm
    refine .ok rfl ⟨ρ, H.put hgrows hosts hown (m := some vm) ?_⟩
    rintro _ ⟨⟩
    exact known

end Site

/-- **What a party does comes to the same where it is alone.** -/
theorem Event.tallies {own others : Share} {τ : Renaming} {k : Site} {e : Event} (he : e.Of own) :
    Site.Tallies own others τ k e.perform e.perform := by
  cases e with
  | deed d => exact Site.tallies_onHost he
  | new handle config => exact Site.tallies_keep he fun H => Vm.made_new H config
  | newFromFile handle file => exact Site.tallies_keep he fun H => Vm.made_ofConfigFile H file
  | command handle c => exact Site.tallies_onMachine he.1 fun σ => c.echoes he.2
  | drop handle =>
    rintro g s ⟨σ, H⟩
    refine .ok rfl ⟨σ, H.put (Std.Refl.refl σ) H.hosts he (m := none) ?_⟩
    rintro _ ⟨⟩
  | around a =>
    rintro g s ⟨σ, H⟩
    exact .ok rfl (H.grown (H.hosts.amid a).grown)
  | refit name e =>
    rintro g s ⟨σ, H⟩
    change Tally _ _ _ ((Event.refit name e).perform g) ((Event.refit name e).perform s)
    unfold Event.perform
    dsimp only
    rw [H.hosts.own.object? name he]
    cases ho : g.host.object? name with
    | none => exact .ok rfl ⟨σ, H⟩
    | some o =>
      have hrefit := H.hosts.refit (H.hosts.own.known_of_object? ho) e
      dsimp only [Option.map_some]
      generalize g.host.refit o e = r, s.host.refit (o.rename σ) e = r' at hrefit ⊢
      cases hrefit with
      | error he => exact .error (he ▸ .refl _) ⟨σ, H⟩
      | ok hosts => exact .ok rfl (H.grown hosts.grown)

end WasmEmbedding
