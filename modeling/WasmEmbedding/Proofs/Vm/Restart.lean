import WasmEmbedding.Proofs.Vm.Repeat

/-! # Restarting the link environment

Cleaning up restarts the link environment of a machine by rebuilding its store, but it does so
only if the store has seen an instantiation of a main module (`stale`).  Calls of registered
functions leave their traces in a store whether or not it has.

`cleanup_restarts` is the exact condition.  On a stale store, a cleanup whose replay does not fail
leaves a machine that answers every further call of registered functions as a new machine does, on
which the same has been registered in the same order (`Setting.anew`), and which is given the log
and the exit code that the cleaned machine has kept (`Setting.sharing`).  On a store that is not
stale a cleanup restarts nothing: every call is answered as it would have been before.
`cleanup_keeps_count` is a machine of which these differ.
-/
namespace WasmEmbedding.Vm

open Engine Wasm

variable {C : Scene → Prop} {S : Wasi.Session → Wasi.Session → Prop}

/-! ## Calls of registered functions -/

/-- What calls of registered functions answer, one after the other. -/
def Setting.answers (s : Setting) :
    List (String × String × List Value) → List (Except RuntimeError (List Value))
  | [] => []
  | (moduleName, name, args) :: calls =>
    outcome (Action.executeRegistered moduleName name args) s ::
      Setting.answers (ending (Action.executeRegistered moduleName name args) s) calls

/-- Twins with the same names in their link environments. -/
structure Peers (C : Scene → Prop) (S : Wasi.Session → Wasi.Session → Prop) (s t : Setting) :
    Prop extends Twin C S s t where
  known : ∀ name, (t.vm.registered? name).isSome = (s.vm.registered? name).isSome

namespace Peers

variable {s t : Setting}

/-- The call of a registered function. -/
theorem run_executeRegistered (s : Setting) (moduleName name : String) (args : List Value) :
    EStateM.run (Action.executeRegistered moduleName name args) s =
      EStateM.run (match (if (s.vm.registered? moduleName).isSome then
          (s.vm.linker.get? moduleName name).bind Item.function? else none) with
        | some address => Action.call address args
        | none => throw (.execution (.functionNotFound (moduleName ++ "." ++ name)))) s := by
  have hrun : EStateM.run (Action.executeRegistered moduleName name args) s =
      EStateM.run (match (s.vm.registered? moduleName).bind fun _ =>
          (s.vm.linker.get? moduleName name).bind Item.function? with
        | some address => Action.call address args
        | none => throw (.execution (.functionNotFound (moduleName ++ "." ++ name)))) s := rfl
  rw [hrun]
  cases s.vm.registered? moduleName <;> rfl

/-- **Peers answer a call in the same way, and stay peers.** -/
theorem executeRegistered (h : Peers C S s t) (hC : OfCode C) (hp : Permits C S)
    (moduleName name : String) (args : List Value) :
    outcome (Action.executeRegistered moduleName name args) s =
        outcome (Action.executeRegistered moduleName name args) t ∧
      Peers C S (ending (Action.executeRegistered moduleName name args) s)
        (ending (Action.executeRegistered moduleName name args) t) := by
  have hcall : ∀ found : Option Nat, Respects (Twin C S)
      (match found with
        | some address => Action.call address args
        | none => throw (.execution (.functionNotFound (moduleName ++ "." ++ name))))
      (match found with
        | some address => Action.call address args
        | none => throw (.execution (.functionNotFound (moduleName ++ "." ++ name)))) := by
    rintro (_ | address)
    · exact Respects.throw _
    · exact Action.respects_call hC hp address args
  have hs := run_executeRegistered s moduleName name args
  have ht := run_executeRegistered t moduleName name args
  rw [h.known, h.linker] at ht
  obtain ⟨houtcome, hending⟩ := (hcall _).outcome_ending h.toTwin
  refine ⟨?_, ?_, fun other => ?_⟩
  · unfold outcome at houtcome ⊢
    rw [hs, ht]
    exact houtcome
  · unfold ending at hending ⊢
    rw [hs, ht]
    exact hending
  · have hkeeps := Action.keeps_executeRegistered moduleName name args
    rw [registered?, registered?, (hkeeps s).registered, (hkeeps t).registered]
    exact h.known other

/-- **Peers answer any sequence of calls in the same way.** -/
theorem answers (hC : OfCode C) (hp : Permits C S) (calls : List (String × String × List Value)) :
    ∀ {s t : Setting}, Peers C S s t → s.answers calls = t.answers calls := by
  induction calls with
  | nil => exact fun _ => rfl
  | cons call calls ih =>
    intro s t h
    obtain ⟨moduleName, name, args⟩ := call
    obtain ⟨houtcome, hending⟩ := h.executeRegistered hC hp moduleName name args
    rw [Setting.answers, Setting.answers, houtcome, ih hending]

end Peers

/-! ## Stores that have not seen a main module -/

/-- The operation makes an instance of a main module. -/
def Operation.instantiates : Operation → Bool
  | .instantiate => true
  | .run _ _ _ => true
  | _ => false

/-- A store that is not stale does not become it. -/
def StaysFresh (s t : Setting) : Prop := s.vm.stale = false → t.vm.stale = false

instance : IsPreorder Setting StaysFresh where
  refl _ h := h
  trans _ _ _ h h' hs := h' (h hs)

namespace Action

variable {α : Type}

theorem staysFresh_of_works {x : Action α} (h : Keeps Works x) : Keeps StaysFresh x :=
  h.mono fun _ _ h hs => h.stale.trans hs

theorem staysFresh_reset : Keeps StaysFresh reset := by
  intro s hs
  rw [ending_of_ok (run_reset s), hs]
  exact hs

theorem staysFresh_load (source : Source) : Keeps StaysFresh (load source) := by
  refine staysFresh_reset.bind fun _ => ?_
  refine Keeps.bind (Keeps.get.bind fun _ => keeps_ofExcept _ _) fun image => ?_
  exact Keeps.bind (keeps_modifyVm fun _ => id) fun _ => keeps_modifyVm fun _ => id

theorem staysFresh_validate : Keeps StaysFresh validate := by
  refine keeps_aside_validate.mono fun s t (h : t.aside = s.aside) hs => ?_
  change t.aside.vm.stale = false
  rw [h]
  exact hs

theorem staysFresh_register (name : String) (source : Source) :
    Keeps StaysFresh (register name source) := by
  refine Keeps.intro (fun s _ t ht hs => ?_) fun s e t ht hs => ?_
  · obtain ⟨-, -, image, m, u, -, -, hlinks, rfl⟩ := (register_post name source s).ok ht
    exact hlinks.stale.trans hs
  · exact ((register_post name source s).error ht).1.stale.trans hs

theorem staysFresh_registerImport (o : Host.ImportObject) :
    Keeps StaysFresh (registerImport o) := by
  intro s hs
  have hstep := importStep s o
  generalize outcome (registerImport o) s = r, ending (registerImport o) s = t at hstep ⊢
  cases hstep <;> exact hs

end Action

/-- **Only instantiating a main module makes a store stale.** -/
theorem staysFresh_perform {o : Operation} (h : o.instantiates = false) :
    Keeps StaysFresh o.perform := by
  have discard : ∀ {α : Type} {x : Action α}, Keeps Works x →
      Keeps StaysFresh (x >>= fun _ => pure ()) :=
    fun h => (Action.staysFresh_of_works h).bind fun _ => Keeps.pure _
  cases o with
  | instantiate => cases h
  | run source name args => cases h
  | load source => exact Action.staysFresh_load source
  | validate => exact Action.staysFresh_validate
  | execute name args => exact discard (Action.keeps_execute name args)
  | executeRegistered moduleName name args =>
    exact discard (Action.keeps_executeRegistered moduleName name args)
  | cleanup => exact Action.staysFresh_reset
  | amendStatistics f => exact fun _ => id
  | amendContext f => exact fun _ => id
  | amendWasi f => exact fun _ => id
  | register name source => exact Action.staysFresh_register name source
  | registerImport object => exact Action.staysFresh_registerImport object

theorem cleanup_of_fresh {s : Setting} (hs : s.vm.stale = false) : s.after .cleanup = s.aside := by
  have hrun := Action.run_reset s
  rw [hs] at hrun
  exact ending_of_ok hrun

/-- A machine and the same machine without its main module. -/
theorem peers_aside (s : Setting) : Peers (fun _ => True) Eq s s.aside where
  config := rfl
  statistics := rfl
  linker := rfl
  host := rfl
  store := rfl
  scene := trivial
  sessions := rfl
  known _ := rfl

/-! ## The new machine -/

/-- A new machine of the same configuration and with the same counts, on the same host, before
anything is linked. -/
def Setting.anew (s : Setting) : Setting where
  vm := { Vm.empty s.vm.config s.host.newStore.1 with statistics := s.vm.statistics }
  host := s.host.newStore.2

/-- The setting `f` with the log and the exit code of `t`. -/
def Setting.sharing (f t : Setting) : Setting :=
  Action.withContext f { f.vm.store.context with logs := t.vm.logs, exitCode := t.vm.exitCode }

/-- The operations register again what the link environment of a machine has, in the same order. -/
def Repeats (s : Setting) (os : List Operation) : Prop :=
  List.Forall₂ (fun o e => ∀ u : Setting, u.vm.config = s.vm.config → o.Enters u e) os s.vm.entries

/-- What is registered can be registered again. -/
theorem Linked.exists_repeats {s : Setting} (h : s.vm.Linked) : ∃ os, Repeats s os := by
  have hall : ∀ entries : List (String × Registered), (∀ e ∈ entries, e ∈ s.vm.entries) →
      ∃ os, List.Forall₂ (fun (o : Operation) e => ∀ u : Setting, u.vm.config = s.vm.config →
        o.Enters u e) os entries := by
    intro entries
    induction entries with
    | nil => exact fun _ => ⟨[], .nil⟩
    | cons e entries ih =>
      intro hmem
      obtain ⟨o, ho⟩ := h.again e (hmem e List.mem_cons_self)
      obtain ⟨os, hos⟩ := ih fun e he => hmem e (List.mem_cons_of_mem _ he)
      exact ⟨o :: os, .cons ho hos⟩
  exact hall s.vm.entries fun _ => id

theorem level_blank (s : Setting) : Level (Action.blank s.aside) s.anew := by
  refine .apart rfl ⟨rfl, rfl, rfl, rfl, rfl, ⟨fun address call => ?_, rfl, rfl⟩, trivial⟩ ?_
  · exact nofun
  · exact fun _ _ => .inl rfl

/-- What a rebuilt machine takes over makes no difference to a machine that shares it. -/
theorem Twin.sharing {u f : Setting} (h : Twin C S u f) (hC : OfCode C) (old : Vm) :
    Twin C S ⟨Action.inherit old u.vm, u.host⟩
      (f.sharing ⟨Action.inherit old u.vm, u.host⟩) := by
  refine ⟨h.config, h.statistics, h.linker, h.host, ?_, hC u.scene _ rfl h.scene, h.sessions⟩
  exact congrArg (fun store : Store => { store with context := { store.context with
    logs := old.logs, exitCode := old.exitCode } }) h.store

/-- **Machines that are level answer every sequence of calls in the same way.** -/
theorem Level.answers {u f : Setting} (h : Level u f)
    (hknown : ∀ name, (f.vm.registered? name).isSome = (u.vm.registered? name).isSome) (old : Vm)
    (calls : List (String × String × List Value)) :
    Setting.answers ⟨Action.inherit old u.vm, u.host⟩ calls =
      (f.sharing ⟨Action.inherit old u.vm, u.host⟩).answers calls := by
  have hsystemFree : OfCode fun a => a.code.SystemFree := by
    intro a b hcode ha
    rw [hcode]
    exact ha
  have huninhabited : OfCode fun a => a.code.instances = #[] := by
    intro a b hcode ha
    rw [hcode]
    exact ha
  have hanything : OfCode fun _ => True := fun _ _ _ => id
  cases h with
  | apart _ twin _ =>
    have htwin : Twin (fun a => a.code.SystemFree) (fun _ _ => True) u f :=
      twin.mono (fun hquiet => hquiet.systemFree) id
    exact Peers.answers hsystemFree (.systemFree fun _ => id) calls
      ⟨htwin.sharing hsystemFree old, hknown⟩
  | joined _ _ _ _ twin =>
    rcases twin with twin | twin
    · exact Peers.answers huninhabited (.uninhabited fun _ => id) calls
        ⟨twin.sharing huninhabited old, hknown⟩
    · exact Peers.answers hanything (.equal hanything) calls ⟨twin.sharing hanything old, hknown⟩

/-! ## Cleaning up -/

/-- The machine of `t` has been restarted as if it were that of `f`: the stores have the same
tables, memories, globals and instances, the same counts have been made, the hosts have become the
same, and further calls are answered in the same way. -/
structure Restarted (f t : Setting) : Prop where
  store : ∀ c : Context, t.vm.store.under c = f.vm.store.under c
  linker : t.vm.linker = f.vm.linker
  statistics : t.vm.statistics = f.vm.statistics
  host : t.host = f.host
  answers : ∀ calls, t.answers calls = (f.sharing t).answers calls

/-- A cleanup of a stale store that meets no failure is a replay of the entries. -/
theorem cleanup_of_stale {s : Setting} (hs : s.vm.stale = true)
    (ht : (s.after .cleanup).vm.stale = false) :
    ∃ u, Replays s.vm.entries (Action.blank s.aside) u ∧
      s.after .cleanup = ⟨Action.inherit s.aside.vm u.vm, u.host⟩ := by
  have hrun := Action.run_reset s
  rw [hs] at hrun
  have hafter : s.after .cleanup = ending Action.rebuild s.aside := ending_of_ok hrun
  rw [hafter] at ht ⊢
  have hpost := Action.rebuild_post s.aside
  cases hrebuild : EStateM.run Action.rebuild s.aside with
  | ok a t =>
    rw [ending_of_ok hrebuild]
    exact hpost.ok hrebuild
  | error e t =>
    rw [ending_of_error hrebuild, (hpost.error hrebuild).1] at ht
    exact nomatch hs.symm.trans ht

/-- **Cleaning up restarts the link environment exactly if the store is stale.**  What is registered
can be registered again on a new machine; this either needs a session that cannot be started, or
makes a machine as which the cleaned one has been restarted, provided that its store was stale and
the replay has not failed.  If the store was not stale, the machine has only let go of its main
module, and it answers every sequence of calls as it would have done before.  Nothing but an
instantiation of a main module makes a store stale. -/
theorem cleanup_restarts {s : Setting} (h : Reachable s) :
    (∃ os, Repeats s os) ∧
    (s.vm.stale = true → (s.after .cleanup).vm.stale = false → ∀ os, Repeats s os →
      Post (os.forM Operation.perform) s.anew fun r f =>
        match r with
        | .ok _ => Restarted f (s.after .cleanup)
        | .error e => ∃ w, e = .wasi w) ∧
    (s.vm.stale = false → s.after .cleanup = s.aside ∧
      ∀ calls, (s.after .cleanup).answers calls = s.answers calls) ∧
    (∀ o : Operation, o.instantiates = false → s.vm.stale = false →
      (s.after o).vm.stale = false) := by
  have hlinked : s.vm.Linked := invariant_linked.reachable h
  refine ⟨hlinked.exists_repeats, fun hs ht os hos => ?_, fun hs => ?_, fun o ho =>
    staysFresh_perform ho s⟩
  · obtain ⟨u, hreplays, hafter⟩ := cleanup_of_stale hs ht
    have hfollows : Follows [] (Action.blank s.aside) s.anew :=
      ⟨level_blank s, fun name => iff_of_false nofun List.not_mem_nil⟩
    have hnames : s.vm.entries.map Prod.fst = s.vm.linkOrder := hlinked.listed.names_entries
    have hrun := Follows.run hreplays hfollows
      (by rw [List.nil_append, hnames]; exact hlinked.listed.nodup)
      (fun e he => hlinked.listed.named e.1 (hnames ▸ List.mem_map_of_mem he))
      (fun name linked functions key he hkey =>
        (hlinked.attached name linked functions key he hkey).1)
      hos
    refine Post.intro (fun _ f hf => ?_) fun e f hf => hrun.error hf
    obtain ⟨hlevel, hknown⟩ := hrun.ok hf
    have hsame : ∀ name, (f.vm.registered? name).isSome = (u.vm.registered? name).isSome := by
      intro name
      have hu : u.vm.registered? name = s.vm.registered? name := by
        rw [registered?, hreplays.builds.registered]
        rfl
      rw [hu, Bool.eq_iff_iff, hknown, List.nil_append, hnames, hlinked.listed.mem_iff]
    have htwin := hlevel.twin
    rw [hafter]
    refine ⟨fun c => ?_, htwin.linker.symm, htwin.statistics.symm, htwin.host.symm, ?_⟩
    · rw [htwin.store]
      rfl
    · exact hlevel.answers hsame s.aside.vm
  · rw [cleanup_of_fresh hs]
    refine ⟨rfl, fun calls => ?_⟩
    exact (Peers.answers (fun _ _ _ => id) (.equal fun _ _ _ => id) calls (peers_aside s)).symm

/-! ## A counter -/

/-- The bytes of a module whose function `bump` counts its calls in a global, and answers how often
it has been called. -/
def counterBytes : List UInt8 :=
  emptyBytes ++ [1, 5, 1, 0x60, 0, 1, 0x7f] ++ [3, 2, 1, 0] ++ [6, 6, 1, 0x7f, 1, 0x41, 0, 0x0b] ++
    [7, 8, 1, 4, 0x62, 0x75, 0x6d, 0x70, 0, 0] ++
    [0x0a, 0x0d, 1, 0x0b, 0, 0x23, 0, 0x41, 1, 0x6a, 0x24, 0, 0x23, 0, 0x0b]

/-- Registers the counter. -/
def registerCounter : Operation := .register "counter" (.bytes counterBytes)

/-- Calls the counter. -/
def bump : String × String × List Value := ("counter", "bump", [])

/-- A new machine on which the counter has been registered and called once. -/
def bumped : Setting :=
  (Setting.after ⟨empty {} ⟨0⟩, (Host.newStore {}).2⟩ registerCounter).after
    (.executeRegistered "counter" "bump" [])

/-- The same machine after a main module has been instantiated. -/
def bumpedStale : Setting := (bumped.after (.load (.bytes emptyBytes))).after .instantiate

theorem reachable_bumped : Reachable bumped := by
  have hnew : Vm.new {} {} = (.ok (empty {} ⟨0⟩), (Host.newStore {}).2) := rfl
  exact .operate (.operate (.new hnew) _) _

theorem reachable_bumpedStale : Reachable bumpedStale :=
  .operate (.operate reachable_bumped _) _

theorem Operation.Enters.registers {s : Setting} {o : Operation} {e : String × Registered}
    (h : o.Enters s e) : o.registers = true := by
  obtain ⟨name, entry⟩ := e
  cases o with
  | register name' source => rfl
  | registerImport object => rfl
  | _ => exact absurd h id

theorem entries_after_of_registers {s : Setting} (h : s.vm.Listed) {o : Operation}
    (ho : o.registers = false) : (s.after o).vm.entries = s.vm.entries := by
  rcases entries_after h o with hsame | ⟨e, henters, -⟩
  · exact hsame
  · exact nomatch ho.symm.trans henters.registers

/-- Bytes are the same module on every host. -/
theorem Operation.Enters.elsewhere {s u : Setting} {name : String} {bytes : List UInt8}
    {e : String × Registered} (h : (Operation.register name (.bytes bytes)).Enters s e)
    (hu : u.vm.config = s.vm.config) : (Operation.register name (.bytes bytes)).Enters u e := by
  obtain ⟨name', entry⟩ := e
  cases entry with
  | imports linked functions => exact absurd h id
  | module m =>
    obtain ⟨hname, image, himage, hm⟩ := h
    exact ⟨hname, image, himage, hu ▸ hm⟩

theorem repeats_bumped : Repeats bumped [registerCounter] := by
  have hmade : Vm.new {} {} = (.ok (empty {} ⟨0⟩), (Host.newStore {}).2) := rfl
  have hnew : Reachable ⟨empty {} ⟨0⟩, (Host.newStore {}).2⟩ := .new hmade
  have hlisted : ∀ {s : Setting}, Reachable s → s.vm.Listed :=
    fun h => (invariant_linked.reachable h).listed
  have hconfig : bumped.vm.config = {} := by
    rw [bumped, config_after, config_after]
    rfl
  have hlength : bumped.vm.entries.length = 1 := by decide +kernel
  have hentries : bumped.vm.entries =
      (Setting.after ⟨empty {} ⟨0⟩, (Host.newStore {}).2⟩ registerCounter).vm.entries :=
    entries_after_of_registers (hlisted (.operate hnew _)) rfl
  have hempty : entries (empty {} ⟨0⟩) = [] := rfl
  unfold Repeats
  rw [hconfig]
  rcases entries_after (hlisted hnew) registerCounter with hsame | ⟨e, henters, -, hone⟩
  · rw [hentries, hsame] at hlength
    cases hlength
  · rw [hentries, hone, hempty, List.nil_append]
    exact .cons (fun u hu => henters.elsewhere hu) .nil

/-- A cleanup restarts the counter of the machine that has instantiated a main module. -/
theorem cleanup_restarts_bumpedStale :
    ∃ f, EStateM.run ([registerCounter].forM Operation.perform) bumpedStale.anew = .ok () f ∧
      Restarted f (bumpedStale.after .cleanup) ∧
      (bumpedStale.after .cleanup).answers [bump, bump] = [.ok [.i32 1], .ok [.i32 2]] := by
  -- Stated of every machine first, so that nothing is computed while the parts are put together.
  have hrestarts : ∀ (s : Setting) (os : List Operation), Reachable s → Repeats s os →
      s.vm.stale = true → (s.after .cleanup).vm.stale = false →
      (outcome (os.forM Operation.perform) s.anew).isOk = true →
      ∃ f, EStateM.run (os.forM Operation.perform) s.anew = .ok () f ∧
        Restarted f (s.after .cleanup) := by
    intro s os hs hrepeats hstale hcleaned hok
    have hrun := run_of_isOk hok
    exact ⟨_, hrun, ((cleanup_restarts hs).2.1 hstale hcleaned os hrepeats).ok hrun⟩
  have hlisted : ∀ {s : Setting}, Reachable s → s.vm.Listed :=
    fun h => (invariant_linked.reachable h).listed
  have hrepeats : Repeats bumpedStale [registerCounter] := by
    unfold Repeats
    rw [bumpedStale, entries_after_of_registers (hlisted (.operate reachable_bumped _)) rfl,
      entries_after_of_registers (hlisted reachable_bumped) rfl, config_after, config_after]
    exact repeats_bumped
  obtain ⟨f, hrun, hrestarted⟩ := hrestarts bumpedStale [registerCounter] reachable_bumpedStale
    hrepeats (by decide +kernel) (by decide +kernel) (by decide +kernel)
  exact ⟨f, hrun, hrestarted, by decide +kernel⟩

/-- There is a reachable machine whose cleanup meets no failure, and that does not answer as a new
machine does on which the same has been registered. -/
theorem cleanup_keeps_count :
    ∃ (s : Setting) (os : List Operation) (f : Setting)
      (calls : List (String × String × List Value)),
      Reachable s ∧ Repeats s os ∧ (s.after .cleanup).vm.stale = false ∧
      EStateM.run (os.forM Operation.perform) s.anew = .ok () f ∧
      (s.after .cleanup).answers calls ≠ (f.sharing (s.after .cleanup)).answers calls := by
  refine ⟨bumped, [registerCounter], _, [bump], reachable_bumped, repeats_bumped, by decide +kernel,
    run_of_isOk (by decide +kernel), ?_⟩
  decide +kernel

end WasmEmbedding.Vm
