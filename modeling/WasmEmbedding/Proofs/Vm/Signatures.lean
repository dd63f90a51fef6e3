import WasmEmbedding.Proofs.Engine.Exports
import WasmEmbedding.Proofs.Value.Signatures
import WasmEmbedding.Proofs.Vm.Calls
import WasmEmbedding.Proofs.Vm.Restart
import WasmEmbedding.Proofs.Vm.Stock

/-! # Results have the declared kinds

The signature of a function is derived twice: the owner of a machine is told the one that the
compiled module gives, or the one noted down at registration, while a call reads it off the function
in the store.  For the instance of the main module the two agree because the instance `Presents` the
module; for the link environment they agree because every item of the linker has an origin among
the entries, and what is noted down of these is certified (`Signed`).  Functions of which the owner
is told nothing, although they can be called, are those of the system interface that a failed
registration has left behind; a call of these from the host never succeeds.

The results of a call have the kinds that the call reads off, whatever the engine hands back,
because decoding enforces them, and so do the zeros of a guest that has ended well.
`results_declared` puts the two together.
-/
namespace WasmEmbedding

open Engine Wasm

theorem Wasi.Syscall.mem_all (c : Wasi.Syscall) : c ∈ all := by cases c <;> decide

/-- A function of the system interface is known by its name. -/
theorem Wasi.Syscall.eq_of_name {c d : Wasi.Syscall} (h : c.name = d.name) : c = d :=
  List.inj_on_of_nodup_map LinkedImports.nodup_syscall_names c.mem_all d.mem_all h

/-- The functions of the system interface have signatures. -/
theorem Wasi.Syscall.signature (c : Wasi.Syscall) : ∃ s, Signature.ofType? c.type = .ok s := by
  cases c <;> exact ⟨_, rfl⟩

/-- What a list is filtered to comes in the order of the list. -/
theorem sublist_filterMap {α β γ : Type} {f : α → Option β} {p : α → γ} {q : β → γ}
    (h : ∀ a b, f a = some b → q b = p a) (l : List α) :
    ((l.filterMap f).map q).Sublist (l.map p) := by
  induction l with
  | nil => exact .slnil
  | cons a l ih =>
    rw [List.filterMap_cons, List.map_cons]
    cases ha : f a with
    | none => exact ih.cons _
    | some b =>
      dsimp only
      rw [List.map_cons, h a b ha]
      exact ih.cons_cons _

/-! ## The functions of a module by name -/

namespace Wasm.Module

/-- An export, if it is a function with a signature. -/
def listed (m : Module) (e : Export) : Option (String × Signature) := do
  match Signature.ofType? (← m.exportedFunction? e) with
  | .ok s => some (e.name, s)
  | .error _ => none

theorem listed_eq_some {m : Module} {e : Export} {name : String} {signature : Signature} :
    m.listed e = some (name, signature) ↔
      e.name = name ∧ ∃ type, m.exportedFunction? e = some type ∧
        Signature.ofType? type = .ok signature := by
  unfold listed
  constructor
  · intro h
    obtain ⟨type, htype, h⟩ := Option.bind_eq_some_iff.mp h
    split at h
    · rename_i s hs
      cases h
      exact ⟨rfl, type, htype, hs⟩
    · cases h
  · rintro ⟨rfl, type, htype, hs⟩
    rw [htype]
    change (match Signature.ofType? type with
      | .ok s => some (e.name, s)
      | .error _ => none) = _
    rw [hs]

/-- The functions of a module are listed under different names. -/
theorem nodup_functionList {m : Module} (h : (m.exports.map Export.name).Nodup) :
    (m.functionList.map Prod.fst).Nodup :=
  h.sublist (sublist_filterMap (fun _ _ he => (listed_eq_some.mp he).1.symm) m.exports)

/-- What the list of functions has under a name is an exported function of that name. -/
theorem lookup_functionList {m : Module} (h : (m.exports.map Export.name).Nodup) {name : String}
    {signature : Signature} :
    m.functionList.lookup name = some signature ↔ ∃ e ∈ m.exports, e.name = name ∧
      ∃ type, m.exportedFunction? e = some type ∧ Signature.ofType? type = .ok signature := by
  constructor
  · intro hlookup
    obtain ⟨e, he, hlisted⟩ := List.mem_filterMap.mp (mem_of_lookup hlookup)
    exact ⟨e, he, listed_eq_some.mp hlisted⟩
  · rintro ⟨e, he, hlisted⟩
    refine lookup_of_mem (nodup_functionList h) ?_
    exact List.mem_filterMap.mpr ⟨e, he, listed_eq_some.mpr hlisted⟩

end Wasm.Module

namespace Vm

/-! ## The instance of the main module -/

theorem Action.published_of_instance? {m : Module} {index : Nat} {s t : Setting}
    (h : EStateM.run (instance? m) s = .ok index t) :
    ∃ i, t.vm.store.instances[index]? = some i ∧ t.vm.store.code.Publishes m i.exports := by
  obtain ⟨-, items, i, resolved, realizes⟩ := instance?_ok h
  exact ⟨i, realizes.instance_eq,
    published_of_realizes resolved ((keeps_instance? m).ok h).code realizes⟩

/-- The instance that can be called exports what its module says. -/
def Presents (vm : Vm) : Prop :=
  ∀ a, vm.active = some a → ∃ i, vm.store.instances[a.index]? = some i ∧
    vm.store.code.Publishes a.module i.exports

theorem Presents.of_inactive {vm : Vm} (h : vm.active = none) : vm.Presents := by
  intro a ha
  cases h.symm.trans ha

theorem Presents.grows {s t : Setting} (h : s.vm.Presents) (g : Grows s t) : t.vm.Presents := by
  intro a ha
  have hactive : t.vm.active = s.vm.active := congrArg Main.active g.main
  obtain ⟨i, hi, published⟩ := h a (hactive ▸ ha)
  exact ⟨i, g.code.instances _ _ hi, published.mono g.code⟩

/-- The same for the machine of a setting. -/
def Setting.Presents (s : Setting) : Prop := s.vm.Presents

namespace Action

theorem upholds_presents_of_grows {α : Type} {x : Action α} (h : Keeps Grows x) :
    Keeps (Upholds Setting.Presents) x :=
  h.mono fun _ _ g hs => hs.grows g

theorem presents_reset (s : Setting) : (ending reset s).vm.Presents :=
  .of_inactive (congrArg Main.active (main_reset s))

theorem presents_load (source : Source) (s : Setting) : (ending (load source) s).vm.Presents := by
  have hload : Post (load source) s fun _ (t : Setting) => t.vm.Presents := by
    refine Post.intro (fun _ t ht => ?_) fun e t ht => ?_
    · obtain ⟨image, hmain⟩ := (load_post source s).ok ht
      exact .of_inactive (congrArg Main.active hmain)
    · obtain ⟨-, hmain⟩ := (load_post source s).error ht
      exact .of_inactive (congrArg Main.active hmain)
  exact hload

theorem upholds_presents_validate : Keeps (Upholds Setting.Presents) validate := by
  refine keeps_vm.bind fun vm => ?_
  split
  · exact keeps_vm.bind fun _ => Keeps.throw _
  · exact Keeps.pure _
  · exact Keeps.pure _
  · refine keeps_vm.bind fun vm => ?_
    split
    · exact keeps_vm.bind fun _ => Keeps.throw _
    · refine Keeps.bind (keeps_vm.bind fun _ => keeps_ofExcept _ _) fun m => ?_
      exact Keeps.bind (keeps_modifyVm fun _ h => h) fun _ => keeps_modifyVm fun _ h => h

theorem published_of_prepare {m : Module} {index : Nat} {s t : Setting}
    (h : EStateM.run (prepare m) s = .ok index t) :
    ∃ i, t.vm.store.instances[index]? = some i ∧ t.vm.store.code.Publishes m i.exports := by
  obtain ⟨u, hu⟩ := instance?_of_prepare h
  exact published_of_instance? hu

/-- An instance that has been started presents its module, and if none has been started there is
none. -/
theorem presents_start (m : Module) (s : Setting) : (ending (start m) s).vm.Presents := by
  have inactive (s : Setting) : (ending deactivate s).vm.active = none := by
    have hrun : EStateM.run deactivate s =
        EStateM.run (if s.vm.active.isSome then
          modifyVm (fun vm => { vm with active := none }) >>= fun _ => setStage .validated
        else pure ()) s := rfl
    unfold ending
    rw [hrun]
    cases hactive : s.vm.active with
    | none => exact hactive
    | some a => rfl
  have hstart : Post (deactivate >>= fun _ => prepare m >>= activate m) s
      fun _ (t : Setting) => t.vm.Presents := by
    refine Post.bind (fun _ u hu => ?_) fun e u hu =>
      .of_inactive (ending_of_error hu ▸ inactive s)
    have hu : u.vm.active = none := ending_of_ok hu ▸ inactive s
    refine Post.bind (fun index v hv => ?_) fun e v hv => ?_
    · have found := published_of_prepare hv
      refine Post.of_ok rfl fun a ha => ?_
      cases ha
      exact found
    · have hmain : v.vm.main = u.vm.main := (keeps_prepare m).error hv
      exact .of_inactive ((congrArg Main.active hmain).trans hu)
  rw [start_eq]
  exact hstart

theorem upholds_presents_instantiate : Keeps (Upholds Setting.Presents) instantiate := by
  intro s
  have refused : Keeps (Upholds Setting.Presents) (refuseStage (α := Unit) "instantiate") :=
    keeps_vm.bind fun _ => Keeps.throw _
  refine Keeps.of_run_eq ?_ (run_instantiate s)
  split
  · exact refused
  · refine upholds_presents_validate.bind fun _ => keeps_vm.bind fun vm => ?_
    split
    · exact refused
    · exact fun s _ => presents_start _ s

end Action

theorem invariant_presents : Invariant Presents where
  empty _ _ := .of_inactive rfl
  enableWasi config id host e t h :=
    Presents.grows (s := ⟨Vm.empty config id, host⟩) (.of_inactive rfl)
      ((keeps_enableWasi e).ok h)
  operate s o h := by
    by_cases hmoves : o.moves = false
    · exact h.grows (keeps_perform hmoves s)
    cases o with
    | load source => exact Action.presents_load source s
    | validate => exact Action.upholds_presents_validate s h
    | instantiate => exact Action.upholds_presents_instantiate s h
    | cleanup => exact Action.presents_reset s
    | run source name args =>
      have hrun : Keeps (Upholds Setting.Presents) (Action.run source name args) := by
        refine Keeps.bind (fun s _ => Action.presents_load source s) fun _ => ?_
        refine Action.upholds_presents_validate.bind fun _ => ?_
        refine Action.upholds_presents_instantiate.bind fun _ => ?_
        exact Action.upholds_presents_of_grows (Action.keeps_grows (Action.keeps_execute name args))
      exact (hrun.bind fun _ => Keeps.pure _) s h
    | _ => exact absurd rfl hmoves

/-! ## The link environment -/

/-- The functions that an import object is registered with under a name are its own.  If it is an
object for the system interface, under the name of this, they are the functions of the interface,
each of them once. -/
structure Certifies (name : String) (linked : LinkedImports)
    (functions : List (String × Signature)) : Prop where
  host : linked.environment = none → functions = Host.functionsOf linked.symbols
  system : linked.environment.isSome = true → name = Wasi.moduleName → ∀ x ∈ functions,
    ∃ call : Wasi.Syscall, x.1 = call.name ∧ Signature.ofType? call.type = .ok x.2
  complete : linked.environment.isSome = true → name = Wasi.moduleName → ∀ call : Wasi.Syscall,
    ∃ signature, (call.name, signature) ∈ functions
  nodup : linked.environment.isSome = true → (functions.map Prod.fst).Nodup

/-- A machine has linked its entries, and the functions that it has of its import objects on record
are the right ones. -/
structure Signed (vm : Vm) : Prop extends Stocked vm where
  certified : ∀ name linked functions, (name, .imports linked functions) ∈ vm.entries →
    Certifies name linked functions

/-- What is registered of an import object for the system interface are the functions that are
linked under its name then. -/
theorem functions_of_link_system {o : Host.ImportObject} {key : Host.EnvironmentKey} {s t : Setting}
    (hkey : o.environment = some key) (h : EStateM.run (Action.link o) s = .ok () t) :
    t.vm.registered? o.moduleName = some (.imports ⟨o.moduleName, o.symbolList, o.environment⟩
      (t.vm.linkedFunctions Wasi.moduleName)) := by
  rw [Action.run_link] at h
  cases hsnap : o.snapshot with
  | error f =>
    rw [hsnap] at h
    cases h
  | ok linked =>
    rw [hsnap] at h
    dsimp only at h
    obtain ⟨symbols, hsymbols, rfl⟩ := Host.ImportObject.snapshot_eq_ok_iff.mp hsnap
    split at h
    · cases h
    · rw [Action.run_commit] at h
      dsimp only at h
      rw [hkey] at h ⊢
      dsimp only at h
      split at h
      · cases h
        have hlist : o.symbolList = symbols := by
          rw [Host.ImportObject.symbolList, hsymbols]
          rfl
        rw [hlist]
        exact (registered?_entered _ _ _ _).trans (if_pos rfl)
      · cases h

/-- The functions that are linked under a module name. -/
theorem mem_linkedFunctions {vm : Vm} {moduleName name : String} {signature : Signature} :
    (name, signature) ∈ vm.linkedFunctions moduleName ↔ ∃ a type,
      ((moduleName, name), .function a) ∈ vm.linker.entries ∧
        vm.store.functionType? a = some type ∧ Signature.ofType? type = .ok signature := by
  constructor
  · intro hmem
    obtain ⟨⟨n, item⟩, hitem, hsome⟩ := List.mem_filterMap.mp hmem
    obtain ⟨⟨⟨m, _⟩, _⟩, hlinked, hname⟩ := List.mem_filterMap.mp hitem
    dsimp only at hname
    split at hname
    · rename_i hmodule
      cases hname
      cases hmodule
      obtain ⟨a, ha, hsome⟩ := Option.bind_eq_some_iff.mp hsome
      obtain ⟨type, htype, hsome⟩ := Option.bind_eq_some_iff.mp hsome
      split at hsome
      · rename_i hsignature
        cases hsome
        cases item with
        | function b =>
          cases ha
          exact ⟨_, type, hlinked, htype, hsignature⟩
        | _ => cases ha
      · cases hsome
    · cases hname
  · rintro ⟨a, type, hlinked, htype, hsignature⟩
    refine List.mem_filterMap.mpr ⟨(name, .function a), ?_, ?_⟩
    · exact List.mem_filterMap.mpr ⟨_, hlinked, if_pos rfl⟩
    · refine Option.bind_eq_some_iff.mpr ⟨a, rfl, Option.bind_eq_some_iff.mpr ⟨type, htype, ?_⟩⟩
      rw [hsignature]

namespace Stocked

variable {vm : Vm} (h : vm.Stocked)

include h

theorem nodup_names : vm.linker.names.Nodup := h.laid.nodup List.nodup_nil

/-- There is one entry under a name. -/
theorem unique {name : String} {e e' : Registered} (he : (name, e) ∈ vm.entries)
    (he' : (name, e') ∈ vm.entries) : e = e' :=
  Option.some.inj ((h.listed.mem_entries_iff.mp he).symm.trans (h.listed.mem_entries_iff.mp he'))

/-- There is one item under a name. -/
theorem item_eq {moduleName name : String} {item item' : Item}
    (hget : vm.linker.get? moduleName name = some item)
    (hitem : ((moduleName, name), item') ∈ vm.linker.entries) : item' = item :=
  Option.some.inj (((Linker.get?_eq_some h.nodup_names).mpr hitem).symm.trans hget)

/-- Where an item in the linker comes from. -/
theorem origin {moduleName name : String} {item : Item}
    (hget : vm.linker.get? moduleName name = some item) :
    Origin vm.entries vm.store.code ((moduleName, name), item) := by
  rcases h.laid.origins _ ((Linker.get?_eq_some h.nodup_names).mp hget) with hmem | horigin
  · cases hmem
  · exact horigin

/-- What is linked under the name of the system interface are functions of it, if an import object
for it is registered there. -/
theorem system_item {linked : LinkedImports} {functions : List (String × Signature)}
    {key : Host.EnvironmentKey}
    (hentry : (Wasi.moduleName, .imports linked functions) ∈ vm.entries)
    (hkey : linked.environment = some key) {name : String} {item : Item}
    (hitem : ((Wasi.moduleName, name), item) ∈ vm.linker.entries) :
    ∃ (a : Nat) (call : Wasi.Syscall), name = call.name ∧ item = .function a ∧
      vm.store.functions[a]? = some (.system call) := by
  have horigin := h.origin ((Linker.get?_eq_some h.nodup_names).mpr hitem)
  generalize hmodule : Wasi.moduleName = moduleName at horigin
  cases horigin with
  | @symbol other _ linked' functions' _ _ hother alone =>
    have hsame : other = Wasi.moduleName := (h.named hother).symm.trans hmodule.symm
    cases h.unique hentry (hsame ▸ hother)
    cases alone.symm.trans hkey
  | «export» hother => cases h.unique hentry (hmodule ▸ hother)
  | @system a call hcall => exact ⟨a, call, rfl, rfl, hcall⟩

/-- What is linked beside the functions of a registered object for the system interface are no
others. -/
theorem system_of_linkedFunctions {linked : LinkedImports} {functions : List (String × Signature)}
    {key : Host.EnvironmentKey}
    (hentry : (Wasi.moduleName, .imports linked functions) ∈ vm.entries)
    (hkey : linked.environment = some key) {x : String × Signature}
    (hx : x ∈ vm.linkedFunctions Wasi.moduleName) : ∃ call : Wasi.Syscall,
      x.1 = call.name ∧ Signature.ofType? call.type = .ok x.2 := by
  obtain ⟨a, type, hitem, htype, hsignature⟩ := mem_linkedFunctions.mp hx
  obtain ⟨_, call, hname, ⟨⟩, hcall⟩ := h.system_item hentry hkey hitem
  cases htype.symm.trans (Store.functionType?_eq_some.mpr ⟨_, hcall, rfl⟩)
  exact ⟨call, hname, hsignature⟩

/-- All functions of a registered object for the system interface are in the linker. -/
theorem linked_system {linked : LinkedImports} {functions : List (String × Signature)}
    {key : Host.EnvironmentKey}
    (hentry : (Wasi.moduleName, .imports linked functions) ∈ vm.entries)
    (hkey : linked.environment = some key) (call : Wasi.Syscall) :
    ∃ a, ((Wasi.moduleName, call.name), .function a) ∈ vm.linker.entries ∧
      vm.store.functions[a]? = some (.system call) := by
  have hnames := (h.attached _ _ _ _ hentry hkey).2 call call.mem_all
  obtain ⟨⟨⟨_, _⟩, item⟩, hitem, ⟨⟩⟩ := List.mem_map.mp hnames
  obtain ⟨a, call', hname, rfl, hcall⟩ := h.system_item hentry hkey hitem
  cases Wasi.Syscall.eq_of_name hname
  exact ⟨a, hitem, hcall⟩

/-- All functions of a registered object for the system interface are listed. -/
theorem linkedFunctions_complete {linked : LinkedImports} {functions : List (String × Signature)}
    {key : Host.EnvironmentKey}
    (hentry : (Wasi.moduleName, .imports linked functions) ∈ vm.entries)
    (hkey : linked.environment = some key) (call : Wasi.Syscall) :
    ∃ signature, (call.name, signature) ∈ vm.linkedFunctions Wasi.moduleName := by
  obtain ⟨a, hitem, hcall⟩ := h.linked_system hentry hkey call
  obtain ⟨signature, hsignature⟩ := call.signature
  exact ⟨signature, mem_linkedFunctions.mpr
    ⟨a, call.type, hitem, Store.functionType?_eq_some.mpr ⟨_, hcall, rfl⟩, hsignature⟩⟩

/-- Functions are linked under different names. -/
theorem nodup_linkedFunctions (moduleName : String) :
    ((vm.linkedFunctions moduleName).map Prod.fst).Nodup := by
  have hitems : ((vm.linker.itemsOf moduleName).map fun x => (moduleName, x.1)).Nodup := by
    refine h.nodup_names.sublist (sublist_filterMap (fun e x hx => ?_) _)
    obtain ⟨⟨m, n⟩, item⟩ := e
    dsimp only at hx
    split at hx
    · rename_i hmodule
      cases hx
      rw [hmodule]
    · cases hx
  have hnames : ((vm.linker.itemsOf moduleName).map Prod.fst).Nodup := by
    refine List.Nodup.of_map (moduleName, ·) ?_
    rwa [List.map_map]
  refine hnames.sublist (sublist_filterMap (fun e x hx => ?_) _)
  obtain ⟨n, item⟩ := e
  obtain ⟨a, -, hx⟩ := Option.bind_eq_some_iff.mp hx
  obtain ⟨type, -, hx⟩ := Option.bind_eq_some_iff.mp hx
  split at hx
  · cases hx
    rfl
  · cases hx

end Stocked

/-- An import object is certified when it is linked. -/
theorem Stocked.certifies {o : Host.ImportObject} {s t : Setting} (ht : t.vm.Stocked)
    (hlink : EStateM.run (Action.link o) s = .ok () t) {linked : LinkedImports}
    {functions : List (String × Signature)}
    (he : (o.moduleName, .imports linked functions) ∈ t.vm.entries) :
    Certifies o.moduleName linked functions := by
  have hfound := ht.listed.mem_entries_iff.mp he
  cases hkey : o.environment with
  | none =>
    cases hfound.symm.trans (functions_of_link hkey hlink)
    have alone : o.environment.isSome = true → False := by
      rw [hkey]
      exact nofun
    exact ⟨fun _ => rfl, fun h => (alone h).elim, fun h => (alone h).elim, fun h => (alone h).elim⟩
  | some key =>
    cases hfound.symm.trans (functions_of_link_system hkey hlink)
    refine ⟨fun h => (nomatch hkey.symm.trans h), fun _ hname x hx => ?_, fun _ hname call => ?_,
      fun _ => ht.nodup_linkedFunctions _⟩
    · exact ht.system_of_linkedFunctions (hname ▸ he) hkey hx
    · exact ht.linkedFunctions_complete (hname ▸ he) hkey call

theorem invariant_signed : Invariant Signed where
  empty config id := ⟨stocked_empty config id, fun _ _ _ he => absurd he List.not_mem_nil⟩
  enableWasi config id host e t h := by
    have ht := invariant_stocked.enableWasi config id host e t h
    refine ⟨ht, fun name linked functions he => ?_⟩
    obtain ⟨v, hv, rfl⟩ := enableWasi_ok h
    have hstocked : v.vm.Stocked :=
      ⟨⟨⟨ht.listed.nodup, ht.listed.mem_iff, ht.listed.named⟩, ht.again, ht.attached⟩, ht.laid⟩
    have hentries : v.vm.entries.map Prod.fst = [(host.newWasiObject e).1.moduleName] := by
      rw [hstocked.listed.names_entries]
      obtain ⟨_, _, _, _, _, -, -, rfl⟩ := Action.link_ok hv
      rfl
    have hname : name = (host.newWasiObject e).1.moduleName := by
      have hmem : name ∈ v.vm.entries.map Prod.fst := List.mem_map_of_mem (f := Prod.fst) he
      rw [hentries] at hmem
      exact List.mem_singleton.mp hmem
    subst hname
    exact hstocked.certifies hv he
  operate s o h := by
    have ht := invariant_stocked.operate s o h.toStocked
    refine ⟨ht, fun name linked functions he => ?_⟩
    rcases entries_after h.listed o with hsame | ⟨e, henters, hok, hone⟩
    · exact h.certified name linked functions (hsame ▸ he)
    · rw [hone] at he
      rcases List.mem_append.mp he with hold | hnew
      · exact h.certified name linked functions hold
      · cases List.mem_singleton.mp hnew
        cases o with
        | registerImport object =>
          obtain ⟨rfl, -⟩ := henters
          cases hrun : EStateM.run (Action.registerImport object) s with
          | error e t => cases (outcome_of_error hrun).symm.trans hok
          | ok _ t =>
            have hafter : s.after (.registerImport object) = t := ending_of_ok hrun
            rw [hafter] at hone ht
            exact ht.certifies (Action.registerImport_ok hrun).2.2 (hone ▸ he)
        | _ => exact absurd henters id

/-! ## The signature that a call uses -/

theorem liveType_of_hasType {vm : Vm} {a : Nat} {type : FuncType}
    (h : vm.store.code.HasType a type) : vm.liveType a = type := by
  rw [liveType, Store.functionType?_eq_some.mpr h]
  rfl

/-- A function that can be called in the main module is one of its exports, with the type that the
module gives it. -/
theorem Presents.exports_target {vm : Vm} (presents : vm.Presents) {name : String}
    {args : List Value} {a : Nat} (found : (Call.main name args).target? vm = some a) :
    ∃ active type, vm.active = some active ∧ vm.store.code.HasType a type ∧
      ∃ e ∈ active.module.exports, e.name = name ∧
        active.module.exportedFunction? e = some type := by
  obtain ⟨active, hactive, hfound⟩ := Option.bind_eq_some_iff.mp found
  obtain ⟨item, hitem, hfunction⟩ := Option.bind_eq_some_iff.mp hfound
  obtain ⟨i, hi, published⟩ := presents active hactive
  rw [Store.exported?, hi] at hitem
  obtain ⟨e, he, hmatches⟩ := forall₂_mem_right published (mem_of_lookup hitem)
  cases item with
  | function b =>
    cases hfunction
    obtain ⟨type, htype, hlive⟩ := hmatches.typed a rfl
    exact ⟨active, type, hactive, hlive, e, he, hmatches.name.symm, htype⟩
  | _ => cases hfunction

/-- **Of a function of the main module the owner is told the signature that a call uses.** -/
theorem declared_main {vm : Vm} (sound : vm.Sound) (presents : vm.Presents) {name : String}
    {args : List Value} {a : Nat} {signature : Signature}
    (admitted : (Call.main name args).Admitted vm a signature) :
    (Call.main name args).declared? vm = some signature := by
  obtain ⟨active, type, hactive, hlive, e, he, hname, htype⟩ :=
    presents.exports_target admitted.found
  have hsignature := admitted.type
  rw [liveType_of_hasType hlive] at hsignature
  obtain ⟨image, -, hvalid⟩ :=
    sound.coherent.compiled_eq _ (sound.coherent.active_eq active hactive).1
  refine Option.bind_eq_some_iff.mpr ⟨active, hactive, ?_⟩
  exact (Module.lookup_functionList (Image.nodup_exports hvalid)).mpr
    ⟨e, he, hname, type, htype, hsignature⟩

/-- Registered modules are valid. -/
theorem Linked.validated {vm : Vm} (h : vm.Linked) {name : String} {m : Module}
    (he : (name, .module m) ∈ vm.entries) :
    ∃ (image : Image) (features : Features), image.validate features = .ok m := by
  obtain ⟨o, ho⟩ := h.again _ he
  have henters := ho ⟨vm, {}⟩ rfl
  cases o with
  | register name' source =>
    obtain ⟨-, image, -, hvalid⟩ := henters
    exact ⟨image, _, hvalid⟩
  | _ => exact absurd henters id

/-- Registered modules export under different names. -/
theorem Linked.nodup_exports {vm : Vm} (h : vm.Linked) {name : String} {m : Module}
    (he : (name, .module m) ∈ vm.entries) : (m.exports.map Export.name).Nodup := by
  obtain ⟨image, features, hvalid⟩ := h.validated he
  exact Image.nodup_exports hvalid

namespace Signed

variable {vm : Vm} (h : vm.Signed) {moduleName name : String} {entry : Registered} {a : Nat}

include h

/-- What the owner is told of a linked function is the signature that it has. -/
theorem ofType?_of_declared (hentry : (moduleName, entry) ∈ vm.entries)
    (hget : vm.linker.get? moduleName name = some (.function a)) {signature : Signature}
    (hlookup : entry.functions.lookup name = some signature) :
    Signature.ofType? (vm.liveType a) = .ok signature := by
  cases entry with
  | module m =>
    obtain ⟨e, he, rfl, type, htype, hsignature⟩ :=
      (Module.lookup_functionList (h.nodup_exports hentry)).mp hlookup
    obtain ⟨item, hitem, hmatches⟩ := h.laid.published _ _ hentry e he
    obtain ⟨type', htype', hlive⟩ := hmatches.typed a (h.item_eq hget hitem)
    cases htype.symm.trans htype'
    rw [liveType_of_hasType hlive, hsignature]
  | imports linked functions =>
    have hmem : (name, signature) ∈ functions := mem_of_lookup hlookup
    have hcertified := h.certified _ _ _ hentry
    have hnamed := h.named hentry
    cases hkey : linked.environment with
    | none =>
      rw [hcertified.host hkey] at hmem
      obtain ⟨x, hx, hsymbol⟩ := List.mem_filterMap.mp hmem
      obtain ⟨n, symbol⟩ := x
      cases symbol with
      | function id s =>
        cases hsymbol
        obtain ⟨item, hitem, hbecomes⟩ := h.laid.linked _ _ _ hentry hkey _ hx
        cases h.item_eq hget (hnamed ▸ hitem)
        cases hbecomes with
        | function hhost =>
          rw [liveType_of_hasType ⟨_, hhost, rfl⟩]
          exact Signature.ofType?_toType signature
      | _ => cases hsymbol
    | some key =>
      have horigin := h.origin hget
      generalize hmodule : moduleName = moduleName' at horigin
      cases horigin with
      | @symbol other _ _ _ _ _ hother alone =>
        have hsame : other = moduleName := (h.named hother).symm.trans hmodule.symm
        cases h.unique hentry (hsame ▸ hother)
        cases alone.symm.trans hkey
      | «export» hother => cases h.unique hentry (hmodule ▸ hother)
      | @system _ call hcall =>
        obtain ⟨call', hname, hsignature⟩ :=
          hcertified.system (Option.isSome_of_eq_some hkey) hmodule _ hmem
        cases Wasi.Syscall.eq_of_name hname
        rw [liveType_of_hasType ⟨_, hcall, rfl⟩]
        exact hsignature

/-- A linked function of which the owner is told nothing is one of the system interface. -/
theorem system_of_undeclared (hentry : (moduleName, entry) ∈ vm.entries)
    (hget : vm.linker.get? moduleName name = some (.function a)) {signature : Signature}
    (hsignature : Signature.ofType? (vm.liveType a) = .ok signature)
    (hlookup : entry.functions.lookup name = none) :
    ∃ call, vm.store.functions[a]? = some (.system call) := by
  have absent : ∀ signature, (name, signature) ∉ entry.functions := fun signature hmem =>
    absurd (List.lookup_eq_none_iff.mp hlookup _ hmem) (by simp)
  have horigin := h.origin hget
  generalize hmodule : moduleName = moduleName' at horigin
  cases horigin with
  | @symbol other _ linked functions symbol _ hother alone hmem hbecomes =>
    have hsame : other = moduleName := (h.named hother).symm.trans hmodule.symm
    cases h.unique hentry (hsame ▸ hother)
    cases hbecomes with
    | @function id s _ hhost =>
      refine absurd ?_ (absent s)
      change (name, s) ∈ functions
      rw [(h.certified _ _ _ hentry).host alone]
      exact List.mem_filterMap.mpr ⟨_, hmem, rfl⟩
  | @«export» _ _ m e _ hother he hmatches =>
    cases h.unique hentry (hmodule ▸ hother)
    obtain ⟨type, htype, hlive⟩ := hmatches.typed a rfl
    rw [liveType_of_hasType hlive] at hsignature
    have hlisted := (Module.lookup_functionList (h.nodup_exports hentry)).mpr
      ⟨e, he, hmatches.name.symm, type, htype, hsignature⟩
    cases hlookup.symm.trans hlisted
  | system hcall => exact ⟨_, hcall⟩

end Signed

/-- **The owner of a machine is told the signature that a call uses**, or nothing if the function is
one of the system interface. -/
theorem declared_of_admitted {s : Setting} (h : Reachable s) {c : Call} {a : Nat}
    {signature : Signature} (admitted : c.Admitted s.vm a signature) :
    c.declared? s.vm = some signature ∨
      c.declared? s.vm = none ∧ ∃ call, s.vm.store.functions[a]? = some (.system call) := by
  cases c with
  | main name args =>
    exact .inl (declared_main (invariant_sound.reachable h) (invariant_presents.reachable h)
      admitted)
  | registered moduleName name args =>
    have hsigned : s.vm.Signed := invariant_signed.reachable h
    obtain ⟨entry, hregistered, hfound⟩ := Option.bind_eq_some_iff.mp admitted.found
    obtain ⟨item, hget, hfunction⟩ := Option.bind_eq_some_iff.mp hfound
    have hentry := hsigned.listed.mem_entries_iff.mpr hregistered
    have hdeclared : (Call.registered moduleName name args).declared? s.vm =
        entry.functions.lookup name := by
      change (s.vm.registered? moduleName).bind _ = _
      rw [hregistered]
      rfl
    rw [hdeclared]
    cases item with
    | function b =>
      cases hfunction
      cases hlookup : entry.functions.lookup name with
      | none => exact .inr ⟨rfl, hsigned.system_of_undeclared hentry hget admitted.type hlookup⟩
      | some other =>
        cases (hsigned.ofType?_of_declared hentry hget hlookup).symm.trans admitted.type
        exact .inl rfl
    | _ => cases hfunction

/-! ## Results -/

namespace Action

theorem run_ofValue_eq_ok {α : Type} {r : Except ValueError α} {a : α} {m n : Machine} :
    EStateM.run (Exec.ofValue r) m = .ok a n ↔ r = .ok a ∧ n = m := by
  cases r with
  | ok b =>
    constructor
    · rintro ⟨⟩
      exact ⟨rfl, rfl⟩
    · rintro ⟨⟨⟩, rfl⟩
      rfl
  | error e => exact ⟨nofun, nofun⟩

theorem run_ofValue_eq_error {α : Type} {r : Except ValueError α} {stop : Stop} {m n : Machine}
    (h : EStateM.run (Exec.ofValue r) m = .error stop n) : ∃ e, stop = .value e := by
  cases r with
  | ok a => cases h
  | error e =>
    cases h
    exact ⟨e, rfl⟩

/-- What the results of an engine come to has the kinds that are declared. -/
theorem kinds_of_exchangeVia {engine : List Operand → Exec (List Operand)} {signature : Signature}
    {args values : List Value} {m : Machine}
    (h : outcome (exchangeVia engine signature args) m = .ok values) :
    values.map Value.kind = signature.returns := by
  cases hrun : EStateM.run (exchangeVia engine signature args) m with
  | error stop n => cases (outcome_of_error hrun).symm.trans h
  | ok found n =>
    cases (outcome_of_ok hrun).symm.trans h
    obtain ⟨_, _, -, hrun⟩ := run_bind_eq_ok.mp hrun
    obtain ⟨operands, _, -, hrun⟩ := run_bind_eq_ok.mp hrun
    split at hrun
    · obtain ⟨results, _, -, hrun⟩ := run_bind_eq_ok.mp hrun
      exact (Operand.eq_of_decode (run_ofValue_eq_ok.mp hrun).1).2
    · cases hrun

theorem run_call_of_system {s : Setting} {address : Nat} {call : Wasi.Syscall}
    (h : s.vm.store.functions[address]? = some (.system call)) (operands : List Operand) :
    EStateM.run (Exec.call address operands) (computer s) =
      .error (.failure "missing required memory export") (computer s) := by
  have hcall : EStateM.run (Exec.call address operands) (computer s) =
      EStateM.run (Exec.callSystem call operands >>= Exec.pushMany) (computer s) := by
    have hfound : (computer s).store.functions[address]? = some (.system call) := h
    unfold Exec.call
    rw [run_bind_of_ok (x := get) (a := computer s) (t := computer s) rfl, hfound]
  rw [hcall]
  exact run_bind_of_error (Exec.run_callSystem_of_memoryless rfl call operands)

/-- A function of the system interface that is called from the host neither succeeds nor ends
well, as its caller has no memory. -/
theorem exchange_of_system {s : Setting} {address : Nat} {call : Wasi.Syscall}
    (h : s.vm.store.functions[address]? = some (.system call)) (signature : Signature)
    (args : List Value) : ∃ stop,
      outcome (exchangeVia (Exec.invoke address) signature args) (computer s) = .error stop ∧
        ¬ EndsWell stop := by
  have fails : Post (exchangeVia (Exec.invoke address) signature args) (computer s)
      fun r _ => ∃ stop, r = .error stop ∧ ¬ EndsWell stop := by
    refine Post.bind (fun m n hm => ?_) fun stop n hm => by cases hm
    cases hm
    refine Post.bind (fun operands n hn => ?_) fun stop n hn => ?_
    · obtain ⟨-, rfl⟩ := run_ofValue_eq_ok.mp hn
      split
      · have hinvoke : EStateM.run (Exec.invoke address operands) (computer s) =
            .error (.failure "missing required memory export") (computer s) :=
          run_bind_of_error (run_call_of_system h operands)
        exact Post.of_error (run_bind_of_error hinvoke) ⟨_, rfl, nofun⟩
      · exact Post.of_error rfl ⟨_, rfl, nofun⟩
    · obtain ⟨e, rfl⟩ := run_ofValue_eq_error hn
      exact ⟨_, rfl, nofun⟩
  exact fails

end Action

open Vm.Action in
/-- **Results have the kinds that are declared.**  If a call of a reachable machine answers values,
the owner is told a signature for the function, the values have the kinds of its results and the
arguments those of its parameters.  This is so whatever the engine hands back, with the one
exception of functions of the system interface that a failed registration has left behind, of which
the owner is told nothing and which the engine does not let succeed.  A call that is ended by the
guest or by a host function answers the zeros of the kinds of results. -/
theorem results_declared {s : Setting} (h : Reachable s) (c : Call) :
    (∀ values, outcome c.action s = .ok values → ∃ signature,
      c.declared? s.vm = some signature ∧ values.map Value.kind = signature.returns ∧
        c.args.map Value.kind = signature.params) ∧
    (∀ engine values, outcome (c.via engine) s = .ok values → ∃ address signature,
      c.Admitted s.vm address signature ∧ values.map Value.kind = signature.returns ∧
        c.args.map Value.kind = signature.params ∧
        (c.declared? s.vm = some signature ∨ c.declared? s.vm = none ∧
          ∃ call, s.vm.store.functions[address]? = some (.system call))) ∧
    (∀ engine address signature, c.Admitted s.vm address signature → ∀ stop,
      outcome (exchangeVia (engine address) signature c.args) (computer s) = .error stop →
        EndsWell stop → outcome (c.via engine) s = .ok (signature.returns.map Value.zero)) ∧
    (∀ address signature, c.Admitted s.vm address signature → ∀ stop,
      outcome (exchange address signature c.args) (computer s) = .error stop → EndsWell stop →
        c.declared? s.vm = some signature ∧
          outcome c.action s = .ok (signature.returns.map Value.zero)) := by
  have same : outcome c.action s = outcome (c.via Exec.invoke) s := by
    unfold outcome
    rw [Call.run_via_invoke]
  have zeros : ∀ engine address signature, c.Admitted s.vm address signature → ∀ stop,
      outcome (exchangeVia (engine address) signature c.args) (computer s) = .error stop →
        EndsWell stop → outcome (c.via engine) s = .ok (signature.returns.map Value.zero) :=
    fun engine address signature admitted => (Call.via_post admitted engine).2.1
  have admits : ∀ engine values, outcome (c.via engine) s = .ok values → ∃ address signature,
      c.Admitted s.vm address signature ∧ values.map Value.kind = signature.returns ∧
        ((∃ vs, outcome (exchangeVia (engine address) signature c.args) (computer s) = .ok vs) ∨
          ∃ stop, outcome (exchangeVia (engine address) signature c.args) (computer s) =
            .error stop ∧ EndsWell stop) := by
    intro engine values hvalues
    obtain ⟨e, refused⟩ | ⟨address, signature, admitted⟩ := Call.refused_or_admitted s.vm c
    · cases (outcome_of_error (Call.run_via_of_refused refused)).symm.trans hvalues
    · refine ⟨address, signature, admitted, ?_⟩
      obtain hok | ⟨stop, hstop, well, rfl⟩ := (Call.via_post admitted engine).2.2 values hvalues
      · exact ⟨kinds_of_exchangeVia hok, .inl ⟨_, hok⟩⟩
      · refine ⟨?_, .inr ⟨stop, hstop, well⟩⟩
        rw [List.map_map]
        exact List.map_id'' Value.kind_zero _
  -- The engine of the machines lets no function of the system interface succeed.
  have declared : ∀ address signature, c.Admitted s.vm address signature →
      ((∃ vs, outcome (exchange address signature c.args) (computer s) = .ok vs) ∨
        ∃ stop, outcome (exchange address signature c.args) (computer s) = .error stop ∧
          EndsWell stop) → c.declared? s.vm = some signature := by
    intro address signature admitted ends
    obtain hdeclared | ⟨-, call, hcall⟩ := declared_of_admitted h admitted
    · exact hdeclared
    · obtain ⟨stop, hstop, ill⟩ := exchange_of_system hcall signature c.args
      obtain ⟨vs, hvs⟩ | ⟨other, hother, well⟩ := ends
      · cases hstop.symm.trans hvs
      · cases hstop.symm.trans hother
        exact absurd well ill
  refine ⟨fun values hvalues => ?_, fun engine values hvalues => ?_, zeros,
    fun address signature admitted stop hstop well => ?_⟩
  · obtain ⟨address, signature, admitted, hkinds, ends⟩ := admits _ values (same ▸ hvalues)
    exact ⟨signature, declared address signature admitted ends, hkinds, admitted.kinds⟩
  · obtain ⟨address, signature, admitted, hkinds, -⟩ := admits engine values hvalues
    exact ⟨address, signature, admitted, hkinds, admitted.kinds, declared_of_admitted h admitted⟩
  · refine ⟨declared address signature admitted (.inr ⟨stop, hstop, well⟩), ?_⟩
    rw [same]
    exact zeros Exec.invoke address signature admitted stop hstop well

/-- A new machine with the counter for its main module. -/
def counting : Setting :=
  (Setting.after ⟨empty {} ⟨0⟩, (Host.newStore {}).2⟩ (.load (.bytes counterBytes))).after
    .instantiate

theorem reachable_counting : Reachable counting := by
  have hnew : Vm.new {} {} = (.ok (empty {} ⟨0⟩), (Host.newStore {}).2) := rfl
  exact .operate (.operate (.new hnew) _) _

/-- The first call of the counter answers one number, as is declared of it. -/
theorem results_declared_counting :
    outcome (Call.main "bump" []).action counting = .ok [.i32 1] ∧ ∃ signature,
      (Call.main "bump" []).declared? counting.vm = some signature ∧
        [ValueKind.i32] = signature.returns ∧ [] = signature.params := by
  have hok : outcome (Call.main "bump" []).action counting = .ok [.i32 1] := by decide +kernel
  exact ⟨hok, (results_declared reachable_counting _).1 _ hok⟩

end Vm

end WasmEmbedding
