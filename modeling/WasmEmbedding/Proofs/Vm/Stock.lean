import WasmEmbedding.Proofs.Engine.Exports
import WasmEmbedding.Proofs.Host.Ownership
import WasmEmbedding.Proofs.Vm.Runs

/-! # What a machine has linked

Every item of a machine's linker has an `Origin`: a symbol of an import object as it was when the
machine registered it, an export of a registered module, or a function of the system interface.
Conversely every symbol of a registered import object is linked, and every export of a registered
module.  Linking entries establishes both
(`Laid`), growing code and linking more entries keep them, and so they hold of every reachable
machine (`Stocked`), on whichever store.

The store's host functions are accounted for in the same way: only defining an import object brings
any, so each is a function of a registered one (`Hosted`).
-/
namespace WasmEmbedding

open Engine Wasm

/-- An item is what a symbol has been made into. -/
inductive Host.Symbol.Becomes (c : Code) : Host.Symbol → Item → Prop
  | function {id : Host.FunctionId} {signature : Signature} {a : Nat}
      (h : c.functions[a]? = some (.host id signature)) :
      Becomes c (.function id signature) (.function a)
  | table (t : Host.HostTable) (a : Nat) : Becomes c (.table t) (.table a)
  | memory (m : Host.HostMemory) (a : Nat) : Becomes c (.memory m) (.memory a)
  | global (g : Host.HostGlobal) (a : Nat) : Becomes c (.global g) (.global a)

/-- A host function of the code `d` is one of the code `c`, or one of the symbols. -/
def Engine.Code.Hosts (symbols : List (String × Host.Symbol)) (c d : Code) : Prop :=
  ∀ (a : Nat) (id : Host.FunctionId) (signature : Signature),
    d.functions[a]? = some (.host id signature) →
      c.functions[a]? = some (.host id signature) ∨
        ∃ name, (name, .function id signature) ∈ symbols

namespace Host.Symbol

variable {c d : Code} {s t : Store} {symbol : Host.Symbol} {item : Item}

theorem Becomes.mono (h : symbol.Becomes c item) (hcd : c.Extends d) : symbol.Becomes d item := by
  cases h with
  | function h => exact .function (hcd.functions _ _ h)
  | table t a => exact .table t a
  | memory m a => exact .memory m a
  | global g a => exact .global g a

/-- What making an item of a symbol leaves. -/
theorem materialize_ok (h : symbol.materialize s = .ok (item, t)) :
    symbol.Becomes t.code item ∧ s.code.Extends t.code ∧
      ∀ name, Code.Hosts [(name, symbol)] s.code t.code := by
  cases makes_of_materialize h with
  | function id signature =>
    refine ⟨.function Array.getElem?_push_size, s.code.extends_push _,
      fun name a id' signature' h => ?_⟩
    change (s.functions.push (.host id signature))[a]? = _ at h
    rw [Array.getElem?_push] at h
    split at h
    · cases h
      exact .inr ⟨name, List.mem_cons_self⟩
    · exact .inl h
  | table t => exact ⟨.table _ _, Std.Refl.refl _, fun _ _ _ _ h => .inl h⟩
  | memory hadded =>
    obtain ⟨-, heq⟩ := Store.addMemory_eq_some_iff.mp hadded
    cases heq
    exact ⟨.memory _ _, Std.Refl.refl _, fun _ _ _ _ h => .inl h⟩
  | global _ _ => exact ⟨.global _ _, Std.Refl.refl _, fun _ _ _ _ h => .inl h⟩

end Host.Symbol

/-! ## What defining leaves behind -/

namespace Engine.Linker

/-- Items are defined behind what there is. -/
theorem entries_defineAll {moduleName : String} : ∀ {items : List (String × Item)}
    {l l' : Linker}, l.defineAll moduleName items = some l' →
    l'.entries = l.entries ++ items.map fun x => ((moduleName, x.1), x.2)
  | [], l, l', h => by
    cases h
    exact (List.append_nil _).symm
  | (name, item) :: rest, l, l', h => by
    obtain ⟨k, hk, hrest⟩ := Option.bind_eq_some_iff.mp h
    obtain ⟨-, rfl⟩ := define_eq_some_iff.mp hk
    rw [entries_defineAll hrest, List.append_assoc]
    rfl

/-- A name is taken once. -/
theorem nodup_define {moduleName name : String} {item : Item} {l l' : Linker}
    (h : l.define moduleName name item = some l') (hl : l.names.Nodup) : l'.names.Nodup := by
  obtain ⟨hfree, rfl⟩ := define_eq_some_iff.mp h
  rw [names, List.map_append, List.nodup_append]
  refine ⟨hl, List.pairwise_singleton _ _, ?_⟩
  intro a ha b hb heq
  rw [heq, List.mem_singleton.mp hb] at ha
  exact hfree ha

theorem nodup_defineAll {moduleName : String} : ∀ {items : List (String × Item)} {l l' : Linker},
    l.defineAll moduleName items = some l' → l.names.Nodup → l'.names.Nodup
  | [], _, _, h, hl => by
    cases h
    exact hl
  | _ :: _, _, _, h, hl => by
    obtain ⟨k, hk, hrest⟩ := Option.bind_eq_some_iff.mp h
    exact nodup_defineAll hrest (nodup_define hk hl)

/-- An item under a name that is taken once. -/
theorem get?_eq_some {l : Linker} (h : l.names.Nodup) {moduleName name : String} {item : Item} :
    l.get? moduleName name = some item ↔ ((moduleName, name), item) ∈ l.entries :=
  ⟨mem_of_lookup, lookup_of_mem h⟩

end Engine.Linker

namespace LinkedImports

/-- Every symbol is defined as what it has been made into, and nothing else is. -/
theorem defineFrom_items {moduleName : String} : ∀ {symbols : List (String × Host.Symbol)}
    {s t : Store} {l l' : Linker}, defineFrom moduleName symbols (s, l) = .ok (t, l') →
    s.code.Extends t.code ∧ Code.Hosts symbols s.code t.code ∧
      ∃ new, l'.entries = l.entries ++ new ∧
        (∀ e ∈ new, ∃ x ∈ symbols, e.1 = (moduleName, x.1) ∧ x.2.Becomes t.code e.2) ∧
        ∀ x ∈ symbols, ∃ item, ((moduleName, x.1), item) ∈ new ∧ x.2.Becomes t.code item
  | [], _, _, l, _, h => by
    cases h
    exact ⟨Std.Refl.refl _, fun _ _ _ h => .inl h, [], (List.append_nil _).symm, nofun, nofun⟩
  | (name, symbol) :: rest, s, t, l, l', h => by
    rw [defineFrom] at h
    split at h
    · cases h
    · rename_i item u hu
      split at h
      · cases h
      · rename_i k hk
        obtain ⟨hbecomes, hsu, hhosts⟩ := Host.Symbol.materialize_ok hu
        obtain ⟨hut, hlater, new, hnew, horigins, hlinked⟩ := defineFrom_items h
        obtain ⟨-, rfl⟩ := Linker.define_eq_some_iff.mp hk
        refine ⟨IsTrans.trans _ _ _ hsu hut, fun a id signature ha => ?_,
          ((moduleName, name), item) :: new, ?_, ?_, ?_⟩
        · rcases hlater a id signature ha with ha | ⟨n, hn⟩
          · rcases hhosts name a id signature ha with ha | ⟨n, hn⟩
            · exact .inl ha
            · exact .inr ⟨n, List.mem_singleton.mp hn ▸ List.mem_cons_self⟩
          · exact .inr ⟨n, List.mem_cons_of_mem _ hn⟩
        · rw [hnew, List.append_assoc]
          rfl
        · refine List.forall_mem_cons.mpr
            ⟨⟨_, List.mem_cons_self, rfl, hbecomes.mono hut⟩, fun e he => ?_⟩
          obtain ⟨x, hx, h⟩ := horigins e he
          exact ⟨x, List.mem_cons_of_mem _ hx, h⟩
        · refine List.forall_mem_cons.mpr
            ⟨⟨_, List.mem_cons_self, hbecomes.mono hut⟩, fun x hx => ?_⟩
          obtain ⟨item, hitem, h⟩ := hlinked x hx
          exact ⟨item, List.mem_cons_of_mem _ hitem, h⟩

theorem nodup_defineFrom {moduleName : String} : ∀ {symbols : List (String × Host.Symbol)}
    {s t : Store} {l l' : Linker}, defineFrom moduleName symbols (s, l) = .ok (t, l') →
    l.names.Nodup → l'.names.Nodup
  | [], _, _, _, _, h, hl => by
    cases h
    exact hl
  | (name, symbol) :: rest, s, t, l, l', h, hl => by
    rw [defineFrom] at h
    split at h
    · cases h
    · split at h
      · cases h
      · rename_i k hk
        exact nodup_defineFrom h (Linker.nodup_define hk hl)

/-- The functions of the system interface are what their items stand for. -/
theorem systemItems_items : ∀ (calls : List Wasi.Syscall) (s : Store),
    Code.Hosts [] s.code (systemItems calls s).2.code ∧
      ∀ x ∈ (systemItems calls s).1, ∃ (a : Nat) (c : Wasi.Syscall), x = (c.name, .function a) ∧
        (systemItems calls s).2.code.functions[a]? = some (.system c)
  | [], s => ⟨fun _ _ _ h => .inl h, nofun⟩
  | c :: rest, s => by
    obtain ⟨hhosts, hitems⟩ := systemItems_items rest (s.addFunction (.system c)).2
    refine ⟨fun a id signature ha => ?_, fun x hx => ?_⟩
    · rcases hhosts a id signature ha with ha | ⟨n, hn⟩
      · change (s.functions.push (.system c))[a]? = _ at ha
        rw [Array.getElem?_push] at ha
        split at ha
        · cases ha
        · exact .inl ha
      · cases hn
    · rcases List.mem_cons.mp hx with rfl | hx
      · have hext := (systemItems_spec rest (s.addFunction (.system c)).2).1
        exact ⟨_, c, rfl, hext.functions _ _ Array.getElem?_push_size⟩
      · exact hitems x hx

/-- The functions of the system interface are no host functions. -/
theorem hosts_define_system {l : LinkedImports} {key : Host.EnvironmentKey} {s t : Store}
    {k k' : Linker} (hkey : l.environment = some key) (h : l.define s k = .ok (t, k')) :
    Code.Hosts [] s.code t.code := by
  rw [define_of_environment hkey] at h
  split at h
  · cases h
    exact (systemItems_items Wasi.Syscall.all s).1
  · cases h

/-- Only the symbols of an import object bring host functions. -/
theorem hosts_define {l : LinkedImports} {s t : Store} {k k' : Linker}
    (h : l.define s k = .ok (t, k')) : Code.Hosts l.symbols s.code t.code := by
  cases hkey : l.environment with
  | none => exact (defineFrom_items ((define_eq_ok_of_none hkey).mp h)).2.1
  | some key =>
    intro a id signature ha
    rcases hosts_define_system hkey h a id signature ha with ha | ⟨_, hn⟩
    · exact .inl ha
    · cases hn

end LinkedImports

namespace Vm

/-! ## Where items come from -/

/-- An item of a linker comes from one of the entries, or is a function of the system interface. -/
inductive Origin (es : List (String × Registered)) (c : Code) : (String × String) × Item → Prop
  | symbol {name n : String} {linked : LinkedImports} {functions : List (String × Signature)}
      {s : Host.Symbol} {item : Item} (entry : (name, .imports linked functions) ∈ es)
      (alone : linked.environment = none) (mem : (n, s) ∈ linked.symbols)
      (becomes : s.Becomes c item) : Origin es c ((linked.moduleName, n), item)
  | export {name n : String} {m : Module} {e : Export} {item : Item}
      (entry : (name, .module m) ∈ es) (mem : e ∈ m.exports) (published : c.Matches m e (n, item)) :
      Origin es c ((name, n), item)
  | system {a : Nat} {call : Wasi.Syscall} (h : c.functions[a]? = some (.system call)) :
      Origin es c ((Wasi.moduleName, call.name), .function a)

theorem Origin.mono {es es' : List (String × Registered)} {c d : Code}
    {e : (String × String) × Item} (h : Origin es c e) (hes : es ⊆ es') (hcd : c.Extends d) :
    Origin es' d e := by
  cases h with
  | symbol entry alone mem becomes => exact .symbol (hes entry) alone mem (becomes.mono hcd)
  | «export» entry mem published => exact .export (hes entry) mem (published.mono hcd)
  | system h => exact .system (hcd.functions _ _ h)

/-- What a new instance exports is what its module says. -/
theorem published_of_realizes {c : Code} {linker : Linker} {store : Store} {index : Nat}
    {m : Module} {items : List Item} {i : Instance} (resolved : linker.resolve store m = .ok items)
    (hc : store.code.Extends c) (realizes : c.Realizes index m items i) :
    c.Publishes m i.exports := by
  refine realizes.publishes ((Linker.resolve_functions resolved).imp fun a t ha => ?_)
  obtain ⟨type, htype, hfound⟩ := ha
  exact ⟨type, htype, hfound.mono hc⟩

/-- Entries have been linked: what a linker has beyond another one comes from them, and every symbol
and every export of theirs is there. -/
structure Laid (es : List (String × Registered)) (l : Linker) (c : Code) (l' : Linker) : Prop where
  kept : l.entries <+: l'.entries
  nodup : l.names.Nodup → l'.names.Nodup
  origins : ∀ e ∈ l'.entries, e ∈ l.entries ∨ Origin es c e
  linked : ∀ name linked functions, (name, .imports linked functions) ∈ es →
    linked.environment = none → ∀ x ∈ linked.symbols,
      ∃ item, ((linked.moduleName, x.1), item) ∈ l'.entries ∧ x.2.Becomes c item
  published : ∀ name m, (name, .module m) ∈ es → ∀ e ∈ m.exports,
    ∃ item, ((name, e.name), item) ∈ l'.entries ∧ c.Matches m e (e.name, item)

namespace Laid

variable {es es' : List (String × Registered)} {l l' l'' : Linker} {c d : Code}

theorem refl (l : Linker) (c : Code) : Laid [] l c l :=
  ⟨List.prefix_rfl, id, fun _ he => .inl he, nofun, nofun⟩

theorem grow (h : Laid es l c l') (hcd : c.Extends d) : Laid es l d l' where
  kept := h.kept
  nodup := h.nodup
  origins e he := (h.origins e he).imp_right fun h => h.mono (List.Subset.refl _) hcd
  linked name linked functions he hnone x hx := by
    obtain ⟨item, hitem, hbecomes⟩ := h.linked name linked functions he hnone x hx
    exact ⟨item, hitem, hbecomes.mono hcd⟩
  published name m hentry e he := by
    obtain ⟨item, hitem, hmatches⟩ := h.published name m hentry e he
    exact ⟨item, hitem, hmatches.mono hcd⟩

theorem trans (h : Laid es l c l') (hcd : c.Extends d) (h' : Laid es' l' d l'') :
    Laid (es ++ es') l d l'' where
  kept := h.kept.trans h'.kept
  nodup hl := h'.nodup (h.nodup hl)
  origins e he := by
    rcases h'.origins e he with he | he
    · exact (h.origins e he).imp_right fun h => h.mono (List.subset_append_left _ _) hcd
    · exact .inr (he.mono (List.subset_append_right _ _) (Std.Refl.refl d))
  linked name linked functions he hnone x hx := by
    rcases List.mem_append.mp he with he | he
    · obtain ⟨item, hitem, hbecomes⟩ := h.linked name linked functions he hnone x hx
      exact ⟨item, h'.kept.subset hitem, hbecomes.mono hcd⟩
    · exact h'.linked name linked functions he hnone x hx
  published name m hentry e he := by
    rcases List.mem_append.mp hentry with hentry | hentry
    · obtain ⟨item, hitem, hmatches⟩ := h.published name m hentry e he
      exact ⟨item, h'.kept.subset hitem, hmatches.mono hcd⟩
    · exact h'.published name m hentry e he

/-- Linking the functions of the system interface. -/
theorem system {linked : LinkedImports} {key : Host.EnvironmentKey} {s t : Store} {k k' : Linker}
    (hkey : linked.environment = some key) (h : linked.define s k = .ok (t, k')) :
    Laid [] k t.code k' := by
  rw [LinkedImports.define_of_environment hkey] at h
  split at h
  · rename_i k₁ hk
    cases h
    have hentries := Linker.entries_defineAll hk
    refine ⟨⟨_, hentries.symm⟩, Linker.nodup_defineAll hk, fun e hmem => ?_,
      fun _ _ _ hentry => absurd hentry List.not_mem_nil,
      fun _ _ hentry => absurd hentry List.not_mem_nil⟩
    rw [hentries] at hmem
    rcases List.mem_append.mp hmem with hmem | hmem
    · exact .inl hmem
    · obtain ⟨x, hx, rfl⟩ := List.mem_map.mp hmem
      obtain ⟨a, call, rfl, hcall⟩ := (LinkedImports.systemItems_items _ s).2 _ hx
      exact .inr (.system hcall)
  · cases h

/-- Linking an import object. -/
theorem imports {linked : LinkedImports} {s t : Store} {k k' : Linker}
    (h : linked.define s k = .ok (t, k')) (name : String)
    (functions : List (String × Signature)) :
    Laid [(name, .imports linked functions)] k t.code k' := by
  cases he : linked.environment with
  | none =>
    have hfrom := (LinkedImports.define_eq_ok_of_none he).mp h
    obtain ⟨-, -, new, hnew, horigins, hlinked⟩ := LinkedImports.defineFrom_items hfrom
    refine ⟨⟨new, hnew.symm⟩, LinkedImports.nodup_defineFrom hfrom, fun e hmem => ?_,
      fun _ _ _ hentry _ x hx => ?_, fun _ _ hentry => ?_⟩
    · rw [hnew] at hmem
      rcases List.mem_append.mp hmem with hmem | hmem
      · exact .inl hmem
      · obtain ⟨x, hx, hname, hbecomes⟩ := horigins e hmem
        obtain ⟨⟨m, n⟩, item⟩ := e
        cases hname
        exact .inr (.symbol List.mem_cons_self he hx hbecomes)
    · cases List.mem_singleton.mp hentry
      obtain ⟨item, hitem, hbecomes⟩ := hlinked x hx
      exact ⟨item, hnew ▸ List.mem_append_right _ hitem, hbecomes⟩
    · cases List.mem_singleton.mp hentry
  | some key =>
    have hsystem := system he h
    refine ⟨hsystem.kept, hsystem.nodup, fun e hmem => ?_, fun _ _ _ hentry hnone => ?_,
      fun _ _ hentry => ?_⟩
    · exact (hsystem.origins e hmem).imp_right fun h => h.mono (List.nil_subset _) (Std.Refl.refl _)
    · cases List.mem_singleton.mp hentry
      cases hnone.symm.trans he
    · cases List.mem_singleton.mp hentry

/-- Linking a module. -/
theorem module {name : String} {m : Module} {s t : Setting} (h : LinksModule name m s t) :
    Laid [(name, .module m)] s.vm.linker t.vm.store.code t.vm.linker := by
  obtain ⟨items, i, resolved, realizes, hdefine⟩ := h.linked
  have hentries := Linker.entries_defineAll hdefine
  have hpublishes := published_of_realizes resolved h.code realizes
  refine ⟨⟨_, hentries.symm⟩, Linker.nodup_defineAll hdefine, fun e hmem => ?_,
    fun _ _ _ hentry => ?_, fun _ _ hentry e he => ?_⟩
  · rw [hentries] at hmem
    rcases List.mem_append.mp hmem with hmem | hmem
    · exact .inl hmem
    · obtain ⟨x, hx, rfl⟩ := List.mem_map.mp hmem
      obtain ⟨e, he, hmatches⟩ := forall₂_mem_right hpublishes hx
      exact .inr (.export List.mem_cons_self he hmatches)
  · cases List.mem_singleton.mp hentry
  · cases List.mem_singleton.mp hentry
    obtain ⟨x, hx, hmatches⟩ := forall₂_mem_left hpublishes he
    obtain ⟨n, item⟩ := x
    cases hmatches.name
    exact ⟨item, hentries ▸ List.mem_append_right _ (List.mem_map_of_mem hx), hmatches⟩

/-- Linking an entry. -/
theorem links {e : String × Registered} {s t : Setting} (h : Links e s t) :
    Laid [e] s.vm.linker t.vm.store.code t.vm.linker := by
  cases h with
  | imports defined => exact imports defined _ _
  | module linked => exact module linked

/-- Linking entries one after the other. -/
theorem replays {s t : Setting} (h : Replays es s t) :
    Laid es s.vm.linker t.vm.store.code t.vm.linker := by
  induction h with
  | nil s => exact refl _ _
  | cons _ hlinks later ih => exact (links hlinks).trans later.builds.code ih

end Laid

/-- A machine has linked its entries, and functions of the system interface besides at most. -/
structure Stocked (vm : Vm) : Prop extends Linked vm where
  laid : Laid vm.entries {} vm.store.code vm.linker

theorem Listed.mem_entries_iff {vm : Vm} (h : vm.Listed) {name : String} {entry : Registered} :
    (name, entry) ∈ vm.entries ↔ vm.registered? name = some entry := by
  unfold entries entriesOf
  constructor
  · intro he
    obtain ⟨other, -, hother⟩ := List.mem_filterMap.mp he
    obtain ⟨entry', hentry', heq⟩ := Option.map_eq_some_iff.mp hother
    cases heq
    exact hentry'
  · intro he
    have hmem : name ∈ vm.linkOrder := (h.mem_iff name).mpr (Option.isSome_of_eq_some he)
    exact List.mem_filterMap.mpr ⟨name, hmem, by rw [he]; rfl⟩

/-- An import object is registered under its module name. -/
theorem Linked.named {vm : Vm} (h : vm.Linked) {name : String} {linked : LinkedImports}
    {functions : List (String × Signature)} (he : (name, .imports linked functions) ∈ vm.entries) :
    linked.moduleName = name := by
  obtain ⟨o, ho⟩ := h.again _ he
  have henters := ho ⟨vm, {}⟩ rfl
  cases o with
  | registerImport object =>
    obtain ⟨rfl, hsnap⟩ := henters
    obtain ⟨_, _, rfl⟩ := Host.ImportObject.snapshot_eq_ok_iff.mp hsnap
    rfl
  | _ => exact absurd henters id

theorem stocked_empty (config : VmConfig) (id : StoreId) : Stocked (Vm.empty config id) :=
  ⟨linked_empty config id, Laid.refl _ _⟩

namespace Stocked

/-- One more entry. -/
theorem entered {s t : Setting} {name : String} {entry : Registered} (h : s.vm.Stocked)
    (hlinked : (t.entered name entry).vm.Linked) (hfree : s.vm.registered? name = none)
    (hregistered : t.vm.registered = s.vm.registered) (horder : t.vm.linkOrder = s.vm.linkOrder)
    (hcode : s.vm.store.code.Extends t.vm.store.code)
    (hlaid : Laid [(name, entry)] s.vm.linker t.vm.store.code t.vm.linker) :
    (t.entered name entry).vm.Stocked := by
  refine ⟨hlinked, ?_⟩
  rw [h.listed.entries_appended entry hfree hregistered horder]
  exact h.laid.trans hcode hlaid

/-- The linker stays or is made again from the entries. -/
theorem relinked {s t : Setting} (h : s.vm.Stocked) (hst : Relinked s t) : t.vm.Stocked := by
  refine ⟨h.toLinked.relinked hst, ?_⟩
  rw [entries_of_link hst.link]
  rcases hst.stock with ⟨hlinker, hcode⟩ | ⟨hreplays, hlinker, hcode⟩
  · rw [hlinker]
    exact h.laid.grow hcode
  · rw [hlinker]
    exact (Laid.replays hreplays).grow hcode

end Stocked

theorem invariant_stocked : Invariant Stocked where
  empty := stocked_empty
  enableWasi config id host e t h := by
    have hlinked := invariant_linked.enableWasi config id host e t h
    obtain ⟨v, hv, rfl⟩ := enableWasi_ok h
    obtain ⟨linked, store, linker, c, functions, -, hd, rfl⟩ := Action.link_ok hv
    exact ⟨hlinked, Laid.imports hd _ functions⟩
  operate s o h := by
    have hlinked := invariant_linked.operate s o h.toLinked
    have hstep := linkStep_after s o
    generalize s.answer o = r, s.after o = t at hstep hlinked
    cases hstep with
    | relinked hst => exact h.relinked hst
    | module _ _ _ free linked =>
      exact h.entered hlinked free linked.registered linked.linkOrder linked.code (.module linked)
    | imports _ _ _ free defined =>
      exact h.entered hlinked free rfl rfl (LinkedImports.define_ok defined).1
        (.imports defined _ _)
    | stranded _ _ system defined =>
      have hall := h.laid.trans (LinkedImports.define_ok defined).1 (Laid.system system defined)
      rw [List.append_nil] at hall
      exact ⟨hlinked, hall⟩

/-! ## Host functions -/

/-- The host functions that a machine has in its store or can link again are of one kind. -/
structure Confined (P : Host.FunctionId → Signature → Prop) (vm : Vm) : Prop where
  store : ∀ (a : Nat) id signature,
    vm.store.functions[a]? = some (.host id signature) → P id signature
  registered : ∀ name linked functions, vm.registered? name = some (.imports linked functions) →
    ∀ symbol id signature, (symbol, .function id signature) ∈ linked.symbols → P id signature

/-- A run brings no host functions. -/
def Homely (m : Machine) (_ : List HostCall) (_ : Except Stop Unit) (t : Machine) : Prop :=
  ∀ (a : Nat) id signature, t.store.functions[a]? = some (.host id signature) →
    m.store.functions[a]? = some (.host id signature)

theorem homely_of_code {m t : Machine} {calls : List HostCall} {r : Except Stop Unit}
    (h : t.code = m.code) : Homely m calls r t := by
  intro a id signature ha
  have hfunctions : t.store.functions = m.store.functions := congrArg Code.functions h
  rwa [← hfunctions]

theorem witnessed_homely : Witnessed Homely where
  still _ _ _ _ h := h
  append h h' a id signature ha := h a id signature (h' a id signature ha)
  within hx m := (hx.keeps m).hosts
  callHost c := by
    have hcode : (ending c.perform c.machine).code = c.machine.code :=
      (Exec.steady_callHost (C := fun a => a.code = c.machine.code) _ _ _).keeps rfl
    exact homely_of_code hcode
  callSystem c args m := homely_of_code (Exec.keeps_callSystem c args m)

namespace Confined

variable {P : Host.FunctionId → Signature → Prop}

theorem after {r : EngineRun} (h : r.setting.vm.Confined P) : r.after.vm.Confined P where
  store a id signature ha := h.store a id signature (r.told witnessed_homely a id signature ha)
  registered := h.registered

/-- Defining symbols brings their functions. -/
theorem define {vm : Vm} (h : vm.Confined P) {symbols : List (String × Host.Symbol)} {store : Store}
    (hhosts : Code.Hosts symbols vm.store.code store.code)
    (hsymbols : ∀ symbol id signature, (symbol, .function id signature) ∈ symbols →
      P id signature) (linker : Linker) : ({ vm with store, linker } : Vm).Confined P where
  store a id signature ha := by
    rcases hhosts a id signature ha with ha | ⟨symbol, hsymbol⟩
    · exact h.store a id signature ha
    · exact hsymbols symbol id signature hsymbol
  registered := h.registered

/-- Another entry with its functions. -/
theorem enter {vm : Vm} (h : vm.Confined P) (name : String) {entry : Registered}
    (hentry : ∀ linked functions, entry = .imports linked functions →
      ∀ symbol id signature, (symbol, .function id signature) ∈ linked.symbols → P id signature) :
    (vm.entered name entry).Confined P where
  store := h.store
  registered other linked functions he := by
    rw [registered?_entered] at he
    split at he
    · cases he
      exact hentry linked functions rfl
    · exact h.registered other linked functions he

end Confined

/-- An operation brings no host functions of another kind. -/
def Confines (P : Host.FunctionId → Signature → Prop) (s : Setting) (_ : List EngineRun)
    (_ : Except RuntimeError Unit) (t : Setting) : Prop :=
  s.vm.Confined P → t.vm.Confined P

theorem accountable_confines (P : Host.FunctionId → Signature → Prop) :
    Accountable (Confines P) where
  still _ h := h
  append h h' hs := h' (h hs)
  beside hx s h := by
    have hidle := hx.keeps s
    have hfunctions : (ending _ s).vm.store.functions = s.vm.store.functions :=
      congrArg Code.functions hidle.code
    refine ⟨?_, fun name linked functions he => ?_⟩
    · rw [hfunctions]
      exact h.store
    · exact h.registered name linked functions (hidle.imports name linked functions he)
  define {s name linked functions} hentry h := by
    obtain ⟨store, linker, hd, hafter⟩ | hafter := Action.ending_define linked s <;> rw [hafter]
    · exact h.define (LinkedImports.hosts_define hd)
        (h.registered name linked functions hentry) linker
    · exact h
  build m s h := by
    rw [Action.ending_instance?]
    exact h.after
  call address signature args s h := by
    obtain ⟨code, hcode⟩ := Action.ending_engage address signature args s
    rw [hcode]
    have hafter := Confined.after (r := ⟨.call address signature args, s, false⟩) h
    exact ⟨hafter.store, hafter.registered⟩
  rebuilt h hs := by
    have hu := h ⟨fun _ _ _ ha => (by cases ha), hs.registered⟩
    exact ⟨hu.store, hu.registered⟩
  restored h hs := by
    have hu := h ⟨fun _ _ _ ha => (by cases ha), hs.registered⟩
    exact ⟨hs.store, hu.registered⟩

theorem putsOff_confines (P : Host.FunctionId → Signature → Prop) : PutsOff (Confines P) :=
  (accountable_confines P).restored

/-- An import object that is linked and entered brings its functions. -/
theorem Confined.entered {P : Host.FunctionId → Signature → Prop} {s : Setting}
    (h : s.vm.Confined P) {object : Host.ImportObject} {linked : LinkedImports} {store : Store}
    {linker : Linker} {c : Context} {functions : List (String × Signature)}
    (hsnap : object.snapshot = .ok linked)
    (hd : linked.define s.vm.store s.vm.linker = .ok (store, linker))
    (hobject : ∀ symbol id signature, (symbol, .function id signature) ∈ object.symbolList →
      P id signature) :
    ((s.furnished linked store linker c).entered object.moduleName
      (.imports linked functions)).vm.Confined P := by
  obtain ⟨symbols, hsymbols, rfl⟩ := Host.ImportObject.snapshot_eq_ok_iff.mp hsnap
  rw [Host.ImportObject.symbolList, hsymbols] at hobject
  have hdefined := h.define (LinkedImports.hosts_define hd) hobject linker
  have hfurnished : (s.furnished ⟨object.moduleName, symbols, object.environment⟩ store linker
    c).vm.Confined P := ⟨hdefined.store, hdefined.registered⟩
  refine hfurnished.enter object.moduleName ?_
  rintro _ _ ⟨⟩
  exact hobject

/-- An operation brings the functions of the import object that it registers, if it does. -/
theorem Confined.operate {P : Host.FunctionId → Signature → Prop} {s : Setting}
    (h : s.vm.Confined P) (o : Operation)
    (hobject : ∀ object, o = .registerImport object → s.answer o = .ok () →
      ∀ symbol id signature, (symbol, .function id signature) ∈ object.symbolList →
        P id signature) : (s.after o).vm.Confined P := by
  cases o with
  | registerImport object =>
    replace hobject := hobject object rfl
    change outcome (Action.registerImport object) s = .ok () → _ at hobject
    change (ending (Action.registerImport object) s).vm.Confined P
    have hstep := importStep s object
    generalize outcome (Action.registerImport object) s = r,
      ending (Action.registerImport object) s = t at hstep hobject ⊢
    cases hstep with
    | refused => exact h
    | entered _ _ snapshot defined => exact h.entered snapshot defined (hobject rfl)
    -- What strands is linked, but that is the system interface.
    | @stranded _ _ _ _ linker _ system defined =>
      have hdefined := h.define (LinkedImports.hosts_define_system system defined) nofun linker
      exact ⟨hdefined.store, hdefined.registered⟩
  | amendStatistics f => exact ⟨h.store, h.registered⟩
  | amendContext f => exact ⟨h.store, h.registered⟩
  | _ =>
    exact (accountable_confines P).recountable.perform rfl (by rintro _ _ ⟨⟩)
      (fun _ => putsOff_confines P) s h

/-- What a machine has in its store of the host's functions, it has registered with an import
object. -/
structure Hosted (vm : Vm) : Prop extends Stocked vm where
  hosts : ∀ (a : Nat) id signature, vm.store.functions[a]? = some (.host id signature) →
    ∃ name linked functions symbol, (name, .imports linked functions) ∈ vm.entries ∧
      (symbol, .function id signature) ∈ linked.symbols

/-- A machine is confined to what its entries have, and whatever there is besides. -/
theorem Hosted.confined {vm : Vm} (h : vm.Hosted) {P : Host.FunctionId → Signature → Prop}
    (hP : ∀ e ∈ vm.entries, ∀ linked functions, e.2 = .imports linked functions →
      ∀ symbol id signature, (symbol, .function id signature) ∈ linked.symbols → P id signature) :
    vm.Confined P where
  store a id signature ha := by
    obtain ⟨name, linked, functions, symbol, he, hsymbol⟩ := h.hosts a id signature ha
    exact hP _ he linked functions rfl symbol id signature hsymbol
  registered name linked functions he :=
    hP _ (h.listed.mem_entries_iff.mpr he) linked functions rfl

theorem confined_empty (config : VmConfig) (id : StoreId)
    (P : Host.FunctionId → Signature → Prop) : (Vm.empty config id).Confined P where
  store _ _ _ ha := by cases ha
  registered _ _ _ he := by cases he

/-- The built-in import object has no symbols. -/
theorem confined_enableWasi {config : VmConfig} {id : StoreId} {host : Host} {e : Wasi.Environment}
    {t : Setting} (h : EStateM.run (enableWasi e) ⟨Vm.empty config id, host⟩ = .ok () t)
    (P : Host.FunctionId → Signature → Prop) : t.vm.Confined P := by
  obtain ⟨v, hv, rfl⟩ := enableWasi_ok h
  obtain ⟨linked, store, linker, c, functions, hsnap, hd, rfl⟩ := Action.link_ok hv
  have hempty : (Vm.empty config id).Confined P := confined_empty config id P
  have hentered := @Confined.entered P ⟨Vm.empty config id, (host.newWasiObject e).2⟩ hempty
    _ linked store linker c functions hsnap hd nofun
  exact ⟨hentered.store, hentered.registered⟩

/-- Neither has a new machine any host functions. -/
theorem confined_new {host after : Host} {config : VmConfig} {vm : Vm}
    (h : Vm.new host config = (.ok vm, after)) (P : Host.FunctionId → Signature → Prop) :
    vm.Confined P := by
  have hrun := new_ok h
  split at hrun
  · exact confined_enableWasi hrun P
  · cases hrun
    exact confined_empty config host.newStore.1 P

/-- What is registered of an import object with functions of the host are these. -/
theorem functions_of_link {o : Host.ImportObject} {s t : Setting} (hnone : o.environment = none)
    (h : EStateM.run (Action.link o) s = .ok () t) :
    t.vm.registered? o.moduleName =
      some (.imports ⟨o.moduleName, o.symbolList, o.environment⟩ o.functions) := by
  rw [Action.run_link] at h
  cases hsnap : o.snapshot with
  | error f =>
    rw [hsnap] at h
    cases h
  | ok linked =>
    rw [hsnap] at h
    dsimp only at h
    obtain ⟨symbols, hsymbols, rfl⟩ := Host.ImportObject.snapshot_eq_ok_iff.mp hsnap
    split at h
    · cases h
    · rw [Action.run_commit] at h
      dsimp only at h
      rw [hnone] at h ⊢
      cases h
      have hlist : o.symbolList = symbols := by
        rw [Host.ImportObject.symbolList, hsymbols]
        rfl
      rw [Host.ImportObject.functions, hlist]
      exact (registered?_entered _ _ _ _).trans (if_pos rfl)

/-- A successful registration has put the import object behind the entries. -/
theorem registered_of_ok {s : Setting} (h : s.vm.Listed) {o : Host.ImportObject}
    (hok : s.answer (.registerImport o) = .ok ()) :
    ∃ functions, (o.environment = none → functions = o.functions) ∧
      (s.after (.registerImport o)).vm.entries = s.vm.entries ++
        [(o.moduleName, .imports ⟨o.moduleName, o.symbolList, o.environment⟩ functions)] := by
  cases hrun : EStateM.run (Action.registerImport o) s with
  | error e t => cases (outcome_of_error hrun).symm.trans hok
  | ok _ t =>
    have hafter : s.after (.registerImport o) = t := ending_of_ok hrun
    obtain ⟨-, hfree, hlink⟩ := Action.registerImport_ok hrun
    have hfunctions := fun hnone => functions_of_link hnone hlink
    obtain ⟨linked, store, linker, c, functions, hsnap, hd, rfl⟩ := Action.link_ok hlink
    obtain ⟨symbols, hsymbols, rfl⟩ := Host.ImportObject.snapshot_eq_ok_iff.mp hsnap
    have hlist : o.symbolList = symbols := by
      rw [Host.ImportObject.symbolList, hsymbols]
      rfl
    rw [hafter, hlist]
    refine ⟨functions, fun hnone => ?_, h.entries_appended _ hfree rfl rfl⟩
    have hfound := (registered?_entered _ _ _ _).symm.trans (hfunctions hnone)
    rw [if_pos rfl] at hfound
    exact (Registered.imports.inj (Option.some.inj hfound)).2

theorem invariant_hosted : Invariant Hosted where
  empty config id := ⟨stocked_empty config id, fun _ _ _ ha => by cases ha⟩
  enableWasi config id host e t h := by
    refine ⟨invariant_stocked.enableWasi config id host e t h, fun a i signature ha => ?_⟩
    exact ((confined_enableWasi h fun _ _ => False).store a i signature ha).elim
  operate s o h := by
    refine ⟨invariant_stocked.operate s o h.toStocked, ?_⟩
    have hkept : s.vm.entries ⊆ (s.after o).vm.entries := by
      rcases entries_after h.listed o with heq | ⟨e, -, -, heq⟩
      · exact heq ▸ List.Subset.refl _
      · exact heq ▸ List.subset_append_left _ _
    refine (Confined.operate (P := fun id signature => ∃ name linked functions symbol,
      (name, .imports linked functions) ∈ (s.after o).vm.entries ∧
        (symbol, .function id signature) ∈ linked.symbols) (h.confined ?_) o ?_).store
    · rintro ⟨name, _⟩ he linked functions rfl symbol id signature hsymbol
      exact ⟨name, linked, functions, symbol, hkept he, hsymbol⟩
    · rintro object rfl hok symbol id signature hsymbol
      obtain ⟨functions, -, hentries⟩ := registered_of_ok h.listed hok
      refine ⟨object.moduleName, ⟨object.moduleName, object.symbolList, object.environment⟩,
        functions, symbol, ?_, hsymbol⟩
      rw [hentries]
      exact List.mem_append_right _ List.mem_cons_self

end Vm

end WasmEmbedding
