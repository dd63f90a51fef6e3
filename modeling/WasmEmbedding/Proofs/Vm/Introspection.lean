import WasmEmbedding.Proofs.Vm.Roster
import WasmEmbedding.Proofs.Vm.Signatures

/-! # What is told and what can be called

The owner of a machine is told the names of functions and their signatures.  For the main module
both come from the module that was compiled, and for the link environment from what was noted down
when an entry was registered, while a call looks up the instance or the linker.

What is told leads to a function with this signature (`target_of_declared_main`,
`target_of_declared_registered`): the instance `Presents` its module, and the entries are linked.
Conversely a function that can be called is declared (`declared_of_target_main`,
`declared_of_target_registered`): validation has made sure that it has a signature, and on a `Tidy`
machine a name in the linker is one of a registered entry.  `introspection` puts these together with
what calls answer, and says how the listings are ordered.
-/
namespace WasmEmbedding

open Engine Wasm

/-! ## Listings -/

theorem sorted_perm (l : List String) : (sorted l).Perm l := List.mergeSort_perm _ _

theorem pairwise_sorted (l : List String) : (sorted l).Pairwise (· ≤ ·) := pairwise_mergeSort id l

theorem ascending_sorted {l : List String} (h : l.Nodup) : (sorted l).Pairwise (· < ·) :=
  ascending_of_nodup (pairwise_sorted l) ((sorted_perm l).nodup_iff.mpr h)

/-- Sorting forgets the order. -/
theorem eq_sorted {l l' : List String} (h : l'.Perm l) (hl : l'.Pairwise (· ≤ ·)) :
    l' = sorted l :=
  (h.trans (sorted_perm l).symm).eq_of_pairwise (fun _ _ _ _ => le_antisymm) hl (pairwise_sorted l)

theorem sorted_of_perm {l l' : List String} (h : l'.Perm l) : sorted l' = sorted l :=
  eq_sorted ((sorted_perm l').trans h) (pairwise_sorted l')

theorem map_sortedByName {α : Type} (l : List (String × α)) :
    (sortedByName l).map Prod.fst = sorted (l.map Prod.fst) :=
  eq_sorted ((List.mergeSort_perm _ _).map _) (List.pairwise_map.mpr (pairwise_mergeSort _ l))

theorem mem_sortedByName {α : Type} {l : List (String × α)} {x : String × α} :
    x ∈ sortedByName l ↔ x ∈ l :=
  (List.mergeSort_perm _ _).mem_iff

/-- The functions that a validated module exports all have a signature. -/
theorem Wasm.Image.map_functionList {i : Image} {features : Features} {m : Module}
    (h : i.validate features = .ok m) : m.functionList.map Prod.fst = m.functionNames := by
  have all : ∀ l : List Export, (∀ e ∈ l, e ∈ m.exports) → (l.filterMap m.listed).map Prod.fst =
      l.filterMap fun e => if e.kind = .function then some e.name else none := by
    intro l
    induction l with
    | nil => exact fun _ => rfl
    | cons e l ih =>
      intro hl
      have rest := ih fun e' he' => hl e' (List.mem_cons_of_mem _ he')
      rw [List.filterMap_cons, List.filterMap_cons]
      by_cases kind : e.kind = .function
      · obtain ⟨type, s, htype, hs⟩ := i.signature_of_export h (hl e List.mem_cons_self) kind
        rw [Module.listed_eq_some.mpr ⟨rfl, type, htype, hs⟩, if_pos kind]
        exact congrArg (e.name :: ·) rest
      · have hnone : m.listed e = none := by
          refine Option.eq_none_iff_forall_not_mem.mpr fun x hx => ?_
          obtain ⟨-, type, htype, -⟩ := Module.listed_eq_some.mp hx
          exact kind (Module.kind_of_exportedFunction? htype)
        rw [hnone, if_neg kind]
        exact rest
  exact all m.exports fun _ he => he

namespace Vm

/-! ## Names of modules -/

/-- No name is in the link environment twice. -/
theorem invariant_keys : Invariant fun vm => (vm.registered.map Prod.fst).Nodup := by
  -- The entry that was under the name is dropped.
  have entered (vm : Vm) (h : (vm.registered.map Prod.fst).Nodup) (name : String)
      (entry : Registered) : ((vm.entered name entry).registered.map Prod.fst).Nodup := by
    refine List.nodup_cons.mpr ⟨fun hmem => ?_, h.sublist (List.filter_sublist.map _)⟩
    obtain ⟨e, he, hname⟩ := List.mem_map.mp hmem
    exact of_decide_eq_true (List.mem_filter.mp he).2 hname
  refine ⟨fun _ _ => List.nodup_nil, fun config id host e t h => ?_, fun s o h => ?_⟩
  · obtain ⟨v, hv, rfl⟩ := enableWasi_ok h
    obtain ⟨linked, store, linker, c, functions, -, -, rfl⟩ := Action.link_ok hv
    exact entered (Vm.empty config id) List.nodup_nil _ _
  · have hstep := linkStep_after s o
    generalize s.answer o = r, s.after o = t at hstep
    cases hstep with
    | relinked hst =>
      have hregistered : t.vm.registered = s.vm.registered :=
        congrArg LinkRecord.registered hst.link
      rw [hregistered]
      exact h
    | module _ _ _ _ linked => exact entered _ (linked.registered ▸ h) _ _
    | imports => exact entered _ h _ _
    | stranded => exact h

/-- **A machine tells the names that were registered**, whatever has happened besides. -/
theorem Roster.moduleNames_eq {calls : List (String × Bool)} {s : Setting} (h : Roster calls s) :
    s.vm.moduleNames = sorted (enrolled calls) := by
  refine sorted_of_perm ?_
  rw [← h.linkOrder]
  refine (List.perm_ext_iff_of_nodup (invariant_keys.reachable h.reachable) h.listed.nodup).mpr ?_
  exact fun name => isSome_lookup.symm.trans (h.listed.mem_iff name).symm

/-! ## What is declared can be called -/

namespace Call

variable {s : Setting} {c : Call}

/-- **Whether there is a function does not depend on what the engine does.** -/
theorem notFound_iff : (∃ text, outcome c.action s = .error (.execution (.functionNotFound text))) ↔
    c.ready s.vm = true ∧ c.target? s.vm = none := by
  have hrun {e : ExecutionError} (h : c.Refused s.vm e) :
      outcome c.action s = .error (.execution e) := by
    refine outcome_of_error (t := s) ?_
    rw [← run_via_invoke]
    exact run_via_of_refused h
  constructor
  · rintro ⟨text, h⟩
    obtain ⟨e, refused⟩ | ⟨a, signature, admitted⟩ := refused_or_admitted s.vm c
    · have hsame := (hrun refused).symm.trans h
      cases refused with
      | notFound ready absent => exact ⟨ready, absent⟩
      | _ => cases hsame
    · exfalso
      -- What the engine stops with is reported as other errors.
      unfold outcome at h
      rw [← run_via_invoke, run_via_of_admitted admitted, Action.run_engageVia] at h
      generalize outcome (Action.exchangeVia _ _ _) _ = r at h
      cases r with
      | ok values => cases h
      | error stop =>
        cases stop with
        | host e => cases e <;> cases h
        | _ => cases h
  · rintro ⟨ready, absent⟩
    have hmissing := hrun (.notFound ready absent)
    cases c <;> exact ⟨_, hmissing⟩

/-- A call is held to a signature: it is refused if and only if its arguments do not have the kinds
of the parameters, with the mismatch and before anything has happened, and otherwise the engine is
let in for a function of this signature. -/
structure HeldTo (c : Call) (s : Setting) (signature : Signature) : Prop where
  refused_iff : (∃ e, c.Refused s.vm e) ↔ c.args.map Value.kind ≠ signature.params
  mismatch : ∀ e, c.Refused s.vm e → EStateM.run c.action s = .error (.execution e) s ∧
    ∃ d, e = .value d ∧ Value.Mismatch c.args signature.params d
  admitted : c.args.map Value.kind = signature.params → ∃ address, c.Admitted s.vm address signature

/-- A call of a function is held to the signature of the function. -/
theorem heldTo {signature : Signature} {a : Nat} (ready : c.ready s.vm = true)
    (found : c.target? s.vm = some a) (type : Signature.ofType? (s.vm.liveType a) = .ok signature) :
    c.HeldTo s signature := by
  have mismatch : ∀ e, c.Refused s.vm e →
      ∃ d, e = .value d ∧ Value.check c.args signature.params = .error d := by
    intro e refused
    cases refused with
    | notInstantiated unready => exact nomatch ready.symm.trans unready
    | notFound _ absent => exact nomatch found.symm.trans absent
    | unsupported _ found' type' =>
      cases found.symm.trans found'
      cases type.symm.trans type'
    | arguments _ found' type' mismatch =>
      cases found.symm.trans found'
      cases type.symm.trans type'
      exact ⟨_, rfl, mismatch⟩
  refine ⟨⟨?_, fun differ => ?_⟩, fun e refused => ?_, fun kinds => ⟨a, ready, found, type, kinds⟩⟩
  · rintro ⟨e, refused⟩ kinds
    obtain ⟨d, -, hcheck⟩ := mismatch e refused
    cases (Value.check_eq_ok_iff.mpr kinds).symm.trans hcheck
  · cases hcheck : Value.check c.args signature.params with
    | ok _ => exact absurd (Value.check_eq_ok_iff.mp hcheck) differ
    | error d => exact ⟨_, .arguments ready found type hcheck⟩
  · obtain ⟨d, rfl, hcheck⟩ := mismatch e refused
    exact ⟨run_via_invoke c s ▸ run_via_of_refused refused, d, rfl,
      Value.mismatch_of_check hcheck⟩

end Call

/-! ### The main module -/

section Main

variable {vm : Vm} (sound : vm.Sound) (presents : vm.Presents) {name : String} {args : List Value}

include sound

/-- The module of the instance is one that was validated. -/
theorem Sound.validated {active : ActiveInstance} (hactive : vm.active = some active) :
    ∃ image : Image, image.validate vm.config.engine.features = .ok active.module := by
  obtain ⟨image, -, hvalid⟩ := sound.coherent.compiled_eq _ (sound.coherent.active_eq _ hactive).1
  exact ⟨image, hvalid⟩

include presents

/-- A function of the main module that can be called is declared. -/
theorem declared_of_target_main {a : Nat} (found : (Call.main name args).target? vm = some a) :
    (vm.functionType? name).isSome = true := by
  obtain ⟨active, type, hactive, hlive, e, he, hname, htype⟩ := presents.exports_target found
  obtain ⟨image, hvalid⟩ := sound.validated hactive
  obtain ⟨type', signature, htype', hsignature⟩ :=
    image.signature_of_export hvalid he (Module.kind_of_exportedFunction? htype)
  have hlookup := (Module.lookup_functionList (Image.nodup_exports hvalid)).mpr
    ⟨e, he, hname, type', htype', hsignature⟩
  exact Option.isSome_of_eq_some (Option.bind_eq_some_iff.mpr ⟨active, hactive, hlookup⟩)

/-- A function of the main module that is declared can be called. -/
theorem target_of_declared_main {signature : Signature}
    (declared : vm.functionType? name = some signature) : ∃ a,
      (Call.main name args).target? vm = some a ∧
        Signature.ofType? (vm.liveType a) = .ok signature := by
  obtain ⟨active, hactive, hlookup⟩ := Option.bind_eq_some_iff.mp declared
  obtain ⟨image, hvalid⟩ := sound.validated hactive
  obtain ⟨e, he, rfl, type, htype, hsignature⟩ :=
    (Module.lookup_functionList (Image.nodup_exports hvalid)).mp hlookup
  obtain ⟨i, hi, published⟩ := presents active hactive
  obtain ⟨⟨name, item⟩, hx, hmatches⟩ := forall₂_mem_left published he
  obtain ⟨a, rfl⟩ := hmatches.function type htype
  obtain ⟨type', htype', hlive⟩ := hmatches.typed a rfl
  cases htype.symm.trans htype'
  cases hmatches.name
  have hnames : (i.exports.map Prod.fst).Nodup := by
    rw [published.names]
    exact Image.nodup_exports hvalid
  refine ⟨a, ?_, by rw [liveType_of_hasType hlive]; exact hsignature⟩
  have hexported : vm.store.exported? active.index e.name = some (.function a) := by
    rw [Store.exported?, hi]
    exact lookup_of_mem hnames hx
  exact Option.bind_eq_some_iff.mpr ⟨active, hactive, by rw [hexported]; rfl⟩

end Main

/-! ### The link environment -/

section Registered

variable {vm : Vm} (signed : vm.Signed) (tidy : vm.Tidy) {moduleName name : String}

include signed tidy

/-- The functions of an entry have different names. -/
theorem nodup_functions {entry : Registered} (hentry : (moduleName, entry) ∈ vm.entries) :
    (entry.functions.map Prod.fst).Nodup := by
  cases entry with
  | module m => exact Module.nodup_functionList (signed.nodup_exports hentry)
  | imports linked functions =>
    have hcertified := signed.certified _ _ _ hentry
    cases hkey : linked.environment with
    | some key => exact hcertified.nodup (Option.isSome_of_eq_some hkey)
    | none =>
      -- The symbols have the names that they were linked under.
      have hlinked : linked.names.Nodup := by
        have hnames := signed.nodup_names
        rw [tidy.names] at hnames
        exact (List.nodup_flatMap.mp hnames).1 _ hentry
      rw [LinkedImports.names, hkey] at hlinked
      have hsymbols : (linked.symbols.map Prod.fst).Nodup := by
        refine List.Nodup.of_map (linked.moduleName, ·) ?_
        rwa [List.map_map]
      change (functions.map Prod.fst).Nodup
      rw [hcertified.host hkey]
      refine hsymbols.sublist (sublist_filterMap (fun x y hy => ?_) _)
      obtain ⟨n, symbol⟩ := x
      cases symbol <;> cases hy
      rfl

variable {args : List Value}

/-- A function of the link environment that is declared can be called. -/
theorem target_of_declared_registered {signature : Signature}
    (declared : vm.registeredFunctionType? moduleName name = some signature) : ∃ a,
      (Call.registered moduleName name args).target? vm = some a ∧
        Signature.ofType? (vm.liveType a) = .ok signature := by
  obtain ⟨entry, hregistered, hlookup⟩ := Option.bind_eq_some_iff.mp declared
  have hentry := signed.listed.mem_entries_iff.mpr hregistered
  suffices h : ∃ a, vm.linker.get? moduleName name = some (.function a) by
    obtain ⟨a, hget⟩ := h
    refine ⟨a, ?_, signed.ofType?_of_declared hentry hget hlookup⟩
    exact Option.bind_eq_some_iff.mpr ⟨entry, hregistered, by rw [hget]; rfl⟩
  cases entry with
  | module m =>
    obtain ⟨e, he, rfl, type, htype, -⟩ :=
      (Module.lookup_functionList (signed.nodup_exports hentry)).mp hlookup
    obtain ⟨item, hitem, hmatches⟩ := signed.laid.published _ _ hentry e he
    obtain ⟨a, rfl⟩ := hmatches.function type htype
    exact ⟨a, (Linker.get?_eq_some signed.nodup_names).mpr hitem⟩
  | imports linked functions =>
    have hmem : (name, signature) ∈ functions := mem_of_lookup hlookup
    have hcertified := signed.certified _ _ _ hentry
    cases hkey : linked.environment with
    | none =>
      rw [hcertified.host hkey] at hmem
      obtain ⟨⟨n, symbol⟩, hx, hsymbol⟩ := List.mem_filterMap.mp hmem
      obtain ⟨item, hitem, hbecomes⟩ := signed.laid.linked _ _ _ hentry hkey _ hx
      rw [signed.named hentry] at hitem
      cases hbecomes with
      | @function id s a =>
        cases hsymbol
        exact ⟨a, (Linker.get?_eq_some signed.nodup_names).mpr hitem⟩
      | _ => cases hsymbol
    | some key =>
      have hsome := Option.isSome_of_eq_some hkey
      cases tidy.system _ _ _ hentry hsome
      obtain ⟨call, rfl, -⟩ := hcertified.system hsome rfl _ hmem
      obtain ⟨a, hitem, -⟩ := signed.linked_system hentry hkey call
      exact ⟨a, (Linker.get?_eq_some signed.nodup_names).mpr hitem⟩

omit tidy in
/-- A function that a registered module exports is one of those listed for it. -/
theorem mem_functionList_of_linked {m : Module} {a : Nat}
    (hentry : (moduleName, .module m) ∈ vm.entries)
    (hname : (moduleName, name) ∈ (Registered.module m).names moduleName)
    (hget : vm.linker.get? moduleName name = some (.function a)) :
    ∃ signature, (name, signature) ∈ m.functionList := by
  obtain ⟨e, he, ⟨⟩⟩ := List.mem_map.mp hname
  obtain ⟨item, hitem, hmatches⟩ := signed.laid.published _ _ hentry e he
  obtain ⟨type, htype, -⟩ := hmatches.typed a (signed.item_eq hget hitem)
  obtain ⟨image, features, hvalid⟩ := signed.toLinked.validated hentry
  obtain ⟨type', signature, htype', hsignature⟩ :=
    image.signature_of_export hvalid he (Module.kind_of_exportedFunction? htype)
  exact ⟨signature, List.mem_filterMap.mpr
    ⟨e, he, Module.listed_eq_some.mpr ⟨rfl, type', htype', hsignature⟩⟩⟩

omit tidy in
/-- So is a function of a registered import object. -/
theorem mem_functions_of_linked {linked : LinkedImports} {functions : List (String × Signature)}
    {a : Nat} (hentry : (moduleName, .imports linked functions) ∈ vm.entries)
    (hname : (moduleName, name) ∈ linked.names)
    (hget : vm.linker.get? moduleName name = some (.function a)) :
    ∃ signature, (name, signature) ∈ functions := by
  have hcertified := signed.certified _ _ _ hentry
  rw [LinkedImports.names] at hname
  cases hkey : linked.environment with
  | none =>
    rw [hkey] at hname
    obtain ⟨⟨n, symbol⟩, hx, ⟨⟩⟩ := List.mem_map.mp hname
    obtain ⟨item, hitem, hbecomes⟩ := signed.laid.linked _ _ _ hentry hkey _ hx
    cases signed.item_eq hget hitem
    cases hbecomes with
    | @function id s _ _ =>
      refine ⟨s, ?_⟩
      change (n, s) ∈ functions
      rw [hcertified.host hkey]
      exact List.mem_filterMap.mpr ⟨_, hx, rfl⟩
  | some key =>
    rw [hkey] at hname
    obtain ⟨call, -, ⟨⟩⟩ := List.mem_map.mp hname
    exact hcertified.complete (Option.isSome_of_eq_some hkey) rfl call

/-- A function of the link environment that can be called is declared. -/
theorem declared_of_target_registered {a : Nat}
    (found : (Call.registered moduleName name args).target? vm = some a) :
    (vm.registeredFunctionType? moduleName name).isSome = true := by
  obtain ⟨entry, hregistered, hfound⟩ := Option.bind_eq_some_iff.mp found
  obtain ⟨item, hget, hfunction⟩ := Option.bind_eq_some_iff.mp hfound
  have hentry := signed.listed.mem_entries_iff.mpr hregistered
  suffices h : ∃ signature, (name, signature) ∈ entry.functions by
    obtain ⟨signature, hmem⟩ := h
    have hlookup : (entry.functions.lookup name).isSome = true :=
      isSome_lookup.mpr (List.mem_map_of_mem (f := Prod.fst) hmem)
    rw [registeredFunctionType?, hregistered]
    exact hlookup
  cases item with
  | function b =>
    -- The name in the linker is one of the entry.
    have hitem := (Linker.get?_eq_some signed.nodup_names).mp hget
    obtain ⟨entry', hentry', hname⟩ := tidy.entry_of_name signed.toLinked
      (List.mem_map_of_mem (f := Prod.fst) hitem)
    cases signed.unique hentry hentry'
    cases entry with
    | module m => exact mem_functionList_of_linked signed hentry hname hget
    | imports linked functions => exact mem_functions_of_linked signed hentry hname hget
  | _ => cases hfunction

end Registered

/-! ## What is told agrees with what can be called -/

/-- The names of functions, their signatures and the calls that can be made of them agree. -/
structure Agrees (s : Setting) (names : List String) (type? : String → Option Signature)
    (call : String → List Value → Call) : Prop where
  ascending : names.Pairwise (· < ·)
  listed_iff : ∀ name, name ∈ names ↔ (type? name).isSome = true
  callable_iff : ∀ name args, (type? name).isSome = true ↔ (call name args).ready s.vm = true ∧
    ∀ text, outcome (call name args).action s ≠ .error (.execution (.functionNotFound text))
  held : ∀ name signature, type? name = some signature → ∀ args,
    (call name args).HeldTo s signature

/-- What is told by name and one by one is read off a list of functions. -/
structure ReadOff (functions : List (String × Signature)) (names : List String)
    (type? : String → Option Signature) : Prop where
  names_eq : names = sorted (functions.map Prod.fst)
  lookup : ∀ name, type? name = functions.lookup name
  nodup : (functions.map Prod.fst).Nodup

/-- Where nothing is found, no functions are told. -/
theorem readOff_nil : ReadOff [] [] fun _ => none :=
  ⟨List.mergeSort_nil.symm, fun _ => rfl, List.nodup_nil⟩

/-- What is declared agrees with what can be called if it is what can be found. -/
theorem ReadOff.agrees {s : Setting} {functions : List (String × Signature)} {names : List String}
    {type? : String → Option Signature} {call : String → List Value → Call}
    (told : ReadOff functions names type?)
    (declared : ∀ name args a, (call name args).target? s.vm = some a → (type? name).isSome = true)
    (found : ∀ name signature args, type? name = some signature →
      (call name args).ready s.vm = true ∧ ∃ a, (call name args).target? s.vm = some a ∧
        Signature.ofType? (s.vm.liveType a) = .ok signature) :
    Agrees s names type? call where
  ascending := told.names_eq ▸ ascending_sorted told.nodup
  listed_iff name := by
    rw [told.names_eq, (sorted_perm _).mem_iff, told.lookup]
    exact isSome_lookup.symm
  callable_iff name args := by
    constructor
    · intro hsome
      obtain ⟨signature, hsignature⟩ := Option.isSome_iff_exists.mp hsome
      obtain ⟨ready, a, htarget, -⟩ := found name signature args hsignature
      refine ⟨ready, fun text hmissing => ?_⟩
      have absent := (Call.notFound_iff.mp ⟨text, hmissing⟩).2
      cases htarget.symm.trans absent
    · rintro ⟨ready, present⟩
      cases htarget : (call name args).target? s.vm with
      | some a => exact declared name args a htarget
      | none =>
        obtain ⟨text, hmissing⟩ := Call.notFound_iff.mpr ⟨ready, htarget⟩
        exact absurd hmissing (present text)
  held name signature hsignature args := by
    obtain ⟨ready, a, htarget, htype⟩ := found name signature args hsignature
    exact Call.heldTo ready htarget htype

/-- The functions of the main module are told from a list. -/
theorem readOff_main {vm : Vm} (sound : vm.Sound) :
    ∃ functions, ReadOff functions vm.functionNames vm.functionType? := by
  unfold functionNames functionType?
  cases hactive : vm.active with
  | none => exact ⟨[], readOff_nil⟩
  | some active =>
    obtain ⟨image, hvalid⟩ := sound.validated hactive
    exact ⟨active.module.functionList, congrArg sorted (Image.map_functionList hvalid).symm,
      fun _ => rfl, Module.nodup_functionList (Image.nodup_exports hvalid)⟩

/-- The functions that are registered under a module name are told from a list. -/
theorem readOff_registered {vm : Vm} (signed : vm.Signed) (tidy : vm.Tidy) (moduleName : String) :
    ∃ functions, ReadOff functions (vm.registeredFunctionNames moduleName)
      (vm.registeredFunctionType? moduleName) := by
  unfold registeredFunctionNames registeredFunctionType?
  cases hregistered : vm.registered? moduleName with
  | none => exact ⟨[], readOff_nil⟩
  | some entry =>
    have hentry := signed.listed.mem_entries_iff.mpr hregistered
    exact ⟨entry.functions, rfl, fun _ => rfl, nodup_functions signed tidy hentry⟩

/-- What a machine tells of its main module agrees with what can be called. -/
theorem agrees_main {s : Setting} (sound : s.vm.Sound) (presents : s.vm.Presents) :
    Agrees s s.vm.functionNames s.vm.functionType? .main := by
  obtain ⟨functions, told⟩ := readOff_main sound
  refine told.agrees (fun _ _ _ => declared_of_target_main sound presents)
    fun name signature args hsignature => ⟨?_, target_of_declared_main sound presents hsignature⟩
  obtain ⟨active, hactive, -⟩ := Option.bind_eq_some_iff.mp hsignature
  have hsome : s.vm.active.isSome = true := Option.isSome_of_eq_some hactive
  exact decide_eq_true (sound.coherent.instantiated_iff.mpr hsome)

/-- What a machine tells of its link environment agrees with what can be called. -/
theorem agrees_registered {s : Setting} (signed : s.vm.Signed) (tidy : s.vm.Tidy)
    (moduleName : String) :
    Agrees s (s.vm.registeredFunctionNames moduleName) (s.vm.registeredFunctionType? moduleName)
      (.registered moduleName) := by
  obtain ⟨functions, told⟩ := readOff_registered signed tidy moduleName
  exact told.agrees (fun _ _ _ => declared_of_target_registered signed tidy)
    fun _ _ _ hsignature => ⟨rfl, target_of_declared_registered signed tidy hsignature⟩

/-- The list of the functions of the main module has the names and the signatures that are told one
by one. -/
theorem functionList_eq {vm : Vm} (sound : vm.Sound) :
    vm.functionList.map Prod.fst = vm.functionNames ∧
      ∀ name signature, (name, signature) ∈ vm.functionList ↔
        vm.functionType? name = some signature := by
  unfold functionList functionNames functionType?
  cases hactive : vm.active with
  | none => exact ⟨rfl, fun _ _ => iff_of_false List.not_mem_nil nofun⟩
  | some active =>
    obtain ⟨image, hvalid⟩ := sound.validated hactive
    have hnodup := Module.nodup_functionList (Image.nodup_exports hvalid)
    refine ⟨?_, fun name signature => mem_sortedByName.trans ⟨lookup_of_mem hnodup, mem_of_lookup⟩⟩
    dsimp only
    rw [map_sortedByName, Image.map_functionList hvalid]

/-- **What a machine tells of its functions agrees with what can be called.**  Whatever has happened
to a machine, the modules that it tells are those that were registered, in order; the list of
functions of the main module has the names and signatures that are told singly; and a function of
it is named if and only if it has a signature, if and only if there is an instance and no call
answers that there is no such function.  A call of it is refused with the mismatch if and only if
its arguments do not have the kinds of this signature.  As long as no registration has failed, the
same holds of every module name and the functions that are registered under it. -/
theorem introspection {calls : List (String × Bool)} {s : Setting} (h : Roster calls s) :
    s.vm.moduleNames = sorted (enrolled calls) ∧ s.vm.moduleNames.Pairwise (· < ·) ∧
    s.vm.functionList.map Prod.fst = s.vm.functionNames ∧
    (∀ name signature, (name, signature) ∈ s.vm.functionList ↔
      s.vm.functionType? name = some signature) ∧
    Agrees s s.vm.functionNames s.vm.functionType? .main ∧
    ((∀ c ∈ calls, c.2 = true) → ∀ moduleName,
      Agrees s (s.vm.registeredFunctionNames moduleName) (s.vm.registeredFunctionType? moduleName)
        (.registered moduleName)) := by
  have sound : s.vm.Sound := invariant_sound.reachable h.reachable
  have presents : s.vm.Presents := invariant_presents.reachable h.reachable
  have signed : s.vm.Signed := invariant_signed.reachable h.reachable
  have keys : (s.vm.registered.map Prod.fst).Nodup := invariant_keys.reachable h.reachable
  obtain ⟨hnames, htypes⟩ := functionList_eq sound
  exact ⟨h.moduleNames_eq, ascending_sorted keys, hnames, htypes, agrees_main sound presents,
    fun registered => agrees_registered signed (h.tidy registered)⟩

/-- A machine that has the counter registered as well as for its main module, whose store has been
rebuilt. -/
def counters : Setting :=
  (((Setting.after ⟨empty {} ⟨0⟩, (Host.newStore {}).2⟩ registerCounter).after
    (.load (.bytes counterBytes))).after .instantiate).after .instantiate

/-- Both counters are told and can be called, and a call of either is refused if it has
arguments. -/
theorem introspection_counters :
    "counter" ∈ counters.vm.moduleNames ∧ "bump" ∈ counters.vm.functionNames ∧
      "bump" ∈ counters.vm.registeredFunctionNames "counter" ∧
      (Call.main "bump" [.i32 1]).HeldTo counters ⟨[], [.i32]⟩ ∧
      (Call.registered "counter" "bump" [.i32 1]).HeldTo counters ⟨[], [.i32]⟩ := by
  have hmade : Vm.new {} {} = (.ok (empty {} ⟨0⟩), (Host.newStore {}).2) := rfl
  have hok : (Setting.answer ⟨empty {} ⟨0⟩, (Host.newStore {}).2⟩ registerCounter).isOk = true := by
    decide +kernel
  have hnew : Roster [("counter", true)]
      (Setting.after ⟨empty {} ⟨0⟩, (Host.newStore {}).2⟩ registerCounter) := by
    have hstep : Roster [("counter", (Setting.answer _ registerCounter).isOk)] _ :=
      (Roster.new hmade).operate registerCounter nofun
    rwa [hok] at hstep
  have hroster : Roster [("counter", true)] counters :=
    ((hnew.proceed rfl).proceed rfl).proceed rfl
  obtain ⟨hmodules, -, -, -, main, registered⟩ := introspection hroster
  have counter := registered (by decide) "counter"
  have hmain : counters.vm.functionType? "bump" = some ⟨[], [.i32]⟩ := by decide +kernel
  have hcounter : counters.vm.registeredFunctionType? "counter" "bump" = some ⟨[], [.i32]⟩ := by
    decide +kernel
  refine ⟨?_, (main.listed_iff _).mpr (Option.isSome_of_eq_some hmain),
    (counter.listed_iff _).mpr (Option.isSome_of_eq_some hcounter), main.held _ _ hmain _,
    counter.held _ _ hcounter _⟩
  rw [hmodules]
  exact (sorted_perm _).mem_iff.mpr (List.mem_singleton.mpr rfl)

end Vm

end WasmEmbedding
