import WasmEmbedding.Host.Basic
import WasmEmbedding.Proofs.Computation
import WasmEmbedding.Proofs.Keyed

/-! # Who owns the host functions

The registry knows nothing of import objects, and import objects know the numbers of their functions
only.  So it is nobody's property that a number is live exactly as long as an object has a function
with it: it has to come out of how objects are made, filled, deleted and dropped.

What can be done with import objects is a `Deed`, and every number that is given out on the way is a
`Grant`.  However deeds follow one another (`Owned`), the live numbers are those of the objects that
are there, each of one object (`Holds`).  The invariant has to be about the registry and all objects
at once: a number that were in two objects would be revoked with the first, and stay in the second
as one that nobody can call.  Two things keep that from happening.  Numbers are given out in
ascending order and never again, so that a new one is in no object, and a deed that gives one out
puts it into one object.  What a deed does is then a rearrangement of what the registry and the
objects hold (`holdings`), and each deed keeps `Holds` (`Holds.perform`).

`ownership` says what follows: which numbers are live and whose, what is found under them, how many
functions share some data, and that a deed that is refused changes nothing.
-/
namespace WasmEmbedding

open Host

/-- What is taken away is not missed where it makes no contribution. -/
theorem flatMap_filter_of_nil {α β : Type} {f : α → List β} {p : α → Bool} {l : List α}
    (h : ∀ a ∈ l, p a = false → f a = []) : (l.filter p).flatMap f = l.flatMap f := by
  induction l with
  | nil => rfl
  | cons a l ih =>
    have hrest := ih fun b hb => h b (List.mem_cons_of_mem a hb)
    cases hp : p a with
    | false =>
      rw [List.filter_cons_of_neg (by rw [hp]; exact Bool.false_ne_true), hrest, List.flatMap_cons,
        h a List.mem_cons_self hp, List.nil_append]
    | true => rw [List.filter_cons_of_pos hp, List.flatMap_cons, List.flatMap_cons, hrest]

/-! ## The registry -/

namespace Host.Registry

/-- The live numbers. -/
def ids (r : Registry) : List FunctionId := r.entries.map Prod.fst

/-- The live numbers, each with where the data is kept that its function shares. -/
def holdings (r : Registry) : List (FunctionId × Option ContextKey) :=
  r.entries.map fun e => (e.1, e.2.context)

theorem map_fst_holdings (r : Registry) : r.holdings.map Prod.fst = r.ids :=
  List.map_map

theorem next_revokeAll (r : Registry) (ids : List FunctionId) :
    (r.revokeAll ids).next = r.next := by
  induction ids generalizing r with
  | nil => rfl
  | cons id ids ih => exact ih (r.revoke id)

theorem entries_revokeAll (r : Registry) (ids : List FunctionId) :
    (r.revokeAll ids).entries = r.entries.filter fun e => e.1 ∉ ids := by
  induction ids generalizing r with
  | nil => exact (List.filter_eq_self.mpr fun _ _ => decide_eq_true List.not_mem_nil).symm
  | cons id ids ih =>
    refine (ih (r.revoke id)).trans ?_
    unfold revoke
    rw [List.filter_filter]
    refine List.filter_congr fun e _ => ?_
    rw [← Bool.decide_and]
    exact decide_eq_decide.mpr (by rw [List.mem_cons, not_or, and_comm])

theorem holdings_revokeAll (r : Registry) (ids : List FunctionId) :
    (r.revokeAll ids).holdings = r.holdings.filter fun e => e.1 ∉ ids := by
  unfold holdings
  rw [entries_revokeAll, List.filter_map]
  rfl

theorem lookup_eq_ok {r : Registry} (h : r.ids.Nodup) {id : FunctionId} {e : Registration}
    (he : (id, e) ∈ r.entries) : r.lookup id = .ok e := by
  unfold lookup
  rw [lookup_of_mem h he]

theorem contextReferences_eq (r : Registry) (key : ContextKey) :
    r.contextReferences key = (r.holdings.filter fun e => e.2 = some key).length := by
  unfold contextReferences holdings
  rw [List.filter_map, List.length_map]
  rfl

end Host.Registry

/-! ## Import objects -/

namespace Host

/-- The number of a symbol that is a function. -/
def Symbol.id? : Symbol → Option FunctionId
  | .function id _ => some id
  | _ => none

/-- A symbol that is not a function. -/
abbrev Ware := { s : Symbol // s.id? = none }

namespace ImportObject

/-- The numbers of an object's functions, each with where the data is kept that they share. -/
def holdings (o : ImportObject) : List (FunctionId × Option ContextKey) :=
  o.functionIds.map fun id => (id, o.context)

theorem map_fst_holdings (o : ImportObject) : o.holdings.map Prod.fst = o.functionIds := by
  unfold holdings
  rw [List.map_map]
  exact List.map_id _

/-- All functions of an object share the same data. -/
theorem filter_holdings (o : ImportObject) (key : ContextKey) :
    (o.holdings.filter fun e => e.2 = some key) =
      if o.context = some key then o.holdings else [] := by
  have hcontext : ∀ e ∈ o.holdings, e.2 = o.context := by
    intro e he
    obtain ⟨id, -, rfl⟩ := List.mem_map.mp he
    rfl
  split
  · rename_i hkey
    exact List.filter_eq_self.mpr fun e he => decide_eq_true ((hcontext e he).trans hkey)
  · rename_i hkey
    refine List.filter_eq_nil_iff.mpr fun e he h => hkey ?_
    exact (hcontext e he).symm.trans (of_decide_eq_true h)

theorem symbolList_push {o : ImportObject} (h : o.isDeleted = false) (name : String) (s : Symbol) :
    (o.push name s).symbolList = o.symbolList ++ [(name, s)] := by
  unfold isDeleted at h
  unfold symbolList push
  cases hs : o.symbols with
  | none =>
    rw [hs] at h
    cases h
  | some symbols => rfl

theorem functionIds_push {o : ImportObject} (h : o.isDeleted = false) (name : String)
    (s : Symbol) : (o.push name s).functionIds = o.functionIds ++ s.id?.toList := by
  unfold functionIds idsOf
  rw [symbolList_push h, List.filterMap_append]
  cases s <;> rfl

theorem symbolNames_push {o : ImportObject} (h : o.isDeleted = false) (name : String)
    (s : Symbol) : (o.push name s).symbolNames = o.symbolNames ++ [name] := by
  unfold symbolNames
  rw [symbolList_push h, List.map_append]
  rfl

/-- A symbol may be added to an object that is there and not for the system interface, under a
name that is not taken. -/
theorem checkInsert_eq_ok {o : ImportObject} {name : String} :
    o.checkInsert name = .ok () ↔
      o.isDeleted = false ∧ o.isWasi = false ∧ name ∉ o.symbolNames := by
  unfold checkInsert isDeleted symbolNames symbolList
  cases o.symbols with
  | none => exact ⟨nofun, fun h => nomatch h.1⟩
  | some symbols =>
    cases o.isWasi with
    | true => exact ⟨nofun, fun h => nomatch h.2.1⟩
    | false => simp

end ImportObject

namespace ImportObject

/-- A function is registered if it may be added. -/
theorem addFunction_eq (o : ImportObject) (r : Registry) (name : String) (f : HostFunction) :
    o.addFunction r name f = (o.checkInsert name).map fun _ =>
      (o.push name (.function ⟨r.next⟩ f.signature), (r.register ⟨f.body, o.context⟩).2) := by
  unfold addFunction
  cases o.checkInsert name <;> rfl

theorem add_eq (o : ImportObject) (name : String) (s : Symbol) :
    o.add name s = (o.checkInsert name).map fun _ => o.push name s := by
  unfold add
  cases o.checkInsert name <;> rfl

end ImportObject

/-! ## Deeds -/

/-- A number that has been given out. -/
structure Grant where
  id : FunctionId
  /-- The name of the import object, if the host keeps it. -/
  object : Option String
  moduleName : String
  symbol : String
  function : HostFunction
  context : Option ContextKey

/-- The entry of the registry that a number was given out for. -/
def Grant.entry (g : Grant) : FunctionId × Registration := (g.id, ⟨g.function.body, g.context⟩)

/-- The number that an object under a name gets for a function. -/
def ImportObject.grant (o : ImportObject) (name symbol : String) (f : HostFunction)
    (id : FunctionId) : Grant :=
  ⟨id, some name, o.moduleName, symbol, f, o.context⟩

end Host

/-- Keeps the data of a new import object, if it has any. -/
def Host.keepData (h : Host) : Option SharedData → Option ContextKey × Host
  | none => (none, h)
  | some data =>
    let (key, h) := h.keepContext data
    (some key, h)

namespace Host

/-- What can be done with the import objects that the host keeps under names. -/
inductive Deed where
  /-- Makes an object and lets go of the one that had the name. -/
  | create (name moduleName : String) (data : Option SharedData)
  /-- Makes an object for the system interface in the same way. -/
  | createWasi (name : String) (e : Wasi.Environment)
  | addFunction (name symbol : String) (f : HostFunction)
  /-- Adds a table, a memory or a global. -/
  | add (name symbol : String) (s : Ware)
  | delete (name : String)
  | drop (name : String)
  /-- Makes an object with one function and lets go of it. -/
  | make (moduleName : String)

namespace Deed

/-- An answer or its error. -/
def ofExcept {α : Type} : Except LinkError α → EStateM LinkError Host α
  | .ok a => pure a
  | .error e => throw e

/-- Does something with the object that the host keeps under a name, if there is one. -/
def onObject (name : String) (f : ImportObject → EStateM LinkError Host Unit) :
    EStateM LinkError Host Unit := do
  match (← get).object? name with
  | some o => f o
  | none => pure ()

/-- Does a deed, unless it is refused. -/
def perform : Deed → EStateM LinkError Host Unit
  | .create name moduleName data => do
    let (context, h) := (← get).keepData data
    let o ← ofExcept (ImportObject.new moduleName context)
    set (h.keepObject name o)
  | .createWasi name e => do
    let (o, h) := (← get).newWasiObject e
    set (h.keepObject name o)
  | .addFunction name symbol f => onObject name fun o => do
    let (o, registry) ← ofExcept (o.addFunction (← get).registry symbol f)
    modify fun h => { h with registry }.putObject name o
  | .add name symbol s => onObject name fun o => do
    let o ← ofExcept (o.add symbol s)
    modify fun h => h.putObject name o
  | .delete name => modify fun h => h.deleteObject name
  | .drop name => modify fun h => h.dropObject name
  | .make moduleName => modify fun h => (h.makeObject moduleName).2

/-- The host after a deed. -/
def after (d : Deed) (h : Host) : Host := ending d.perform h

/-- The number that a deed gives out, if it does. -/
def granted (d : Deed) (h : Host) : List Grant :=
  match d with
  | .addFunction name symbol f =>
    match h.object? name with
    | some o =>
      if (o.checkInsert symbol).isOk then
        [o.grant name symbol f ⟨h.registry.next⟩]
      else []
    | none => []
  | .make moduleName =>
    if moduleName.isEmpty then [] else [⟨⟨h.registry.next⟩, none, moduleName, "f", echo, none⟩]
  | _ => []

end Deed

/-! ## What the host keeps to -/

/-- The functions of an object under a name have been granted to it, under names that are used
once. -/
structure ImportObject.Granted (o : ImportObject) (name : String) (grants : List Grant) : Prop where
  symbolNames : o.symbolNames.Nodup
  functions : ∀ symbol id signature, (symbol, .function id signature) ∈ o.symbolList →
    ∃ f : HostFunction, f.signature = signature ∧
      o.grant name symbol f id ∈ grants

/-- The live numbers are those of the objects that are there, each of one object, and each as it was
granted. -/
structure Holds (h : Host) (grants : List Grant) : Prop where
  next : h.registry.next = grants.length + 1
  numbers : grants.map (fun g => g.id.val) = List.range' 1 grants.length
  ids : h.registry.ids.Nodup
  entries : ∀ e ∈ h.registry.entries, ∃ g ∈ grants, e = g.entry
  names : (h.objects.map Prod.fst).Nodup
  objects : ∀ name o, (name, o) ∈ h.objects → o.Granted name grants
  holdings : h.registry.holdings.Perm (h.objects.flatMap fun e => e.2.holdings)
  apart : (h.objects.filterMap fun e => e.2.context).Nodup
  contexts : ∀ name o key, (name, o) ∈ h.objects → o.context = some key → key.val < h.contexts.size

theorem ImportObject.Granted.mono {o : ImportObject} {name : String} {grants : List Grant}
    (h : o.Granted name grants) (more : List Grant) : o.Granted name (grants ++ more) where
  symbolNames := h.symbolNames
  functions symbol id signature hmem := by
    obtain ⟨f, hsignature, hf⟩ := h.functions symbol id signature hmem
    exact ⟨f, hsignature, List.mem_append_left more hf⟩

theorem ImportObject.Granted.push {o : ImportObject} {name symbol : String} {grants : List Grant}
    (h : o.Granted name grants) (hcheck : o.checkInsert symbol = .ok ()) {s : Symbol}
    (hs : ∀ id signature, s = .function id signature → ∃ f : HostFunction,
      f.signature = signature ∧ o.grant name symbol f id ∈ grants) :
    (o.push symbol s).Granted name grants := by
  obtain ⟨hdeleted, -, hsymbol⟩ := checkInsert_eq_ok.mp hcheck
  constructor
  · rw [symbolNames_push hdeleted]
    exact List.nodup_append.mpr ⟨h.symbolNames, List.pairwise_singleton _ _, fun a ha b hb heq =>
      hsymbol (List.mem_singleton.mp hb ▸ heq ▸ ha)⟩
  · intro symbol' id signature hmem
    rw [symbolList_push hdeleted] at hmem
    rcases List.mem_append.mp hmem with hmem | hmem
    · exact h.functions symbol' id signature hmem
    · cases List.mem_singleton.mp hmem
      exact hs id signature rfl

namespace Holds

variable {h : Host} {grants : List Grant}

/-- What is not about import objects may change. -/
theorem elsewhere (H : Holds h grants) {h' : Host} (hregistry : h'.registry = h.registry)
    (hobjects : h'.objects = h.objects) (hcontexts : h.contexts.size ≤ h'.contexts.size) :
    Holds h' grants := by
  constructor
  · exact hregistry ▸ H.next
  · exact H.numbers
  · exact hregistry ▸ H.ids
  · exact hregistry ▸ H.entries
  · exact hobjects ▸ H.names
  · exact hobjects ▸ H.objects
  · exact hregistry ▸ hobjects ▸ H.holdings
  · exact hobjects ▸ H.apart
  · intro name o key ho hkey
    exact Nat.lt_of_lt_of_le (H.contexts name o key (hobjects ▸ ho) hkey) hcontexts

theorem object?_eq_some (H : Holds h grants) {name : String} {o : ImportObject} :
    h.object? name = some o ↔ (name, o) ∈ h.objects :=
  ⟨mem_of_lookup, lookup_of_mem H.names⟩

/-- An object, and the objects under other names. -/
theorem perm_forget (H : Holds h grants) {name : String} {o : ImportObject}
    (ho : (name, o) ∈ h.objects) : h.objects.Perm ((name, o) :: (h.forget name).objects) :=
  perm_cons_filter H.names ho

/-- Grants are numbered one by one. -/
theorem lt_next (H : Holds h grants) {g : Grant} (hg : g ∈ grants) :
    g.id.val < h.registry.next := by
  have hmem : g.id.val ∈ List.range' 1 grants.length := H.numbers ▸ List.mem_map_of_mem hg
  rw [List.mem_range'_1] at hmem
  rw [H.next]
  omega

/-- The next number has not been given out. -/
theorem not_mem_ids (H : Holds h grants) : (⟨h.registry.next⟩ : FunctionId) ∉ h.registry.ids := by
  intro hmem
  obtain ⟨e, he, heq⟩ := List.mem_map.mp hmem
  obtain ⟨g, hg, rfl⟩ := H.entries e he
  have hlt := H.lt_next hg
  rw [show g.id = ⟨h.registry.next⟩ from heq] at hlt
  exact Nat.lt_irrefl _ hlt

theorem numbers_grant (H : Holds h grants) {g : Grant} (hg : g.id.val = h.registry.next) :
    (grants ++ [g]).map (fun g => g.id.val) = List.range' 1 (grants ++ [g]).length := by
  rw [List.map_append, H.numbers, List.length_append, List.length_singleton, List.range'_concat,
    List.map_singleton, hg, H.next]
  congr 2
  omega

theorem not_mem_forget (name : String) : name ∉ (h.forget name).objects.map Prod.fst := by
  intro hmem
  obtain ⟨e, he, rfl⟩ := List.mem_map.mp hmem
  have hne : e.1 ≠ e.1 := of_decide_eq_true (List.mem_filter.mp he).2
  exact hne rfl

/-- An object changes, and the registry with it. -/
theorem replace (H : Holds h grants) {name : String} {o : ImportObject}
    (ho : (name, o) ∈ h.objects) (o' : ImportObject) (hcontext : o'.context = o.context)
    {registry : Registry} (more : List Grant) (hnext : registry.next = (grants ++ more).length + 1)
    (hnumbers : (grants ++ more).map (fun g => g.id.val) = List.range' 1 (grants ++ more).length)
    (hids : registry.ids.Nodup)
    (hentries : ∀ e ∈ registry.entries, ∃ g ∈ grants ++ more, e = g.entry)
    (hgranted : o'.Granted name (grants ++ more))
    (hholdings : ∀ rest, h.registry.holdings.Perm (o.holdings ++ rest) →
      registry.holdings.Perm (o'.holdings ++ rest)) :
    Holds ({ h with registry }.putObject name o') (grants ++ more) := by
  have hperm := H.perm_forget ho
  have hothers : ∀ {name' p}, (name', p) ∈ (h.forget name).objects → (name', p) ∈ h.objects :=
    fun hp => List.mem_of_mem_filter hp
  refine ⟨hnext, hnumbers, hids, hentries, ?_, ?_, ?_, ?_, ?_⟩
  · exact List.nodup_cons.mpr ⟨not_mem_forget name, H.names.sublist (List.filter_sublist.map _)⟩
  · intro name' p hp
    rcases List.mem_cons.mp hp with heq | hp
    · cases heq
      exact hgranted
    · exact (H.objects name' p (hothers hp)).mono more
  · exact hholdings _ (H.holdings.trans (hperm.flatMap_right _))
  · have hapart := (hperm.filterMap fun e => e.2.context).nodup_iff.mp H.apart
    rw [List.filterMap_cons] at hapart
    change (List.filterMap _ ((name, o') :: (h.forget name).objects)).Nodup
    rw [List.filterMap_cons]
    dsimp only at hapart ⊢
    rwa [hcontext]
  · intro name' p key hp hkey
    rcases List.mem_cons.mp hp with heq | hp
    · cases heq
      exact H.contexts name o key ho (hcontext ▸ hkey)
    · exact H.contexts name' p key (hothers hp) hkey

/-- An object changes, and no number is given out. -/
theorem alter (H : Holds h grants) {name : String} {o : ImportObject}
    (ho : (name, o) ∈ h.objects) (o' : ImportObject) (hcontext : o'.context = o.context)
    {registry : Registry} (hnext : registry.next = h.registry.next)
    (hentries : registry.entries.Sublist h.registry.entries) (hgranted : o'.Granted name grants)
    (hholdings : ∀ rest, h.registry.holdings.Perm (o.holdings ++ rest) →
      registry.holdings.Perm (o'.holdings ++ rest)) :
    Holds ({ h with registry }.putObject name o') grants := by
  have hreplaced : Holds ({ h with registry }.putObject name o') (grants ++ []) := by
    refine H.replace ho o' hcontext [] ?_ ?_ (H.ids.sublist (hentries.map _)) ?_ ?_ hholdings
    · rw [hnext, H.next, List.append_nil]
    · rw [List.append_nil, H.numbers]
    · rw [List.append_nil]
      exact fun e he => H.entries e (hentries.subset he)
    · rwa [List.append_nil]
  rwa [List.append_nil] at hreplaced

/-- Deleting an object takes its numbers back. -/
theorem delete (H : Holds h grants) (name : String) : Holds (h.deleteObject name) grants := by
  unfold deleteObject
  cases hobject : h.object? name with
  | none => exact H
  | some o =>
    have ho := H.object?_eq_some.mp hobject
    have hgranted : (o.delete h.registry).1.Granted name grants :=
      ⟨List.nodup_nil, fun _ _ _ => nofun⟩
    refine H.alter ho (o.delete h.registry).1 rfl (Registry.next_revokeAll _ _) ?_ hgranted
      fun rest hperm => ?_
    · rw [Registry.entries_revokeAll]
      exact List.filter_sublist
    · change ((h.registry.revokeAll o.functionIds).holdings).Perm rest
      rw [Registry.holdings_revokeAll, ← o.map_fst_holdings]
      exact filter_perm_of_append hperm (h.registry.map_fst_holdings ▸ H.ids)

/-- What is under a name after the object has been deleted holds nothing. -/
theorem holdings_deleteObject (H : Holds h grants) {name : String} {o : ImportObject}
    (ho : (name, o) ∈ (h.deleteObject name).objects) : o.holdings = [] := by
  unfold deleteObject at ho
  cases hobject : h.object? name with
  | none =>
    rw [hobject] at ho
    rw [H.object?_eq_some.mpr ho] at hobject
    cases hobject
  | some p =>
    rw [hobject] at ho
    rcases List.mem_cons.mp ho with heq | hother
    · cases heq
      rfl
    · exact absurd (List.mem_map_of_mem hother) (not_mem_forget name)

/-- An object that holds nothing can go. -/
theorem forget (H : Holds h grants) {name : String}
    (hnone : ∀ o, (name, o) ∈ h.objects → o.holdings = []) : Holds (h.forget name) grants := by
  have hsublist : (h.forget name).objects.Sublist h.objects := List.filter_sublist
  have hholdings : ((h.forget name).objects.flatMap fun e => e.2.holdings) =
      h.objects.flatMap fun e => e.2.holdings := by
    refine flatMap_filter_of_nil fun e he hkept => hnone e.2 ?_
    have hname : e.1 = name := not_not.mp (of_decide_eq_false hkept)
    exact hname ▸ he
  refine ⟨H.next, H.numbers, H.ids, H.entries, H.names.sublist (hsublist.map _), ?_, ?_, ?_, ?_⟩
  · exact fun name' o ho => H.objects name' o (hsublist.subset ho)
  · rw [hholdings]
    exact H.holdings
  · exact H.apart.sublist (hsublist.filterMap _)
  · exact fun name' o key ho hkey => H.contexts name' o key (hsublist.subset ho) hkey

theorem drop (H : Holds h grants) (name : String) : Holds (h.dropObject name) grants :=
  (H.delete name).forget fun _ => H.holdings_deleteObject

theorem mem_of_mem_dropObject {name name' : String} {o : ImportObject}
    (ho : (name', o) ∈ (h.dropObject name).objects) : (name', o) ∈ h.objects := by
  unfold dropObject deleteObject at ho
  cases hobject : h.object? name with
  | none =>
    rw [hobject] at ho
    exact List.mem_of_mem_filter ho
  | some p =>
    rw [hobject] at ho
    obtain ⟨hmem, hname⟩ := List.mem_filter.mp ho
    rcases List.mem_cons.mp hmem with heq | hother
    · cases heq
      exact absurd rfl (of_decide_eq_true hname)
    · exact List.mem_of_mem_filter hother

theorem contexts_dropObject (h : Host) (name : String) :
    (h.dropObject name).contexts = h.contexts := by
  unfold dropObject deleteObject
  cases h.object? name <;> rfl

/-- A new object is put under a name that is not taken. -/
theorem put (H : Holds h grants) {name : String} (hname : name ∉ h.objects.map Prod.fst)
    {o : ImportObject} (hsymbols : o.symbolList = [])
    (hcontext : ∀ key, o.context = some key →
      key.val < h.contexts.size ∧ ∀ name p, (name, p) ∈ h.objects → p.context ≠ some key) :
    Holds { h with objects := (name, o) :: h.objects } grants := by
  have hgranted : o.Granted name grants := by
    constructor
    · rw [ImportObject.symbolNames, hsymbols]
      exact List.nodup_nil
    · rw [hsymbols]
      exact fun _ _ _ => nofun
  refine ⟨H.next, H.numbers, H.ids, H.entries, List.nodup_cons.mpr ⟨hname, H.names⟩, ?_, ?_, ?_, ?_⟩
  · intro name' p hp
    rcases List.mem_cons.mp hp with heq | hp
    · cases heq
      exact hgranted
    · exact H.objects name' p hp
  · have hholdings : o.holdings = [] := by
      rw [ImportObject.holdings, ImportObject.functionIds, hsymbols]
      rfl
    change List.Perm _ (List.flatMap _ ((name, o) :: h.objects))
    rw [List.flatMap_cons]
    dsimp only
    rw [hholdings]
    exact H.holdings
  · change (List.filterMap _ ((name, o) :: h.objects)).Nodup
    rw [List.filterMap_cons]
    cases hkey : o.context with
    | none => exact H.apart
    | some key =>
      refine List.nodup_cons.mpr ⟨fun hmem => ?_, H.apart⟩
      obtain ⟨⟨name', p⟩, hp, hpkey⟩ := List.mem_filterMap.mp hmem
      exact (hcontext key hkey).2 name' p hp hpkey
  · intro name' p key hp hkey
    rcases List.mem_cons.mp hp with heq | hp
    · cases heq
      exact (hcontext key hkey).1
    · exact H.contexts name' p key hp hkey

/-- A new object is put in place of the one before. -/
theorem keep (H : Holds h grants) (name : String) {o : ImportObject} (hsymbols : o.symbolList = [])
    (hcontext : ∀ key, o.context = some key →
      key.val < h.contexts.size ∧ ∀ name p, (name, p) ∈ h.objects → p.context ≠ some key) :
    Holds (h.keepObject name o) grants := by
  have hforgotten : Holds ((h.dropObject name).forget name) grants :=
    (H.drop name).forget fun o ho => absurd (List.mem_map_of_mem ho) (not_mem_forget name)
  refine hforgotten.put (not_mem_forget name) hsymbols fun key hkey => ?_
  obtain ⟨hlt, hother⟩ := hcontext key hkey
  refine ⟨?_, fun name' p hp => ?_⟩
  · change key.val < (h.dropObject name).contexts.size
    rwa [contexts_dropObject]
  · exact hother name' p (mem_of_mem_dropObject (List.mem_of_mem_filter hp))

/-- A number is given out and taken back at once. -/
theorem issue (H : Holds h grants) {g : Grant} (hg : g.id = ⟨h.registry.next⟩) :
    Holds { h with registry := (h.registry.register g.entry.2).2.revokeAll [g.id] }
      (grants ++ [g]) := by
  have hentries : ((h.registry.register g.entry.2).2.revokeAll [g.id]).entries =
      h.registry.entries := by
    rw [Registry.entries_revokeAll]
    change (h.registry.entries ++ [((⟨h.registry.next⟩ : FunctionId), g.entry.2)]).filter _ = _
    rw [List.filter_append, List.filter_cons_of_neg (by simp [hg]), List.filter_nil,
      List.append_nil, List.filter_eq_self]
    refine fun e he => decide_eq_true fun hmem => H.not_mem_ids ?_
    rw [List.mem_singleton, hg] at hmem
    exact hmem ▸ List.mem_map_of_mem he
  have hnext : ((h.registry.register g.entry.2).2.revokeAll [g.id]).next = h.registry.next + 1 :=
    Registry.next_revokeAll _ _
  refine ⟨?_, H.numbers_grant (hg ▸ rfl), ?_, ?_, H.names, ?_, ?_, H.apart,
    H.contexts⟩
  · rw [hnext, H.next, List.length_append]
    rfl
  · rw [Registry.ids, hentries]
    exact H.ids
  · intro e he
    rw [hentries] at he
    obtain ⟨g', hg', heq⟩ := H.entries e he
    exact ⟨g', List.mem_append_left _ hg', heq⟩
  · exact fun name o ho => (H.objects name o ho).mono [g]
  · rw [Registry.holdings, hentries]
    exact H.holdings

/-- A function is added to an object. -/
theorem grant (H : Holds h grants) {name symbol : String} {o : ImportObject} (f : HostFunction)
    (ho : (name, o) ∈ h.objects) (hcheck : o.checkInsert symbol = .ok ()) :
    Holds ({ h with registry := (h.registry.register ⟨f.body, o.context⟩).2 }.putObject name
        (o.push symbol (.function ⟨h.registry.next⟩ f.signature)))
      (grants ++ [o.grant name symbol f ⟨h.registry.next⟩]) := by
  have hdeleted := (ImportObject.checkInsert_eq_ok.mp hcheck).1
  have hids : (h.registry.ids ++ [(⟨h.registry.next⟩ : FunctionId)]).Nodup := by
    refine List.nodup_append.mpr ⟨H.ids, List.pairwise_singleton _ _, fun id hid id' hid' heq => ?_⟩
    exact H.not_mem_ids (List.mem_singleton.mp hid' ▸ heq ▸ hid)
  have hnumbers :=
    H.numbers_grant (g := o.grant name symbol f ⟨h.registry.next⟩) rfl
  refine H.replace ho (o.push symbol _) rfl _ ?_ hnumbers ?_ ?_ ?_ fun rest hperm => ?_
  · rw [List.length_append]
    exact congrArg (· + 1) H.next
  · unfold Registry.ids Registry.register
    rwa [List.map_append]
  · intro e he
    rcases List.mem_append.mp he with he | he
    · obtain ⟨g, hg, heq⟩ := H.entries e he
      exact ⟨g, List.mem_append_left _ hg, heq⟩
    · exact ⟨_, List.mem_append_right _ List.mem_cons_self, List.mem_singleton.mp he⟩
  · refine ((H.objects name o ho).mono _).push hcheck fun id signature heq => ?_
    cases heq
    exact ⟨f, rfl, List.mem_append_right _ List.mem_cons_self⟩
  · have hholdings : (o.push symbol (.function ⟨h.registry.next⟩ f.signature)).holdings =
        o.holdings ++ [(⟨h.registry.next⟩, o.context)] := by
      unfold ImportObject.holdings
      rw [o.functionIds_push hdeleted, List.map_append]
      rfl
    unfold Registry.holdings Registry.register
    rw [List.map_append, hholdings, List.append_assoc]
    refine (hperm.append_right _).trans ?_
    rw [List.append_assoc]
    exact List.perm_append_comm.append_left _

/-- A symbol that is not a function is added to an object. -/
theorem offer (H : Holds h grants) {name symbol : String} {o : ImportObject} (s : Ware)
    (ho : (name, o) ∈ h.objects) (hcheck : o.checkInsert symbol = .ok ()) :
    Holds (h.putObject name (o.push symbol s)) grants := by
  have hdeleted := (ImportObject.checkInsert_eq_ok.mp hcheck).1
  refine H.alter ho (o.push symbol s) rfl rfl (List.Sublist.refl _) ?_ fun rest hperm => ?_
  · refine (H.objects name o ho).push hcheck fun id signature heq => ?_
    have hnone := s.2
    rw [heq] at hnone
    cases hnone
  · unfold ImportObject.holdings
    rw [o.functionIds_push hdeleted, s.2, Option.toList_none, List.append_nil]
    exact hperm

end Holds

namespace Deed

/-! ## Deeds one after the other -/

theorem run_create (name moduleName : String) (data : Option SharedData) (h : Host) :
    (create name moduleName data).perform.run h =
      match ImportObject.new moduleName (h.keepData data).1 with
      | .ok o => .ok () ((h.keepData data).2.keepObject name o)
      | .error e => .error e h := by
  have hrun : (create name moduleName data).perform.run h =
      (ofExcept (ImportObject.new moduleName (h.keepData data).1) >>= fun o =>
        set ((h.keepData data).2.keepObject name o)).run h := rfl
  rw [hrun]
  cases ImportObject.new moduleName (h.keepData data).1 <;> rfl

theorem run_onObject (name : String) (f : ImportObject → EStateM LinkError Host Unit) (h : Host) :
    (onObject name f).run h =
      match h.object? name with
      | some o => (f o).run h
      | none => .ok () h := by
  have hrun : (onObject name f).run h =
      EStateM.run (match h.object? name with | some o => f o | none => pure ()) h := rfl
  rw [hrun]
  cases h.object? name <;> rfl

/-- The host after a function has been added to an object. -/
def adding (h : Host) (name symbol : String) (f : HostFunction) (o : ImportObject) : Host :=
  { h with registry := (h.registry.register ⟨f.body, o.context⟩).2 }.putObject name
    (o.push symbol (.function ⟨h.registry.next⟩ f.signature))

theorem run_addFunction {name : String} {h : Host} {o : ImportObject}
    (ho : h.object? name = some o) (symbol : String) (f : HostFunction) :
    (addFunction name symbol f).perform.run h =
      match o.checkInsert symbol with
      | .ok _ => .ok () (adding h name symbol f o)
      | .error e => .error e h := by
  have hrun : (addFunction name symbol f).perform.run h =
      (ofExcept (o.addFunction h.registry symbol f) >>= fun r =>
        modify fun h => { h with registry := r.2 }.putObject name r.1).run h := by
    unfold perform
    rw [run_onObject, ho]
    rfl
  rw [hrun, o.addFunction_eq]
  cases o.checkInsert symbol <;> rfl

theorem run_addFunction_of_none {name : String} {h : Host} (ho : h.object? name = none)
    (symbol : String) (f : HostFunction) :
    (addFunction name symbol f).perform.run h = .ok () h := by
  unfold perform
  rw [run_onObject, ho]

theorem granted_addFunction {name : String} {h : Host} {o : ImportObject}
    (ho : h.object? name = some o) (symbol : String) (f : HostFunction) :
    (addFunction name symbol f).granted h =
      if (o.checkInsert symbol).isOk then
        [o.grant name symbol f ⟨h.registry.next⟩]
      else [] := by
  simp only [granted, ho]

theorem granted_addFunction_of_none {name : String} {h : Host} (ho : h.object? name = none)
    (symbol : String) (f : HostFunction) : (addFunction name symbol f).granted h = [] := by
  simp only [granted, ho]

theorem run_add_of_none {name : String} {h : Host} (ho : h.object? name = none) (symbol : String)
    (s : Ware) : (add name symbol s).perform.run h = .ok () h := by
  unfold perform
  rw [run_onObject, ho]

theorem run_add {name : String} {h : Host} {o : ImportObject} (ho : h.object? name = some o)
    (symbol : String) (s : Ware) :
    (add name symbol s).perform.run h =
      match o.checkInsert symbol with
      | .ok _ => .ok () (h.putObject name (o.push symbol s))
      | .error e => .error e h := by
  have hrun : (add name symbol s).perform.run h =
      (ofExcept (o.add symbol s) >>= fun o => modify fun h => h.putObject name o).run h := by
    unfold perform
    rw [run_onObject, ho]
  rw [hrun, o.add_eq]
  cases o.checkInsert symbol <;> rfl

end Deed

namespace Holds

variable {h : Host} {grants : List Grant}

theorem create (H : Holds h grants) (name moduleName : String) (data : Option SharedData) :
    Holds ((Deed.create name moduleName data).after h) grants := by
  have hrun := Deed.run_create name moduleName data h
  unfold ImportObject.new at hrun
  unfold Deed.after
  cases hempty : moduleName.isEmpty with
  | true =>
    rw [hempty] at hrun
    rw [ending_of_error hrun]
    exact H
  | false =>
    rw [hempty] at hrun
    rw [ending_of_ok hrun]
    cases data with
    | none => exact H.keep name rfl fun _ => nofun
    | some data =>
      -- The data is kept where there has been none.
      have hsize : h.contexts.size < (h.contexts.push data).size := by simp
      have hkept : Holds { h with contexts := h.contexts.push data } grants :=
        H.elsewhere rfl rfl (Nat.le_of_lt hsize)
      refine hkept.keep name rfl fun key hkey => ?_
      cases hkey
      refine ⟨hsize, fun name' p hp hpkey => ?_⟩
      exact Nat.lt_irrefl _ (H.contexts name' p _ hp hpkey)

theorem addFunction (H : Holds h grants) (name symbol : String) (f : HostFunction) :
    Holds ((Deed.addFunction name symbol f).after h)
      (grants ++ (Deed.addFunction name symbol f).granted h) := by
  unfold Deed.after
  cases hobject : h.object? name with
  | none =>
    rw [ending_of_ok (Deed.run_addFunction_of_none hobject symbol f),
      Deed.granted_addFunction_of_none hobject, List.append_nil]
    exact H
  | some o =>
    have hrun := Deed.run_addFunction hobject symbol f
    have hgranted := Deed.granted_addFunction hobject symbol f
    cases hcheck : o.checkInsert symbol with
    | error e =>
      rw [hcheck] at hrun hgranted
      rw [ending_of_error hrun, hgranted]
      exact (List.append_nil grants).symm ▸ H
    | ok =>
      rw [hcheck] at hrun hgranted
      rw [ending_of_ok hrun, hgranted]
      exact H.grant f (H.object?_eq_some.mp hobject) hcheck

theorem add (H : Holds h grants) (name symbol : String) (s : Ware) :
    Holds ((Deed.add name symbol s).after h) grants := by
  unfold Deed.after
  cases hobject : h.object? name with
  | none =>
    rw [ending_of_ok (Deed.run_add_of_none hobject symbol s)]
    exact H
  | some o =>
    have hrun := Deed.run_add hobject symbol s
    cases hcheck : o.checkInsert symbol with
    | error e =>
      rw [hcheck] at hrun
      rw [ending_of_error hrun]
      exact H
    | ok =>
      rw [hcheck] at hrun
      rw [ending_of_ok hrun]
      exact H.offer s (H.object?_eq_some.mp hobject) hcheck

theorem makeObject (H : Holds h grants) (moduleName : String) :
    Holds (h.makeObject moduleName).2 (grants ++ (Deed.make moduleName).granted h) := by
  have hgranted : (Deed.make moduleName).granted h =
      if moduleName.isEmpty then []
      else [⟨⟨h.registry.next⟩, none, moduleName, "f", echo, none⟩] := rfl
  rw [hgranted]
  unfold Host.makeObject ImportObject.new
  cases moduleName.isEmpty with
  | true => exact (List.append_nil grants).symm ▸ H
  | false => exact H.issue (g := ⟨⟨h.registry.next⟩, none, moduleName, "f", echo, none⟩) rfl

/-- **Every deed keeps to it.** -/
theorem perform (H : Holds h grants) (d : Deed) : Holds (d.after h) (grants ++ d.granted h) := by
  have silent : ∀ {h' : Host}, Holds h' grants → Holds h' (grants ++ []) :=
    fun H' => (List.append_nil grants).symm ▸ H'
  cases d with
  | create name moduleName data => exact silent (H.create name moduleName data)
  | createWasi name e =>
    have hkept : Holds (h.keepEnvironment e).2 grants := H.elsewhere rfl rfl (Nat.le_refl _)
    exact silent (hkept.keep name rfl fun _ => nofun)
  | addFunction name symbol f => exact H.addFunction name symbol f
  | add name symbol s => exact silent (H.add name symbol s)
  | delete name => exact silent (H.delete name)
  | drop name => exact silent (H.drop name)
  | make moduleName => exact H.makeObject moduleName

/-- No number is given out twice. -/
theorem eq_of_id (H : Holds h grants) {g g' : Grant} (hg : g ∈ grants) (hg' : g' ∈ grants)
    (hid : g.id = g'.id) : g = g' := by
  have hnodup : (grants.map fun g => g.id.val).Nodup := H.numbers ▸ List.nodup_range'
  exact List.inj_on_of_nodup_map hnodup hg hg' (congrArg FunctionId.val hid)

/-- The number of a symbol of an object is live. -/
theorem mem_holdings (H : Holds h grants) {name : String} {o : ImportObject}
    (ho : (name, o) ∈ h.objects) {id : FunctionId} (hid : id ∈ o.functionIds) :
    (id, o.context) ∈ h.registry.holdings :=
  H.holdings.mem_iff.mpr (List.mem_flatMap.mpr ⟨_, ho, List.mem_map_of_mem hid⟩)

/-- An object that is there owns its numbers, and each of them stands for what was added under its
symbol. -/
theorem lookup_eq_ok (H : Holds h grants) {name symbol : String} {o : ImportObject}
    (ho : (name, o) ∈ h.objects) {id : FunctionId} {signature : Signature}
    (hsymbol : (symbol, .function id signature) ∈ o.symbolList) :
    ∃ f : HostFunction, f.signature = signature ∧
      o.grant name symbol f id ∈ grants ∧
      h.registry.lookup id = .ok ⟨f.body, o.context⟩ := by
  obtain ⟨f, hsignature, hf⟩ := (H.objects name o ho).functions symbol id signature hsymbol
  refine ⟨f, hsignature, hf, Registry.lookup_eq_ok H.ids ?_⟩
  -- The number is live, and only one grant has it.
  have hid : id ∈ o.functionIds := List.mem_filterMap.mpr ⟨_, hsymbol, rfl⟩
  obtain ⟨e, he, heq⟩ := List.mem_map.mp (H.mem_holdings ho hid)
  obtain ⟨g, hg, rfl⟩ := H.entries e he
  rw [H.eq_of_id hg hf (congrArg Prod.fst heq)] at he
  exact he

/-- What objects hold that share other data. -/
theorem filter_holdings_eq_nil {l : List (String × ImportObject)} {key : ContextKey}
    (hnone : ∀ e ∈ l, e.2.context ≠ some key) :
    ((l.flatMap fun e => e.2.holdings).filter fun e => e.2 = some key) = [] := by
  rw [List.filter_flatMap, List.flatMap_eq_nil_iff]
  intro e he
  rw [e.2.filter_holdings, if_neg (hnone e he)]

/-- What the registry counts for some data is what its owner has. -/
theorem contextReferences_eq (H : Holds h grants) {name : String} {o : ImportObject}
    (ho : (name, o) ∈ h.objects) {key : ContextKey} (hkey : o.context = some key) :
    h.registry.contextReferences key = o.functionIds.length := by
  have hperm := H.perm_forget ho
  have hother : ∀ e ∈ (h.forget name).objects, e.2.context ≠ some key := by
    intro e he hekey
    have hapart := (hperm.filterMap fun e => e.2.context).nodup_iff.mp H.apart
    rw [List.filterMap_cons_some (f := fun e : String × ImportObject => e.2.context) hkey] at hapart
    exact (List.nodup_cons.mp hapart).1 (List.mem_filterMap.mpr ⟨e, he, hekey⟩)
  have hall := (H.holdings.trans (hperm.flatMap_right _)).filter fun e => e.2 = some key
  rw [List.flatMap_cons, List.filter_append, filter_holdings_eq_nil hother, List.append_nil,
    o.filter_holdings, if_pos hkey] at hall
  rw [h.registry.contextReferences_eq, hall.length_eq]
  exact List.length_map _

/-- Data is not referred to once its owner is gone. -/
theorem contextReferences_eq_zero (H : Holds h grants) {key : ContextKey}
    (hnone : ∀ e ∈ h.objects, e.2.context ≠ some key) :
    h.registry.contextReferences key = 0 := by
  have hall := H.holdings.filter fun e => e.2 = some key
  rw [filter_holdings_eq_nil hnone] at hall
  rw [h.registry.contextReferences_eq, hall.length_eq]
  rfl

end Holds

/-- A host that import objects have been made, changed and let go of on, with every number that has
been given out. -/
inductive Owned : Host → List Grant → Prop
  | new {h : Host} (hregistry : h.registry = {}) (hobjects : h.objects = []) : Owned h []
  | deed {h : Host} {grants : List Grant} (H : Owned h grants) (d : Deed) :
      Owned (d.after h) (grants ++ d.granted h)
  /-- Something else happens on the host. -/
  | elsewhere {h h' : Host} {grants : List Grant} (H : Owned h grants)
      (hregistry : h'.registry = h.registry) (hobjects : h'.objects = h.objects)
      (hcontexts : h.contexts.size ≤ h'.contexts.size) : Owned h' grants

theorem Owned.holds {h : Host} {grants : List Grant} (H : Owned h grants) : Holds h grants := by
  induction H with
  | @new h hregistry hobjects =>
    constructor
    · rw [hregistry]
      rfl
    · rfl
    · rw [hregistry]
      exact List.nodup_nil
    · rw [hregistry]
      exact fun _ => nofun
    · rw [hobjects]
      exact List.nodup_nil
    · rw [hobjects]
      exact fun _ _ => nofun
    · rw [hregistry, hobjects]
      exact List.Perm.refl _
    · rw [hobjects]
      exact List.nodup_nil
    · rw [hobjects]
      exact fun _ _ _ => nofun
  | deed H d ih => exact ih.perform d
  | elsewhere H hregistry hobjects hcontexts ih => exact ih.elsewhere hregistry hobjects hcontexts

/-- The object and the symbol that a deed adds to. -/
def Deed.target? : Deed → Option (String × String)
  | .addFunction name symbol _ => some (name, symbol)
  | .add name symbol _ => some (name, symbol)
  | _ => none

namespace Deed

theorem run_perform_eq_error {d : Deed} {h t : Host} {e : LinkError}
    (ht : d.perform.run h = .error e t) : t = h ∧ d.granted h = [] := by
  cases d with
  | create name moduleName data =>
    rw [run_create] at ht
    split at ht
    · cases ht
    · cases ht
      exact ⟨rfl, rfl⟩
  | addFunction name symbol f =>
    cases hobject : h.object? name with
    | none =>
      rw [run_addFunction_of_none hobject] at ht
      cases ht
    | some o =>
      rw [run_addFunction hobject] at ht
      rw [granted_addFunction hobject]
      cases hcheck : o.checkInsert symbol with
      | ok =>
        rw [hcheck] at ht
        cases ht
      | error e =>
        rw [hcheck] at ht
        cases ht
        exact ⟨rfl, rfl⟩
  | add name symbol s =>
    cases hobject : h.object? name with
    | none =>
      rw [run_add_of_none hobject] at ht
      cases ht
    | some o =>
      rw [run_add hobject] at ht
      cases hcheck : o.checkInsert symbol with
      | ok =>
        rw [hcheck] at ht
        cases ht
      | error e =>
        rw [hcheck] at ht
        cases ht
        exact ⟨rfl, rfl⟩
  | createWasi name e => cases ht
  | delete name => cases ht
  | drop name => cases ht
  | make moduleName => cases ht

/-- A deed that is refused leaves everything as it is, and gives no number out. -/
theorem after_of_refused {d : Deed} {h : Host} {e : LinkError}
    (he : outcome d.perform h = .error e) : d.after h = h ∧ d.granted h = [] := by
  cases hrun : d.perform.run h with
  | ok a t =>
    rw [outcome_of_ok hrun] at he
    cases he
  | error e t =>
    obtain ⟨rfl, hgranted⟩ := run_perform_eq_error hrun
    exact ⟨ending_of_error hrun, hgranted⟩

/-- What is added to an object is refused if the object may not have it. -/
theorem outcome_eq_ok_iff {d : Deed} {h : Host} {name symbol : String} {o : ImportObject}
    (hd : d.target? = some (name, symbol)) (ho : h.object? name = some o) :
    outcome d.perform h = .ok () ↔ o.checkInsert symbol = .ok () := by
  have checked : ∀ {x : EStateM LinkError Host Unit} {t : Host},
      x.run h = (match o.checkInsert symbol with
        | .ok _ => .ok () t
        | .error e => .error e h) → (outcome x h = .ok () ↔ o.checkInsert symbol = .ok ()) := by
    intro x t hrun
    unfold outcome
    rw [hrun]
    cases o.checkInsert symbol with
    | ok => exact iff_of_true rfl rfl
    | error e => exact iff_of_false nofun nofun
  cases d with
  | addFunction name' symbol' f =>
    cases hd
    exact checked (run_addFunction ho symbol f)
  | add name' symbol' s =>
    cases hd
    exact checked (run_add ho symbol s)
  | _ => cases hd

/-- What is added to an object is refused if the object has been deleted, if it is for the system
interface, and if the name is taken. -/
theorem refused_iff {d : Deed} {h : Host} {name symbol : String} {o : ImportObject}
    (hd : d.target? = some (name, symbol)) (ho : h.object? name = some o) :
    outcome d.perform h ≠ .ok () ↔
      o.isDeleted = true ∨ o.isWasi = true ∨ symbol ∈ o.symbolNames := by
  rw [Ne, outcome_eq_ok_iff hd ho, ImportObject.checkInsert_eq_ok, not_and_or, not_and_or, not_not,
    Bool.not_eq_false, Bool.not_eq_false]

end Deed

/-- **Every live number has one owner.**  However import objects are made, changed and let go of,
the live numbers are those of the objects that are there, and no two objects or symbols have one in
common.  Numbers are given out one by one, in ascending order, and never again.  The registry has
for each number what was added under its symbol, with the data of the object, and counts for some
data the functions of its owner, which are none once the owner has been deleted or is gone.  What
is refused changes nothing, and the names of an object's symbols stay apart. -/
theorem ownership {h : Host} {grants : List Grant} (H : Owned h grants) :
    (h.registry.ids.Perm (h.objects.flatMap fun e => e.2.functionIds) ∧
      (h.objects.flatMap fun e => e.2.functionIds).Nodup) ∧
    (grants.Pairwise (fun g g' => g.id.val < g'.id.val) ∧
      (∀ g ∈ grants, 1 ≤ g.id.val ∧ g.id.val ≤ grants.length) ∧
      ∀ d : Deed, ∀ g ∈ grants, ∀ g' ∈ d.granted h, g.id.val < g'.id.val) ∧
    (∀ name o symbol id signature, (name, o) ∈ h.objects →
      (symbol, .function id signature) ∈ o.symbolList →
      ∃ f : HostFunction, f.signature = signature ∧
        o.grant name symbol f id ∈ grants ∧
        h.registry.lookup id = .ok ⟨f.body, o.context⟩) ∧
    ((∀ name o key, (name, o) ∈ h.objects → o.context = some key →
        h.registry.contextReferences key = o.functionIds.length ∧
        (o.isDeleted = true → h.registry.contextReferences key = 0)) ∧
      ∀ key, (∀ e ∈ h.objects, e.2.context ≠ some key) → h.registry.contextReferences key = 0) ∧
    ((∀ (d : Deed) e, outcome d.perform h = .error e → d.after h = h ∧ d.granted h = []) ∧
      ∀ (d : Deed) name symbol o, d.target? = some (name, symbol) → h.object? name = some o →
        (outcome d.perform h ≠ .ok () ↔
          o.isDeleted = true ∨ o.isWasi = true ∨ symbol ∈ o.symbolNames)) ∧
    ∀ name o, (name, o) ∈ h.objects → o.symbolNames.Nodup := by
  have hholds := H.holds
  have hpairwise : ∀ {h grants}, Holds h grants →
      grants.Pairwise (fun g g' => g.id.val < g'.id.val) := by
    intro h grants hholds
    have hlt := List.pairwise_lt_range' (s := 1) (n := grants.length)
    rw [← hholds.numbers] at hlt
    exact List.pairwise_map.mp hlt
  have hids : h.registry.ids.Perm (h.objects.flatMap fun e => e.2.functionIds) := by
    have hmap := hholds.holdings.map Prod.fst
    rw [Registry.map_fst_holdings, List.map_flatMap] at hmap
    exact (funext fun e : String × ImportObject => e.2.map_fst_holdings) ▸ hmap
  refine ⟨⟨hids, hids.nodup_iff.mp hholds.ids⟩, ⟨hpairwise hholds, fun g hg => ?_, fun d => ?_⟩,
    fun name o symbol id signature ho => hholds.lookup_eq_ok ho,
    ⟨fun name o key ho hkey => ⟨hholds.contextReferences_eq ho hkey, fun hdeleted => ?_⟩,
      fun key => hholds.contextReferences_eq_zero⟩,
    ⟨fun d e => d.after_of_refused, fun d name symbol o => Deed.refused_iff⟩,
    fun name o ho => (hholds.objects name o ho).symbolNames⟩
  · have hmem : g.id.val ∈ List.range' 1 grants.length :=
      hholds.numbers ▸ List.mem_map_of_mem hg
    rw [List.mem_range'_1] at hmem
    omega
  · exact (List.pairwise_append.mp (hpairwise (hholds.perform d))).2.2
  · have hnone : o.symbols = none := Option.isNone_iff_eq_none.mp hdeleted
    have hids : o.functionIds = [] := by
      unfold ImportObject.functionIds ImportObject.symbolList
      rw [hnone]
      rfl
    rw [hholds.contextReferences_eq ho hkey, hids]
    rfl

/-- The host after deeds, one after the other. -/
def afterAll (h : Host) : List Deed → Host
  | [] => h
  | d :: ds => afterAll (d.after h) ds

/-- The numbers that deeds give out. -/
def grantedAll (h : Host) : List Deed → List Grant
  | [] => []
  | d :: ds => d.granted h ++ grantedAll (d.after h) ds

theorem Owned.deeds {h : Host} {grants : List Grant} (H : Owned h grants) (ds : List Deed) :
    Owned (afterAll h ds) (grants ++ grantedAll h ds) := by
  induction ds generalizing h grants with
  | nil => exact (List.append_nil grants).symm ▸ H
  | cons d ds ih =>
    have hrest := ih (H.deed d)
    rw [List.append_assoc] at hrest
    exact hrest

/-- Two objects with a function each, of which the first is deleted twice.  In between, a name is
taken and an object comes and goes. -/
def twoObjects : List Deed :=
  [.create "a" "env" (some (.counter 0)), .addFunction "a" "f" echo, .addFunction "a" "f" echo,
    .create "b" "env" none, .make "c", .addFunction "b" "f" echo, .delete "a", .delete "a"]

/-- Three numbers have been given out, and the second object keeps the last one. -/
theorem ownership_twoObjects :
    Owned (afterAll {} twoObjects) (grantedAll {} twoObjects) ∧
      (grantedAll {} twoObjects).map (fun g => g.id.val) = [1, 2, 3] ∧
      (afterAll {} twoObjects).registry.ids = [⟨3⟩] ∧
      (afterAll {} twoObjects).registry.ids.Perm
        ((afterAll {} twoObjects).objects.flatMap fun e => e.2.functionIds) := by
  have H : Owned (afterAll {} twoObjects) (grantedAll {} twoObjects) :=
    (Owned.new (h := {}) rfl rfl).deeds twoObjects
  exact ⟨H, by decide +kernel, by decide +kernel, (ownership H).1.1⟩

end Host

end WasmEmbedding
