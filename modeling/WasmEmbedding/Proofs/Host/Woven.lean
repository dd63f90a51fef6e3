import WasmEmbedding.Proofs.Engine.Effects
import WasmEmbedding.Proofs.Host.Renaming

/-! # Two hosts that are one

A host that two parties use looks to each of them like a host of its own.  What the party has done
is there under other numbers (`Mirrors`), and what the other party does makes no difference to it
(`Spares`).  A host is `Woven` from two if it mirrors both under numbers that are apart, for names
that are apart.  Whatever a party's host functions do on a host of its own, they do on the host that
it is woven into, and the other party sees nothing of it.

Files, the standard input and the count of stores are nobody's own (`Host.Surroundings`): both
parties find them as whoever was last there has left them.  What has been written to the other
standard streams makes no difference to anybody.
-/
namespace WasmEmbedding

open Host

namespace Host

/-- What is around a host. -/
structure Surroundings where
  files : Wasi.FileSystem
  /-- What is still to be read of the standard input. -/
  stdin : List (List UInt8)
  /-- How many stores have been made. -/
  stores : Nat

/-- What is around a host. -/
def surroundings (h : Host) : Surroundings := ⟨h.files, h.stdin, h.stores⟩

/-- The same host with something else around it. -/
def amid (h : Host) (s : Surroundings) : Host :=
  { h with files := s.files, stdin := s.stdin, stores := s.stores }

/-- Every known thing under its own number. -/
def Renaming.self (σ : Renaming) : Renaming where
  functions := ⟨σ.functions.known, fun a => a⟩
  contexts := ⟨σ.contexts.known, fun a => a⟩
  environments := ⟨σ.environments.known, fun a => a⟩

variable {names others : String → Prop} {σ τ : Renaming} {g k h : Host}

/-! ## What makes no difference -/

/-- A change of a host makes no difference to what is known under a renaming, and to the import
objects of some names. -/
structure Spares (names : String → Prop) (σ : Renaming) (h h' : Host) : Prop where
  next : h.registry.next ≤ h'.registry.next
  contexts : h.contexts.size ≤ h'.contexts.size
  environments : h.environments.size ≤ h'.environments.size
  fresh : h.registry.Fresh → h'.registry.Fresh
  lookup : ∀ id, σ.functions.known id.val →
    h'.registry.entries.lookup (σ.id id) = h.registry.entries.lookup (σ.id id)
  context? : ∀ key, σ.contexts.known key.val → h'.context? (σ.key key) = h.context? (σ.key key)
  environment? : ∀ key, σ.environments.known key.val →
    h'.environments[(σ.environment key).val]? = h.environments[(σ.environment key).val]?
  object? : ∀ name, names name → h'.object? name = h.object? name

namespace Spares

instance : IsPreorder Host (Spares names σ) where
  refl _ := ⟨Nat.le_refl _, Nat.le_refl _, Nat.le_refl _, fun h => h, fun _ _ => rfl,
    fun _ _ => rfl,
    fun _ _ => rfl, fun _ _ => rfl⟩
  trans _ _ _ h h' := {
    next := Nat.le_trans h.next h'.next
    contexts := Nat.le_trans h.contexts h'.contexts
    environments := Nat.le_trans h.environments h'.environments
    fresh := fun hf => h'.fresh (h.fresh hf)
    lookup := fun id hid => (h'.lookup id hid).trans (h.lookup id hid)
    context? := fun key hkey => (h'.context? key hkey).trans (h.context? key hkey)
    environment? := fun key hkey => (h'.environment? key hkey).trans (h.environment? key hkey)
    object? := fun name hname => (h'.object? name hname).trans (h.object? name hname) }

/-- A change of the registry. -/
theorem registry {r : Registry} (next : h.registry.next ≤ r.next)
    (fresh : h.registry.Fresh → r.Fresh)
    (lookup : ∀ id, σ.functions.known id.val →
      r.entries.lookup (σ.id id) = h.registry.entries.lookup (σ.id id)) :
    Spares names σ h { h with registry := r } :=
  ⟨next, Nat.le_refl _, Nat.le_refl _, fresh, lookup, fun _ _ => rfl, fun _ _ => rfl,
    fun _ _ => rfl⟩

/-- A change of the import objects. -/
theorem objects {objects : List (String × ImportObject)}
    (object? : ∀ name, names name → objects.lookup name = h.object? name) :
    Spares names σ h { h with objects } :=
  ⟨Nat.le_refl _, Nat.le_refl _, Nat.le_refl _, fun h => h, fun _ _ => rfl, fun _ _ => rfl,
    fun _ _ => rfl, object?⟩

/-- A change of shared data. -/
theorem shared {contexts : Array SharedData} (size : h.contexts.size ≤ contexts.size)
    (context? : ∀ key, σ.contexts.known key.val →
      contexts[(σ.key key).val]? = h.context? (σ.key key)) :
    Spares names σ h { h with contexts } :=
  ⟨Nat.le_refl _, size, Nat.le_refl _, fun h => h, fun _ _ => rfl, context?, fun _ _ => rfl,
    fun _ _ => rfl⟩

/-- A change of environments. -/
theorem given {environments : Array Wasi.Environment}
    (size : h.environments.size ≤ environments.size)
    (environment? : ∀ key, σ.environments.known key.val →
      environments[(σ.environment key).val]? = h.environments[(σ.environment key).val]?) :
    Spares names σ h { h with environments } :=
  ⟨Nat.le_refl _, Nat.le_refl _, size, fun h => h, fun _ _ => rfl, fun _ _ => rfl, environment?,
    fun _ _ => rfl⟩

theorem amid (s : Surroundings) : Spares names σ h (h.amid s) :=
  ⟨Nat.le_refl _, Nat.le_refl _, Nat.le_refl _, fun h => h, fun _ _ => rfl, fun _ _ => rfl,
    fun _ _ => rfl, fun _ _ => rfl⟩

theorem streams (stdout stderr : List UInt8) : Spares names σ h { h with stdout, stderr } :=
  ⟨Nat.le_refl _, Nat.le_refl _, Nat.le_refl _, fun h => h, fun _ _ => rfl, fun _ _ => rfl,
    fun _ _ => rfl, fun _ _ => rfl⟩

theorem note (text : String) : Spares names σ h (h.note text) :=
  ⟨Nat.le_refl _, Nat.le_refl _, Nat.le_refl _, fun h => h, fun _ _ => rfl, fun _ _ => rfl,
    fun _ _ => rfl, fun _ _ => rfl⟩

theorem forget {name : String} (hname : ¬ names name) : Spares names σ h (h.forget name) :=
  .objects fun other hother =>
    (object?_forget other).trans (if_neg fun heq : other = name => hname (heq ▸ hother))

theorem putObject {name : String} (hname : ¬ names name) (o : ImportObject) :
    Spares names σ h (h.putObject name o) :=
  .objects fun other hother =>
    (object?_putObject o other).trans (if_neg fun heq : other = name => hname (heq ▸ hother))

theorem register (hunder : ∀ a, σ.functions.known a → σ.functions.number a < h.registry.next)
    (entry : Registration) :
    Spares names σ h { h with registry := (h.registry.register entry).2 } :=
  .registry (Nat.le_succ _) (·.register entry) fun id hid =>
    Registry.lookup_register entry (Nat.ne_of_lt (hunder id.val hid))

theorem revokeAll {ids : List FunctionId}
    (hids : ∀ id, σ.functions.known id.val → σ.id id ∉ ids) :
    Spares names σ h { h with registry := h.registry.revokeAll ids } :=
  .registry (Nat.le_of_eq (Registry.next_revokeAll _ _).symm) (·.revokeAll ids) fun id hid =>
    (Registry.lookup_revokeAll ids _).trans (if_neg (hids id hid))

theorem setContext {key : ContextKey}
    (hkey : ∀ a, σ.contexts.known a → σ.contexts.number a ≠ key.val)
    (data : SharedData) : Spares names σ h (h.setContext key data) :=
  .shared (Nat.le_of_eq Array.size_setIfInBounds.symm) fun a ha =>
    Array.getElem?_setIfInBounds_ne (hkey a.val ha).symm

theorem setEnvironment {key : EnvironmentKey}
    (hkey : ∀ a, σ.environments.known a → σ.environments.number a ≠ key.val)
    (e : Wasi.Environment) : Spares names σ h (h.setEnvironment key e) :=
  .given (Nat.le_of_eq Array.size_setIfInBounds.symm) fun a ha =>
    Array.getElem?_setIfInBounds_ne (hkey a.val ha).symm

theorem keepContext (hunder : ∀ a, σ.contexts.known a → σ.contexts.number a < h.contexts.size)
    (data : SharedData) : Spares names σ h (h.keepContext data).2 :=
  .shared (Nat.le_of_lt (by simp)) fun a ha => Numbering.getElem?_push_of_lt (hunder a.val ha) data

theorem keepEnvironment
    (hunder : ∀ a, σ.environments.known a → σ.environments.number a < h.environments.size)
    (e : Wasi.Environment) : Spares names σ h (h.keepEnvironment e).2 :=
  .given (Nat.le_of_lt (by simp)) fun a ha => Numbering.getElem?_push_of_lt (hunder a.val ha) e

end Spares

/-- Whether an import object can be made depends on its module name. -/
theorem makeObject_eq (moduleName : String) : h.makeObject moduleName =
    if moduleName.isEmpty then (false, h)
    else (true, { h with registry :=
      (h.registry.register ⟨echo.body, none⟩).2.revokeAll [⟨h.registry.next⟩] }) := by
  unfold makeObject ImportObject.new
  by_cases hempty : moduleName.isEmpty
  · rw [if_pos hempty, if_pos hempty]
    rfl
  · rw [if_neg hempty, if_neg hempty]
    rfl

theorem Spares.makeObject
    (hunder : ∀ a, σ.functions.known a → σ.functions.number a < h.registry.next)
    (moduleName : String) : Spares names σ h (h.makeObject moduleName).2 := by
  rw [makeObject_eq]
  split
  · exact Std.Refl.refl h
  · refine IsTrans.trans _ _ _ (Spares.register hunder ⟨echo.body, none⟩)
      (.revokeAll fun id hid heq => ?_)
    have hval := congrArg FunctionId.val (List.mem_singleton.mp heq)
    exact Nat.ne_of_lt (hunder id.val hid) hval

/-! ## What a party has done -/

/-- What has been done on the host `g` is on the host `h` under other numbers, where import objects
go by the names of `names`. -/
structure Mirrors (names : String → Prop) (σ : Renaming) (g h : Host) : Prop where
  functions : σ.functions.Fits g.registry.next h.registry.next
  contexts : σ.contexts.Fits g.contexts.size h.contexts.size
  environments : σ.environments.Fits g.environments.size h.environments.size
  fresh : g.registry.Fresh ∧ h.registry.Fresh
  lookup : ∀ id, σ.functions.known id.val → h.registry.entries.lookup (σ.id id) =
    (g.registry.entries.lookup id).map (Registration.rename · σ)
  minds : ∀ id entry, σ.functions.known id.val → g.registry.entries.lookup id = some entry →
    entry.Minds names fun key => σ.contexts.known key.val
  context? : ∀ key, σ.contexts.known key.val → h.context? (σ.key key) = g.context? key
  environment? : ∀ key, σ.environments.known key.val →
    h.environments[(σ.environment key).val]? = g.environments[key.val]?
  object? : ∀ name, names name →
    h.object? name = (g.object? name).map (ImportObject.rename · σ)
  objects : ∀ e ∈ g.objects, e.2.Known σ

namespace Mirrors

variable (H : Mirrors names σ g h)

include H

/-- Changes that make no difference, on either side. -/
theorem spared {g' h' : Host} (hg : Spares names σ.self g g') (hh : Spares names σ h h')
    (hobjects : g'.objects = g.objects) : Mirrors names σ g' h' where
  functions := H.functions.mono hg.next hh.next
  contexts := H.contexts.mono hg.contexts hh.contexts
  environments := H.environments.mono hg.environments hh.environments
  fresh := ⟨hg.fresh H.fresh.1, hh.fresh H.fresh.2⟩
  lookup id hid := by
    rw [hh.lookup id hid, H.lookup id hid]
    exact congrArg (Option.map _) (hg.lookup id hid).symm
  minds id entry hid hentry := H.minds id entry hid ((hg.lookup id hid).symm.trans hentry)
  context? key hkey := by
    rw [hh.context? key hkey, H.context? key hkey]
    exact (hg.context? key hkey).symm
  environment? key hkey := by
    rw [hh.environment? key hkey, H.environment? key hkey]
    exact (hg.environment? key hkey).symm
  object? name hname := by
    have hsame : g'.object? name = g.object? name := congrArg (List.lookup name) hobjects
    rw [hh.object? name hname, H.object? name hname, hsame]
  objects := hobjects ▸ H.objects

/-- A known environment is what it is. -/
theorem environment {key : EnvironmentKey} (hkey : σ.environments.known key.val) :
    h.environment (σ.environment key) = g.environment key :=
  congrArg (·.getD .empty) (H.environment? key hkey)

theorem spares {h' : Host} (hh : Spares names σ h h') : Mirrors names σ g h' :=
  H.spared (Std.Refl.refl g) hh rfl

/-- Another object under a name. -/
theorem putObject (name : String) {o : ImportObject} (ho : o.Known σ) :
    Mirrors names σ (g.putObject name o) (h.putObject name (o.rename σ)) where
  functions := H.functions
  contexts := H.contexts
  environments := H.environments
  fresh := H.fresh
  lookup := H.lookup
  minds := H.minds
  context? := H.context?
  environment? := H.environment?
  object? other hother := by
    rw [object?_putObject, object?_putObject, H.object? other hother]
    split <;> rfl
  objects e he := by
    rcases List.mem_cons.mp he with rfl | he
    · exact ho
    · exact H.objects e (List.mem_of_mem_filter he)

/-- No object under a name. -/
theorem forget (name : String) : Mirrors names σ (g.forget name) (h.forget name) where
  functions := H.functions
  contexts := H.contexts
  environments := H.environments
  fresh := H.fresh
  lookup := H.lookup
  minds := H.minds
  context? := H.context?
  environment? := H.environment?
  object? other hother := by
    rw [object?_forget, object?_forget, H.object? other hother]
    split <;> rfl
  objects e he := H.objects e (List.mem_of_mem_filter he)

/-- A new number is taken back if the number is. -/
theorem mem_map_id {ids : List FunctionId} (hids : ∀ id ∈ ids, σ.functions.known id.val)
    {id : FunctionId} (hid : σ.functions.known id.val) : σ.id id ∈ ids.map σ.id ↔ id ∈ ids := by
  refine ⟨fun hmem => ?_, List.mem_map_of_mem⟩
  obtain ⟨a, ha, heq⟩ := List.mem_map.mp hmem
  have hval := H.functions.injective _ _ (hids a ha) hid (congrArg FunctionId.val heq)
  rwa [← show a = id from congrArg FunctionId.mk hval]

/-- Numbers are taken back. -/
theorem revokeAll {ids : List FunctionId} (hids : ∀ id ∈ ids, σ.functions.known id.val) :
    Mirrors names σ { g with registry := g.registry.revokeAll ids }
      { h with registry := h.registry.revokeAll (ids.map σ.id) } where
  functions := H.functions.mono (Nat.le_of_eq (Registry.next_revokeAll _ _).symm)
    (Nat.le_of_eq (Registry.next_revokeAll _ _).symm)
  contexts := H.contexts
  environments := H.environments
  fresh := ⟨H.fresh.1.revokeAll _, H.fresh.2.revokeAll _⟩
  lookup id hid := by
    change (h.registry.revokeAll _).entries.lookup _ =
      ((g.registry.revokeAll _).entries.lookup _).map _
    rw [Registry.lookup_revokeAll, Registry.lookup_revokeAll]
    by_cases hmem : id ∈ ids
    · rw [if_pos hmem, if_pos ((H.mem_map_id hids hid).mpr hmem)]
      rfl
    · rw [if_neg hmem, if_neg fun hmap => hmem ((H.mem_map_id hids hid).mp hmap)]
      exact H.lookup id hid
  minds id entry hid hentry := by
    change (g.registry.revokeAll _).entries.lookup _ = _ at hentry
    rw [Registry.lookup_revokeAll] at hentry
    split at hentry
    · cases hentry
    · exact H.minds id entry hid hentry
  context? := H.context?
  environment? := H.environment?
  object? := H.object?
  objects := H.objects

/-- An object that is there is known. -/
theorem known_of_object? {name : String} {o : ImportObject} (ho : g.object? name = some o) :
    o.Known σ :=
  H.objects _ (mem_of_lookup ho)

theorem setContext {key : ContextKey} (hkey : σ.contexts.known key.val) (data : SharedData) :
    Mirrors names σ (g.setContext key data) (h.setContext (σ.key key) data) where
  functions := H.functions
  contexts := H.contexts.mono (Nat.le_of_eq Array.size_setIfInBounds.symm)
    (Nat.le_of_eq Array.size_setIfInBounds.symm)
  environments := H.environments
  fresh := H.fresh
  lookup := H.lookup
  minds := H.minds
  context? other hother := H.contexts.getElem?_set hkey hother (H.context? other hother) data
  environment? := H.environment?
  object? := H.object?
  objects := H.objects

theorem setEnvironment {key : EnvironmentKey} (hkey : σ.environments.known key.val)
    (e : Wasi.Environment) :
    Mirrors names σ (g.setEnvironment key e) (h.setEnvironment (σ.environment key) e) where
  functions := H.functions
  contexts := H.contexts
  environments := H.environments.mono (Nat.le_of_eq Array.size_setIfInBounds.symm)
    (Nat.le_of_eq Array.size_setIfInBounds.symm)
  fresh := H.fresh
  lookup := H.lookup
  minds := H.minds
  context? := H.context?
  environment? other hother :=
    H.environments.getElem?_set hkey hother (H.environment? other hother) e
  object? := H.object?
  objects := H.objects

/-! ### What becomes known -/

/-- What is known stays under its numbers. -/
theorem lookup_of_grows (hgrows : σ.Grows τ) {id : FunctionId} (hid : σ.functions.known id.val) :
    h.registry.entries.lookup (τ.id id) =
      (g.registry.entries.lookup id).map (Registration.rename · τ) := by
  rw [hgrows.id hid, H.lookup id hid]
  exact Option.map_congr fun entry hentry =>
    (Registration.rename_of_grows hgrows (H.minds id entry hid hentry).context).symm

theorem object?_of_grows (hgrows : σ.Grows τ) {name : String} (hname : names name) :
    h.object? name = (g.object? name).map (ImportObject.rename · τ) := by
  rw [H.object? name hname]
  exact Option.map_congr fun o ho => ((H.known_of_object? ho).rename_of_grows hgrows).symm

theorem minds_of_grows (hgrows : σ.Grows τ) {id : FunctionId} {entry : Registration}
    (hid : σ.functions.known id.val) (hentry : g.registry.entries.lookup id = some entry) :
    entry.Minds names fun key => τ.contexts.known key.val :=
  ⟨(H.minds id entry hid hentry).body, fun key hkey =>
    (hgrows.contexts _ ((H.minds id entry hid hentry).context key hkey)).1⟩

theorem objects_of_grows (hgrows : σ.Grows τ) : ∀ e ∈ g.objects, e.2.Known τ :=
  fun e he => (H.objects e he).mono hgrows

/-- The next function goes by the next number. -/
theorem register {entry : Registration}
    (hentry : entry.Minds names fun key => σ.contexts.known key.val) :
    Mirrors names (σ.withFunction g.registry.next h.registry.next)
      { g with registry := (g.registry.register entry).2 }
      { h with registry := (h.registry.register (entry.rename σ)).2 } := by
  have hgrows := σ.grows_withFunction H.functions
  refine { H with functions := H.functions.extend, fresh := ⟨H.fresh.1.register _,
    H.fresh.2.register _⟩, lookup := ?_, minds := ?_, object? := ?_, objects := ?_ }
  · rintro ⟨id⟩ (hid | rfl)
    · have hnew : (σ.id ⟨id⟩).val ≠ h.registry.next := Nat.ne_of_lt (H.functions.under id hid)
      change (h.registry.register _).2.entries.lookup _ =
        ((g.registry.register _).2.entries.lookup _).map _
      rw [Registry.lookup_register _ (Nat.ne_of_lt (H.functions.below id hid)), hgrows.id hid,
        Registry.lookup_register _ hnew]
      exact H.lookup ⟨id⟩ hid
    · have hnew : (σ.withFunction g.registry.next h.registry.next).id ⟨g.registry.next⟩ =
          ⟨h.registry.next⟩ := congrArg FunctionId.mk Numbering.number_extend
      rw [hnew]
      change (h.registry.register _).2.entries.lookup _ =
        ((g.registry.register _).2.entries.lookup _).map _
      rw [H.fresh.1.lookup_register_next, H.fresh.2.lookup_register_next]
      rfl
  · rintro ⟨id⟩ other (hid | rfl) hother
    · change (g.registry.register _).2.entries.lookup _ = _ at hother
      rw [Registry.lookup_register _ (Nat.ne_of_lt (H.functions.below id hid))] at hother
      exact H.minds ⟨id⟩ other hid hother
    · change (g.registry.register _).2.entries.lookup _ = _ at hother
      rw [H.fresh.1.lookup_register_next] at hother
      cases hother
      exact hentry
  · exact fun name hname => H.object?_of_grows hgrows hname
  · exact H.objects_of_grows hgrows

/-- The next shared data is kept at the next place. -/
theorem keepContext (data : SharedData) :
    Mirrors names (σ.withContext g.contexts.size h.contexts.size) (g.keepContext data).2
      (h.keepContext data).2 := by
  have hgrows := σ.grows_withContext H.contexts
  refine { H with contexts := ?_, lookup := ?_, minds := ?_, context? := ?_, object? := ?_,
                  objects := ?_ }
  · change (σ.contexts.extend _ _).Fits (g.contexts.push data).size (h.contexts.push data).size
    rw [Array.size_push, Array.size_push]
    exact H.contexts.extend
  · exact fun id hid => H.lookup_of_grows hgrows hid
  · exact fun id entry hid hentry => H.minds_of_grows hgrows hid hentry
  · exact fun key hkey => H.contexts.getElem?_push hkey (fun h => H.context? key h) data
  · exact fun name hname => H.object?_of_grows hgrows hname
  · exact H.objects_of_grows hgrows

/-- The next environment is kept at the next place. -/
theorem keepEnvironment (e : Wasi.Environment) :
    Mirrors names (σ.withEnvironment g.environments.size h.environments.size)
      (g.keepEnvironment e).2 (h.keepEnvironment e).2 := by
  have hgrows := σ.grows_withEnvironment H.environments
  refine { H with environments := ?_, environment? := ?_, object? := ?_, objects := ?_ }
  · change (σ.environments.extend _ _).Fits (g.environments.push e).size
      (h.environments.push e).size
    rw [Array.size_push, Array.size_push]
    exact H.environments.extend
  · exact fun key hkey => H.environments.getElem?_push hkey (fun h => H.environment? key h) e
  · exact fun name hname => H.object?_of_grows hgrows hname
  · exact H.objects_of_grows hgrows

end Mirrors

/-! ## Two parties -/

@[simp] theorem surroundings_makeObject (moduleName : String) :
    (h.makeObject moduleName).2.surroundings = h.surroundings := by
  unfold makeObject
  split <;> rfl

/-- A host that is one with `g` for a party that uses the names of `names`, and with `k` for
another. -/
structure Woven (names others : String → Prop) (σ τ : Renaming) (k g h : Host) : Prop where
  own : Mirrors names σ g h
  rest : Mirrors others τ k h
  apart : σ.Apart τ
  disjoint : ∀ name, names name → ¬ others name
  surroundings : h.surroundings = g.surroundings

namespace Woven

/-- The other party's view. -/
theorem swap (H : Woven names others σ τ k g h) (hk : h.surroundings = k.surroundings) :
    Woven others names τ σ g k h :=
  ⟨H.rest, H.own, H.apart.symm, fun name hother hname => H.disjoint name hname hother, hk⟩

variable (H : Woven names others σ τ k g h)

include H

theorem note (text : String) : Woven names others σ τ k (g.note text) (h.note text) :=
  { H with
    own := H.own.spared (.note text) (.note text) rfl
    rest := H.rest.spares (.note text) }

/-- Something else around both hosts. -/
theorem amid (s : Surroundings) : Woven names others σ τ k (g.amid s) (h.amid s) :=
  { H with
    own := H.own.spared (.amid s) (.amid s) rfl
    rest := H.rest.spares (.amid s)
    surroundings := rfl }

theorem newStore : h.newStore.1 = g.newStore.1 ∧
    Woven names others σ τ k g.newStore.2 h.newStore.2 := by
  have hstores : h.stores = g.stores := congrArg Surroundings.stores H.surroundings
  have hwoven := H.amid { g.surroundings with stores := g.stores + 1 }
  refine ⟨congrArg StoreId.mk hstores, ?_⟩
  have hsame : h.newStore.2 = h.amid { g.surroundings with stores := g.stores + 1 } := by
    rw [← H.surroundings, ← hstores]
    rfl
  rw [hsame]
  exact hwoven

/-- Other files and another input on both hosts. -/
theorem withInput (files : Wasi.FileSystem) (stdin : List (List UInt8)) :
    Woven names others σ τ k { g with files, stdin } { h with files, stdin } := by
  have hstores : h.stores = g.stores := congrArg Surroundings.stores H.surroundings
  have hsame : h.amid ⟨files, stdin, g.stores⟩ = { h with files, stdin } := by
    rw [← hstores]
    rfl
  exact hsame ▸ H.amid ⟨files, stdin, g.stores⟩

/-- Other files on both hosts. -/
theorem withFiles (files : Wasi.FileSystem) :
    Woven names others σ τ k { g with files } { h with files } := by
  have hstdin : h.stdin = g.stdin := congrArg Surroundings.stdin H.surroundings
  have hsame : { h with files, stdin := g.stdin } = { h with files } := by rw [← hstdin]
  exact hsame ▸ H.withInput files g.stdin

/-- Whatever has been written to the streams of either host. -/
theorem streams (stdout stderr stdout' stderr' : List UInt8) :
    Woven names others σ τ k { g with stdout, stderr }
      { h with stdout := stdout', stderr := stderr' } :=
  { H with
    own := H.own.spared (.streams stdout stderr) (.streams stdout' stderr') rfl
    rest := H.rest.spares (.streams stdout' stderr')
    surroundings := H.surroundings }

theorem setContext {key : ContextKey} (hkey : σ.contexts.known key.val) (data : SharedData) :
    Woven names others σ τ k (g.setContext key data) (h.setContext (σ.key key) data) :=
  { H with
    own := H.own.setContext hkey data
    rest := H.rest.spares (.setContext (fun a ha => (H.apart.contexts _ a hkey ha).symm) data)
    surroundings := H.surroundings }

theorem setEnvironment {key : EnvironmentKey} (hkey : σ.environments.known key.val)
    (e : Wasi.Environment) : Woven names others σ τ k (g.setEnvironment key e)
      (h.setEnvironment (σ.environment key) e) :=
  { H with
    own := H.own.setEnvironment hkey e
    rest := H.rest.spares
      (.setEnvironment (fun a ha => (H.apart.environments _ a hkey ha).symm) e)
    surroundings := H.surroundings }

/-- Another object under a name. -/
theorem putObject {name : String} (hname : names name) {o : ImportObject} (ho : o.Known σ) :
    Woven names others σ τ k (g.putObject name o) (h.putObject name (o.rename σ)) :=
  { H with
    own := H.own.putObject name ho
    rest := H.rest.spares (.putObject (H.disjoint name hname) _)
    surroundings := H.surroundings }

/-- No object under a name. -/
theorem forget {name : String} (hname : names name) :
    Woven names others σ τ k (g.forget name) (h.forget name) :=
  { H with
    own := H.own.forget name
    rest := H.rest.spares (.forget (H.disjoint name hname))
    surroundings := H.surroundings }

/-- Numbers of one party are none of the other's. -/
theorem not_mem_map_id {ids : List FunctionId} (hids : ∀ id ∈ ids, σ.functions.known id.val)
    {id : FunctionId} (hid : τ.functions.known id.val) : τ.id id ∉ ids.map σ.id := by
  intro hmem
  obtain ⟨a, ha, heq⟩ := List.mem_map.mp hmem
  exact H.apart.functions _ _ (hids a ha) hid (congrArg FunctionId.val heq)

theorem revokeAll {ids : List FunctionId} (hids : ∀ id ∈ ids, σ.functions.known id.val) :
    Woven names others σ τ k { g with registry := g.registry.revokeAll ids }
      { h with registry := h.registry.revokeAll (ids.map σ.id) } :=
  { H with
    own := H.own.revokeAll hids
    rest := H.rest.spares (.revokeAll fun _ hid => H.not_mem_map_id hids hid)
    surroundings := H.surroundings }

theorem deleteObject {name : String} (hname : names name) :
    Woven names others σ τ k (g.deleteObject name) (h.deleteObject name) := by
  have hobject := H.own.object? name hname
  unfold Host.deleteObject
  cases ho : g.object? name with
  | none =>
    rw [ho] at hobject
    rw [hobject]
    exact H
  | some o =>
    rw [ho] at hobject
    rw [hobject]
    have known := H.own.known_of_object? ho
    have hdeleted := (H.revokeAll known.functions).putObject hname known.deleted
    rw [← ImportObject.functionIds_rename] at hdeleted
    exact hdeleted

theorem dropObject {name : String} (hname : names name) :
    Woven names others σ τ k (g.dropObject name) (h.dropObject name) :=
  (H.deleteObject hname).forget hname

/-- Lets go of the object under a name for another one. -/
theorem keepObject {name : String} (hname : names name) {o : ImportObject} (ho : o.Known σ) :
    Woven names others σ τ k (g.keepObject name o) (h.keepObject name (o.rename σ)) :=
  (H.dropObject hname).putObject hname ho

theorem makeObject (moduleName : String) :
    (h.makeObject moduleName).1 = (g.makeObject moduleName).1 ∧
      Woven names others σ τ k (g.makeObject moduleName).2 (h.makeObject moduleName).2 := by
  refine ⟨?_, { H with own := ?_, rest := ?_, surroundings := ?_ }⟩
  · rw [makeObject_eq, makeObject_eq]
    split <;> rfl
  · refine H.own.spared (.makeObject H.own.functions.below _)
      (.makeObject H.own.functions.under _) ?_
    unfold Host.makeObject
    split <;> rfl
  · exact H.rest.spares (.makeObject H.rest.functions.under _)
  · rw [surroundings_makeObject, surroundings_makeObject]
    exact H.surroundings

/-! ### What becomes known -/

/-- The next function of a party. -/
theorem register {entry : Registration}
    (hentry : entry.Minds names fun key => σ.contexts.known key.val) :
    Woven names others (σ.withFunction g.registry.next h.registry.next) τ k
      { g with registry := (g.registry.register entry).2 }
      { h with registry := (h.registry.register (entry.rename σ)).2 } :=
  { H with
    own := H.own.register hentry
    rest := H.rest.spares (.register H.rest.functions.under _)
    apart := { H.apart with
      functions := H.own.functions.apart_extend H.rest.functions H.apart.functions } }

/-- The next shared data of a party. -/
theorem keepContext (data : SharedData) :
    Woven names others (σ.withContext g.contexts.size h.contexts.size) τ k (g.keepContext data).2
      (h.keepContext data).2 :=
  { H with
    own := H.own.keepContext data
    rest := H.rest.spares (.keepContext H.rest.contexts.under data)
    apart := { H.apart with
      contexts := H.own.contexts.apart_extend H.rest.contexts H.apart.contexts } }

/-- The next environment of a party. -/
theorem keepEnvironment (e : Wasi.Environment) :
    Woven names others (σ.withEnvironment g.environments.size h.environments.size) τ k
      (g.keepEnvironment e).2 (h.keepEnvironment e).2 :=
  { H with
    own := H.own.keepEnvironment e
    rest := H.rest.spares (.keepEnvironment H.rest.environments.under e)
    apart := { H.apart with
      environments :=
        H.own.environments.apart_extend H.rest.environments H.apart.environments } }

end Woven

/-! ## Deeds -/

/-- A deed is about import objects of some names, and so are the functions that it adds. -/
def Deed.Of (names : String → Prop) : Deed → Prop
  | .create name _ _ => names name
  | .createWasi name _ => names name
  | .addFunction name _ f => names name ∧ ∀ args, (f.body args).Minds names
  | .add name _ _ => names name
  | .delete name => names name
  | .drop name => names name
  | .make _ => True

/-- A host is woven into another one, and its party has come to know more. -/
def Grown (names others : String → Prop) (σ τ : Renaming) (k g h : Host) : Prop :=
  ∃ ρ, σ.Grows ρ ∧ Woven names others ρ τ k g h

namespace Woven

variable (H : Woven names others σ τ k g h)

include H

theorem grown : Grown names others σ τ k g h := ⟨σ, Std.Refl.refl σ, H⟩

/-- The object for which data has been kept, and the place that it has on the other host. -/
theorem keepData (data : Option SharedData) :
    ∃ ρ, σ.Grows ρ ∧ Woven names others ρ τ k (g.keepData data).2 (h.keepData data).2 ∧
      (∀ key, (g.keepData data).1 = some key → ρ.contexts.known key.val) ∧
      (h.keepData data).1 = (g.keepData data).1.map ρ.key := by
  cases data with
  | none => exact ⟨σ, Std.Refl.refl σ, H, nofun, rfl⟩
  | some data =>
    refine ⟨_, σ.grows_withContext H.own.contexts, H.keepContext data, ?_, ?_⟩
    · rintro _ ⟨⟩
      exact Numbering.known_extend
    · exact (congrArg (fun n => some (ContextKey.mk n)) Numbering.number_extend).symm

/-- **A party that makes an object for the system interface** comes to know where the environment
is kept. -/
theorem newWasiObject (e : Wasi.Environment) :
    ∃ ρ, σ.Grows ρ ∧ Woven names others ρ τ k (g.newWasiObject e).2 (h.newWasiObject e).2 ∧
      (g.newWasiObject e).1.Known ρ ∧ (h.newWasiObject e).1 = (g.newWasiObject e).1.rename ρ := by
  refine ⟨_, σ.grows_withEnvironment H.own.environments, H.keepEnvironment e, ⟨nofun, nofun, ?_⟩,
    ?_⟩
  · rintro _ ⟨⟩
    exact Numbering.known_extend
  · exact (congrArg (fun n => ImportObject.wasi ⟨n⟩) Numbering.number_extend).symm

theorem create {name : String} (hname : names name) (moduleName : String)
    (data : Option SharedData) :
    Tally (Grown names others σ τ k) Eq Eq ((Deed.create name moduleName data).perform.run g)
      ((Deed.create name moduleName data).perform.run h) := by
  obtain ⟨ρ, hgrows, hosts, hkey, hcontext⟩ := H.keepData data
  rw [Deed.run_create, Deed.run_create, hcontext]
  unfold ImportObject.new
  by_cases hempty : moduleName.isEmpty
  · rw [if_pos hempty, if_pos hempty]
    exact .error rfl H.grown
  · rw [if_neg hempty, if_neg hempty]
    have known : ImportObject.Known ⟨moduleName, some [], (g.keepData data).1, none⟩ ρ :=
      ⟨nofun, hkey, nofun⟩
    exact .ok rfl ⟨ρ, hgrows, hosts.keepObject hname known⟩

/-- The next function of an object goes by the next number. -/
theorem adding {name : String} (hname : names name) {o : ImportObject} (ho : o.Known σ)
    {f : HostFunction} (hf : ∀ args, (f.body args).Minds names) (symbol : String) :
    Grown names others σ τ k (Deed.adding g name symbol f o)
      (Deed.adding h name symbol f (o.rename σ)) := by
  have hgrows := σ.grows_withFunction H.own.functions
  have hentry : Registration.Minds names (fun key => σ.contexts.known key.val)
      ⟨f.body, o.context⟩ := ⟨hf, ho.context⟩
  have known : (o.push symbol (.function ⟨g.registry.next⟩ f.signature)).Known
      (σ.withFunction g.registry.next h.registry.next) :=
    (ho.mono hgrows).push fun id hid => by
      cases hid
      exact Numbering.known_extend
  have hput := (H.register hentry).putObject hname known
  have hnumber : (σ.withFunction g.registry.next h.registry.next).id ⟨g.registry.next⟩ =
      ⟨h.registry.next⟩ := congrArg FunctionId.mk Numbering.number_extend
  rw [ImportObject.push_rename, ho.rename_of_grows hgrows, Symbol.rename, hnumber] at hput
  exact ⟨_, hgrows, hput⟩

theorem addFunction {name : String} (hname : names name) (symbol : String) {f : HostFunction}
    (hf : ∀ args, (f.body args).Minds names) :
    Tally (Grown names others σ τ k) Eq Eq ((Deed.addFunction name symbol f).perform.run g)
      ((Deed.addFunction name symbol f).perform.run h) := by
  have hobject := H.own.object? name hname
  cases ho : g.object? name with
  | none =>
    rw [ho] at hobject
    rw [Deed.run_addFunction_of_none ho, Deed.run_addFunction_of_none hobject]
    exact .ok rfl H.grown
  | some o =>
    rw [ho] at hobject
    rw [Deed.run_addFunction ho, Deed.run_addFunction hobject, ImportObject.checkInsert_rename]
    cases o.checkInsert symbol with
    | error e => exact .error rfl H.grown
    | ok => exact .ok rfl (H.adding hname (H.own.known_of_object? ho) hf symbol)

theorem add {name : String} (hname : names name) (symbol : String) (s : Ware) :
    Tally (Grown names others σ τ k) Eq Eq ((Deed.add name symbol s).perform.run g)
      ((Deed.add name symbol s).perform.run h) := by
  have hobject := H.own.object? name hname
  cases ho : g.object? name with
  | none =>
    rw [ho] at hobject
    rw [Deed.run_add_of_none ho, Deed.run_add_of_none hobject]
    exact .ok rfl H.grown
  | some o =>
    rw [ho] at hobject
    rw [Deed.run_add ho, Deed.run_add hobject, ImportObject.checkInsert_rename]
    cases o.checkInsert symbol with
    | error e => exact .error rfl H.grown
    | ok =>
      have known : (o.push symbol s).Known σ := (H.own.known_of_object? ho).push fun id hid =>
        nomatch s.property.symm.trans hid
      have hput := H.putObject hname known
      have hware : (s : Symbol).rename σ = s := by
        obtain ⟨s, hs⟩ := s
        cases s with
        | function => cases hs
        | table | memory | global => rfl
      rw [ImportObject.push_rename, hware] at hput
      exact .ok rfl hput.grown

/-- **What a party does with its import objects comes to the same on both hosts.** -/
theorem deed {d : Deed} (hd : d.Of names) :
    Tally (Grown names others σ τ k) Eq Eq (d.perform.run g) (d.perform.run h) := by
  cases d with
  | create name moduleName data => exact H.create hd moduleName data
  | createWasi name e =>
    obtain ⟨ρ, hgrows, hosts, known, hobject⟩ := H.newWasiObject e
    have hkeep := hosts.keepObject hd known
    rw [← hobject] at hkeep
    exact .ok rfl ⟨ρ, hgrows, hkeep⟩
  | addFunction name symbol f => exact H.addFunction hd.1 symbol hd.2
  | add name symbol s => exact H.add hd symbol s
  | delete name => exact .ok rfl (H.deleteObject hd).grown
  | drop name => exact .ok rfl (H.dropObject hd).grown
  | make moduleName => exact .ok rfl (H.makeObject moduleName).2.grown

end Woven

end Host

end WasmEmbedding
