import WasmEmbedding.Proofs.Host.Ownership

/-! # Revocation

A host leads to another one by deeds and by what is not about import objects (`Proceeds`).  An
object `Offers` a number as long as it is there and owns it: a deed that lets go of the object
ends that, and nothing brings it back (`Holds.offers_after`, `Holds.offers_iff_not_released`).  The
registry resolves a number exactly as long as its object offers it (`Holds.lookup_of_offers`,
`Holds.lookup_of_not_offers`).
-/
namespace WasmEmbedding.Host

/-! ## Hosts, one after the other -/

/-- The second host comes from the first, on which the grants have been made since. -/
inductive Proceeds (h : Host) : List Grant → Host → Prop
  | refl : Proceeds h [] h
  | deed {t : Host} {more : List Grant} (H : Proceeds h more t) (d : Deed) :
      Proceeds h (more ++ d.granted t) (d.after t)
  /-- Something else happens on the host. -/
  | elsewhere {t t' : Host} {more : List Grant} (H : Proceeds h more t)
      (hregistry : t'.registry = t.registry) (hobjects : t'.objects = t.objects)
      (hcontexts : t.contexts.size ≤ t'.contexts.size) : Proceeds h more t'

theorem Proceeds.trans {h t u : Host} {more later : List Grant} (H : Proceeds h more t)
    (H' : Proceeds t later u) : Proceeds h (more ++ later) u := by
  induction H' with
  | refl =>
    rw [List.append_nil]
    exact H
  | deed _ d ih =>
    rw [← List.append_assoc]
    exact ih.deed d
  | elsewhere _ hregistry hobjects hcontexts ih => exact ih.elsewhere hregistry hobjects hcontexts

theorem Owned.proceeds {h t : Host} {grants more : List Grant} (H : Owned h grants)
    (hp : Proceeds h more t) : Owned t (grants ++ more) := by
  induction hp with
  | refl =>
    rw [List.append_nil]
    exact H
  | deed _ d ih =>
    rw [← List.append_assoc]
    exact ih.deed d
  | elsewhere _ hregistry hobjects hcontexts ih => exact ih.elsewhere hregistry hobjects hcontexts

/-- The second host comes from the first. -/
def Leads (h t : Host) : Prop := ∃ more, Proceeds h more t

instance : IsPreorder Host Leads where
  refl _ := ⟨[], .refl⟩
  trans _ _ _ := fun ⟨_, h⟩ ⟨_, h'⟩ => ⟨_, h.trans h'⟩

theorem Leads.deed (h : Host) (d : Deed) : Leads h (d.after h) := ⟨_, Proceeds.refl.deed d⟩

/-- What is not about import objects may change. -/
theorem Leads.elsewhere {h t : Host} (hregistry : t.registry = h.registry)
    (hobjects : t.objects = h.objects) (hcontexts : h.contexts.size ≤ t.contexts.size) :
    Leads h t :=
  ⟨_, Proceeds.refl.elsewhere hregistry hobjects hcontexts⟩

/-- Each of the hosts comes from the one before it, between the first and the last. -/
inductive Along : Host → List Host → Host → Prop
  | last {h t : Host} (H : Leads h t) : Along h [] t
  | next {h h' t : Host} {hs : List Host} (H : Leads h h') (rest : Along h' hs t) :
      Along h (h' :: hs) t

namespace Along

variable {h h' t u : Host} {hs later : List Host}

theorem after (H : Leads h h') (rest : Along h' hs t) : Along h hs t := by
  cases rest with
  | last H' => exact .last (IsTrans.trans _ _ _ H H')
  | next H' rest => exact .next (IsTrans.trans _ _ _ H H') rest

protected theorem append (H : Along h hs t) (H' : Along t later u) : Along h (hs ++ later) u := by
  induction H with
  | last H => exact H'.after H
  | next H _ ih => exact .next H (ih H')

theorem leads (H : Along h hs t) : Leads h t := by
  induction H with
  | last H => exact H
  | next H _ ih => exact IsTrans.trans _ _ _ H ih

/-- Whatever lies on the way comes from the first host. -/
theorem leads_of_mem (H : Along h hs t) {v : Host} (hv : v ∈ hs) : Leads h v := by
  induction H with
  | last => cases hv
  | next H _ ih =>
    rcases List.mem_cons.mp hv with rfl | hv
    · exact H
    · exact IsTrans.trans _ _ _ H (ih hv)

end Along

/-! ## What an object offers -/

/-- The object under a name is there, and the number is one of its functions. -/
def Offers (h : Host) (name : String) (id : FunctionId) : Prop :=
  ∃ o, (name, o) ∈ h.objects ∧ id ∈ o.functionIds

/-- A deed deletes the object under a name, or lets go of it. -/
def Deed.releases (name : String) : Deed → Bool
  | .create other moduleName _ => other = name && !moduleName.isEmpty
  | .createWasi other _ => other = name
  | .delete other => other = name
  | .drop other => other = name
  | _ => false

/-- On the way from one host to the other, the object under a name has been deleted or let go of. -/
def Released (h : Host) (name : String) (t : Host) : Prop :=
  ∃ (u : Host) (d : Deed), Leads h u ∧ d.releases name = true ∧ Leads (d.after u) t

theorem Released.after {h t u : Host} {name : String} (H : h.Released name t) (htu : Leads t u) :
    h.Released name u := by
  obtain ⟨v, d, hv, hreleases, ht⟩ := H
  exact ⟨v, d, hv, hreleases, IsTrans.trans _ _ _ ht htu⟩

theorem ImportObject.mem_functionIds {o : ImportObject} {id : FunctionId} :
    id ∈ o.functionIds ↔ ∃ symbol signature, (symbol, .function id signature) ∈ o.symbolList := by
  constructor
  · intro hid
    obtain ⟨⟨symbol, s⟩, hmem, hs⟩ := List.mem_filterMap.mp hid
    cases s with
    | function id' signature =>
      cases hs
      exact ⟨symbol, signature, hmem⟩
    | _ => cases hs
  · rintro ⟨symbol, signature, hmem⟩
    exact List.mem_filterMap.mpr ⟨_, hmem, rfl⟩

section Offers

variable {h : Host} {name other : String} {id : FunctionId} {o : ImportObject}

theorem offers_of_objects {t : Host} (hobjects : t.objects = h.objects) :
    t.Offers name id ↔ h.Offers name id := by
  unfold Offers
  rw [hobjects]

theorem offers_forget : (h.forget other).Offers name id ↔ other ≠ name ∧ h.Offers name id := by
  constructor
  · rintro ⟨o, ho, hid⟩
    obtain ⟨hmem, hne⟩ := List.mem_filter.mp ho
    exact ⟨fun heq => of_decide_eq_true hne heq.symm, o, hmem, hid⟩
  · rintro ⟨hne, o, ho, hid⟩
    exact ⟨o, List.mem_filter.mpr ⟨ho, decide_eq_true fun heq => hne heq.symm⟩, hid⟩

theorem offers_putObject :
    (h.putObject other o).Offers name id ↔
      if other = name then id ∈ o.functionIds else h.Offers name id := by
  split
  · rename_i heq
    constructor
    · rintro ⟨p, hp, hid⟩
      rcases List.mem_cons.mp hp with hpo | hp
      · cases hpo
        exact hid
      · have hmem : name ∈ (h.forget other).objects.map Prod.fst := List.mem_map_of_mem hp
        exact absurd hmem (heq ▸ Holds.not_mem_forget other)
    · exact fun hid => ⟨o, heq ▸ List.mem_cons_self, hid⟩
  · rename_i hne
    constructor
    · rintro ⟨p, hp, hid⟩
      rcases List.mem_cons.mp hp with hpo | hp
      · cases hpo
        exact absurd rfl hne
      · exact ⟨p, List.mem_of_mem_filter hp, hid⟩
    · rintro ⟨p, hp, hid⟩
      refine ⟨p, List.mem_cons_of_mem _ (List.mem_filter.mpr ⟨hp, ?_⟩), hid⟩
      exact decide_eq_true fun heq => hne heq.symm

theorem offers_deleteObject :
    (h.deleteObject other).Offers name id ↔ other ≠ name ∧ h.Offers name id := by
  unfold deleteObject
  cases hobject : h.object? other with
  | none =>
    refine ⟨fun hoffers => ⟨?_, hoffers⟩, And.right⟩
    rintro rfl
    obtain ⟨o, ho, -⟩ := hoffers
    exact absurd rfl (bne_iff_ne.mp (List.lookup_eq_none_iff.mp hobject _ ho))
  | some o =>
    dsimp only
    rw [offers_putObject]
    split
    · rename_i heq
      refine iff_of_false (fun hid => ?_) fun hne => hne.1 heq
      cases hid
    · rename_i hne
      exact (and_iff_right hne).symm

theorem offers_dropObject :
    (h.dropObject other).Offers name id ↔ other ≠ name ∧ h.Offers name id := by
  unfold dropObject
  rw [offers_forget, offers_deleteObject, ← and_assoc, and_self]

/-- A new object offers nothing yet. -/
theorem offers_keepObject (ho : o.symbolList = []) :
    (h.keepObject other o).Offers name id ↔ other ≠ name ∧ h.Offers name id := by
  have hids : o.functionIds = [] := by
    rw [ImportObject.functionIds, ho]
    rfl
  unfold keepObject
  rw [offers_putObject, offers_dropObject, hids]
  split
  · rename_i heq
    exact iff_of_false List.not_mem_nil fun hne => hne.1 heq
  · rename_i hne
    rw [and_iff_right hne]

/-- An object under the empty module name is refused, and any other takes the place of what is
under its name. -/
theorem offers_create (other moduleName : String) (data : Option SharedData) :
    ((Deed.create other moduleName data).after h).Offers name id ↔
      h.Offers name id ∧ (Deed.create other moduleName data).releases name = false := by
  have hrun := Deed.run_create other moduleName data h
  have hkept : (h.keepData data).2.objects = h.objects := by cases data <;> rfl
  have hreleases : (Deed.create other moduleName data).releases name =
      (decide (other = name) && !moduleName.isEmpty) := rfl
  rw [hreleases]
  unfold Deed.after
  unfold ImportObject.new at hrun
  cases hempty : moduleName.isEmpty with
  | true =>
    rw [if_pos hempty] at hrun
    rw [ending_of_error hrun, Bool.not_true, Bool.and_false]
    exact (and_iff_left rfl).symm
  | false =>
    rw [if_neg (by rw [hempty]; exact Bool.false_ne_true)] at hrun
    rw [ending_of_ok hrun, offers_keepObject rfl, offers_of_objects hkept, and_comm,
      Bool.not_false, Bool.and_true, decide_eq_false_iff_not]

theorem offers_makeObject (moduleName : String) :
    (h.makeObject moduleName).2.Offers name id ↔ h.Offers name id := by
  refine offers_of_objects ?_
  unfold Host.makeObject
  cases (do (← ImportObject.new moduleName none).addFunction h.registry "f" echo) <;> rfl

end Offers

namespace Holds

variable {h : Host} {grants : List Grant}

/-- What an object gets comes to what it has. -/
theorem offers_push (H : Holds h grants) {name other symbol : String} {o : ImportObject}
    (ho : h.object? other = some o) (hcheck : o.checkInsert symbol = .ok ()) {s : Symbol}
    {id : FunctionId} (hid : s.id? ≠ some id) :
    (h.putObject other (o.push symbol s)).Offers name id ↔ h.Offers name id := by
  have hmem := H.object?_eq_some.mp ho
  rw [offers_putObject]
  split
  · rename_i heq
    subst heq
    rw [o.functionIds_push (ImportObject.checkInsert_eq_ok.mp hcheck).1, List.mem_append,
      or_iff_left fun hnew => hid (Option.mem_toList.mp hnew)]
    refine ⟨fun h => ⟨o, hmem, h⟩, ?_⟩
    rintro ⟨p, hp, hid⟩
    have hpo : some p = some o := (H.object?_eq_some.mpr hp).symm.trans ho
    cases hpo
    exact hid
  · rfl

theorem offers_addFunction (H : Holds h grants) {id : FunctionId} (hid : id.val < h.registry.next)
    (name other symbol : String) (f : HostFunction) :
    ((Deed.addFunction other symbol f).after h).Offers name id ↔ h.Offers name id := by
  unfold Deed.after
  cases hobject : h.object? other with
  | none => rw [ending_of_ok (Deed.run_addFunction_of_none hobject symbol f)]
  | some o =>
    have hrun := Deed.run_addFunction hobject symbol f
    cases hcheck : o.checkInsert symbol with
    | error e =>
      rw [hcheck] at hrun
      rw [ending_of_error hrun]
    | ok =>
      rw [hcheck] at hrun
      rw [ending_of_ok hrun]
      -- The new number is none of those that have been given out.
      have hnew : (Symbol.function ⟨h.registry.next⟩ f.signature).id? ≠ some id := by
        rintro ⟨⟩
        exact Nat.lt_irrefl _ hid
      exact H.offers_push hobject hcheck hnew

theorem offers_add (H : Holds h grants) (name other symbol : String) (s : Ware)
    (id : FunctionId) :
    ((Deed.add other symbol s).after h).Offers name id ↔ h.Offers name id := by
  unfold Deed.after
  cases hobject : h.object? other with
  | none => rw [ending_of_ok (Deed.run_add_of_none hobject symbol s)]
  | some o =>
    have hrun := Deed.run_add hobject symbol s
    cases hcheck : o.checkInsert symbol with
    | error e =>
      rw [hcheck] at hrun
      rw [ending_of_error hrun]
    | ok =>
      rw [hcheck] at hrun
      rw [ending_of_ok hrun]
      have hnone : s.1.id? ≠ some id := by
        rw [s.2]
        exact nofun
      exact H.offers_push hobject hcheck hnone

/-- **A number is offered after a deed if it was offered before, and the deed does not let go of
its object.** -/
theorem offers_after (H : Holds h grants) {id : FunctionId} (hid : id.val < h.registry.next)
    (d : Deed) (name : String) :
    (d.after h).Offers name id ↔ h.Offers name id ∧ d.releases name = false := by
  have hother : ∀ other : String,
      (other ≠ name ∧ h.Offers name id) ↔ (h.Offers name id ∧ decide (other = name) = false) := by
    intro other
    rw [and_comm, decide_eq_false_iff_not]
  cases d with
  | create other moduleName data => exact offers_create other moduleName data
  | createWasi other e => exact (offers_keepObject rfl).trans (hother other)
  | addFunction other symbol f =>
    exact (H.offers_addFunction hid name other symbol f).trans (and_iff_left rfl).symm
  | add other symbol s =>
    exact (H.offers_add name other symbol s id).trans (and_iff_left rfl).symm
  | delete other => exact offers_deleteObject.trans (hother other)
  | drop other => exact offers_dropObject.trans (hother other)
  | make moduleName => exact (offers_makeObject moduleName).trans (and_iff_left rfl).symm

/-- **What is no longer offered is never offered again.** -/
theorem offers_of_proceeds (H : Owned h grants) {g : Grant} (hg : g ∈ grants) {name : String}
    {t : Host} {more : List Grant} (hp : Proceeds h more t) (hoffers : t.Offers name g.id) :
    h.Offers name g.id := by
  induction hp with
  | refl => exact hoffers
  | deed hp d ih =>
    have hlt := (H.proceeds hp).holds.lt_next (List.mem_append_left _ hg)
    exact ih (((H.proceeds hp).holds.offers_after hlt d name).mp hoffers).1
  | elsewhere _ _ hobjects _ ih => exact ih ((offers_of_objects hobjects).mp hoffers)

/-- **A number is offered until its object is deleted or let go of**, and never after that. -/
theorem offers_iff_not_released (H : Owned h grants) {g : Grant} (hg : g ∈ grants) {name : String}
    (hoffers : h.Offers name g.id) {t : Host} (ht : Leads h t) :
    t.Offers name g.id ↔ ¬ Released h name t := by
  constructor
  · rintro htoffers ⟨u, d, ⟨more, hu⟩, hreleases, _, hlater⟩
    have hother := offers_of_proceeds ((H.proceeds hu).deed d)
      (List.mem_append_left _ (List.mem_append_left _ hg)) hlater htoffers
    have hlt := (H.proceeds hu).holds.lt_next (List.mem_append_left _ hg)
    have hkept := (((H.proceeds hu).holds.offers_after hlt d name).mp hother).2
    cases hreleases.symm.trans hkept
  · obtain ⟨more, hp⟩ := ht
    intro hnot
    induction hp with
    | refl => exact hoffers
    | deed hp d ih =>
      have hlt := (H.proceeds hp).holds.lt_next (List.mem_append_left _ hg)
      refine ((H.proceeds hp).holds.offers_after hlt d name).mpr ⟨ih fun h => ?_, ?_⟩
      · exact hnot (h.after (.deed _ d))
      · exact Bool.eq_false_iff.mpr fun h => hnot ⟨_, d, ⟨_, hp⟩, h, Std.Refl.refl _⟩
    | elsewhere hp hregistry hobjects hcontexts ih =>
      exact (offers_of_objects hobjects).mpr
        (ih fun h => hnot (h.after (.elsewhere hregistry hobjects hcontexts)))

/-- A number that is offered stands for what was granted. -/
theorem lookup_of_offers (H : Holds h grants) {g : Grant} (hg : g ∈ grants) {name : String}
    (hoffers : h.Offers name g.id) :
    h.registry.lookup g.id = .ok ⟨g.function.body, g.context⟩ := by
  obtain ⟨o, ho, hid⟩ := hoffers
  obtain ⟨symbol, signature, hsymbol⟩ := ImportObject.mem_functionIds.mp hid
  obtain ⟨f, -, hf, hlookup⟩ := H.lookup_eq_ok ho hsymbol
  rw [hlookup, H.eq_of_id hg hf rfl]
  rfl

/-- A number that is not offered stands for nothing. -/
theorem lookup_of_not_offers (H : Holds h grants) {g : Grant} (hg : g ∈ grants) {name : String}
    (hobject : g.object = some name) (hoffers : ¬ h.Offers name g.id) :
    h.registry.lookup g.id = .error (.unknownHostFunction g.id.val) := by
  unfold Registry.lookup
  cases hentry : h.registry.entries.lookup g.id with
  | none => rfl
  | some e =>
    -- A live number belongs to an object, and that is the one it was granted to.
    have hlive : (g.id, e.context) ∈ h.registry.holdings :=
      List.mem_map.mpr ⟨_, mem_of_lookup hentry, rfl⟩
    obtain ⟨⟨other, o⟩, ho, hmem⟩ := List.mem_flatMap.mp (H.holdings.mem_iff.mp hlive)
    obtain ⟨id, hid, heq⟩ := List.mem_map.mp hmem
    have hsame : id = g.id := congrArg Prod.fst heq
    rw [hsame] at hid
    obtain ⟨symbol, signature, hsymbol⟩ := ImportObject.mem_functionIds.mp hid
    obtain ⟨f, -, hf⟩ := (H.objects other o ho).functions symbol g.id signature hsymbol
    have hsame : g.object = some other := congrArg Grant.object (H.eq_of_id hg hf rfl)
    cases hobject.symm.trans hsame
    exact absurd ⟨o, ho, hid⟩ hoffers

end Holds

end WasmEmbedding.Host
