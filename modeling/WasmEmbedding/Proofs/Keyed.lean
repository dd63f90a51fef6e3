import Mathlib.Data.List.Nodup
import Mathlib.Data.List.Perm.Basic

/-! # Entries under keys

What a host or a machine keeps under names or numbers is a list of entries, with the newest first
where one may take the place of another.  What is found under a key is then a member of the list
(`mem_of_lookup`), and the only one if the keys differ (`lookup_of_mem`); taking entries away is a
filter on the keys (`lookup_filter_keys`).
-/
namespace WasmEmbedding

section Lookup

variable {κ β : Type} [BEq κ] [LawfulBEq κ]

theorem lookup_of_mem {l : List (κ × β)} (h : (l.map Prod.fst).Nodup)
    {k : κ} {b : β} (hb : (k, b) ∈ l) : l.lookup k = some b := by
  obtain ⟨before, after, rfl⟩ := List.append_of_mem hb
  refine List.lookup_eq_some_iff.mpr ⟨before, after, rfl, fun p hp => bne_iff_ne.mpr ?_⟩
  rw [List.map_append, List.nodup_append] at h
  exact fun heq => h.2.2 _ (List.mem_map_of_mem hp) k List.mem_cons_self heq.symm

theorem mem_of_lookup {l : List (κ × β)} {k : κ} {b : β}
    (h : l.lookup k = some b) : (k, b) ∈ l := by
  obtain ⟨before, after, rfl, -⟩ := List.lookup_eq_some_iff.mp h
  exact List.mem_append_right before List.mem_cons_self

theorem isSome_lookup {l : List (κ × β)} {k : κ} :
    (l.lookup k).isSome = true ↔ k ∈ l.map Prod.fst := by
  rw [List.lookup_isSome_iff, List.mem_map]
  exact exists_congr fun x => and_congr_right fun _ => beq_iff_eq.trans eq_comm

/-- What is under a key if the entries of some keys are kept. -/
theorem lookup_filter_keys (p : κ → Bool) (l : List (κ × β)) (k : κ) :
    (l.filter fun e => p e.1).lookup k = if p k then l.lookup k else none := by
  induction l with
  | nil => simp
  | cons e l ih =>
    obtain ⟨k', b⟩ := e
    by_cases hk : k = k'
    · subst hk
      cases hp : p k <;> simp [hp, ih]
    · have hne : (k == k') = false := beq_false_of_ne hk
      cases hp : p k' <;> simp [hp, ih, List.lookup_cons, hne]

/-- What is under the other keys stays if the entries of one are taken away. -/
theorem lookup_filter_ne [DecidableEq κ] {k other : κ} (h : other ≠ k) (l : List (κ × β)) :
    (l.filter fun e => e.1 ≠ k).lookup other = l.lookup other := by
  have hkeys := lookup_filter_keys (fun key => decide (key ≠ k)) l other
  rwa [if_pos (decide_eq_true h)] at hkeys

end Lookup

section Taken

variable {κ β : Type} [DecidableEq κ]

/-- An entry and what is under the other keys. -/
theorem perm_cons_filter {l : List (κ × β)} (h : (l.map Prod.fst).Nodup) {k : κ} {b : β}
    (hb : (k, b) ∈ l) : l.Perm ((k, b) :: l.filter fun e => e.1 ≠ k) := by
  obtain ⟨before, after, rfl⟩ := List.append_of_mem hb
  rw [List.map_append, List.map_cons, List.nodup_append, List.nodup_cons] at h
  obtain ⟨-, ⟨hafter, -⟩, hbefore⟩ := h
  have kept : ∀ m : List (κ × β), k ∉ m.map Prod.fst → (m.filter fun e => e.1 ≠ k) = m := by
    intro m hm
    refine List.filter_eq_self.mpr fun e he => decide_eq_true fun heq => hm ?_
    exact heq ▸ List.mem_map_of_mem he
  have hfilter : ((before ++ (k, b) :: after).filter fun e => e.1 ≠ k) = before ++ after := by
    rw [List.filter_append, List.filter_cons_of_neg (by simp), kept after hafter, kept before]
    exact fun hk => hbefore k hk k List.mem_cons_self rfl
  rw [hfilter]
  exact List.perm_middle

/-- What is left of entries if those under the keys of some of them are taken away. -/
theorem filter_perm_of_append {l l₁ l₂ : List (κ × β)} (h : l.Perm (l₁ ++ l₂))
    (hkeys : (l.map Prod.fst).Nodup) :
    (l.filter fun e => e.1 ∉ l₁.map Prod.fst).Perm l₂ := by
  rw [(h.map Prod.fst).nodup_iff, List.map_append, List.nodup_append] at hkeys
  have hfirst : (l₁.filter fun e => e.1 ∉ l₁.map Prod.fst) = [] :=
    List.filter_eq_nil_iff.mpr fun e he hne =>
      of_decide_eq_true hne (List.mem_map_of_mem he)
  have hsecond : (l₂.filter fun e => e.1 ∉ l₁.map Prod.fst) = l₂ :=
    List.filter_eq_self.mpr fun e he => decide_eq_true fun hmem =>
      hkeys.2.2 _ hmem _ (List.mem_map_of_mem he) rfl
  have hfilter := h.filter fun e => e.1 ∉ l₁.map Prod.fst
  rwa [List.filter_append, hfirst, hsecond, List.nil_append] at hfilter

end Taken

end WasmEmbedding
