import Mathlib.Data.List.Forall2
import Mathlib.Data.String.Basic
import WasmEmbedding.Proofs.Engine.Instantiation
import WasmEmbedding.Wasm.Typing.Module

/-! # What instances export

A module says of what type the functions are that it exports, and an instance of it exports
addresses of functions.  The two agree (`Code.Publishes`): what the module defines has the type it
is defined with, and what it imports has been held against the type that it asks for
(`Linker.resolve_functions`).  Names are no ground for confusion, as a validated module exports
none of them twice (`Image.nodup_exports`); nor are types, as each function that it exports has a
signature (`Image.signature_of_export`).
-/
namespace WasmEmbedding

open Wasm

/-! ## Lists side by side -/

section Lists

variable {α β : Type} {R : α → β → Prop}

theorem forall₂_getElem? {l : List α} {l' : List β} (h : List.Forall₂ R l l') {k : Nat} {a : α}
    (ha : l[k]? = some a) : ∃ b, l'[k]? = some b ∧ R a b := by
  induction h generalizing k with
  | nil => cases ha
  | @cons x y l l' hxy _ ih =>
    cases k with
    | zero =>
      cases ha
      exact ⟨y, rfl, hxy⟩
    | succ k => exact ih ha

theorem forall₂_mem_right {l : List α} {l' : List β} (h : List.Forall₂ R l l') {b : β}
    (hb : b ∈ l') : ∃ a ∈ l, R a b := by
  induction h with
  | nil => cases hb
  | @cons x y l l' hxy _ ih =>
    rcases List.mem_cons.mp hb with rfl | hb
    · exact ⟨x, List.mem_cons_self, hxy⟩
    · obtain ⟨a, ha, hab⟩ := ih hb
      exact ⟨a, List.mem_cons_of_mem _ ha, hab⟩

theorem forall₂_mem_left {l : List α} {l' : List β} (h : List.Forall₂ R l l') {a : α}
    (ha : a ∈ l) : ∃ b ∈ l', R a b := by
  obtain ⟨b, hb, hab⟩ := forall₂_mem_right h.flip ha
  exact ⟨b, hb, hab⟩

/-- One answer beside each element that it answers. -/
theorem forall₂_of_mapM {f : α → Option β} : ∀ {l : List α} {l' : List β},
    l.mapM f = some l' → List.Forall₂ (fun a b => f a = some b) l l'
  | [], _, h => by
    cases h
    exact .nil
  | a :: l, _, h => by
    rw [List.mapM_cons] at h
    obtain ⟨b, hb, h⟩ := Option.bind_eq_some_iff.mp h
    obtain ⟨l', hl', ⟨⟩⟩ := Option.bind_eq_some_iff.mp h
    exact .cons hb (forall₂_of_mapM hl')

end Lists

/-! ## Sorted lists -/

section Sorted

variable {α : Type}

/-- Sorting by a text puts these in order. -/
theorem pairwise_mergeSort (key : α → String) (l : List α) :
    (l.mergeSort fun a b => decide (key a ≤ key b)).Pairwise fun a b => key a ≤ key b := by
  refine (List.pairwise_mergeSort (fun a b c hab hbc => ?_) (fun a b => ?_) l).imp
    of_decide_eq_true
  · exact decide_eq_true (le_trans (of_decide_eq_true hab) (of_decide_eq_true hbc))
  · rcases le_total (key a) (key b) with h | h
    · rw [decide_eq_true h]; rfl
    · rw [decide_eq_true h, Bool.or_true]

/-- Texts in order ascend if none is repeated. -/
theorem ascending_of_nodup {l : List String} (h : l.Pairwise (· ≤ ·)) (hl : l.Nodup) :
    l.Pairwise (· < ·) :=
  (h.and hl).imp fun hab => lt_of_le_of_ne hab.1 hab.2

end Sorted

/-! ## What validation says of exports -/

namespace Wasm.Typing

/-- A list without repetitions, read off the sorted list. -/
theorem nodup_of_distinct {names : List String} (h : distinct names = true) : names.Nodup := by
  have sorted : names.mergeSort.Pairwise (· ≤ ·) := pairwise_mergeSort id names
  have steps : ∀ {l : List String}, l.Pairwise (· ≤ ·) →
      ((l.zip l.tail).all fun x => decide (x.1 ≠ x.2)) = true → l.Pairwise (· < ·) := by
    intro l
    induction l with
    | nil => exact fun _ _ => .nil
    | cons a l ih =>
      intro hl hall
      cases l with
      | nil => exact List.pairwise_singleton _ _
      | cons b l =>
        rw [List.tail_cons, List.zip_cons_cons, List.all_cons, Bool.and_eq_true] at hall
        obtain ⟨hle, htail⟩ := List.pairwise_cons.mp hl
        have rest := ih htail hall.2
        have hab : a < b := lt_of_le_of_ne (hle b List.mem_cons_self) (of_decide_eq_true hall.1)
        refine List.pairwise_cons.mpr ⟨fun c hc => ?_, rest⟩
        rcases List.mem_cons.mp hc with rfl | hc
        · exact hab
        · exact lt_trans hab ((List.pairwise_cons.mp rest).1 c hc)
  have strict := steps sorted h
  have nodup : names.mergeSort.Nodup := strict.imp fun hlt => ne_of_lt hlt
  exact (List.mergeSort_perm names _).nodup_iff.mp nodup

theorem of_require {p : Bool} {message : String} {r : Unit} (h : require p message = .ok r) :
    p = true := by
  cases p with
  | true => rfl
  | false => cases h

/-- What is known of the types and the exports of a module within the rules. -/
structure Checked (features : Features) (m : Module) : Prop where
  types : m.types.forM (checkFuncType features) = .ok ()
  exports : ∃ c, moduleContext features m = .ok c ∧ m.exports.forM (checkExport c) = .ok ()
  names : distinct (m.exports.map Export.name) = true

theorem checked_of_checkModule {features : Features} {m : Module} {r : Unit}
    (h : checkModule features m = .ok r) : Checked features m := by
  -- the checks in their order
  obtain ⟨_, types, h⟩ := bind_eq_ok_iff.mp h
  obtain ⟨_, -, h⟩ := bind_eq_ok_iff.mp h
  obtain ⟨_, -, h⟩ := bind_eq_ok_iff.mp h
  obtain ⟨_, -, h⟩ := bind_eq_ok_iff.mp h
  obtain ⟨_, -, h⟩ := bind_eq_ok_iff.mp h
  obtain ⟨_, -, h⟩ := bind_eq_ok_iff.mp h
  obtain ⟨c, context, h⟩ := bind_eq_ok_iff.mp h
  obtain ⟨_, -, h⟩ := bind_eq_ok_iff.mp h
  obtain ⟨_, exports, h⟩ := bind_eq_ok_iff.mp h
  obtain ⟨_, names, -⟩ := bind_eq_ok_iff.mp h
  exact ⟨types, ⟨c, context, exports⟩, of_require names⟩

/-! ### Signatures of exports -/

/-- The types that an engine has are those of the kinds of values. -/
theorem kindOf_of_checkValType {features : Features} {t : ValType}
    (h : checkValType features t = .ok ()) : ∃ k, Signature.kindOf t = .ok k := by
  cases t with
  | ref r =>
    obtain ⟨_, -, h⟩ := bind_eq_ok_iff.mp h
    rcases Bool.or_eq_true_iff.mp (of_require h) with hr | hr
    · cases of_decide_eq_true hr
      exact ⟨.funcRef, rfl⟩
    · cases of_decide_eq_true hr
      exact ⟨.externRef, rfl⟩
  | _ => exact ⟨_, rfl⟩

theorem mapM_kindOf {features : Features} : ∀ {ts : List ValType},
    ts.forM (checkValType features) = .ok () → ∃ ks, ts.mapM Signature.kindOf = .ok ks
  | [], _ => ⟨[], rfl⟩
  | t :: ts, h => by
    obtain ⟨_, ht, hts⟩ := bind_eq_ok_iff.mp h
    obtain ⟨k, hk⟩ := kindOf_of_checkValType ht
    obtain ⟨ks, hks⟩ := mapM_kindOf hts
    refine ⟨k :: ks, ?_⟩
    rw [List.mapM_cons, hk, hks]
    rfl

/-- A function type that is accepted is that of a signature. -/
theorem ofType?_of_checkFuncType {features : Features} {t : FuncType}
    (h : checkFuncType features t = .ok ()) : ∃ s, Signature.ofType? t = .ok s := by
  obtain ⟨_, hparams, h⟩ := bind_eq_ok_iff.mp h
  obtain ⟨_, hresults, -⟩ := bind_eq_ok_iff.mp h
  obtain ⟨params, hparams⟩ := mapM_kindOf hparams
  obtain ⟨returns, hresults⟩ := mapM_kindOf hresults
  refine ⟨⟨params, returns⟩, ?_⟩
  rw [Signature.ofType?, hparams, hresults]
  rfl

theorem entry_eq_ok {α : Type} {space : Array α} {what : String} {i : Nat} {a : α} :
    entry space what i = .ok a ↔ space[i]? = some a := by
  unfold entry
  cases space[i]? with
  | none => exact ⟨nofun, nofun⟩
  | some b => exact ⟨by rintro ⟨⟩; rfl, by rintro ⟨⟩; rfl⟩

/-- Types of functions are looked up in order. -/
theorem getElem?_of_mapM_entry {types : Array FuncType} {what : String} :
    ∀ {indices : List Nat} {found : List FuncType}, indices.mapM (entry types what) = .ok found →
      ∀ {k : Nat} {type : FuncType}, found[k]? = some type →
        ∃ t, indices[k]? = some t ∧ types[t]? = some type
  | [], _, h, _, _, hk => by
    cases h
    cases hk
  | t :: indices, _, h, k, type, hk => by
    rw [List.mapM_cons] at h
    obtain ⟨first, hfirst, h⟩ := bind_eq_ok_iff.mp h
    obtain ⟨rest, hrest, h⟩ := bind_eq_ok_iff.mp h
    cases h
    cases k with
    | zero =>
      cases hk
      exact ⟨t, rfl, entry_eq_ok.mp hfirst⟩
    | succ k => exact getElem?_of_mapM_entry hrest hk

/-- A module within the rules gives the functions that it exports a type, which is that of a
signature. -/
theorem Checked.exported {features : Features} {m : Module} (h : Checked features m) {e : Export}
    (he : e ∈ m.exports) (kind : e.kind = .function) :
    ∃ type s, m.exportedFunction? e = some type ∧ Signature.ofType? type = .ok s := by
  obtain ⟨c, hcontext, hexports⟩ := h.exports
  obtain ⟨functions, hfunctions, hc⟩ := bind_eq_ok_iff.mp hcontext
  have checked := forM_eq_ok_iff.mp hexports e he
  rw [checkExport, kind] at checked
  dsimp only at checked
  cases hentry : entry c.functions "function" e.index with
  | error d =>
    rw [hentry] at checked
    cases checked
  | ok type =>
    have hfound := entry_eq_ok.mp hentry
    cases hc
    rw [List.getElem?_toArray] at hfound
    obtain ⟨t, ht, htype⟩ := getElem?_of_mapM_entry hfunctions hfound
    rw [List.getElem?_toArray] at htype
    obtain ⟨s, hs⟩ := ofType?_of_checkFuncType
      (forM_eq_ok_iff.mp h.types type (List.mem_of_getElem? htype))
    refine ⟨type, s, ?_, hs⟩
    rw [Module.exportedFunction?, kind]
    dsimp only
    rw [ht]
    exact htype

end Wasm.Typing

namespace Wasm.Image

variable {i : Image} {features : Features} {m : Module} (h : i.validate features = .ok m)

include h

theorem checked : Typing.Checked features m := by
  obtain ⟨_, -, h⟩ := bind_eq_ok_iff.mp h
  obtain ⟨_, checked, ⟨⟩⟩ := bind_eq_ok_iff.mp h
  exact Typing.checked_of_checkModule checked

/-- **A validated module exports under different names.** -/
theorem nodup_exports : (m.exports.map Export.name).Nodup :=
  Typing.nodup_of_distinct (checked h).names

/-- **A validated module has a signature for each function that it exports.** -/
theorem signature_of_export {e : Export} (he : e ∈ m.exports) (kind : e.kind = .function) :
    ∃ type s, m.exportedFunction? e = some type ∧ Signature.ofType? type = .ok s :=
  (checked h).exported he kind

end Wasm.Image

/-- What has the type of an exported function is a function. -/
theorem Wasm.Module.kind_of_exportedFunction? {m : Module} {e : Export} {type : FuncType}
    (h : m.exportedFunction? e = some type) : e.kind = .function := by
  unfold exportedFunction? at h
  split at h
  · assumption
  · cases h

namespace Engine

/-! ## Functions of the types that a module gives -/

/-- The function at an address has a type. -/
def Code.HasType (c : Code) (a : Nat) (type : FuncType) : Prop :=
  ∃ f, c.functions[a]? = some f ∧ f.type = type

theorem Code.HasType.mono {c d : Code} {a : Nat} {type : FuncType} (h : c.HasType a type)
    (hcd : c.Extends d) : d.HasType a type := by
  obtain ⟨f, hf, htype⟩ := h
  exact ⟨f, hcd.functions a f hf, htype⟩

theorem Store.functionType?_eq_some {s : Store} {a : Nat} {type : FuncType} :
    s.functionType? a = some type ↔ s.code.HasType a type :=
  Option.map_eq_some_iff

/-- The function at an address has the type of an index of a module. -/
def Code.Typed (c : Code) (m : Module) (a index : Nat) : Prop :=
  ∃ type, m.types[index]? = some type ∧ c.HasType a type

/-- An export of an instance is called as an export of the module is.  It is a function if this is
one, and then it has the type that the module gives. -/
structure Code.Matches (c : Code) (m : Module) (e : Export) (x : String × Item) : Prop where
  name : x.1 = e.name
  typed : ∀ a, x.2 = .function a → ∃ type, m.exportedFunction? e = some type ∧ c.HasType a type
  function : ∀ type, m.exportedFunction? e = some type → ∃ a, x.2 = .function a

/-- The exports of an instance match those of a module. -/
def Code.Publishes (c : Code) (m : Module) (exports : List (String × Item)) : Prop :=
  List.Forall₂ (c.Matches m) m.exports exports

theorem Code.Matches.mono {c d : Code} {m : Module} {e : Export} {x : String × Item}
    (h : c.Matches m e x) (hcd : c.Extends d) : d.Matches m e x := by
  refine { h with typed := fun a ha => ?_ }
  obtain ⟨type, htype, hfound⟩ := h.typed a ha
  exact ⟨type, htype, hfound.mono hcd⟩

theorem Code.Publishes.mono {c d : Code} {m : Module} {exports : List (String × Item)}
    (h : c.Publishes m exports) (hcd : c.Extends d) : d.Publishes m exports :=
  h.imp fun _ _ hx => hx.mono hcd

/-- An instance exports under the names of the module. -/
theorem Code.Publishes.names {c : Code} {m : Module} {exports : List (String × Item)}
    (h : c.Publishes m exports) : exports.map Prod.fst = m.exports.map Export.name := by
  unfold Code.Publishes at h
  generalize m.exports = es at h
  induction h with
  | nil => rfl
  | cons hx _ ih => exact congrArg₂ List.cons hx.name ih

namespace Linker

/-- What fits an import of a function is a function of its type. -/
theorem fits_function {s : Store} {m : Module} {t : Nat} {item : Item}
    (h : fits s m (.function t) item = true) :
    ∃ a, item = .function a ∧ s.code.Typed m a t := by
  cases item with
  | function a =>
    rw [fits] at h
    cases hm : m.types[t]? with
    | none =>
      rw [hm] at h
      cases h
    | some type =>
      cases hs : s.functionType? a with
      | none =>
        rw [hm, hs] at h
        cases h
      | some found =>
        rw [hm, hs] at h
        cases of_decide_eq_true h
        exact ⟨a, rfl, type, hm, Store.functionType?_eq_some.mp hs⟩
  | _ => cases h

/-- A function fits imports of functions only. -/
theorem function_of_fits {s : Store} {m : Module} {expected : ImportType} {a : Nat}
    (h : fits s m expected (.function a) = true) : ∃ t, expected = .function t := by
  cases expected with
  | function t => exact ⟨t, rfl⟩
  | _ => cases h

/-- **The functions that an import finds have the types that the module asks for**, in order. -/
theorem resolve_functions {l : Linker} {s : Store} {m : Module} {items : List Item}
    (h : l.resolve s m = .ok items) :
    List.Forall₂ (s.code.Typed m) (items.filterMap Item.function?) m.importedFunctions := by
  unfold resolve at h
  unfold Module.importedFunctions
  generalize m.imports = imports at h ⊢
  induction imports generalizing items with
  | nil =>
    cases h
    exact .nil
  | cons i imports ih =>
    rw [List.mapM_cons] at h
    cases first : l.resolveOne s m i with
    | error reason =>
      rw [first] at h
      cases h
    | ok item =>
      cases rest : imports.mapM (l.resolveOne s m) with
      | error reason =>
        rw [first, rest] at h
        cases h
      | ok others =>
        rw [first, rest] at h
        cases h
        have tail := ih rest
        have found : fits s m i.type item = true := by
          unfold resolveOne at first
          split at first
          · cases first
          · split at first
            · cases first
              assumption
            · cases first
        rw [List.filterMap_cons, List.filterMap_cons]
        cases asked : i.type with
        | function t =>
          rw [asked] at found
          obtain ⟨a, rfl, typed⟩ := fits_function found
          exact .cons typed tail
        | _ =>
          -- what is found is no function either
          cases item with
          | function a =>
            obtain ⟨t, function⟩ := function_of_fits found
            rw [asked] at function
            cases function
          | _ => exact tail

end Linker

/-- What an instance exports as a function is one of its functions. -/
theorem Instance.function_of_exported {i : Instance} {e : Export} {name : String} {a : Nat}
    (h : i.exported e = some (name, .function a)) :
    e.kind = .function ∧ i.functions[e.index]? = some a := by
  unfold Instance.exported at h
  split at h
  · rename_i kind
    obtain ⟨b, hb, ⟨⟩⟩ := Option.map_eq_some_iff.mp h
    exact ⟨kind, hb⟩
  all_goals
    first
      | cases h
      | obtain ⟨b, -, h⟩ := Option.map_eq_some_iff.mp h; cases h

/-- **An instance of a module publishes what the module says**, if the functions that it imports
have the types that the module asks for. -/
theorem Code.Realizes.publishes {c : Code} {index : Nat} {m : Module} {items : List Item}
    {i : Instance} (h : c.Realizes index m items i)
    (imported : List.Forall₂ (c.Typed m) (items.filterMap Item.function?) m.importedFunctions) :
    c.Publishes m i.exports := by
  obtain ⟨types, own, htypes, hfunctions, hown⟩ := h.functions
  have himported : (Exec.imported m items).functions =
      (items.filterMap Item.function?).toArray :=
    congrArg (fun f => (items.filterMap f).toArray) (funext fun item => by cases item <;> rfl)
  -- every function of the instance has the type of the same index of the module
  have typed : ∀ (k a : Nat), i.functions[k]? = some a →
      ∃ t, m.functionTypes[k]? = some t ∧ c.Typed m a t := by
    intro k a ha
    rw [hfunctions, himported, List.append_toArray, List.getElem?_toArray] at ha
    have hlength := imported.length_eq
    unfold Module.functionTypes
    by_cases hk : k < (items.filterMap Item.function?).length
    · rw [List.getElem?_append_left hk] at ha
      obtain ⟨t, ht, hat⟩ := forall₂_getElem? imported ha
      exact ⟨t, by rw [List.getElem?_append_left (by omega), ht], hat⟩
    · rw [List.getElem?_append_right (by omega)] at ha
      obtain ⟨⟨type, body⟩, hpair, hguest⟩ := forall₂_getElem? hown ha
      obtain ⟨t, ht, hm⟩ := forall₂_getElem? (forall₂_of_mapM htypes).flip
        (List.getElem?_zip_eq_some.mp hpair).1
      refine ⟨t, ?_, type, hm, _, hguest, rfl⟩
      rw [List.getElem?_append_right (by omega), ← hlength, ht]
  refine (forall₂_of_mapM h.exports).imp fun e x hx =>
    ⟨Instance.name_exported hx, fun a ha => ?_, fun type htype => ?_⟩
  · obtain ⟨name, item⟩ := x
    cases ha
    obtain ⟨kind, ha⟩ := Instance.function_of_exported hx
    obtain ⟨t, ht, type, hm, hfound⟩ := typed e.index a ha
    refine ⟨type, ?_, hfound⟩
    rw [Module.exportedFunction?, kind]
    dsimp only
    rw [ht]
    exact hm
  · have kind := Module.kind_of_exportedFunction? htype
    rw [Instance.exported, kind] at hx
    obtain ⟨a, -, rfl⟩ := Option.map_eq_some_iff.mp hx
    exact ⟨a, rfl⟩

end Engine

end WasmEmbedding
