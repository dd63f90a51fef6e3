import Mathlib.Data.List.Forall2
import Mathlib.Order.Defs.Unbundled

/-! # Computations on a state

A computation of `EStateM` ends in a state whether it succeeds or fails, and nothing is
rolled back on the way.  This module says what follows for a computation from its parts:

* `Keeps R x` — where `x` starts and where it ends are related by `R`;
* `Throws P x` — whatever error `x` ends with satisfies `P`;
* `Respects R x y` — from related states `x` and `y` come to the same outcome in related
  states;
* `Tallies R E A x y` — from related states they come to outcomes that are related as well, errors
  by `E` and answers by `A`.

Every statement about a whole run of a machine is put together from these.
-/
namespace WasmEmbedding

open EStateM (Result)

variable {ε σ τ α β : Type}

/-- The state that a computation ends in. -/
def ending (x : EStateM ε σ α) (s : σ) : σ :=
  match x.run s with
  | .ok _ t => t
  | .error _ t => t

/-- What a computation comes to. -/
def outcome (x : EStateM ε σ α) (s : σ) : Except ε α :=
  match x.run s with
  | .ok a _ => .ok a
  | .error e _ => .error e

theorem ending_of_ok {x : EStateM ε σ α} {s t : σ} {a : α} (h : x.run s = .ok a t) :
    ending x s = t := by
  rw [ending, h]

theorem ending_of_error {x : EStateM ε σ α} {s t : σ} {e : ε} (h : x.run s = .error e t) :
    ending x s = t := by
  rw [ending, h]

theorem outcome_of_ok {x : EStateM ε σ α} {s t : σ} {a : α} (h : x.run s = .ok a t) :
    outcome x s = .ok a := by
  rw [outcome, h]

theorem outcome_of_error {x : EStateM ε σ α} {s t : σ} {e : ε} (h : x.run s = .error e t) :
    outcome x s = .error e := by
  rw [outcome, h]

/-- Where a computation ends is a matter of what it does from a state. -/
theorem ending_congr {x y : EStateM ε σ α} {s t : σ} (h : x.run s = y.run t) :
    ending x s = ending y t := by
  rw [ending, ending, h]

theorem outcome_congr {x y : EStateM ε σ α} {s t : σ} (h : x.run s = y.run t) :
    outcome x s = outcome y t := by
  rw [outcome, outcome, h]

theorem run_of_isOk {x : EStateM ε σ PUnit} {s : σ} (h : (outcome x s).isOk = true) :
    x.run s = .ok ⟨⟩ (ending x s) := by
  cases hrun : x.run s with
  | ok a t => rw [ending_of_ok hrun]
  | error e t =>
    rw [outcome_of_error hrun] at h
    cases h

/-! ## Outcomes by themselves -/

theorem eq_ok_getD_of_isOk {r : Except ε α} (h : r.isOk = true) (a : α) :
    r = .ok (r.toOption.getD a) := by
  cases r with
  | ok b => rfl
  | error e => cases h

theorem eq_ok_of_isOk {r : Except ε Unit} (h : r.isOk = true) : r = .ok () := by
  cases r with
  | ok a => rfl
  | error e => cases h

theorem bind_eq_ok_iff {x : Except ε α} {f : α → Except ε β} {b : β} :
    (x >>= f) = .ok b ↔ ∃ a, x = .ok a ∧ f a = .ok b := by
  constructor
  · intro h
    cases x with
    | error e => cases h
    | ok a => exact ⟨a, rfl, h⟩
  · rintro ⟨a, rfl, h⟩
    exact h

/-! ## Lists of answers -/

/-- The first element of a list that does not have a property. -/
def FirstNot {α : Type} (p : α → Prop) (l : List α) (bad : α) : Prop :=
  ∃ before after, l = before ++ bad :: after ∧ (∀ x ∈ before, p x) ∧ ¬ p bad

section FirstNot

variable {p : α → Prop} {a bad : α} {l : List α}

theorem FirstNot.not_self (h : FirstNot p l bad) : ¬ p bad := by
  obtain ⟨_, _, _, _, hbad⟩ := h
  exact hbad

theorem FirstNot.mem (h : FirstNot p l bad) : bad ∈ l := by
  obtain ⟨before, after, rfl, _, _⟩ := h
  simp

theorem not_firstNot_nil : ¬ FirstNot p [] bad := by
  rintro ⟨before, after, h, -⟩
  cases before <;> cases h

theorem firstNot_cons_of_not (ha : ¬ p a) : FirstNot p (a :: l) bad ↔ bad = a := by
  constructor
  · rintro ⟨before, after, heq, hbefore, -⟩
    cases before with
    | nil => exact (List.cons.inj heq).1.symm
    | cons b before =>
      obtain ⟨rfl, -⟩ := List.cons.inj heq
      exact absurd (hbefore a List.mem_cons_self) ha
  · rintro rfl
    exact ⟨[], l, rfl, nofun, ha⟩

theorem firstNot_cons_of (ha : p a) : FirstNot p (a :: l) bad ↔ FirstNot p l bad := by
  constructor
  · rintro ⟨before, after, heq, hbefore, hbad⟩
    cases before with
    | nil =>
      obtain ⟨rfl, -⟩ := List.cons.inj heq
      exact absurd ha hbad
    | cons b before =>
      exact ⟨before, after, (List.cons.inj heq).2,
        fun x hx => hbefore x (List.mem_cons_of_mem _ hx), hbad⟩
  · rintro ⟨before, after, rfl, hbefore, hbad⟩
    exact ⟨a :: before, after, rfl, List.forall_mem_cons.mpr ⟨ha, hbefore⟩, hbad⟩

/-- All elements have a property, or there is a first one that does not. -/
theorem forall_mem_or_firstNot (p : α → Prop) (l : List α) :
    (∀ a ∈ l, p a) ∨ ∃ bad, FirstNot p l bad := by
  induction l with
  | nil => exact .inl nofun
  | cons a l ih =>
    by_cases ha : p a
    · rw [List.forall_mem_cons]
      simp only [firstNot_cons_of ha]
      exact ih.imp (⟨ha, ·⟩) id
    · exact .inr ⟨a, (firstNot_cons_of_not ha).mpr rfl⟩

end FirstNot

/-- One answer beside each element that it answers. -/
theorem mapM_eq_ok_iff {f : α → Except ε β} {l : List α} {bs : List β} :
    l.mapM f = .ok bs ↔ List.Forall₂ (fun a b => f a = .ok b) l bs := by
  induction l generalizing bs with
  | nil =>
    rw [List.forall₂_nil_left_iff, List.mapM_nil]
    exact ⟨fun h => (Except.ok.inj h).symm, fun h => h ▸ rfl⟩
  | cons a l ih =>
    rw [List.forall₂_cons_left_iff, List.mapM_cons, bind_eq_ok_iff]
    constructor
    · rintro ⟨b, hb, htail⟩
      obtain ⟨rest, hrest, hbs⟩ := bind_eq_ok_iff.mp htail
      exact ⟨b, rest, hb, ih.mp hrest, (Except.ok.inj hbs).symm⟩
    · rintro ⟨b, rest, hb, hrest, rfl⟩
      exact ⟨b, hb, bind_eq_ok_iff.mpr ⟨rest, ih.mpr hrest, rfl⟩⟩

/-- The error is that of the first element without an answer. -/
theorem mapM_eq_error_iff {f : α → Except ε β} {l : List α} {e : ε} :
    l.mapM f = .error e ↔ ∃ bad, FirstNot (fun a => ∃ b, f a = .ok b) l bad ∧ f bad = .error e := by
  induction l with
  | nil => exact iff_of_false nofun fun ⟨_, h, _⟩ => not_firstNot_nil h
  | cons a l ih =>
    rw [List.mapM_cons]
    cases ha : f a with
    | error e' =>
      have hbad : ¬ ∃ b, f a = .ok b := fun ⟨b, hb⟩ => nomatch ha.symm.trans hb
      simp only [firstNot_cons_of_not (p := fun a => ∃ b, f a = .ok b) hbad, exists_eq_left, ha]
      change (Except.error e' : Except ε (List β)) = _ ↔ _
      rw [Except.error.injEq, Except.error.injEq]
    | ok b =>
      simp only [firstNot_cons_of (p := fun a => ∃ b, f a = .ok b) ⟨b, ha⟩, ← ih]
      cases l.mapM f with
      | error e' => exact Iff.rfl
      | ok bs => exact iff_of_false nofun nofun

theorem forM_eq_ok_iff {f : α → Except ε Unit} {l : List α} :
    l.forM f = .ok () ↔ ∀ a ∈ l, f a = .ok () := by
  induction l with
  | nil => simp [pure, Except.pure]
  | cons a l ih =>
    change (f a >>= fun _ => l.forM f) = _ ↔ _
    rw [bind_eq_ok_iff, List.forall_mem_cons, ih]
    exact ⟨fun ⟨_, h⟩ => h, fun h => ⟨(), h⟩⟩

/-! ## Sequences -/

theorem run_bind_of_ok {x : EStateM ε σ α} {f : α → EStateM ε σ β} {s t : σ} {a : α}
    (h : x.run s = .ok a t) : (x >>= f).run s = (f a).run t := by
  rw [EStateM.run_bind, h]

theorem run_bind_of_error {x : EStateM ε σ α} {f : α → EStateM ε σ β} {s t : σ} {e : ε}
    (h : x.run s = .error e t) : (x >>= f).run s = .error e t := by
  rw [EStateM.run_bind, h]

/-- A sequence succeeds if both parts do. -/
theorem run_bind_eq_ok {x : EStateM ε σ α} {f : α → EStateM ε σ β} {s t : σ} {b : β} :
    (x >>= f).run s = .ok b t ↔ ∃ a u, x.run s = .ok a u ∧ (f a).run u = .ok b t := by
  rw [EStateM.run_bind]
  cases h : x.run s with
  | ok a u =>
    refine ⟨fun h' => ⟨a, u, rfl, h'⟩, ?_⟩
    rintro ⟨a', u', ⟨⟩, h'⟩
    exact h'
  | error e u => simp

/-- A sequence fails where its first part fails, or where its second part does. -/
theorem run_bind_eq_error {x : EStateM ε σ α} {f : α → EStateM ε σ β} {s t : σ} {e : ε} :
    (x >>= f).run s = .error e t ↔
      x.run s = .error e t ∨ ∃ a u, x.run s = .ok a u ∧ (f a).run u = .error e t := by
  rw [EStateM.run_bind]
  cases h : x.run s with
  | ok a u =>
    refine ⟨fun h' => .inr ⟨a, u, rfl, h'⟩, ?_⟩
    rintro (⟨⟨⟩⟩ | ⟨a', u', ⟨⟩, h'⟩)
    exact h'
  | error e' u => simp

/-- What is made of the answer of a computation. -/
theorem run_map_eq_ok {x : EStateM ε σ α} {f : α → β} {s t : σ} {b : β} :
    (x >>= fun a => pure (f a)).run s = .ok b t ↔ ∃ a, x.run s = .ok a t ∧ f a = b := by
  rw [run_bind_eq_ok]
  constructor
  · rintro ⟨a, u, h, h'⟩
    cases h'
    exact ⟨a, h, rfl⟩
  · rintro ⟨a, h, rfl⟩
    exact ⟨a, t, h, rfl⟩

/-- One answer for each element of a list. -/
theorem length_of_run_mapM {f : α → EStateM ε σ β} : ∀ {l : List α} {s t : σ} {bs : List β},
    (l.mapM f).run s = .ok bs t → bs.length = l.length
  | [], _, _, _, h => by
    rw [List.mapM_nil] at h
    cases h
    rfl
  | a :: l, s, t, bs, h => by
    rw [List.mapM_cons] at h
    obtain ⟨b, u, -, htail⟩ := run_bind_eq_ok.mp h
    obtain ⟨rest, hrest, rfl⟩ := run_map_eq_ok.mp htail
    rw [List.length_cons, List.length_cons, length_of_run_mapM hrest]

@[simp] theorem run_throw_eq {e : ε} {s : σ} :
    EStateM.run (throw e : EStateM ε σ α) s = .error e s := rfl

/-- A handler takes over in the state that the failure has left. -/
theorem run_tryCatch {x : EStateM ε σ α} {handle : ε → EStateM ε σ α} {s : σ} :
    EStateM.run (tryCatch x handle) s =
      match x.run s with
      | .ok a t => .ok a t
      | .error e t => (handle e).run t := by
  change EStateM.tryCatch x handle s = _
  unfold EStateM.tryCatch EStateM.run
  cases x s <;> rfl

/-- A computation whose answer is not looked at ends where it ends. -/
theorem ending_discard (x : EStateM ε σ α) (s : σ) :
    ending (x >>= fun _ => pure ()) s = ending x s := by
  unfold ending
  rw [EStateM.run_bind]
  cases x.run s <;> rfl

/-- Only the answer of a computation is lost if it is not looked at. -/
theorem outcome_discard (x : EStateM ε σ α) (s : σ) :
    outcome (x >>= fun _ => pure ()) s = (outcome x s).map fun _ => () := by
  unfold outcome
  rw [EStateM.run_bind]
  cases x.run s <;> rfl

theorem run_tryFinally (x : EStateM ε σ α) (y : EStateM ε σ β) (s : σ) :
    EStateM.run (tryFinally x y) s =
      match x.run s with
      | .ok a t => (y >>= fun _ => pure a).run t
      | .error e t => (y >>= fun _ => throw e).run t := by
  change EStateM.run (Prod.fst <$> tryFinally' x fun _ => y) s = _
  unfold EStateM.run
  simp only [tryFinally', Functor.map, EStateM.map, bind, EStateM.bind, pure, EStateM.pure]
  cases x s with
  | ok a t => dsimp only; cases y t <;> rfl
  | error e t => dsimp only; cases y t <;> rfl

/-- What is done in any case is done where the computation ends. -/
theorem ending_tryFinally (x : EStateM ε σ α) (y : EStateM ε σ β) (s : σ) :
    ending (tryFinally x y) s = ending y (ending x s) := by
  unfold ending
  rw [run_tryFinally]
  cases x.run s with
  | ok a t => dsimp only; rw [EStateM.run_bind]; cases y.run t <;> rfl
  | error e t => dsimp only; rw [EStateM.run_bind]; cases y.run t <;> rfl

/-- What is done in any case and does not fail has no say in the outcome. -/
theorem outcome_tryFinally (x : EStateM ε σ α) {y : EStateM ε σ β}
    (hy : ∀ t, ∃ b u, y.run t = .ok b u) (s : σ) :
    outcome (tryFinally x y) s = outcome x s := by
  unfold outcome
  rw [run_tryFinally]
  cases x.run s with
  | ok a t =>
    obtain ⟨b, u, hrun⟩ := hy t
    dsimp only
    rw [run_bind_of_ok hrun]
    rfl
  | error e t =>
    obtain ⟨b, u, hrun⟩ := hy t
    dsimp only
    rw [run_bind_of_ok hrun]
    rfl

/-! ## What a computation comes to -/

/-- Outcome and ending of a computation satisfy `P`. -/
def Post (x : EStateM ε σ α) (s : σ) (P : Except ε α → σ → Prop) : Prop :=
  P (outcome x s) (ending x s)

namespace Post

variable {P : Except ε α → σ → Prop} {x : EStateM ε σ α} {s t : σ}

theorem of_ok {a : α} (h : x.run s = .ok a t) (hp : P (.ok a) t) : Post x s P := by
  unfold Post
  rw [outcome_of_ok h, ending_of_ok h]
  exact hp

theorem of_error {e : ε} (h : x.run s = .error e t) (hp : P (.error e) t) : Post x s P := by
  unfold Post
  rw [outcome_of_error h, ending_of_error h]
  exact hp

theorem ok {a : α} (hp : Post x s P) (h : x.run s = .ok a t) : P (.ok a) t := by
  unfold Post at hp
  rwa [outcome_of_ok h, ending_of_ok h] at hp

theorem error {e : ε} (hp : Post x s P) (h : x.run s = .error e t) : P (.error e) t := by
  unfold Post at hp
  rwa [outcome_of_error h, ending_of_error h] at hp

/-- Only what a computation does from the state matters. -/
theorem of_run_eq {x y : EStateM ε σ α} (h : x.run s = y.run s) (hp : Post y s P) :
    Post x s P := by
  unfold Post outcome ending
  rw [h]
  exact hp

/-- What holds of a computation holds if it does wherever the computation ends. -/
protected theorem intro (hok : ∀ a t, x.run s = .ok a t → P (.ok a) t)
    (herror : ∀ e t, x.run s = .error e t → P (.error e) t) : Post x s P := by
  cases h : x.run s with
  | ok a t => exact of_ok h (hok a t h)
  | error e t => exact of_error h (herror e t h)

/-- A sequence comes to what its second part comes to, or fails where its first part does. -/
protected theorem bind {y : EStateM ε σ β} {f : β → EStateM ε σ α}
    (hok : ∀ b t, y.run s = .ok b t → Post (f b) t P)
    (herror : ∀ e t, y.run s = .error e t → P (.error e) t) : Post (y >>= f) s P := by
  refine Post.intro (fun a t h => ?_) fun e t h => ?_
  · obtain ⟨b, u, hy, hf⟩ := run_bind_eq_ok.mp h
    exact (hok b u hy).ok hf
  · rcases run_bind_eq_error.mp h with h | ⟨b, u, hy, hf⟩
    · exact herror e t h
    · exact (hok b u hy).error hf

/-- Where a computation ends is where what is done in any case starts from. -/
protected theorem tryFinally {y : EStateM ε σ β} (hy : ∀ t, ∃ b u, y.run t = .ok b u)
    (h : Post x s fun r t => P r (ending y t)) : Post (tryFinally x y) s P := by
  unfold Post
  rw [outcome_tryFinally x hy, ending_tryFinally]
  exact h

end Post

/-! ## What a computation keeps -/

/-- Where a computation starts and where it ends are related. -/
def Keeps (R : σ → σ → Prop) (x : EStateM ε σ α) : Prop := ∀ s, R s (ending x s)

/-- Two states look the same to `f`. -/
def SameBy (f : σ → β) (s t : σ) : Prop := f t = f s

instance (f : σ → β) : IsPreorder σ (SameBy f) where
  refl _ := rfl
  trans _ _ _ h h' := h'.trans h

instance isPreorderInvImage {R : τ → τ → Prop} [IsPreorder τ R] (f : σ → τ) :
    IsPreorder σ (InvImage R f) where
  refl s := Std.Refl.refl (f s)
  trans _ _ _ h h' := IsTrans.trans (r := R) _ _ _ h h'

/-- What holds of the state before holds of the state after. -/
def Upholds (C : σ → Prop) (s t : σ) : Prop := C s → C t

instance (C : σ → Prop) : IsPreorder σ (Upholds C) where
  refl _ h := h
  trans _ _ _ h h' hs := h' (h hs)

namespace Keeps

variable {R Q : σ → σ → Prop}

theorem mono {x : EStateM ε σ α} (h : Keeps R x) (hRQ : ∀ s t, R s t → Q s t) : Keeps Q x :=
  fun s => hRQ s _ (h s)

theorem ok {x : EStateM ε σ α} (h : Keeps R x) {s t : σ} {a : α} (hx : x.run s = .ok a t) :
    R s t := ending_of_ok hx ▸ h s

theorem error {x : EStateM ε σ α} (h : Keeps R x) {s t : σ} {e : ε}
    (hx : x.run s = .error e t) : R s t := ending_of_error hx ▸ h s

protected theorem pure [IsPreorder σ R] (a : α) : Keeps R (pure a : EStateM ε σ α) :=
  fun s => Std.Refl.refl s

protected theorem throw [IsPreorder σ R] (e : ε) : Keeps R (throw e : EStateM ε σ α) :=
  fun s => Std.Refl.refl s

protected theorem get [IsPreorder σ R] : Keeps R (get : EStateM ε σ σ) :=
  fun s => Std.Refl.refl s

protected theorem modify {f : σ → σ} (h : ∀ s, R s (f s)) :
    Keeps R (modify f : EStateM ε σ PUnit) := h

/-- What comes after a computation keeps where that ends. -/
theorem after [IsPreorder σ R] {f : α → EStateM ε σ β} (hf : ∀ a, Keeps R (f a))
    (x : EStateM ε σ α) (s : σ) : R (ending x s) (ending (x >>= f) s) := by
  cases h : x.run s with
  | ok a t =>
    have he : ending (x >>= f) s = ending (f a) t := by
      rw [ending, run_bind_of_ok h, ending]
    rw [ending_of_ok h, he]
    exact hf a t
  | error e t =>
    rw [ending_of_error h, ending_of_error (run_bind_of_error h)]
    exact Std.Refl.refl t

protected theorem bind [IsPreorder σ R] {x : EStateM ε σ α} {f : α → EStateM ε σ β}
    (hx : Keeps R x) (hf : ∀ a, Keeps R (f a)) : Keeps R (x >>= f) :=
  fun s => IsTrans.trans _ _ _ (hx s) (Keeps.after hf x s)

protected theorem intro {x : EStateM ε σ α} (hok : ∀ s a t, x.run s = .ok a t → R s t)
    (herror : ∀ s e t, x.run s = .error e t → R s t) : Keeps R x := by
  intro s
  cases h : x.run s with
  | ok a t =>
    rw [ending_of_ok h]
    exact hok s a t h
  | error e t =>
    rw [ending_of_error h]
    exact herror s e t h

theorem of_run_eq {x y : EStateM ε σ α} (hy : Keeps R y) {s : σ} (h : x.run s = y.run s) :
    R s (ending x s) := by
  have hs := hy s
  unfold ending at hs ⊢
  rwa [h]

protected theorem tryFinally [IsPreorder σ R] {x : EStateM ε σ α} {y : EStateM ε σ β}
    (hx : Keeps R x) (hy : Keeps R y) : Keeps R (tryFinally x y) := by
  intro s
  rw [ending_tryFinally]
  exact IsTrans.trans _ _ _ (hx s) (hy _)

protected theorem mapM [IsPreorder σ R] {f : α → EStateM ε σ β} (hf : ∀ a, Keeps R (f a)) :
    ∀ l : List α, Keeps R (l.mapM f)
  | [] => by
    rw [List.mapM_nil]
    exact Keeps.pure _
  | a :: l => by
    rw [List.mapM_cons]
    exact (hf a).bind fun _ => (Keeps.mapM hf l).bind fun _ => Keeps.pure _

theorem forM_of_mem [IsPreorder σ R] {f : α → EStateM ε σ PUnit} :
    ∀ {l : List α}, (∀ a ∈ l, Keeps R (f a)) → Keeps R (l.forM f)
  | [], _ => Keeps.pure _
  | a :: _, hf => (hf a List.mem_cons_self).bind fun _ =>
    forM_of_mem fun b hb => hf b (List.mem_cons_of_mem a hb)

protected theorem forM [IsPreorder σ R] {f : α → EStateM ε σ PUnit} (hf : ∀ a, Keeps R (f a))
    (l : List α) : Keeps R (l.forM f) :=
  forM_of_mem fun a _ => hf a

end Keeps

/-- Every answer for an element of a list satisfies `P` if it does where `C` holds, and `C` holds
on the way. -/
theorem forall_mem_of_run_mapM {C : σ → Prop} {P : β → Prop} {f : α → EStateM ε σ β}
    (hC : ∀ a, Keeps (Upholds C) (f a)) (hP : ∀ a s b t, C s → (f a).run s = .ok b t → P b) :
    ∀ {l : List α} {s t : σ} {bs : List β}, C s → (l.mapM f).run s = .ok bs t → ∀ b ∈ bs, P b
  | [], _, _, _, _, h => by
    rw [List.mapM_nil] at h
    cases h
    exact nofun
  | a :: l, s, t, bs, hs, h => by
    rw [List.mapM_cons] at h
    obtain ⟨b, u, hb, htail⟩ := run_bind_eq_ok.mp h
    obtain ⟨rest, hrest, rfl⟩ := run_map_eq_ok.mp htail
    refine List.forall_mem_cons.mpr ⟨hP a s b u hs hb, ?_⟩
    exact forall_mem_of_run_mapM hC hP ((hC a).ok hb hs) hrest

/-! ## What a computation fails with -/

/-- Every error of a computation is one of `P`. -/
def Throws (P : ε → Prop) (x : EStateM ε σ α) : Prop :=
  ∀ s e t, x.run s = .error e t → P e

namespace Throws

variable {P Q : ε → Prop}

theorem mono {x : EStateM ε σ α} (h : Throws P x) (hPQ : ∀ e, P e → Q e) : Throws Q x :=
  fun s e t hx => hPQ e (h s e t hx)

protected theorem pure (a : α) : Throws P (pure a : EStateM ε σ α) :=
  fun _ _ _ h => nomatch h

protected theorem throw {e : ε} (h : P e) : Throws P (throw e : EStateM ε σ α) := by
  intro s e' t he
  rw [run_throw_eq] at he
  cases he
  exact h

protected theorem get : Throws P (get : EStateM ε σ σ) := fun _ _ _ h => nomatch h

protected theorem modify {f : σ → σ} : Throws P (modify f : EStateM ε σ PUnit) :=
  fun _ _ _ h => nomatch h

protected theorem bind {x : EStateM ε σ α} {f : α → EStateM ε σ β} (hx : Throws P x)
    (hf : ∀ a, Throws P (f a)) : Throws P (x >>= f) := by
  intro s e t h
  rcases run_bind_eq_error.mp h with h | ⟨a, u, -, h⟩
  · exact hx s e t h
  · exact hf a u e t h

protected theorem forM {f : α → EStateM ε σ PUnit} (hf : ∀ a, Throws P (f a)) :
    ∀ l : List α, Throws P (l.forM f)
  | [] => Throws.pure _
  | a :: l => (hf a).bind fun _ => Throws.forM hf l

end Throws

/-! ## Computations that come to the same -/

/-- Two results with the same outcome, in related states. -/
inductive Agree (R : σ → τ → Prop) : Result ε σ α → Result ε τ α → Prop
  | ok {s : σ} {t : τ} (a : α) (h : R s t) : Agree R (.ok a s) (.ok a t)
  | error {s : σ} {t : τ} (e : ε) (h : R s t) : Agree R (.error e s) (.error e t)

/-- From related states, two computations come to the same outcome in related states. -/
def Respects (R : σ → τ → Prop) (x : EStateM ε σ α) (y : EStateM ε τ α) : Prop :=
  ∀ s t, R s t → Agree R (x.run s) (y.run t)

namespace Respects

variable {R : σ → τ → Prop}

protected theorem pure (a : α) : Respects R (pure a : EStateM ε σ α) (pure a) :=
  fun _ _ h => .ok a h

protected theorem throw (e : ε) : Respects R (throw e : EStateM ε σ α) (throw e) :=
  fun _ _ h => .error e h

protected theorem modify {f : σ → σ} {g : τ → τ} (h : ∀ s t, R s t → R (f s) (g t)) :
    Respects R (modify f : EStateM ε σ PUnit) (modify g) :=
  fun s t hst => .ok _ (h s t hst)

protected theorem bind {x : EStateM ε σ α} {y : EStateM ε τ α} {f : α → EStateM ε σ β}
    {g : α → EStateM ε τ β} (hx : Respects R x y) (hf : ∀ a, Respects R (f a) (g a)) :
    Respects R (x >>= f) (y >>= g) := by
  intro s t h
  have hxy := hx s t h
  rw [EStateM.run_bind, EStateM.run_bind]
  generalize x.run s = r, y.run t = r' at hxy ⊢
  cases hxy with
  | ok a h' => exact hf a _ _ h'
  | error e h' => exact .error e h'

protected theorem mapM {f : α → EStateM ε σ β} {g : α → EStateM ε τ β}
    (hf : ∀ a, Respects R (f a) (g a)) : ∀ l : List α, Respects R (l.mapM f) (l.mapM g)
  | [] => by
    rw [List.mapM_nil, List.mapM_nil]
    exact Respects.pure _
  | a :: l => by
    rw [List.mapM_cons, List.mapM_cons]
    refine (hf a).bind fun b => (Respects.mapM hf l).bind fun bs => ?_
    exact Respects.pure _

/-- Where one of the computations succeeds, the other one does. -/
theorem ok {x : EStateM ε σ α} {y : EStateM ε τ α} (h : Respects R x y) {s s' : σ} {t : τ} {a : α}
    (hst : R s t) (hx : x.run s = .ok a s') : ∃ t', y.run t = .ok a t' ∧ R s' t' := by
  have hxy := h s t hst
  rw [hx] at hxy
  generalize y.run t = r at hxy ⊢
  cases hxy with
  | ok a h' => exact ⟨_, rfl, h'⟩

/-- Outcome and ending of computations that come to the same. -/
theorem outcome_ending {x : EStateM ε σ α} {y : EStateM ε τ α} (h : Respects R x y) {s : σ} {t : τ}
    (hst : R s t) : outcome x s = outcome y t ∧ R (ending x s) (ending y t) := by
  have hxy := h s t hst
  unfold outcome ending
  generalize x.run s = r, y.run t = r' at hxy ⊢
  cases hxy with
  | ok a h' => exact ⟨rfl, h'⟩
  | error e h' => exact ⟨rfl, h'⟩

/-- Looking at the state is no more than what the rest makes of related states. -/
protected theorem get {f : σ → EStateM ε σ β} {g : τ → EStateM ε τ β}
    (h : ∀ s t, R s t → Respects R (f s) (g t)) : Respects R (get >>= f) (get >>= g) :=
  fun s t hst => h s t hst s t hst

end Respects

/-! ## Computations with related outcomes -/

section Tallies

variable {ε' α' β' : Type}

/-- Two results with related outcomes, in related states. -/
inductive Tally (R : σ → τ → Prop) (E : ε → ε' → Prop) (A : α → α' → Prop) :
    Result ε σ α → Result ε' τ α' → Prop
  | ok {s : σ} {t : τ} {a : α} {b : α'} (ha : A a b) (h : R s t) : Tally R E A (.ok a s) (.ok b t)
  | error {s : σ} {t : τ} {e : ε} {e' : ε'} (he : E e e') (h : R s t) :
    Tally R E A (.error e s) (.error e' t)

/-- From related states, two computations come to related outcomes in related states. -/
def Tallies (R : σ → τ → Prop) (E : ε → ε' → Prop) (A : α → α' → Prop) (x : EStateM ε σ α)
    (y : EStateM ε' τ α') : Prop :=
  ∀ s t, R s t → Tally R E A (x.run s) (y.run t)

/-- Related outcomes. -/
inductive Likewise (E : ε → ε' → Prop) (A : α → α' → Prop) : Except ε α → Except ε' α' → Prop
  | ok {a : α} {b : α'} (ha : A a b) : Likewise E A (.ok a) (.ok b)
  | error {e : ε} {e' : ε'} (he : E e e') : Likewise E A (.error e) (.error e')

namespace Tallies

variable {R : σ → τ → Prop} {E : ε → ε' → Prop} {A : α → α' → Prop} {B : β → β' → Prop}

/-- Outcome and ending of computations with related outcomes. -/
theorem outcome_ending {x : EStateM ε σ α} {y : EStateM ε' τ α'} (h : Tallies R E A x y) {s : σ}
    {t : τ} (hst : R s t) :
    Likewise E A (outcome x s) (outcome y t) ∧ R (ending x s) (ending y t) := by
  have hxy := h s t hst
  unfold outcome ending
  generalize x.run s = r, y.run t = r' at hxy ⊢
  cases hxy with
  | ok ha h' => exact ⟨.ok ha, h'⟩
  | error he h' => exact ⟨.error he, h'⟩

protected theorem pure {a : α} {b : α'} (h : A a b) :
    Tallies R E A (pure a : EStateM ε σ α) (pure b) :=
  fun _ _ hst => .ok h hst

protected theorem throw {e : ε} {e' : ε'} (h : E e e') :
    Tallies R E A (throw e : EStateM ε σ α) (throw e') :=
  fun _ _ hst => .error h hst

protected theorem modify {f : σ → σ} {g : τ → τ} (h : ∀ s t, R s t → R (f s) (g t)) :
    Tallies R E Eq (modify f : EStateM ε σ PUnit) (modify g) :=
  fun s t hst => .ok rfl (h s t hst)

protected theorem bind {x : EStateM ε σ α} {y : EStateM ε' τ α'} {f : α → EStateM ε σ β}
    {g : α' → EStateM ε' τ β'} (hx : Tallies R E A x y)
    (hf : ∀ a b, A a b → Tallies R E B (f a) (g b)) : Tallies R E B (x >>= f) (y >>= g) := by
  intro s t h
  have hxy := hx s t h
  rw [EStateM.run_bind, EStateM.run_bind]
  generalize x.run s = r, y.run t = r' at hxy ⊢
  cases hxy with
  | ok ha h' => exact hf _ _ ha _ _ h'
  | error he h' => exact .error he h'

/-- The same answer goes on in the same way. -/
theorem seq {x : EStateM ε σ α} {y : EStateM ε' τ α} {f : α → EStateM ε σ β}
    {g : α → EStateM ε' τ β'} (hx : Tallies R E Eq x y) (hf : ∀ a, Tallies R E B (f a) (g a)) :
    Tallies R E B (x >>= f) (y >>= g) :=
  hx.bind fun a _ hab => hab ▸ hf a

protected theorem get {f : σ → EStateM ε σ β} {g : τ → EStateM ε' τ β'}
    (h : ∀ s t, R s t → Tallies R E B (f s) (g t)) : Tallies R E B (get >>= f) (get >>= g) :=
  fun s t hst => h s t hst s t hst

protected theorem mapM {f : α → EStateM ε σ β} {g : α → EStateM ε' τ β}
    (hf : ∀ a, Tallies R E Eq (f a) (g a)) :
    ∀ l : List α, Tallies R E Eq (l.mapM f) (l.mapM g)
  | [] => by
    rw [List.mapM_nil, List.mapM_nil]
    exact Tallies.pure rfl
  | a :: l => by
    rw [List.mapM_cons, List.mapM_cons]
    exact (hf a).seq fun b => (Tallies.mapM hf l).seq fun bs => Tallies.pure rfl

protected theorem forM {f : α → EStateM ε σ PUnit} {g : α → EStateM ε' τ PUnit}
    (hf : ∀ a, Tallies R E Eq (f a) (g a)) :
    ∀ l : List α, Tallies R E Eq (l.forM f) (l.forM g)
  | [] => Tallies.pure rfl
  | a :: l => (hf a).seq fun _ => Tallies.forM hf l

protected theorem tryCatch {x : EStateM ε σ α} {y : EStateM ε' τ α'} {f : ε → EStateM ε σ α}
    {g : ε' → EStateM ε' τ α'} (hx : Tallies R E A x y)
    (hf : ∀ e e', E e e' → Tallies R E A (f e) (g e')) :
    Tallies R E A (tryCatch x f) (tryCatch y g) := by
  intro s t h
  have hxy := hx s t h
  rw [run_tryCatch, run_tryCatch]
  generalize x.run s = r, y.run t = r' at hxy ⊢
  cases hxy with
  | ok ha h' => exact .ok ha h'
  | error he h' => exact hf _ _ he _ _ h'

protected theorem tryFinally {x : EStateM ε σ α} {y : EStateM ε' τ α'} {f : EStateM ε σ β}
    {g : EStateM ε' τ β'} (hx : Tallies R E A x y) (hf : Tallies R E B f g) :
    Tallies R E A (tryFinally x f) (tryFinally y g) := by
  intro s t h
  have hxy := hx s t h
  rw [run_tryFinally, run_tryFinally]
  generalize x.run s = r, y.run t = r' at hxy ⊢
  cases hxy with
  | ok ha h' => exact (hf.bind fun _ _ _ => Tallies.pure ha) _ _ h'
  | error he h' => exact (hf.bind fun _ _ _ => Tallies.throw he) _ _ h'

/-- Only what the computations do from the two states matters. -/
theorem of_run_eq {x x' : EStateM ε σ α} {y y' : EStateM ε' τ α'} (h : Tallies R E A x' y')
    {s : σ} {t : τ} (hst : R s t) (hx : x.run s = x'.run s) (hy : y.run t = y'.run t) :
    Tally R E A (x.run s) (y.run t) :=
  hx ▸ hy ▸ h s t hst

end Tallies

end Tallies

end WasmEmbedding
