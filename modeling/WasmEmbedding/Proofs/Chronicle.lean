import WasmEmbedding.Proofs.Computation

/-! # Computations that write down what they do

A `Chronicle` is a computation that writes down events beside the state it works on.  It is put
together from parts of which nothing is written down (`quietly`) and from parts that are events
(`noting`), so that the chronicle of a computation looks like the computation itself.

* `Erases x c` — without its events, `c` is `x`;
* `Tells R c` — where `c` starts, what it writes down, what it comes to and where it ends are
  related by `R`.

Both are closed under sequence, and together they say what `x` does in terms of its events
(`Tells.events`).
-/
namespace WasmEmbedding

open EStateM (Result)

variable {ω ε σ α β : Type}

/-- A computation that writes down events. -/
abbrev Chronicle (ω ε σ α : Type) := EStateM ε (σ × List ω) α

/-- Whether a computation has succeeded, whatever its answer. -/
def succeeded (r : Except ε α) : Except ε Unit := r.map fun _ => ()

@[simp] theorem succeeded_ok (a : α) : succeeded (.ok a : Except ε α) = .ok () := rfl

@[simp] theorem succeeded_error (e : ε) : succeeded (.error e : Except ε α) = .error e := rfl

theorem succeeded_unit (r : Except ε Unit) : succeeded r = r := by
  rcases r with e | ⟨⟨⟩⟩ <;> rfl

theorem run_of_succeeded_error {x : EStateM ε σ α} {s : σ} {e : ε}
    (h : succeeded (outcome x s) = .error e) : ∃ t, x.run s = .error e t := by
  cases hx : x.run s with
  | ok a t =>
    rw [outcome_of_ok hx] at h
    cases h
  | error d t =>
    rw [outcome_of_error hx] at h
    cases h
    exact ⟨t, rfl⟩

/-- What a computation fails with is one of its errors. -/
theorem Throws.succeeded {P : ε → Prop} {x : EStateM ε σ α} (h : Throws P x) {s : σ} {e : ε}
    (he : succeeded (outcome x s) = .error e) : P e := by
  obtain ⟨t, ht⟩ := run_of_succeeded_error he
  exact h s e t ht

namespace Chronicle

/-- A result with events beside the state that it ends in. -/
def withEvents (l : List ω) : Result ε σ α → Result ε (σ × List ω) α
  | .ok a t => .ok a (t, l)
  | .error e t => .error e (t, l)

/-- Does something that is not written down. -/
def quietly (x : EStateM ε σ α) : Chronicle ω ε σ α := fun p => withEvents p.2 (x.run p.1)

/-- Does something that is one event. -/
def noting (event : σ → ω) (x : EStateM ε σ α) : Chronicle ω ε σ α := fun p =>
  withEvents (p.2 ++ [event p.1]) (x.run p.1)

/-- The events of a computation, the first one first. -/
def events (c : Chronicle ω ε σ α) (s : σ) : List ω := (ending c (s, [])).2

variable {x : EStateM ε σ α} {s t : σ}

theorem run_quietly (l : List ω) : EStateM.run (quietly x) (s, l) = withEvents l (x.run s) := rfl

theorem run_noting (event : σ → ω) (l : List ω) :
    EStateM.run (noting event x) (s, l) = withEvents (l ++ [event s]) (x.run s) := rfl

/-- An event, and what comes of it. -/
theorem events_noting (event : σ → ω) (x : EStateM ε σ α) (f : α → EStateM ε σ β) :
    (noting event x >>= fun a => quietly (f a)).events s = [event s] := by
  unfold events ending
  rw [EStateM.run_bind, run_noting]
  cases x.run s with
  | error e t => rfl
  | ok a t =>
    change (ending (quietly (f a)) (t, [event s])).2 = [event s]
    unfold ending
    rw [run_quietly]
    cases (f a).run t <;> rfl

/-! ## What a chronicle is a chronicle of -/

/-- The chronicle does what the computation does. -/
def Erases (x : EStateM ε σ α) (c : Chronicle ω ε σ α) : Prop :=
  Respects (fun s p => p.1 = s) x c

namespace Erases

protected theorem quietly (x : EStateM ε σ α) : Erases x (quietly x : Chronicle ω ε σ α) := by
  rintro _ ⟨s, l⟩ rfl
  rw [run_quietly]
  cases x.run s with
  | ok a t => exact .ok a rfl
  | error e t => exact .error e rfl

protected theorem noting (event : σ → ω) (x : EStateM ε σ α) : Erases x (noting event x) := by
  rintro _ ⟨s, l⟩ rfl
  rw [run_noting]
  cases x.run s with
  | ok a t => exact .ok a rfl
  | error e t => exact .error e rfl

protected theorem pure (a : α) : Erases (pure a : EStateM ε σ α) (pure a : Chronicle ω ε σ α) :=
  Respects.pure a

protected theorem throw (e : ε) : Erases (throw e : EStateM ε σ α) (throw e : Chronicle ω ε σ α) :=
  Respects.throw e

protected theorem bind {c : Chronicle ω ε σ α} {f : α → EStateM ε σ β}
    {d : α → Chronicle ω ε σ β} (hx : Erases x c) (hf : ∀ a, Erases (f a) (d a)) :
    Erases (x >>= f) (c >>= d) :=
  Respects.bind hx hf

/-- A part that is not written down, and what comes after it. -/
theorem after {f : α → EStateM ε σ β} {d : α → Chronicle ω ε σ β}
    (hf : ∀ a, Erases (f a) (d a)) : Erases (x >>= f) (quietly x >>= d) :=
  (Erases.quietly x).bind hf

protected theorem forM {f : α → EStateM ε σ PUnit} {d : α → Chronicle ω ε σ PUnit}
    (hf : ∀ a, Erases (f a) (d a)) : ∀ l : List α, Erases (l.forM f) (l.forM d)
  | [] => Erases.pure _
  | a :: l => (hf a).bind fun _ => Erases.forM hf l

protected theorem tryCatch {c : Chronicle ω ε σ α} {handle : ε → EStateM ε σ α}
    {handle' : ε → Chronicle ω ε σ α} (hx : Erases x c)
    (hh : ∀ e, Erases (handle e) (handle' e)) :
    Erases (tryCatch x handle) (tryCatch c handle') := by
  intro s p hp
  have h := hx s p hp
  rw [run_tryCatch, run_tryCatch]
  generalize x.run s = r, c.run p = r' at h ⊢
  cases h with
  | ok a h => exact .ok a h
  | error e h => exact hh e _ _ h

end Erases

/-! ## What a chronicle tells -/

/-- From a state, a chronicle comes to what it comes to by its new events. -/
def TellsAt (R : σ → List ω → Except ε Unit → σ → Prop) (c : Chronicle ω ε σ α) (s : σ) : Prop :=
  ∀ l, Post c (s, l) fun r p => ∃ new, p.2 = l ++ new ∧ R s new (succeeded r) p.1

/-- From wherever it starts, a chronicle comes to what it comes to by its new events. -/
def Tells (R : σ → List ω → Except ε Unit → σ → Prop) (c : Chronicle ω ε σ α) : Prop :=
  ∀ s, TellsAt R c s

/-- What follows from what is told. -/
theorem TellsAt.mono {R Q : σ → List ω → Except ε Unit → σ → Prop} {c : Chronicle ω ε σ α}
    (h : TellsAt R c s) (hRQ : ∀ l r t, R s l r t → Q s l r t) : TellsAt Q c s := by
  intro l
  obtain ⟨new, hnew, hR⟩ := h l
  exact ⟨new, hnew, hRQ _ _ _ hR⟩

/-- A relation that can be told of a sequence if it can be told of its parts. -/
structure History (R : σ → List ω → Except ε Unit → σ → Prop) : Prop where
  still : ∀ s, R s [] (.ok ()) s
  append : ∀ {s t u l l' r}, R s l (.ok ()) t → R t l' r u → R s (l ++ l') r u

namespace Tells

variable {R : σ → List ω → Except ε Unit → σ → Prop}

/-- What is told of a computation with some events written down behind the others. -/
theorem withEvents {c : Chronicle ω ε σ α} {new : List ω} {l : List ω}
    (hrun : c.run (s, l) = Chronicle.withEvents (l ++ new) (x.run t))
    (h : R s new (succeeded (outcome x t)) (ending x t)) :
    Post c (s, l) fun r p => ∃ new, p.2 = l ++ new ∧ R s new (succeeded r) p.1 := by
  cases hx : x.run t with
  | ok a u =>
    rw [outcome_of_ok hx, ending_of_ok hx] at h
    rw [hx] at hrun
    exact Post.of_ok hrun ⟨new, rfl, h⟩
  | error e u =>
    rw [outcome_of_error hx, ending_of_error hx] at h
    rw [hx] at hrun
    exact Post.of_error hrun ⟨new, rfl, h⟩

protected theorem quietly (h : ∀ s, R s [] (succeeded (outcome x s)) (ending x s)) :
    Tells R (quietly x) := by
  refine fun s l => withEvents ?_ (h s)
  rw [run_quietly, List.append_nil]

protected theorem noting {event : σ → ω}
    (h : ∀ s, R s [event s] (succeeded (outcome x s)) (ending x s)) :
    Tells R (noting event x) :=
  fun s l => withEvents (run_noting event l) (h s)

protected theorem pure (hR : History R) (a : α) : Tells R (pure a : Chronicle ω ε σ α) :=
  fun s l => ⟨[], (List.append_nil l).symm, hR.still s⟩

protected theorem throw {e : ε} (h : ∀ s, R s [] (.error e) s) :
    Tells R (throw e : Chronicle ω ε σ α) :=
  fun s l => ⟨[], (List.append_nil l).symm, h s⟩

protected theorem bind (hR : History R) {c : Chronicle ω ε σ α} {d : α → Chronicle ω ε σ β}
    (hc : Tells R c) (hd : ∀ a, Tells R (d a)) : Tells R (c >>= d) := by
  refine fun s l => Post.bind (fun a p hp => ?_) fun e p hp => ?_
  · obtain ⟨new, hnew, hfirst⟩ := (hc s l).ok hp
    have hsecond := hd a p.1 p.2
    refine Post.intro (fun b q hq => ?_) fun e q hq => ?_
    · obtain ⟨new', hnew', hlater⟩ := hsecond.ok hq
      exact ⟨new ++ new', by rw [hnew', hnew, List.append_assoc], hR.append hfirst hlater⟩
    · obtain ⟨new', hnew', hlater⟩ := hsecond.error hq
      exact ⟨new ++ new', by rw [hnew', hnew, List.append_assoc], hR.append hfirst hlater⟩
  · exact (hc s l).error hp

theorem mono {Q : σ → List ω → Except ε Unit → σ → Prop} {c : Chronicle ω ε σ α}
    (h : Tells R c) (hRQ : ∀ s l r t, R s l r t → Q s l r t) : Tells Q c :=
  fun s => (h s).mono (hRQ s)

/-- Looking at the state is no more than what the rest makes of it. -/
protected theorem get {d : σ → Chronicle ω ε σ β} (h : ∀ s, TellsAt R (d s) s) :
    Tells R (quietly get >>= d) :=
  fun s l => h s l

protected theorem forM (hR : History R) {d : α → Chronicle ω ε σ PUnit}
    (hd : ∀ a, Tells R (d a)) : ∀ l : List α, Tells R (l.forM d)
  | [] => Tells.pure hR _
  | a :: l => (hd a).bind hR fun _ => Tells.forM hR hd l

/-- **What a chronicle tells holds of the computation** and of the events of its chronicle. -/
theorem events {c : Chronicle ω ε σ α} (h : Tells R c) (hc : Erases x c) (s : σ) :
    R s (c.events s) (succeeded (outcome x s)) (ending x s) := by
  obtain ⟨houtcome, hending⟩ := hc.outcome_ending (s := s) (t := (s, [])) rfl
  obtain ⟨new, hnew, hR⟩ := h s []
  rw [List.nil_append] at hnew
  rw [houtcome, ← hending, Chronicle.events, hnew]
  exact hR

end Tells

end Chronicle

end WasmEmbedding
