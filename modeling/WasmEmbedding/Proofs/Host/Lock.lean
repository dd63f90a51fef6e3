import WasmEmbedding.Proofs.Host.Renaming

/-! # The lock of the registry

One lock guards the registry.  Whoever wants something of the registry asks for the lock, has it
until the end of the statement that asks, and gives it back; who asks for it while it is taken
waits.  Nobody is to ask for it who has it, since that would be waiting for oneself.

What can go wrong is in the order in which a statement ends.  What it has produced on the way and
does not hand on is destroyed first, the newest thing first, and the lock is given back last.  The
statement that revokes a number produces the entry that it takes out.  With the entry goes a
reference to the body of the function, and if that is the last one, the body is destroyed with all
that it owns.  A body may own import objects.  They are deleted then, which revokes their functions,
which asks for the lock (`Guarded.step`).

So an access to the registry comes to an end if and only if no body dies under the lock that owns
an import object with a function (`access_completes_iff`).  Then it does to the registry what it is
there for and nothing else: the numbers that it revokes are gone, every other entry is what it was.
Otherwise it waits for itself for ever, and with it everybody who wants anything of the registry,
guests that call a host function included.  One object within another is enough for that
(`reentered_by_destructor`).

The accesses that revoke nothing always come to an end: a number that is given out replaces no
entry, and who resolves a number takes a reference to the body along, to let go of it when the call
is over and the lock is free.  A body that dies then does no harm by itself: what it owns is
deleted, with the lock taken anew for each number.
-/
namespace WasmEmbedding.Host.Locking

/-- Where the body of a function is kept while there are references to it. -/
structure BodyKey where
  val : Nat
  deriving DecidableEq, Repr

/-- What bodies own. -/
structure Captures where
  /-- The body of the function that has or will have a number. -/
  body : FunctionId → BodyKey
  /-- The import objects that a body owns, itself or through data that nothing else refers to.  They
  are dropped with it. -/
  owned : BodyKey → List ImportObject

namespace Captures

variable (c : Captures)

/-- Nothing refers to a body: no entry does, and nobody who has resolved a number. -/
def isDead (r : Registry) (references : List BodyKey) (b : BodyKey) : Bool :=
  !references.contains b && r.entries.all fun e => c.body e.1 != b

/-- What is to be revoked when a reference to a body has been destroyed: the numbers of the objects
that the body owns, if that was the last one. -/
def dying (r : Registry) (references : List BodyKey) (b : BodyKey) : List FunctionId :=
  if c.isDead r references b then (c.owned b).flatMap ImportObject.functionIds else []

/-- What is to be revoked when the entry of a number has been taken out and destroyed. -/
def dyingWith (r : Registry) (references : List BodyKey) (id : FunctionId) : List FunctionId :=
  if r.contains id then c.dying (r.revoke id) references (c.body id) else []

/-- What is to be revoked when somebody lets go of a body, if he has a reference to it. -/
def letGo (r : Registry) (references : List BodyKey) (b : BodyKey) : List FunctionId :=
  if b ∈ references then c.dying r (references.erase b) b else []

/-- The references with one more to the body of a function, if it is live. -/
def copied (r : Registry) (references : List BodyKey) (id : FunctionId) : List BodyKey :=
  if r.contains id then c.body id :: references else references

end Captures

/-- What a thread has to do next. -/
inductive Task where
  /-- Asks for the lock. -/
  | request
  /-- Gives the lock back. -/
  | release
  | insert (entry : Registration)
  /-- Looks at the entries. -/
  | look
  /-- Takes a reference to the body of a live function along. -/
  | copy (id : FunctionId)
  /-- Takes an entry out and destroys it. -/
  | take (id : FunctionId)
  /-- Destroys a reference that has been taken along. -/
  | letGo (b : BodyKey)
  /-- Revokes numbers, one after the other. -/
  | delete (ids : List FunctionId)

/-- What can be wanted of the registry. -/
inductive Access where
  | register (entry : Registration)
  | lookup (id : FunctionId)
  | contains (id : FunctionId)
  | contextReferences (key : ContextKey)
  | revoke (id : FunctionId)
  /-- Deletes an import object, or drops it. -/
  | delete (o : ImportObject)
  /-- Lets go of the body of a function, as a call does that is over. -/
  | letGo (b : BodyKey)

/-- What there is to do for an access.  The lock is taken by one statement at a time. -/
def Access.tasks : Access → List Task
  | register entry => [.request, .insert entry, .release]
  | lookup id => [.request, .copy id, .release]
  | contains _ => [.request, .look, .release]
  | contextReferences _ => [.request, .look, .release]
  | revoke id => [.request, .take id, .release]
  | delete o => [.delete o.functionIds]
  | letGo b => [.letGo b]

/-- A thread with the registry: whether the lock is taken, the references to bodies beside those in
the entries, and what the thread has to do. -/
structure Guarded where
  registry : Registry
  held : Bool := false
  /-- One for each call in progress, and for whoever else keeps one. -/
  references : List BodyKey := []
  tasks : List Task := []

namespace Guarded

/-- The thread with an access to make. -/
def doing (g : Guarded) (a : Access) : Guarded := { g with tasks := a.tasks }

variable (c : Captures)

/-- The next step of a thread, unless it has nothing to do or waits for the lock.  What a task
destroys is destroyed before the task behind it, which may be to give the lock back. -/
def step (g : Guarded) : Option Guarded :=
  match g.tasks with
  | [] => none
  | .request :: rest => if g.held then none else some { g with held := true, tasks := rest }
  | .release :: rest => some { g with held := false, tasks := rest }
  | .insert entry :: rest =>
    some { g with registry := (g.registry.register entry).2, tasks := rest }
  | .look :: rest => some { g with tasks := rest }
  | .copy id :: rest =>
    some { g with references := c.copied g.registry g.references id, tasks := rest }
  | .take id :: rest =>
    some { g with
      registry := g.registry.revoke id
      tasks := .delete (c.dyingWith g.registry g.references id) :: rest }
  | .letGo b :: rest =>
    some { g with
      references := g.references.erase b
      tasks := .delete (c.letGo g.registry g.references b) :: rest }
  | .delete [] :: rest => some { g with tasks := rest }
  | .delete (id :: ids) :: rest =>
    some { g with tasks := .request :: .take id :: .release :: .delete ids :: rest }

/-- Any number of steps. -/
inductive Runs : Guarded → Guarded → Prop
  | refl {g : Guarded} : Runs g g
  | step {g h t : Guarded} (first : g.step c = some h) (rest : Runs h t) : Runs g t

/-- The thread asks for the lock while it is taken. -/
def Blocked (g : Guarded) : Prop := g.held = true ∧ ∃ rest, g.tasks = .request :: rest

/-- The thread gets done with all that it has to do. -/
def Completes (g : Guarded) : Prop := ∃ t, Runs c g t ∧ t.tasks = []

variable {c} {g h t u : Guarded}

theorem Runs.single (first : g.step c = some h) : Runs c g h := .step first .refl

theorem Runs.trans (H : Runs c g h) (H' : Runs c h t) : Runs c g t := by
  induction H with
  | refl => exact H'
  | step first _ ih => exact .step first (ih H')

/-- There is one way to go on, so what a thread comes to in the end lies ahead wherever it is. -/
theorem Runs.ahead (H : Runs c g t) (hend : t.step c = none) (H' : Runs c g u) : Runs c u t := by
  induction H' with
  | refl => exact H
  | step first _ ih =>
    refine ih ?_
    cases H with
    | refl => cases hend.symm.trans first
    | step first' rest =>
      cases first.symm.trans first'
      exact rest

theorem Blocked.step_eq_none (H : g.Blocked) : g.step c = none := by
  obtain ⟨hheld, rest, htasks⟩ := H
  unfold step
  rw [htasks]
  exact if_pos hheld

/-- The thread has the lock itself and nobody else gives it back, so it waits for ever. -/
theorem Blocked.not_completes (H : t.Blocked) (hrun : Runs c g t) : ¬ g.Completes c := by
  rintro ⟨u, hu, hdone⟩
  have hnone : u.step c = none := by
    unfold step
    rw [hdone]
  have hstuck := H.step_eq_none (c := c)
  obtain ⟨-, rest, htasks⟩ := H
  cases hu.ahead hnone hrun with
  | refl => cases htasks.symm.trans hdone
  | step first => cases hstuck.symm.trans first

/-- Numbers are not revoked while the lock is taken. -/
theorem blocks_of_held (hheld : g.held = true) {ids : List FunctionId} (hids : ids ≠ [])
    {rest : List Task} (htasks : g.tasks = .delete ids :: rest) :
    ∃ t, Runs c g t ∧ t.Blocked ∧ t.registry = g.registry := by
  obtain ⟨id, ids, rfl⟩ := List.exists_cons_of_ne_nil hids
  have hfirst : g.step c = some { g with
      tasks := .request :: .take id :: .release :: .delete ids :: rest } := by
    unfold step
    rw [htasks]
  exact ⟨_, .single hfirst, ⟨hheld, _, rfl⟩, rfl⟩

end Guarded

/-! ## Revoking one number -/

/-- With the entry of a number a body dies that owns an import object with a function. -/
def Captures.Reenters (c : Captures) (r : Registry) (references : List BodyKey) (id : FunctionId) :
    Prop :=
  c.dyingWith r references id ≠ []

instance {c : Captures} {r : Registry} {references : List BodyKey} {id : FunctionId} :
    Decidable (c.Reenters r references id) :=
  inferInstanceAs (Decidable (_ ≠ _))

namespace Guarded

variable {c : Captures} {g : Guarded} {id : FunctionId} {ids : List FunctionId} {rest : List Task}

/-- An entry is taken out, and what dies with it is still to be deleted. -/
theorem runs_take (hfree : g.held = false) (htasks : g.tasks = .request :: .take id :: rest) :
    Runs c g { g with
      registry := g.registry.revoke id
      held := true
      tasks := .delete (c.dyingWith g.registry g.references id) :: rest } := by
  have hlock : g.step c = some { g with held := true, tasks := .take id :: rest } := by
    unfold step
    rw [htasks, hfree]
    rfl
  exact .step hlock (.single rfl)

/-- **A number is revoked and the lock is given back**, if nothing dies with it that asks for the
lock. -/
theorem runs_revoke (hfree : g.held = false) (h : ¬ c.Reenters g.registry g.references id)
    (htasks : g.tasks = .request :: .take id :: .release :: rest) :
    Runs c g { g with registry := g.registry.revoke id, tasks := rest } := by
  have hnothing : c.dyingWith g.registry g.references id = [] := not_not.mp h
  have hsame : { g with registry := g.registry.revoke id, tasks := rest } =
      { g with registry := g.registry.revoke id, held := false, tasks := rest } := by rw [hfree]
  refine (runs_take hfree htasks).trans ?_
  rw [hnothing, hsame]
  exact .step rfl (.single rfl)

/-- Otherwise the number is gone and the thread waits for itself. -/
theorem blocks_revoke (hfree : g.held = false) (h : c.Reenters g.registry g.references id)
    (htasks : g.tasks = .request :: .take id :: .release :: rest) :
    ∃ t, Runs c g t ∧ t.Blocked ∧ t.registry = g.registry.revoke id := by
  obtain ⟨t, ht, hblocked, hregistry⟩ := blocks_of_held (c := c) (g := { g with
    registry := g.registry.revoke id
    held := true
    tasks := .delete (c.dyingWith g.registry g.references id) :: .release :: rest }) rfl h rfl
  exact ⟨t, (runs_take hfree htasks).trans ht, hblocked, hregistry⟩

end Guarded

/-! ## Revoking numbers one after the other -/

/-- Nothing dies that asks for the lock while numbers are revoked one after the other. -/
def Captures.Harmless (c : Captures) (r : Registry) (references : List BodyKey)
    (ids : List FunctionId) : Prop :=
  ∀ before id after, ids = before ++ id :: after → ¬ c.Reenters (r.revokeAll before) references id

namespace Captures

variable {c : Captures} {r : Registry} {references : List BodyKey}

theorem harmless_nil : c.Harmless r references [] := by
  intro before id after hsplit
  cases before <;> cases hsplit

theorem harmless_cons {id : FunctionId} {ids : List FunctionId} :
    c.Harmless r references (id :: ids) ↔
      ¬ c.Reenters r references id ∧ c.Harmless (r.revoke id) references ids := by
  constructor
  · intro h
    refine ⟨h [] id ids rfl, fun before other after hsplit => ?_⟩
    exact h (id :: before) other after (congrArg (id :: ·) hsplit)
  · rintro ⟨hfirst, hrest⟩ before other after hsplit
    cases before with
    | nil =>
      cases hsplit
      exact hfirst
    | cons first before =>
      cases hsplit
      exact hrest before other after rfl

end Captures

namespace Guarded

variable {c : Captures} {g : Guarded} {ids : List FunctionId} {rest : List Task}

theorem step_delete_cons {id : FunctionId} (htasks : g.tasks = .delete (id :: ids) :: rest) :
    g.step c = some { g with
      tasks := .request :: .take id :: .release :: .delete ids :: rest } := by
  unfold step
  rw [htasks]

/-- **Numbers are revoked one after the other**, as long as nothing dies that asks for the lock. -/
theorem runs_delete (hfree : g.held = false) (h : c.Harmless g.registry g.references ids)
    (htasks : g.tasks = .delete ids :: rest) :
    Runs c g { g with registry := g.registry.revokeAll ids, tasks := rest } := by
  induction ids generalizing g with
  | nil =>
    refine .single ?_
    unfold step
    rw [htasks]
    rfl
  | cons id ids ih =>
    obtain ⟨hfirst, hrest⟩ := Captures.harmless_cons.mp h
    have hrevoked := runs_revoke (c := c) (g := { g with
      tasks := .request :: .take id :: .release :: .delete ids :: rest }) hfree hfirst rfl
    have hall := ih (g := { g with
      registry := g.registry.revoke id, tasks := .delete ids :: rest }) hfree hrest rfl
    exact .step (step_delete_cons htasks) (hrevoked.trans hall)

/-- The first number with which something dies that asks for the lock stops the thread for ever. -/
theorem blocks_delete (hfree : g.held = false) (h : ¬ c.Harmless g.registry g.references ids)
    (htasks : g.tasks = .delete ids :: rest) :
    ∃ t, Runs c g t ∧ t.Blocked ∧ ∃ before id after, ids = before ++ id :: after ∧
      c.Reenters (g.registry.revokeAll before) g.references id ∧
      t.registry = g.registry.revokeAll (before ++ [id]) := by
  induction ids generalizing g with
  | nil => exact absurd Captures.harmless_nil h
  | cons id ids ih =>
    have hstart := Runs.single (c := c) (step_delete_cons htasks)
    by_cases hfirst : c.Reenters g.registry g.references id
    · obtain ⟨t, ht, hblocked, hregistry⟩ := blocks_revoke (c := c) (g := { g with
        tasks := .request :: .take id :: .release :: .delete ids :: rest }) hfree hfirst rfl
      exact ⟨t, hstart.trans ht, hblocked, [], id, ids, rfl, hfirst, hregistry⟩
    · have hrest : ¬ c.Harmless (g.registry.revoke id) g.references ids :=
        fun hclear => h (Captures.harmless_cons.mpr ⟨hfirst, hclear⟩)
      have hrevoked := runs_revoke (c := c) (g := { g with
        tasks := .request :: .take id :: .release :: .delete ids :: rest }) hfree hfirst rfl
      obtain ⟨t, ht, hblocked, before, other, after, rfl, hreenters, hregistry⟩ :=
        ih (g := { g with registry := g.registry.revoke id, tasks := .delete ids :: rest }) hfree
          hrest rfl
      exact ⟨t, (hstart.trans hrevoked).trans ht, hblocked, id :: before, other, after, rfl,
        hreenters, hregistry⟩

end Guarded

/-! ## Accesses -/

namespace Access

variable (c : Captures) (g : Guarded)

/-- The numbers that an access revokes, one after the other. -/
def revokes : Access → List FunctionId
  | revoke id => [id]
  | delete o => o.functionIds
  | letGo b => c.letGo g.registry g.references b
  | _ => []

/-- The references that there are besides the entries while an access is made. -/
def references : Access → List BodyKey
  | lookup id => c.copied g.registry g.references id
  | letGo b => g.references.erase b
  | _ => g.references

/-- What an access makes of the registry. -/
def registry : Access → Registry
  | register entry => (g.registry.register entry).2
  | a => g.registry.revokeAll (a.revokes c g)

/-- No body dies under the lock, while an access is made, that owns an object with a function. -/
def Harmless (a : Access) : Prop := c.Harmless g.registry (a.references c g) (a.revokes c g)

/-- The access asks for the lock. -/
def Asks : Access → Prop
  | delete o => o.functionIds ≠ []
  | letGo b => c.letGo g.registry g.references b ≠ []
  | _ => True

end Access

namespace Access

variable {c : Captures} {g : Guarded} {a : Access} {id : FunctionId}

/-- Nothing can be wrong with an access that takes no entry out. -/
theorem harmless_of_revokes_nil (h : a.revokes c g = []) : a.Harmless c g := by
  unfold Harmless
  rw [h]
  exact Captures.harmless_nil

/-- The numbers that an access revokes are gone. -/
theorem not_contains_of_mem_revokes (hid : id ∈ a.revokes c g) :
    (a.registry c g).contains id = false := by
  cases a with
  | register | lookup | contains | contextReferences => cases hid
  | revoke | delete | letGo =>
    unfold Registry.contains Access.registry
    rw [Registry.lookup_revokeAll, if_pos hid]
    rfl

/-- Every other entry is what it was. -/
theorem lookup_of_not_mem_revokes (hid : id ∉ a.revokes c g) {entry : Registration}
    (h : g.registry.lookup id = .ok entry) : (a.registry c g).lookup id = .ok entry := by
  have hentry : g.registry.entries.lookup id = some entry := by
    unfold Registry.lookup at h
    split at h
    · cases h
      assumption
    · cases h
  have hsame : (a.registry c g).entries.lookup id = some entry := by
    cases a with
    | register new =>
      unfold Access.registry Registry.register
      rw [List.lookup_append, hentry]
      rfl
    | lookup | contains | contextReferences => exact hentry
    | revoke | delete | letGo =>
      unfold Access.registry
      rw [Registry.lookup_revokeAll, if_neg hid, hentry]
  unfold Registry.lookup
  rw [hsame]

end Access

namespace Guarded

variable {c : Captures} {g : Guarded} {a : Access}

/-- **What an access does** if nothing dies under the lock that asks for it. -/
theorem runs_access (hfree : g.held = false) (h : a.Harmless c g) :
    Runs c (g.doing a) { registry := a.registry c g, references := a.references c g } := by
  obtain ⟨registry, held, references, tasks⟩ := g
  obtain rfl : held = false := hfree
  cases a with
  | register | lookup | contains | contextReferences =>
    exact .step rfl (.step rfl (.single rfl))
  | revoke id => exact runs_revoke rfl (Captures.harmless_cons.mp h).1 rfl
  | delete o => exact runs_delete rfl h rfl
  | letGo b =>
    exact .step rfl (runs_delete (g := ⟨registry, false, references.erase b, _⟩) rfl h rfl)

/-- Where an access stops otherwise. -/
theorem blocks_access (hfree : g.held = false) (h : ¬ a.Harmless c g) :
    ∃ t, Runs c (g.doing a) t ∧ t.Blocked ∧ ∃ before id after,
      a.revokes c g = before ++ id :: after ∧
      c.Reenters (g.registry.revokeAll before) (a.references c g) id ∧
      t.registry = g.registry.revokeAll (before ++ [id]) := by
  cases a with
  | register | lookup | contains | contextReferences =>
    exact absurd (Access.harmless_of_revokes_nil rfl) h
  | revoke id =>
    have hfirst : c.Reenters g.registry g.references id := not_not.mp fun hno =>
      h (Captures.harmless_cons.mpr ⟨hno, Captures.harmless_nil⟩)
    obtain ⟨t, ht, hblocked, hregistry⟩ :=
      blocks_revoke (c := c) (g := g.doing (.revoke id)) hfree hfirst rfl
    exact ⟨t, ht, hblocked, [], id, [], rfl, hfirst, hregistry⟩
  | delete o => exact blocks_delete (g := g.doing (.delete o)) hfree h rfl
  | letGo b =>
    obtain ⟨t, ht, hrest⟩ := blocks_delete (c := c) (g := { g with
      references := g.references.erase b
      tasks := [.delete (c.letGo g.registry g.references b)] }) hfree h rfl
    exact ⟨t, .step rfl ht, hrest⟩

/-- Nobody gets anything of the registry while the lock is taken. -/
theorem not_completes_of_asks (hheld : g.held = true) (h : a.Asks c g) :
    ¬ (g.doing a).Completes c := by
  cases a with
  | register | lookup | contains | contextReferences | revoke =>
    exact Blocked.not_completes (t := g.doing _) ⟨hheld, _, rfl⟩ .refl
  | delete o =>
    obtain ⟨t, ht, hblocked, -⟩ := blocks_of_held (c := c) (g := g.doing (.delete o)) hheld h rfl
    exact hblocked.not_completes ht
  | letGo b =>
    obtain ⟨t, ht, hblocked, -⟩ := blocks_of_held (c := c) (g := { g with
      references := g.references.erase b
      tasks := [.delete (c.letGo g.registry g.references b)] }) hheld h rfl
    exact hblocked.not_completes (.step rfl ht)

end Guarded

/-! ## Objects within bodies -/

/-- **An access to the registry comes to an end, and the lock is not asked for while it is taken, if
and only if no body dies under the lock that owns an import object with a function.**  Then the
numbers that the access revokes are gone and every other entry is what it was.  Otherwise the
numbers up to the offending one are gone, the thread waits for itself whatever it has got done so
far, and nobody else who asks for the lock gets done either.  What takes no entry out is never
stopped. -/
theorem access_completes_iff (c : Captures) (g : Guarded) (hfree : g.held = false) (a : Access) :
    ((g.doing a).Completes c ↔ a.Harmless c g) ∧
    ((∃ t, Guarded.Runs c (g.doing a) t ∧ t.Blocked) ↔ ¬ a.Harmless c g) ∧
    (a.Harmless c g →
      Guarded.Runs c (g.doing a) { registry := a.registry c g, references := a.references c g } ∧
      (∀ id ∈ a.revokes c g, (a.registry c g).contains id = false) ∧
      ∀ id entry, id ∉ a.revokes c g → g.registry.lookup id = .ok entry →
        (a.registry c g).lookup id = .ok entry) ∧
    (¬ a.Harmless c g → ∃ t before id after, a.revokes c g = before ++ id :: after ∧
      c.Reenters (g.registry.revokeAll before) (a.references c g) id ∧
      t.registry = g.registry.revokeAll (before ++ [id]) ∧ t.Blocked ∧
      (∀ u, Guarded.Runs c (g.doing a) u → Guarded.Runs c u t) ∧
      ∀ other : Access, other.Asks c t → ¬ (t.doing other).Completes c) ∧
    (a.revokes c g = [] → a.Harmless c g) := by
  have hruns := Guarded.runs_access (c := c) (a := a) hfree
  have hblocks := Guarded.blocks_access (c := c) (a := a) hfree
  have hstops : ¬ a.Harmless c g → ¬ (g.doing a).Completes c := by
    intro h
    obtain ⟨t, ht, hblocked, -⟩ := hblocks h
    exact hblocked.not_completes ht
  have hcompletes : a.Harmless c g → (g.doing a).Completes c := fun h => ⟨_, hruns h, rfl⟩
  refine ⟨⟨fun h => not_not.mp fun hno => hstops hno h, hcompletes⟩, ⟨?_, ?_⟩, fun h => ?_,
    fun h => ?_, Access.harmless_of_revokes_nil⟩
  · rintro ⟨t, ht, hblocked⟩ h
    exact hblocked.not_completes ht (hcompletes h)
  · intro h
    obtain ⟨t, ht, hblocked, -⟩ := hblocks h
    exact ⟨t, ht, hblocked⟩
  · exact ⟨hruns h, fun _ => Access.not_contains_of_mem_revokes,
      fun _ _ hid => Access.lookup_of_not_mem_revokes hid⟩
  · obtain ⟨t, ht, hblocked, before, id, after, hsplit, hreenters, hregistry⟩ := hblocks h
    exact ⟨t, before, id, after, hsplit, hreenters, hregistry, hblocked,
      fun u hu => ht.ahead hblocked.step_eq_none hu,
      fun other => Guarded.not_completes_of_asks hblocked.1⟩

/-- An import object with one function. -/
def innerObject : ImportObject := ⟨"inner", some [("f", .function ⟨1⟩ ⟨[], []⟩)], none, none⟩

/-- Another one, whose function owns the first. -/
def outerObject : ImportObject := ⟨"outer", some [("f", .function ⟨2⟩ ⟨[], []⟩)], none, none⟩

/-- Every function has a body of its own, and that of the second function owns an object. -/
def nested : Captures := ⟨fun id => ⟨id.val⟩, fun b => if b = ⟨2⟩ then [innerObject] else []⟩

/-- The two functions are live. -/
def bothLive : Guarded where
  registry := ((({} : Registry).register ⟨echo.body, none⟩).2.register ⟨echo.body, none⟩).2

/-- The inner object can be deleted, and the outer one cannot.  With a call of its function in
progress it can, and the inner object is deleted when the call is over. -/
theorem access_completes_iff_nested :
    (bothLive.doing (.delete innerObject)).Completes nested ∧
    ¬ (bothLive.doing (.delete outerObject)).Completes nested ∧
    (({ bothLive with references := [⟨2⟩] } : Guarded).doing
      (.delete outerObject)).Completes nested ∧
    (({ registry := (outerObject.delete bothLive.registry).2, references := [⟨2⟩] } : Guarded).doing
      (.letGo ⟨2⟩)).Completes nested := by
  refine ⟨(access_completes_iff _ _ rfl _).1.mpr ?_, fun h => ?_,
    (access_completes_iff _ _ rfl _).1.mpr ?_, (access_completes_iff _ _ rfl _).1.mpr ?_⟩
  · exact Captures.harmless_cons.mpr ⟨by decide, Captures.harmless_nil⟩
  · have hharmless := (access_completes_iff nested bothLive rfl (.delete outerObject)).1.mp h
    exact (Captures.harmless_cons.mp hharmless).1 (by decide)
  · exact Captures.harmless_cons.mpr ⟨by decide, Captures.harmless_nil⟩
  · exact Captures.harmless_cons.mpr ⟨by decide, Captures.harmless_nil⟩

/-- The body of a function owns an import object with another function. -/
def Captures.Owns (c : Captures) (id owned : FunctionId) : Prop :=
  ∃ o ∈ c.owned (c.body id), owned ∈ o.functionIds

/-- A function of an import object, or of one that bodies of its functions own, at any depth. -/
def Captures.Reaches (c : Captures) (o : ImportObject) (id : FunctionId) : Prop :=
  ∃ first ∈ o.functionIds, Relation.ReflTransGen c.Owns first id

theorem nested_owns_lt {id owned : FunctionId} (h : Relation.TransGen nested.Owns id owned) :
    owned.val < id.val := by
  have hone : ∀ {id owned}, nested.Owns id owned → owned.val < id.val := by
    rintro id owned ⟨o, ho, howned⟩
    change o ∈ (if (⟨id.val⟩ : BodyKey) = ⟨2⟩ then [innerObject] else []) at ho
    split at ho
    case isFalse => cases ho
    case isTrue hid =>
      obtain rfl := List.mem_singleton.mp ho
      obtain rfl : owned = ⟨1⟩ := List.mem_singleton.mp howned
      have hsecond : id.val = 2 := congrArg BodyKey.val hid
      rw [hsecond]
      exact Nat.one_lt_two
  induction h with
  | single h => exact hone h
  | tail _ h ih => exact Nat.lt_trans (hone h) ih

/-- It is not enough that no body owns itself, that every function has a body of its own and that
nobody keeps a reference to one: the deletion of an object whose functions own others does not
always come to an end, let alone delete them. -/
theorem reentered_by_destructor :
    ¬ ∀ (c : Captures) (g : Guarded) (o : ImportObject), g.held = false → g.references = [] →
      Function.Injective c.body → (∀ id, ¬ Relation.TransGen c.Owns id id) →
      ∃ t, Guarded.Runs c (g.doing (.delete o)) t ∧ t.tasks = [] ∧ t.held = false ∧
        (∀ id, c.Reaches o id → t.registry.contains id = false) ∧
        ∀ id entry, ¬ c.Reaches o id → g.registry.lookup id = .ok entry →
          t.registry.lookup id = .ok entry := by
  intro hclaim
  have hown : Function.Injective nested.body := by
    rintro ⟨x⟩ ⟨y⟩ h
    exact congrArg FunctionId.mk (congrArg BodyKey.val h)
  have hacyclic : ∀ id, ¬ Relation.TransGen nested.Owns id id := fun _ h =>
    Nat.lt_irrefl _ (nested_owns_lt h)
  obtain ⟨t, ht, hdone, -⟩ := hclaim nested bothLive outerObject rfl rfl hown hacyclic
  have hreenters : ¬ Access.Harmless nested bothLive (.delete outerObject) := fun h =>
    (Captures.harmless_cons.mp h).1 (by decide)
  obtain ⟨u, hu, hblocked, -⟩ := Guarded.blocks_access (g := bothLive) rfl hreenters
  exact hblocked.not_completes hu ⟨t, ht, hdone⟩

end WasmEmbedding.Host.Locking
