import WasmEmbedding.Proofs.Vm.Sites

/-! # Parties that share a host

Two parties take turns on a site, each with import objects and machines of its own.  A party that is
alone does what it does in its turns; in place of what the other party does, files and the standard
input become what they have become by it, and as many stores have been made (`Party.view`), so that
a store goes by one name in both places.

The main result, `noninterference`, is that a party cannot tell whether it is alone.  What it has is
the same but for the numbers of host functions (`Site.Matches`), every operation answers the same
but for the number of a function that is not known, and what the other party does leaves every host
function of the party's machines what it is.  The argument is a simulation over the turns
(`Site.Parted.turns`): a turn of a party is a turn where it is alone (`Site.Parted.turn`), and it is
something around the host where the other party is alone.

There are two ways in which guests of one party get at those of the other, and a party that is alone
has to be told of both.  What files hold is everybody's business (`interference_by_files`), and
every session reads from the one standard input, where no byte is read twice
(`interference_by_input`).
-/
namespace WasmEmbedding

open Engine Host Wasm

/-- What the owner of a machine sees of it. -/
structure Vm.Report where
  stage : Stage
  logs : List LogEntry
  exitCode : Option UInt32
  statistics : Statistics
  functions : List (String × Signature)
  moduleNames : List String
  description : String

/-- What the owner of a machine sees of it. -/
def Vm.report (vm : Vm) : Report where
  stage := vm.stage
  logs := vm.logs
  exitCode := vm.exitCode
  statistics := vm.statistics
  functions := vm.functionList
  moduleNames := vm.moduleNames
  description := vm.describe

@[simp] theorem Vm.report_rename (vm : Vm) (σ : Renaming) : (vm.rename σ).report = vm.report := by
  unfold report
  simp

/-! ## Two parties -/

/-- One of two parties. -/
inductive Party where
  | first | second
  deriving DecidableEq, Repr

/-- The other party. -/
def Party.other : Party → Party
  | .first => .second
  | .second => .first

/-- Turns of two parties in the order in which they take them. -/
abbrev Interleaving := List (Party × Event)

namespace Interleaving

/-- What both parties do. -/
def events (turns : Interleaving) : List Event := turns.map Prod.snd

/-- What one of the parties does. -/
def eventsOf (turns : Interleaving) (p : Party) : List Event :=
  events (turns.filter fun t => t.1 = p)

/-- In its turns, each party does something with what belongs to it. -/
def Of (turns : Interleaving) (shares : Party → Share) : Prop :=
  ∀ t ∈ turns, t.2.Of (shares t.1)

end Interleaving

/-- What happens where a party is alone.  In place of what the other party does, what is around the
host becomes what it has become by it. -/
def Party.view (p : Party) (s : Site) : Interleaving → List Event
  | [] => []
  | (q, e) :: turns =>
    (if q = p then e else .around (s.after e).host.surroundings) :: p.view (s.after e) turns

namespace Site

variable {own others : Share} {σ τ : Renaming} {k g s : Site}

/-- What belongs to a share is on the second site what it is on the first one, under other numbers,
and so are the bodies that its machines call. -/
structure Matches (own : Share) (σ : Renaming) (g s : Site) : Prop where
  machines : ∀ handle, own.handles handle →
    s.machine? handle = (g.machine? handle).map (·.rename σ)
  reports : ∀ handle, own.handles handle →
    (s.machine? handle).map Vm.report = (g.machine? handle).map Vm.report
  objects : ∀ name, own.names name →
    s.host.object? name = (g.host.object? name).map (ImportObject.rename · σ)
  bodies : ∀ id, g.Links own id →
    (s.host.registry.entries.lookup (σ.id id)).map Registration.body =
      (g.host.registry.entries.lookup id).map Registration.body

theorem Shared.matches_alone (H : Shared own others σ τ k g s) : Matches own σ g s where
  machines := H.machines.machine?
  reports handle hown := by
    rw [H.machines.machine? handle hown, Option.map_map]
    exact congrArg (Option.map · _) (funext fun vm => vm.report_rename σ)
  objects := H.hosts.own.object?
  bodies id hid := by
    obtain ⟨handle, vm, hown, hvm, hid⟩ := hid
    have known := (H.machines.known handle vm hown hvm).store.hostIds hid
    rw [H.hosts.own.lookup id known, Option.map_map]
    rfl

/-! ## Turns -/

/-- Two parties use the last site, and each of them is alone on one of the others. -/
def Parted (own others : Share) (g k s : Site) : Prop :=
  ∃ σ τ, Shared own others σ τ k g s ∧ s.host.surroundings = k.host.surroundings

namespace Parted

variable (H : Parted own others g k s)

include H

theorem swap : Parted others own k g s := by
  obtain ⟨σ, τ, hshared, hk⟩ := H
  exact ⟨τ, σ, hshared.swap hk, hshared.hosts.surroundings⟩

/-- **A party gets the same answer where it is alone.** -/
theorem answer {e : Event} (he : e.Of own) :
    Likewise RuntimeError.Like Eq (g.answer e) (s.answer e) := by
  obtain ⟨σ, τ, hshared, -⟩ := H
  exact ((Event.tallies he).outcome_ending ⟨σ, hshared⟩).1

/-- **A turn of a party is a turn where it is alone**, and to the other party something that happens
around the host. -/
theorem turn {e : Event} (he : e.Of own) :
    Parted own others (g.after e) (k.after (.around (s.after e).host.surroundings))
      (s.after e) := by
  obtain ⟨σ, τ, hshared, -⟩ := H
  obtain ⟨ρ, hafter⟩ := ((Event.tallies he).outcome_ending ⟨σ, hshared⟩).2
  exact ⟨ρ, τ, hafter.besides _, rfl⟩

/-- **What the other party does leaves the host functions of a party's machines what they are.** -/
theorem lookup_after {e : Event} (he : e.Of others) {id : FunctionId} (hid : s.Links own id) :
    (s.after e).host.registry.lookup id = s.host.registry.lookup id := by
  obtain ⟨σ, τ, hshared, hk⟩ := H
  obtain ⟨id₀, known, rfl⟩ := hshared.known_of_links hid
  obtain ⟨ρ, hafter⟩ := ((Event.tallies he).outcome_ending ⟨τ, hshared.swap hk⟩).2
  -- On both sites the number stands for what it stands for where the party is alone.
  have hentries : (s.after e).host.registry.entries.lookup (σ.id id₀) =
      s.host.registry.entries.lookup (σ.id id₀) :=
    (hafter.hosts.rest.lookup id₀ known).trans (hshared.hosts.own.lookup id₀ known).symm
  unfold Registry.lookup
  rw [hentries]

end Parted

/-- Nothing is known of a host on which nothing has been done. -/
theorem parted_new (h : own.Disjoint others) (around : Surroundings) :
    Parted own others (new around) (new around) (new around) := by
  have nothing : ∀ names, Mirrors names
      ⟨⟨fun _ => False, fun a => a⟩, ⟨fun _ => False, fun a => a⟩, ⟨fun _ => False, fun a => a⟩⟩
      (new around).host (new around).host := fun names => {
    functions := ⟨nofun, nofun, nofun⟩
    contexts := ⟨nofun, nofun, nofun⟩
    environments := ⟨nofun, nofun, nofun⟩
    fresh := ⟨nofun, nofun⟩
    lookup := nofun
    minds := nofun
    context? := nofun
    environment? := nofun
    object? := fun _ _ => rfl
    objects := nofun }
  have sees : ∀ share σ, Sees share σ (new around) (new around) :=
    fun _ _ => ⟨fun _ _ => rfl, fun _ _ _ hvm => nomatch hvm⟩
  exact ⟨_, _, ⟨⟨nothing _, nothing _, ⟨nofun, nofun, nofun⟩, h.names, rfl⟩, sees _ _, sees _ _,
    h.handles⟩, rfl⟩

end Site

namespace Party

theorem other_ne (p : Party) : p.other ≠ p := by cases p <;> decide

theorem eq_other_of_ne {p q : Party} (h : q ≠ p) : q = p.other := by
  cases p <;> cases q <;> first | rfl | exact absurd rfl h

end Party

/-- Two shares have nothing in common, whichever of them comes first. -/
theorem Share.Disjoint.symm {own others : Share} (h : own.Disjoint others) : others.Disjoint own :=
  ⟨fun name hothers hown => h.names name hown hothers,
    fun handle hothers hown => h.handles handle hown hothers⟩

/-- **After any turns, each party is where it is when it is alone.** -/
theorem Site.Parted.turns {shares : Party → Share} {p : Party} {turns : Interleaving}
    (hturns : turns.Of shares) {g k s : Site}
    (H : Parted (shares p) (shares p.other) g k s) :
    Parted (shares p) (shares p.other) (g.afterAll (p.view s turns))
      (k.afterAll (p.other.view s turns)) (s.afterAll turns.events) := by
  induction turns generalizing g k s with
  | nil => exact H
  | cons t turns ih =>
    obtain ⟨q, e⟩ := t
    obtain ⟨he, hrest⟩ := List.forall_mem_cons.mp hturns
    by_cases hq : q = p
    · subst hq
      have hview : q.view s ((q, e) :: turns) = e :: q.view (s.after e) turns := by
        rw [Party.view, if_pos rfl]
      have hother : q.other.view s ((q, e) :: turns) =
          .around (s.after e).host.surroundings :: q.other.view (s.after e) turns := by
        rw [Party.view, if_neg q.other_ne.symm]
      rw [hview, hother]
      exact ih hrest (H.turn he)
    · obtain rfl := Party.eq_other_of_ne hq
      have hview : p.view s ((p.other, e) :: turns) =
          .around (s.after e).host.surroundings :: p.view (s.after e) turns := by
        rw [Party.view, if_neg hq]
      have hother : p.other.view s ((p.other, e) :: turns) =
          e :: p.other.view (s.after e) turns := by
        rw [Party.view, if_pos rfl]
      rw [hview, hother]
      exact ih hrest (H.swap.turn he).swap

/-- **A party cannot tell whether it is alone.**  Whatever two parties do in whatever order, each
with machines and import objects of its own, a party has what it has when it is alone, where only
files, the standard input and the count of stores become what they have become in the meantime: its
machines, their states, logs and counts are the same, but for the numbers of host functions and the
places of environments, and so are the bodies that they call.

Each operation answers the same there, but for the number in the error of a function that is not
known.  No event of the other party changes what the number of a host function in one of its
machines stands for. -/
theorem noninterference {shares : Party → Share} (h : (shares .first).Disjoint (shares .second))
    (around : Surroundings) {turns : Interleaving} (hturns : turns.Of shares) (p : Party) :
    let alone := (Site.new around).afterAll (p.view (Site.new around) turns)
    let both := (Site.new around).afterAll turns.events
    (∃ σ, alone.Matches (shares p) σ both) ∧
      (∀ e : Event, e.Of (shares p) →
        Likewise RuntimeError.Like Eq (alone.answer e) (both.answer e)) ∧
      ∀ e : Event, e.Of (shares p.other) → ∀ id, both.Links (shares p) id →
        (both.after e).host.registry.lookup id = both.host.registry.lookup id := by
  have hp : (shares p).Disjoint (shares p.other) := by
    cases p
    · exact h
    · exact h.symm
  have H := (Site.parted_new hp around).turns hturns
  refine ⟨?_, fun e he => H.answer he, fun e he id hid => H.lookup_after he hid⟩
  obtain ⟨σ, τ, hshared, -⟩ := H
  exact ⟨σ, hshared.matches_alone⟩

/-- Each party has one name and one handle. -/
def shareOf : Party → Share
  | .first => ⟨(· = "a"), (· = 0)⟩
  | .second => ⟨(· = "b"), (· = 1)⟩

theorem disjoint_shareOf : (shareOf .first).Disjoint (shareOf .second) where
  names _ ha hb := absurd (ha.symm.trans hb) (by decide)
  handles _ ha hb := absurd (ha.symm.trans hb) (by decide)

/-- Both parties make an import object of one module name, with a function of one name.  The first
registers its own with a machine, and the second deletes its own. -/
def lendingTurns : Interleaving :=
  [(.second, .deed (.create "b" "env" none)), (.second, .deed (.addFunction "b" "f" echo)),
    (.first, .deed (.create "a" "env" none)), (.first, .deed (.addFunction "a" "f" echo)),
    (.first, .new 0 {}), (.first, .command 0 (.registerImport "a")),
    (.second, .deed (.delete "b"))]

theorem of_lendingTurns : lendingTurns.Of shareOf := by
  have minds : ∀ args, (echo.body args).Minds (· = "a") ∧ (echo.body args).Minds (· = "b") :=
    fun _ => ⟨trivial, trivial⟩
  simp [Interleaving.Of, lendingTurns, Event.Of, Deed.Of, Vm.Command.Of, shareOf, minds]

/-- Where it is alone, the function of the first party has another number.  A call of it comes to
the same. -/
theorem noninterference_lending :
    let alone := (Site.new (surroundings {})).afterAll
      (Party.first.view (Site.new (surroundings {})) lendingTurns)
    let both := (Site.new (surroundings {})).afterAll lendingTurns.events
    let call := Event.command 0 (.executeRegistered "env" "f" [])
    ((shareOf .first).Disjoint (shareOf .second) ∧ lendingTurns.Of shareOf) ∧
      (∃ σ, alone.Matches (shareOf .first) σ both) ∧
      Likewise RuntimeError.Like Eq (alone.answer call) (both.answer call) ∧
      both.answer call = .ok [] ∧
      (alone.machine? 0).map (·.store.hostIds) = some [⟨1⟩] ∧
      (both.machine? 0).map (·.store.hostIds) = some [⟨2⟩] ∧
      (both.after (.deed (.drop "b"))).host.registry.lookup ⟨2⟩ =
        both.host.registry.lookup ⟨2⟩ := by
  intro alone both call
  obtain ⟨hmatches, hanswer, hlookup⟩ :=
    noninterference disjoint_shareOf (surroundings {}) of_lendingTurns .first
  have hids : (both.machine? 0).map (·.store.hostIds) = some [⟨2⟩] := by decide +kernel
  obtain ⟨vm, hvm, hvmids⟩ := Option.map_eq_some_iff.mp hids
  have hlinks : both.Links (shareOf .first) ⟨2⟩ :=
    ⟨0, vm, rfl, hvm, hvmids ▸ List.mem_singleton.mpr rfl⟩
  exact ⟨⟨disjoint_shareOf, of_lendingTurns⟩, hmatches, hanswer call ⟨rfl, trivial⟩,
    by decide +kernel, by decide +kernel, hids, hlookup (.deed (.drop "b")) rfl ⟨2⟩ hlinks⟩

/-! ## Files -/

/-- The bytes of a module that makes a file in the first directory that is preopened. -/
def writerBytes : List UInt8 :=
  Vm.emptyBytes ++
    [1, 0x11, 2, 0x60, 9, 0x7f, 0x7f, 0x7f, 0x7f, 0x7f, 0x7e, 0x7e, 0x7f, 0x7f, 1, 0x7f,
      0x60, 0, 0] ++
    [2, 0x24, 1, 0x16, 0x77, 0x61, 0x73, 0x69, 0x5f, 0x73, 0x6e, 0x61, 0x70, 0x73, 0x68, 0x6f,
      0x74, 0x5f, 0x70, 0x72, 0x65, 0x76, 0x69, 0x65, 0x77, 0x31, 9, 0x70, 0x61, 0x74, 0x68, 0x5f,
      0x6f, 0x70, 0x65, 0x6e, 0, 0] ++
    [3, 2, 1, 1] ++ [5, 3, 1, 0, 1] ++ [7, 0x0a, 1, 6, 0x6d, 0x65, 0x6d, 0x6f, 0x72, 0x79, 2, 0] ++
    [8, 1, 1] ++
    [0x0a, 0x1a, 1, 0x18, 0, 0x41, 3, 0x41, 0, 0x41, 0, 0x41, 1, 0x41, 1, 0x42, 0xc2, 0, 0x42, 0,
      0x41, 0, 0x41, 8, 0x10, 0, 0x1a, 0x0b] ++
    [0x0b, 7, 1, 0, 0x41, 0, 0x0b, 1, 0x66]

/-- A guest of the second party makes a file, and the first party makes a machine. -/
def writingTurns : Interleaving :=
  [(.second, .new 1 World.wasiConfig),
    (.second, .command 1 (.refit (.ok ⟨[], [], [⟨"/work", "/data"⟩]⟩))),
    (.second, .command 1 (.load (.bytes writerBytes))), (.second, .command 1 .instantiate),
    (.first, .new 0 {})]

/-- **Where a party is alone and what is around the host stays what it was, operations can come to
something else.**  Loading a module from a file fails in another way if the file has been made by a
guest of the other party. -/
theorem interference_by_files :
    ¬ ∀ shares : Party → Share, (shares .first).Disjoint (shares .second) →
      ∀ (around : Surroundings) (turns : Interleaving), turns.Of shares →
        (∀ t ∈ turns, ∀ a, t.2 ≠ .around a) → ∀ (p : Party) (e : Event), e.Of (shares p) →
          Likewise RuntimeError.Like Eq
            (((Site.new around).afterAll (turns.eventsOf p)).answer e)
            (((Site.new around).afterAll turns.events).answer e) := by
  intro h
  have of : writingTurns.Of shareOf := by
    simp [Interleaving.Of, writingTurns, Event.Of, Vm.Command.Of, shareOf]
  have operations : ∀ t ∈ writingTurns, ∀ a, t.2 ≠ .around a := by simp [writingTurns]
  have hlike := h shareOf disjoint_shareOf (surroundings {}) writingTurns of operations .first
    (.command 0 (.load (.file "/work/f"))) ⟨rfl, trivial⟩
  have halone : ((Site.new (surroundings {})).afterAll (writingTurns.eventsOf .first)).answer
      (.command 0 (.load (.file "/work/f"))) =
        .error (.load (.unreadable "/work/f" .notFound)) := by
    decide +kernel
  have hboth : ((Site.new (surroundings {})).afterAll writingTurns.events).answer
      (.command 0 (.load (.file "/work/f"))) = .error (.load .tooSmall) := by
    decide +kernel
  rw [halone, hboth] at hlike
  cases hlike with
  | error he => cases he

/-! ## The standard input -/

/-- The bytes of a module whose start function reads one byte of the standard input, and traps if
there is none. -/
def readerBytes : List UInt8 :=
  Vm.emptyBytes ++
    [1, 0x0c, 2, 0x60, 4, 0x7f, 0x7f, 0x7f, 0x7f, 1, 0x7f, 0x60, 0, 0] ++
    [2, 0x22, 1, 0x16, 0x77, 0x61, 0x73, 0x69, 0x5f, 0x73, 0x6e, 0x61, 0x70, 0x73, 0x68, 0x6f,
      0x74, 0x5f, 0x70, 0x72, 0x65, 0x76, 0x69, 0x65, 0x77, 0x31, 7, 0x66, 0x64, 0x5f, 0x72, 0x65,
      0x61, 0x64, 0, 0] ++
    [3, 2, 1, 1] ++ [5, 3, 1, 0, 1] ++ [7, 0x0a, 1, 6, 0x6d, 0x65, 0x6d, 0x6f, 0x72, 0x79, 2, 0] ++
    [8, 1, 1] ++
    [0x0a, 0x19, 1, 0x17, 0, 0x41, 0, 0x41, 0, 0x41, 1, 0x41, 8, 0x10, 0, 0x1a, 0x41, 0, 0x2d, 0,
      8, 0x45, 4, 0x40, 0, 0x0b, 0x0b] ++
    [0x0b, 0x0e, 1, 0, 0x41, 0, 0x0b, 8, 16, 0, 0, 0, 1, 0, 0, 0]

/-- A guest of the second party reads from the standard input, and the first party loads a module
that does the same. -/
def readingTurns : Interleaving :=
  [(.second, .new 1 World.wasiConfig), (.second, .command 1 (.load (.bytes readerBytes))),
    (.second, .command 1 .instantiate), (.first, .new 0 World.wasiConfig),
    (.first, .command 0 (.load (.bytes readerBytes)))]

/-- **A byte that a guest of one party has read is gone for those of the other.**  Of the one byte
that there is to be read, the first party's guest gets nothing if the second party's guest has been
there before.  Not a file is involved. -/
theorem interference_by_input :
    let around := { surroundings {} with stdin := [[7]] }
    let alone := (Site.new around).afterAll (readingTurns.eventsOf .first)
    let both := (Site.new around).afterAll readingTurns.events
    alone.host.files.nodes = both.host.files.nodes ∧
      alone.answer (.command 0 .instantiate) = .ok [] ∧
      both.answer (.command 0 .instantiate) =
        .error (.instantiation "wasm trap: UnreachableCodeReached") := by
  decide +kernel

end WasmEmbedding
