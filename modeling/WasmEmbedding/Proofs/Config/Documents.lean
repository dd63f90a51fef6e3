import WasmEmbedding.Config.File
import WasmEmbedding.Config.Write
import WasmEmbedding.Proofs.Keyed

/-! # Configurations given in part

A document may leave out fields of what it describes, at any level, name keys that nobody knows, and
have its entries in any order.  `Document.Partial` is the relation between a document and the whole
document that it is a part of; it follows the shape of the documents, so that a table in a table may
be incomplete, too.

A record reads the fields that are there (`Partial.fields?`).  The reader collects the values under
each key that it knows, in whatever order they come, and refuses a key that is there twice; as the
keys of the whole document differ from each other, those of a part do.  A field that is gone is read
as absent, and an absent field has the value of a new configuration.  So a configuration is read off
with the fields that are gone at their defaults: `ConfigFile.of_partial` and `VmConfig.of_partial`,
whatever the notation.  A whole section that is gone is the same as one without fields.
-/
namespace WasmEmbedding

open Config (Document Dialect orElse)

/-! ## Documents in part -/

namespace Config.Document

/-- What is gone under a field. -/
def under (gone : List String → Bool) (name : String) (way : List String) : Bool :=
  gone (name :: way)

/-- A document in part: the fields of its tables that are gone, by the way to them, have been left
out, other keys have been added, and the entries are in any order. -/
inductive Partial : (List String → Bool) → Document → Document → Prop
  | leaf (gone : List String → Bool) {v : Document} (leaf : ∀ es, v ≠ .table es) : Partial gone v v
  | table {gone : List String → Bool} {fields : List (String × Document)}
      {written : String → Document} {extra entries : List (Option String × Document)}
      (kept : ∀ f ∈ fields, gone [f.1] = false → Partial (under gone f.1) f.2 (written f.1))
      (unknown : ∀ e ∈ extra, ∃ name, e.1 = some name ∧ name ∉ fields.map Prod.fst)
      (order : entries.Perm
        (((fields.filter fun f => !gone [f.1]).map fun f => (some f.1, written f.1)) ++ extra)) :
      Partial gone (.record fields) (.table entries)

/-- What is no table is there as it is. -/
theorem Partial.eq_of_leaf {gone : List String → Bool} {v w : Document} (h : Partial gone v w)
    (leaf : ∀ es, v ≠ .table es) : w = v := by
  cases h with
  | leaf _ _ => rfl
  | table => exact absurd rfl (leaf _)

theorem record_inj {a b : List (String × Document)} (h : Document.record a = .record b) : a = b :=
  List.map_injective_iff.mpr (fun x y hxy => by cases x; cases y; cases hxy; rfl)
    (Document.table.inj h)

mutual

/-- A document without the fields that are gone. -/
def without (gone : List String → Bool) : Document → Document
  | .table es => .table (entriesWithout gone es)
  | v => v

/-- Entries without the fields that are gone. -/
def entriesWithout (gone : List String → Bool) :
    List (Option String × Document) → List (Option String × Document)
  | [] => []
  | (k, v) :: es =>
    if gone [k.getD ""] then entriesWithout gone es
    else (k, without (under gone (k.getD "")) v) :: entriesWithout gone es

end

/-- A record without the fields that are gone. -/
theorem without_record (gone : List String → Bool) (fields : List (String × Document)) :
    (Document.record fields).without gone = .table ((fields.filter fun f => !gone [f.1]).map
      fun f => (some f.1, f.2.without (under gone f.1))) := by
  rw [record, without]
  congr 1
  induction fields with
  | nil => rfl
  | cons f fields ih =>
    rw [List.map_cons, entriesWithout, ih, Option.getD_some]
    cases hgone : gone [f.1] <;> simp [hgone]

/-- Leaving out the fields that are gone makes a document in part. -/
theorem partial_without {gone : List String → Bool} {fields : List (String × Document)}
    (hnodup : (fields.map Prod.fst).Nodup)
    (h : ∀ f ∈ fields, Partial (under gone f.1) f.2 (f.2.without (under gone f.1))) :
    Partial gone (.record fields) ((Document.record fields).without gone) := by
  have hlookup : ∀ f ∈ fields, (fields.lookup f.1).getD .null = f.2 := by
    intro f hf
    rw [lookup_of_mem hnodup hf]
    rfl
  rw [without_record]
  refine @Partial.table gone fields
    (fun name => ((fields.lookup name).getD .null).without (under gone name)) [] _ ?_ nofun ?_
  · intro f hf _
    rw [hlookup f hf]
    exact h f hf
  · rw [List.append_nil, List.map_congr_left fun f hf => ?_]
    rw [hlookup f (List.mem_of_mem_filter hf)]

/-! ## Reading records -/

variable {fields : List (String × Document)} {gone : List String → Bool}

/-- What stands under a name among the fields that are written. -/
theorem valuesAt_written (hnodup : (fields.map Prod.fst).Nodup) (written : String → Document)
    (name : String) :
    valuesAt name ((fields.filter fun f => !gone [f.1]).map fun f => (some f.1, written f.1)) =
      if name ∈ fields.map Prod.fst ∧ gone [name] = false then [written name] else [] := by
  induction fields with
  | nil => rfl
  | cons f fields ih =>
    obtain ⟨hf, hnodup⟩ := List.nodup_cons.mp hnodup
    have ih := ih hnodup
    rw [valuesAt] at ih ⊢
    by_cases hname : f.1 = name
    · subst hname
      rw [if_neg fun h => hf h.1] at ih
      cases hgone : gone [f.1] with
      | true => rw [List.filter_cons_of_neg (by simp [hgone]), ih, if_neg (by simp)]
      | false =>
        rw [List.filter_cons_of_pos (by simp [hgone]), List.map_cons, List.filterMap_cons, ih,
          if_pos ⟨List.mem_cons_self, rfl⟩]
        simp
    · have hmem : name ∈ (f :: fields).map Prod.fst ↔ name ∈ fields.map Prod.fst :=
        List.mem_cons.trans (or_iff_right fun h => hname h.symm)
      simp only [hmem, ← ih]
      cases hgone : gone [f.1] with
      | true => rw [List.filter_cons_of_neg (by simp [hgone])]
      | false =>
        rw [List.filter_cons_of_pos (by simp [hgone]), List.map_cons, List.filterMap_cons]
        simp [hname]

theorem valuesAt_cons (key name : String) (v : Document)
    (entries : List (Option String × Document)) :
    valuesAt key ((some name, v) :: entries) =
      if name = key then v :: valuesAt key entries else valuesAt key entries := by
  rw [valuesAt, List.filterMap_cons]
  by_cases h : name = key <;> simp [h, valuesAt]

theorem valuesAt_unknown {extra : List (Option String × Document)} {names : List String}
    (unknown : ∀ e ∈ extra, ∃ name, e.1 = some name ∧ name ∉ names) {name : String}
    (hname : name ∈ names) : valuesAt name extra = [] := by
  refine List.filterMap_eq_nil_iff.mpr fun e he => ?_
  obtain ⟨other, hother, hnot⟩ := unknown e he
  have hne : ¬ e.1 = some name := fun h => hnot (Option.some.inj (hother.symm.trans h) ▸ hname)
  exact if_neg hne

theorem mapM_eq_some_map {α β : Type} {f : α → Option β} {g : α → β} {l : List α}
    (h : ∀ a ∈ l, f a = some (g a)) : l.mapM f = some (l.map g) := by
  induction l with
  | nil => rfl
  | cons a l ih =>
    obtain ⟨ha, hl⟩ := List.forall_mem_cons.mp h
    rw [List.mapM_cons, ha, ih hl]
    rfl

/-- **A record has the fields that are not gone.** -/
theorem Partial.fields? {v : Document} (h : Partial gone (.record fields) v)
    (hnodup : (fields.map Prod.fst).Nodup) (d : Dialect) :
    ∃ written : String → Document,
      (∀ f ∈ fields, gone [f.1] = false → Partial (under gone f.1) f.2 (written f.1)) ∧
      d.fields? (fields.map Prod.fst) v =
        some (fields.map fun f => if gone [f.1] then none else some (written f.1)) := by
  generalize hrecord : Document.record fields = full at h
  cases h with
  | leaf _ leaf => exact absurd hrecord.symm (leaf _)
  | @table _ fields' written extra entries kept unknown order =>
    cases record_inj hrecord
    refine ⟨written, kept, ?_⟩
    have hnamed : (entries.any fun e => e.1.isNone) = false := by
      rw [order.any_eq, List.any_append, Bool.or_eq_false_iff]
      refine ⟨List.any_eq_false.mpr ?_, List.any_eq_false.mpr fun e he => ?_⟩
      · intro e he
        obtain ⟨f, -, rfl⟩ := List.mem_map.mp he
        exact Bool.false_ne_true
      · obtain ⟨name, hname, -⟩ := unknown e he
        rw [hname]
        exact Bool.false_ne_true
    have hanswer : ∀ f ∈ fields, valuesAt f.1 entries =
        if gone [f.1] then [] else [written f.1] := by
      intro f hf
      have hmem : f.1 ∈ fields.map Prod.fst := List.mem_map_of_mem hf
      -- A permutation of at most one value is that value, so the order does not matter.
      have hvalues := order.filterMap fun e => if e.1 = some f.1 then some e.2 else none
      rw [List.filterMap_append] at hvalues
      change (valuesAt f.1 entries).Perm (valuesAt f.1 _ ++ valuesAt f.1 extra) at hvalues
      rw [valuesAt_written hnodup, valuesAt_unknown unknown hmem, List.append_nil] at hvalues
      cases hgone : gone [f.1] with
      | true => simpa [hgone] using hvalues
      | false => simpa [hgone, hmem] using hvalues
    rw [Dialect.fields?, if_neg (Bool.eq_false_iff.mp hnamed), List.mapM_map,
      mapM_eq_some_map fun f hf => ?_]
    rw [Function.comp, hanswer f hf]
    cases gone [f.1] <;> rfl

end Config.Document

/-! ## The documents of configurations -/

section Without

open Config.Document (under Partial partial_without)

variable (gone : List String → Bool)

theorem EngineConfig.partial_without (c : EngineConfig) :
    Partial gone c.toDocument (c.toDocument.without gone) := by
  rw [toDocument]
  refine Document.partial_without (by simp) ?_
  simp only [List.forall_mem_cons]
  refine ⟨.leaf _ nofun, .leaf _ nofun, .leaf _ nofun, .leaf _ nofun, .leaf _ nofun, ?_, nofun⟩
  cases c.maxMemoryPages <;> exact .leaf _ nofun

theorem HostRegistrations.partial_without (c : HostRegistrations) :
    Partial gone c.toDocument (c.toDocument.without gone) := by
  rw [toDocument]
  refine Document.partial_without (by simp) ?_
  simp only [List.forall_mem_cons]
  exact ⟨.leaf _ nofun, nofun⟩

theorem StatisticsConfig.partial_without (c : StatisticsConfig) :
    Partial gone c.toDocument (c.toDocument.without gone) := by
  rw [toDocument]
  refine Document.partial_without (by simp) ?_
  simp only [List.forall_mem_cons]
  exact ⟨.leaf _ nofun, .leaf _ nofun, .leaf _ nofun, nofun⟩

theorem VmConfig.partial_without (c : VmConfig) :
    Partial gone c.toDocument (c.toDocument.without gone) := by
  rw [toDocument]
  refine Document.partial_without (by simp) ?_
  simp only [List.forall_mem_cons]
  refine ⟨c.engine.partial_without _, c.hostRegistrations.partial_without _,
    c.statistics.partial_without _, ?_, nofun⟩
  cases c.costLimit <;> exact .leaf _ nofun

theorem WasiSection.partial_without (c : WasiSection) :
    Partial gone c.toDocument (c.toDocument.without gone) := by
  rw [toDocument]
  refine Document.partial_without (by simp) ?_
  simp only [List.forall_mem_cons]
  exact ⟨.leaf _ nofun, .leaf _ nofun, .leaf _ nofun, nofun⟩

theorem ConfigFile.partial_without (c : ConfigFile) :
    Partial gone c.toDocument (c.toDocument.without gone) := by
  rw [toDocument]
  refine Document.partial_without (by simp) ?_
  simp only [List.forall_mem_cons]
  exact ⟨c.vm.partial_without _, c.wasi.partial_without _, nofun⟩

end Without

/-! ## Fields at their defaults -/

open Config.Document (under Partial)

/-- The settings with the fields that are gone as in new ones. -/
def EngineConfig.without (gone : List String → Bool) (c : EngineConfig) : EngineConfig :=
  let dflt : EngineConfig := {}
  { optLevel := if gone ["opt_level"] then dflt.optLevel else c.optLevel
    simd := if gone ["simd"] then dflt.simd else c.simd
    bulkMemory := if gone ["bulk_memory"] then dflt.bulkMemory else c.bulkMemory
    referenceTypes := if gone ["reference_types"] then dflt.referenceTypes else c.referenceTypes
    multiValue := if gone ["multi_value"] then dflt.multiValue else c.multiValue
    maxMemoryPages := if gone ["max_memory_pages"] then dflt.maxMemoryPages else c.maxMemoryPages }

/-- The host modules with the fields that are gone as in a new configuration. -/
def HostRegistrations.without (gone : List String → Bool) (c : HostRegistrations) :
    HostRegistrations :=
  let dflt : HostRegistrations := {}
  { wasi := if gone ["wasi"] then dflt.wasi else c.wasi }

/-- The measurements with the fields that are gone as in a new configuration. -/
def StatisticsConfig.without (gone : List String → Bool) (c : StatisticsConfig) :
    StatisticsConfig :=
  let dflt : StatisticsConfig := {}
  { instructionCounting :=
      if gone ["instruction_counting"] then dflt.instructionCounting else c.instructionCounting
    costMeasuring := if gone ["cost_measuring"] then dflt.costMeasuring else c.costMeasuring
    timeMeasuring := if gone ["time_measuring"] then dflt.timeMeasuring else c.timeMeasuring }

/-- The configuration with the sections and the fields that are gone as in a new one. -/
def VmConfig.without (gone : List String → Bool) (c : VmConfig) : VmConfig :=
  let dflt : VmConfig := {}
  { engine := if gone ["engine"] then dflt.engine else c.engine.without (under gone "engine")
    hostRegistrations :=
      if gone ["host_registrations"] then dflt.hostRegistrations
      else c.hostRegistrations.without (under gone "host_registrations")
    statistics :=
      if gone ["statistics"] then dflt.statistics
      else c.statistics.without (under gone "statistics")
    costLimit := if gone ["cost_limit"] then dflt.costLimit else c.costLimit }

/-- The environment with the fields that are gone as in a new one. -/
def WasiSection.without (gone : List String → Bool) (c : WasiSection) : WasiSection :=
  let dflt : WasiSection := {}
  { args := if gone ["args"] then dflt.args else c.args
    envs := if gone ["envs"] then dflt.envs else c.envs
    preopens := if gone ["preopens"] then dflt.preopens else c.preopens }

/-- The configuration file with the sections and the fields that are gone as in a new one. -/
def ConfigFile.without (gone : List String → Bool) (c : ConfigFile) : ConfigFile :=
  let dflt : ConfigFile := {}
  { vm := if gone ["vm"] then dflt.vm else c.vm.without (under gone "vm")
    wasi := if gone ["wasi"] then dflt.wasi else c.wasi.without (under gone "wasi") }

/-! ## Reading configurations -/

section Read

variable {d : Dialect} {gone : List String → Bool} {v : Document}

/-- A field that is gone has its default, and another one is read. -/
theorem orElse_written {α : Type} {g : Bool} {w : Document} {read? : Document → Option α}
    {dflt x : α} (h : g = false → read? w = some x) :
    orElse (if g then none else some w) read? dflt = some (if g then dflt else x) := by
  cases g with
  | true => rfl
  | false => exact h rfl

theorem Config.boolean?_of_partial {b : Bool} (h : Partial gone (.boolean b) v) :
    Config.boolean? v = some b := by
  rw [h.eq_of_leaf nofun]
  rfl

theorem Config.natural?_cast {bound n : Nat} (h : n < bound) :
    Config.natural? bound (.integer n) = some n := by
  rw [Config.natural?, if_pos ⟨Int.natCast_nonneg n, h⟩]
  rfl

theorem Config.word32?_of_partial {n : Option UInt32}
    (h : Partial gone (.ofNat? (n.map UInt32.toNat)) v) :
    Config.nullable? Config.word32? v = some n := by
  cases n with
  | none =>
    rw [h.eq_of_leaf nofun]
    rfl
  | some n =>
    rw [h.eq_of_leaf nofun]
    change (Config.word32? (.integer n.toNat)).map some = _
    rw [Config.word32?, Config.natural?_cast n.toNat_lt]
    exact congrArg (some ∘ some) n.ofNat_toNat

theorem Config.word64?_of_partial {n : Option UInt64}
    (h : Partial gone (.ofNat? (n.map UInt64.toNat)) v) :
    Config.nullable? Config.word64? v = some n := by
  cases n with
  | none =>
    rw [h.eq_of_leaf nofun]
    rfl
  | some n =>
    rw [h.eq_of_leaf nofun]
    change (Config.word64? (.integer n.toNat)).map some = _
    rw [Config.word64?, Config.natural?_cast n.toNat_lt]
    exact congrArg (some ∘ some) n.ofNat_toNat

theorem Config.optLevel?_of_partial {l : OptLevel} (h : Partial gone (.ofString l.name) v) :
    Config.optLevel? d v = some l := by
  rw [h.eq_of_leaf nofun]
  cases l <;> rfl

theorem Config.texts?_of_partial {l : List String}
    (h : Partial gone (.list (l.map Document.ofString)) v) : Config.texts? v = some l := by
  rw [h.eq_of_leaf nofun, Config.texts?, List.mapM_map]
  exact (Document.mapM_eq_some_map fun _ _ => rfl).trans (congrArg some l.map_id)

theorem EngineConfig.of_partial {c : EngineConfig} (h : Partial gone c.toDocument v) :
    Config.engineConfig? d v = some (c.without gone) := by
  rw [toDocument] at h
  obtain ⟨written, hwritten, hfields⟩ := h.fields? (by simp) d
  simp only [List.forall_mem_cons] at hwritten
  obtain ⟨hlevel, hsimd, hbulk, hreferences, hmulti, hpages, -⟩ := hwritten
  simp only [List.map] at hfields
  rw [Config.engineConfig?, hfields]
  simp only [Option.bind_eq_bind, Option.bind_some,
    orElse_written fun hg => Config.optLevel?_of_partial (d := d) (hlevel hg),
    orElse_written fun hg => Config.boolean?_of_partial (hsimd hg),
    orElse_written fun hg => Config.boolean?_of_partial (hbulk hg),
    orElse_written fun hg => Config.boolean?_of_partial (hreferences hg),
    orElse_written fun hg => Config.boolean?_of_partial (hmulti hg),
    orElse_written fun hg => Config.word32?_of_partial (hpages hg)]
  rfl

theorem HostRegistrations.of_partial {c : HostRegistrations} (h : Partial gone c.toDocument v) :
    Config.hostRegistrations? d v = some (c.without gone) := by
  rw [toDocument] at h
  obtain ⟨written, hwritten, hfields⟩ := h.fields? (by simp) d
  simp only [List.forall_mem_cons] at hwritten
  obtain ⟨hwasi, -⟩ := hwritten
  simp only [List.map] at hfields
  rw [Config.hostRegistrations?, hfields]
  simp only [Option.bind_eq_bind, Option.bind_some,
    orElse_written fun hg => Config.boolean?_of_partial (hwasi hg)]
  rfl

theorem StatisticsConfig.of_partial {c : StatisticsConfig} (h : Partial gone c.toDocument v) :
    Config.statisticsConfig? d v = some (c.without gone) := by
  rw [toDocument] at h
  obtain ⟨written, hwritten, hfields⟩ := h.fields? (by simp) d
  simp only [List.forall_mem_cons] at hwritten
  obtain ⟨hcount, hcost, htime, -⟩ := hwritten
  simp only [List.map] at hfields
  rw [Config.statisticsConfig?, hfields]
  simp only [Option.bind_eq_bind, Option.bind_some,
    orElse_written fun hg => Config.boolean?_of_partial (hcount hg),
    orElse_written fun hg => Config.boolean?_of_partial (hcost hg),
    orElse_written fun hg => Config.boolean?_of_partial (htime hg)]
  rfl

/-- **A machine's configuration is read off a document in part, with what is gone at its
default.** -/
theorem VmConfig.of_partial {c : VmConfig} (h : Partial gone c.toDocument v) :
    Config.vmConfig? d v = some (c.without gone) := by
  rw [toDocument] at h
  obtain ⟨written, hwritten, hfields⟩ := h.fields? (by simp) d
  simp only [List.forall_mem_cons] at hwritten
  obtain ⟨hengine, hhosts, hstatistics, hlimit, -⟩ := hwritten
  simp only [List.map] at hfields
  rw [Config.vmConfig?, hfields]
  simp only [Option.bind_eq_bind, Option.bind_some,
    orElse_written fun hg => EngineConfig.of_partial (d := d) (hengine hg),
    orElse_written fun hg => HostRegistrations.of_partial (d := d) (hhosts hg),
    orElse_written fun hg => StatisticsConfig.of_partial (d := d) (hstatistics hg),
    orElse_written fun hg => Config.word64?_of_partial (hlimit hg)]
  rfl

theorem WasiSection.of_partial {c : WasiSection} (h : Partial gone c.toDocument v) :
    Config.wasiSection? d v = some (c.without gone) := by
  rw [toDocument] at h
  obtain ⟨written, hwritten, hfields⟩ := h.fields? (by simp) d
  simp only [List.forall_mem_cons] at hwritten
  obtain ⟨hargs, henvs, hpreopens, -⟩ := hwritten
  simp only [List.map] at hfields
  rw [Config.wasiSection?, hfields]
  simp only [Option.bind_eq_bind, Option.bind_some,
    orElse_written fun hg => Config.texts?_of_partial (hargs hg),
    orElse_written fun hg => Config.texts?_of_partial (henvs hg),
    orElse_written fun hg => Config.texts?_of_partial (hpreopens hg)]
  rfl

/-- **So is a configuration file.** -/
theorem ConfigFile.of_partial {c : ConfigFile} (h : Partial gone c.toDocument v) :
    Config.configFile? d v = some (c.without gone) := by
  rw [toDocument] at h
  obtain ⟨written, hwritten, hfields⟩ := h.fields? (by simp) d
  simp only [List.forall_mem_cons] at hwritten
  obtain ⟨hvm, hwasi, -⟩ := hwritten
  simp only [List.map] at hfields
  rw [Config.configFile?, hfields]
  simp only [Option.bind_eq_bind, Option.bind_some,
    orElse_written fun hg => VmConfig.of_partial (d := d) (hvm hg),
    orElse_written fun hg => WasiSection.of_partial (d := d) (hwasi hg)]
  rfl

end Read

/-! ## Absent and empty sections -/

/-- **A section without entries is read as one that is not there**, whatever else there is. -/
theorem VmConfig.empty_section (d : Dialect) {name : String}
    (section_name : name ∈ ["engine", "host_registrations", "statistics"])
    {entries : List (Option String × Document)} (absent : some name ∉ entries.map Prod.fst) :
    Config.vmConfig? d (.table ((some name, .table []) :: entries)) =
      Config.vmConfig? d (.table entries) := by
  have hvalues : Document.valuesAt name entries = [] := by
    refine List.filterMap_eq_nil_iff.mpr fun e he => if_neg fun h => absent ?_
    exact h ▸ List.mem_map_of_mem he
  -- The defaults of the fields of a section make up the default of the section.
  have hengine : orElse (some (.table [])) (Config.engineConfig? d) {} =
      orElse none (Config.engineConfig? d) {} := rfl
  have hhosts : orElse (some (.table [])) (Config.hostRegistrations? d) {} =
      orElse none (Config.hostRegistrations? d) {} := rfl
  have hstatistics : orElse (some (.table [])) (Config.statisticsConfig? d) {} =
      orElse none (Config.statisticsConfig? d) {} := rfl
  rw [Config.vmConfig?, Config.vmConfig?, Dialect.fields?, Dialect.fields?, List.any_cons]
  simp only [Option.isNone_some, Bool.false_or]
  cases entries.any fun e => e.1.isNone with
  | true => rfl
  | false =>
    simp only [List.mem_cons, List.not_mem_nil, or_false] at section_name
    rcases section_name with rfl | rfl | rfl
    · simp [List.mapM_cons, Option.bind_assoc, Document.valuesAt_cons, hvalues, hengine]
    · simp [List.mapM_cons, Option.bind_assoc, Document.valuesAt_cons, hvalues, hhosts]
    · simp [List.mapM_cons, Option.bind_assoc, Document.valuesAt_cons, hvalues, hstatistics]

/-! ## Fields without a value -/

/-- The fields that have no value, which is what they have by default. -/
def EngineConfig.lacks (c : EngineConfig) (way : List String) : Bool :=
  way = ["max_memory_pages"] && c.maxMemoryPages.isNone

@[inherit_doc EngineConfig.lacks]
def VmConfig.lacks (c : VmConfig) : List String → Bool
  | [] => false
  | name :: way =>
    name = "engine" && c.engine.lacks way ||
      name = "cost_limit" && way.isEmpty && c.costLimit.isNone

@[inherit_doc EngineConfig.lacks]
def ConfigFile.lacks (c : ConfigFile) : List String → Bool
  | [] => false
  | name :: way => name = "vm" && c.vm.lacks way

theorem EngineConfig.without_lacks (c : EngineConfig) (gone : List String → Bool) :
    c.without (fun way => gone way || c.lacks way) = c.without gone := by
  obtain ⟨level, simd, bulk, references, multi, pages⟩ := c
  cases pages <;> simp [without, lacks]

theorem VmConfig.without_lacks (c : VmConfig) (gone : List String → Bool) :
    c.without (fun way => gone way || c.lacks way) = c.without gone := by
  have hengine : under (fun way => gone way || c.lacks way) "engine" =
      fun way => under gone "engine" way || c.engine.lacks way := by
    funext way
    simp [under, lacks]
  have hothers : ∀ name, name ≠ "engine" → name ≠ "cost_limit" →
      under (fun way => gone way || c.lacks way) name = under gone name := by
    intro name hne hne'
    funext way
    simp [under, lacks, hne, hne']
  simp only [without, hengine, c.engine.without_lacks,
    hothers "host_registrations" (by simp) (by simp), hothers "statistics" (by simp) (by simp)]
  cases hlimit : c.costLimit <;> simp [lacks, EngineConfig.lacks, hlimit]

theorem ConfigFile.without_lacks (c : ConfigFile) (gone : List String → Bool) :
    c.without (fun way => gone way || c.lacks way) = c.without gone := by
  have hvm : under (fun way => gone way || c.lacks way) "vm" =
      fun way => under gone "vm" way || c.vm.lacks way := by
    funext way
    simp [under, lacks]
  have hwasi : under (fun way => gone way || c.lacks way) "wasi" = under gone "wasi" := by
    funext way
    simp [under, lacks]
  simp only [without, hvm, hwasi, c.vm.without_lacks]
  simp [lacks, VmConfig.lacks]

end WasmEmbedding
