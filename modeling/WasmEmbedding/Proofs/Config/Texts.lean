import WasmEmbedding.Proofs.Config.Documents
import WasmEmbedding.Proofs.Config.Json
import WasmEmbedding.Proofs.Config.Toml.Layout

/-! # Configurations given in part, as texts

What a document in part says does not hang on the notation that it is written in.  To show this for
texts, the parsers of both notations have to be run on every text that a writer can make of such a
document, and the writers are those of `Config/Rendering` for JSON and `Config/Toml/Layout` for
TOML.  The texts are read back as their documents, TOML's up to the order of the entries
(`Document.Partial.laidOut`): TOML has the entries of a table before the tables in it, whatever the
order of the document.  That does no harm, as the reader of a record asks for its keys by name.

So a text gives the configuration with what it leaves out at its default (`VmConfig.ofJson_write`,
`ConfigFile.ofToml_write`), unknown keys or not.  That the statement is about something is the last
step: the texts that a configuration has without any of its fields are among them
(`VmConfig.fits_json`, `ConfigFile.fits_toml`).  `VmConfig.given_in_part` puts them together, with
what a configuration that is given in part means for metering.
-/
namespace WasmEmbedding

open Config (Document)
open Config.Document (under Partial)

variable {gone : List String → Bool} {doc : Document} {text : String}

/-! ## Texts of configurations in part -/

/-- The layout of a document in part is one, too. -/
theorem Config.Document.Partial.laidOut {full : Document} (h : Partial gone full doc) :
    Partial gone full (Config.Toml.laidOut doc) := by
  induction h with
  | @leaf gone v leaf =>
    cases v with
    | table => exact absurd rfl (leaf _)
    | _ => exact .leaf gone leaf
  | @table gone fields written extra entries _ unknown order ih =>
    rw [Config.Toml.laidOut]
    refine @Partial.table gone fields (fun name => Config.Toml.laidOut (written name))
      (extra.map fun e => (e.1, Config.Toml.laidOut e.2)) _ ih ?_ ?_
    · intro e he
      obtain ⟨e', he', rfl⟩ := List.mem_map.mp he
      exact unknown e' he'
    · refine (Config.Toml.perm_laidOut entries).trans ?_
      have hmoved := order.map fun e => (e.1, Config.Toml.laidOut e.2)
      rwa [List.map_append, List.map_map] at hmoved

theorem Config.Document.Partial.exists_table {fields : List (String × Document)}
    (h : Partial gone (.record fields) doc) : ∃ entries, doc = .table entries := by
  generalize hrecord : Document.record fields = full at h
  cases h with
  | leaf _ leaf => exact absurd hrecord.symm (leaf _)
  | @table _ _ _ _ entries => exact ⟨entries, rfl⟩

theorem VmConfig.ofJson_of_partial {c : VmConfig} (h : Partial gone c.toDocument doc)
    (hparse : Config.Json.parse? text = some doc) : ofJson text = some (c.without gone) := by
  rw [ofJson, hparse]
  exact VmConfig.of_partial h

theorem VmConfig.ofJson_write {c : VmConfig} (h : Partial gone c.toDocument doc)
    (fit : Config.Json.Fits doc) : ofJson (Config.Json.write doc) = some (c.without gone) :=
  ofJson_of_partial h (Config.Json.parse?_write fit)

theorem ConfigFile.ofToml_of_partial {c : ConfigFile}
    (h : Partial (fun way => gone way || c.lacks way) c.toDocument doc)
    (hparse : Config.Toml.parse? text = some doc) : ofToml text = .ok (c.without gone) := by
  have hread := ConfigFile.of_partial (d := .toml) h
  rw [ConfigFile.without_lacks] at hread
  rw [ofToml, hparse]
  simp only [hread]

theorem ConfigFile.ofToml_write {c : ConfigFile}
    (h : Partial (fun way => gone way || c.lacks way) c.toDocument doc)
    (fit : Config.Toml.Fits (Config.Toml.maxDepth + 1) doc) :
    ofToml (Config.Toml.write doc) = .ok (c.without gone) := by
  obtain ⟨entries, rfl⟩ := h.exists_table
  exact ofToml_of_partial h.laidOut (Config.Toml.parse?_write fit)

/-! ## Every configuration has such texts -/

/-- The entries of a record that are not gone. -/
theorem Config.Document.exists_field {fields : List (String × Document)}
    {e : Option String × Document} (he : e ∈ (fields.filter fun f => !gone [f.1]).map
      fun f => (some f.1, f.2.without (under gone f.1))) :
    ∃ f ∈ fields, gone [f.1] = false ∧ e = (some f.1, f.2.without (under gone f.1)) := by
  obtain ⟨f, hf, rfl⟩ := List.mem_map.mp he
  obtain ⟨hf, hkept⟩ := List.mem_filter.mp hf
  exact ⟨f, hf, by simpa using hkept, rfl⟩

theorem Config.Document.without_ofNat? (n : Option Nat) :
    (Document.ofNat? n).without gone = .ofNat? n := by
  cases n <;> rfl

/-- What a notation has texts for: documents up to some depth, whose leaves are left to it. -/
structure Config.Writes (P : Nat → Document → Prop) : Prop where
  boolean (depth : Nat) (b : Bool) : P depth (.boolean b)
  text (depth : Nat) (s : String) : P depth (.ofString s)
  list {depth : Nat} {items : List Document} :
    (∀ v ∈ items, P depth v) → P (depth + 1) (.list items)
  /-- A record has the fields that are not gone. -/
  record {depth : Nat} {gone : List String → Bool} {fields : List (String × Document)} :
    (fields.map Prod.fst).Nodup →
    (∀ f ∈ fields, gone [f.1] = false → P depth (f.2.without (under gone f.1))) →
    P (depth + 1) ((Document.record fields).without gone)

namespace Config.Json

theorem writes : Writes fun _ => Fits where
  boolean _ := .boolean
  text _ := .text
  list := .list
  record {_ gone fields} _ h := by
    rw [Document.without_record]
    refine .table ?_ ?_
    · intro e he
      obtain ⟨f, -, -, rfl⟩ := Document.exists_field he
      rfl
    · intro e he
      obtain ⟨f, hf, hkept, rfl⟩ := Document.exists_field he
      exact h f hf hkept

theorem fits_ofNat? {n : Option Nat} (h : ∀ m ∈ n, m < Nat.pow 2 64) : Fits (.ofNat? n) := by
  cases n with
  | none => exact .null
  | some n =>
    have hn := h n rfl
    exact .integer (by omega) (by omega)

end Config.Json

namespace Config.Toml

theorem writes : Writes Fits where
  boolean := .boolean
  text := .text
  list := .list
  record {_ gone fields} distinct h := by
    rw [Document.without_record]
    refine .table ?_ ?_ ?_
    · intro e he
      obtain ⟨f, -, -, rfl⟩ := Document.exists_field he
      rfl
    · have hkept : ((fields.filter fun f => !gone [f.1]).map Prod.fst).Nodup :=
        distinct.sublist (List.filter_sublist.map Prod.fst)
      have hnames := hkept.map (f := some) fun _ _ h => Option.some.inj h
      rw [List.map_map] at hnames ⊢
      exact hnames
    · intro e he
      obtain ⟨f, hf, hkept, rfl⟩ := Document.exists_field he
      exact h f hf hkept

theorem fits_ofNat? {n : Option Nat} (present : n.isSome = true) (h : ∀ m ∈ n, m < Nat.pow 2 63)
    (depth : Nat) : Fits depth (.ofNat? n) := by
  obtain ⟨n, rfl⟩ := Option.isSome_iff_exists.mp present
  have hn := h n rfl
  exact .integer depth (by omega) (by omega)

end Config.Toml

section Writes

variable {P : Nat → Document → Prop} (w : Config.Writes P) (depth : Nat)

include w

theorem EngineConfig.written (c : EngineConfig)
    (pages : gone ["max_memory_pages"] = false →
      P depth (.ofNat? (c.maxMemoryPages.map UInt32.toNat))) :
    P (depth + 1) (c.toDocument.without gone) := by
  refine w.record (by simp) ?_
  simp only [List.forall_mem_cons]
  refine ⟨fun _ => w.text .., fun _ => w.boolean .., fun _ => w.boolean .., fun _ => w.boolean ..,
    fun _ => w.boolean .., fun hkept => ?_, nofun⟩
  rw [Document.without_ofNat?]
  exact pages hkept

theorem HostRegistrations.written (c : HostRegistrations) :
    P (depth + 1) (c.toDocument.without gone) := by
  refine w.record (by simp) ?_
  simp only [List.forall_mem_cons]
  exact ⟨fun _ => w.boolean .., nofun⟩

theorem StatisticsConfig.written (c : StatisticsConfig) :
    P (depth + 1) (c.toDocument.without gone) := by
  refine w.record (by simp) ?_
  simp only [List.forall_mem_cons]
  exact ⟨fun _ => w.boolean .., fun _ => w.boolean .., fun _ => w.boolean .., nofun⟩

/-- A machine's configuration has a text if its numbers have one, or are gone. -/
theorem VmConfig.written (c : VmConfig)
    (pages : gone ["engine", "max_memory_pages"] = false →
      P depth (.ofNat? (c.engine.maxMemoryPages.map UInt32.toNat)))
    (limit : gone ["cost_limit"] = false →
      P (depth + 1) (.ofNat? (c.costLimit.map UInt64.toNat))) :
    P (depth + 2) (c.toDocument.without gone) := by
  refine w.record (by simp) ?_
  simp only [List.forall_mem_cons]
  refine ⟨fun _ => c.engine.written w depth pages, fun _ => c.hostRegistrations.written w depth,
    fun _ => c.statistics.written w depth, fun hkept => ?_, nofun⟩
  rw [Document.without_ofNat?]
  exact limit hkept

theorem WasiSection.written (c : WasiSection) : P (depth + 2) (c.toDocument.without gone) := by
  have htexts : ∀ l : List String, P (depth + 1) (.list (l.map .ofString)) := by
    intro l
    refine w.list fun v hv => ?_
    obtain ⟨s, -, rfl⟩ := List.mem_map.mp hv
    exact w.text depth s
  refine w.record (by simp) ?_
  simp only [List.forall_mem_cons]
  exact ⟨fun _ => htexts _, fun _ => htexts _, fun _ => htexts _, nofun⟩

end Writes

theorem VmConfig.fits_json (c : VmConfig) (gone : List String → Bool) :
    Config.Json.Fits (c.toDocument.without gone) := by
  refine c.written Config.Json.writes 0 (fun _ => ?_) fun _ => ?_
  · refine Config.Json.fits_ofNat? fun m hm => ?_
    obtain ⟨pages, -, rfl⟩ := Option.map_eq_some_iff.mp hm
    exact Nat.lt_trans pages.toNat_lt (by decide)
  · refine Config.Json.fits_ofNat? fun m hm => ?_
    obtain ⟨limit, -, rfl⟩ := Option.map_eq_some_iff.mp hm
    exact limit.toNat_lt

theorem ConfigFile.fits_toml (c : ConfigFile) (gone : List String → Bool)
    (low : ∀ limit ∈ c.vm.costLimit, limit.toNat < Nat.pow 2 63) :
    Config.Toml.Fits (Config.Toml.maxDepth + 1)
      (c.toDocument.without fun way => gone way || c.lacks way) := by
  refine Config.Toml.writes.record (by simp) ?_
  simp only [List.forall_mem_cons]
  refine ⟨fun _ => ?_, fun _ => c.wasi.written Config.Toml.writes _, nofun⟩
  refine c.vm.written Config.Toml.writes _ (fun hkept => ?_) fun hkept => ?_
  · refine Config.Toml.fits_ofNat? ?_ (fun m hm => ?_) _
    · cases hpages : c.vm.engine.maxMemoryPages with
      | some => rfl
      | none => simp [under, lacks, VmConfig.lacks, EngineConfig.lacks, hpages] at hkept
    · obtain ⟨pages, -, rfl⟩ := Option.map_eq_some_iff.mp hm
      exact Nat.lt_trans pages.toNat_lt (by decide)
  · refine Config.Toml.fits_ofNat? ?_ (fun m hm => ?_) _
    · cases hlimit : c.vm.costLimit with
      | some => rfl
      | none => simp [under, lacks, VmConfig.lacks, hlimit] at hkept
    · obtain ⟨limit, hlimit, rfl⟩ := Option.map_eq_some_iff.mp hm
      exact low limit hlimit

/-! ## Nothing is gone -/

theorem VmConfig.without_none (c : VmConfig) : c.without (fun _ => false) = c := rfl

theorem VmConfig.document_without_none (c : VmConfig) :
    c.toDocument.without (fun _ => false) = c.toDocument := by
  obtain ⟨⟨level, simd, bulk, references, multi, pages⟩, hosts, statistics, limit⟩ := c
  cases pages <;> cases limit <;> rfl

/-! ## Main theorem -/

open Config (Dialect) in
/-- **A configuration is read off a document in part, with what is gone at its default**, in either
notation, whatever keys are added that nobody knows and in whatever order the entries come.  A
configuration that is written in full is read back.  The defaults are those of new records, so that
a section that is empty says as little as one that is gone.  Whether the engine meters is left to
three fields, and nothing else that is given or left out matters for it. -/
theorem VmConfig.given_in_part (c : VmConfig) :
    -- The configuration is read back.
    ofJson (Config.Json.write c.toDocument) = some c ∧
    -- Whatever is gone, added and moved, what is gone is at its default and the rest is as it was.
    (∀ gone doc, Partial gone c.toDocument doc →
      (∀ text, Config.Json.parse? text = some doc → ofJson text = some (c.without gone)) ∧
      (Config.Json.Fits doc → ofJson (Config.Json.write doc) = some (c.without gone))) ∧
    -- The defaults of the fields are those of new records, and an empty section is an absent one.
    (∀ d : Dialect, Config.engineConfig? d (.table []) = some {} ∧
      Config.hostRegistrations? d (.table []) = some {} ∧
      Config.statisticsConfig? d (.table []) = some {} ∧ Config.vmConfig? d (.table []) = some {} ∧
      ∀ name ∈ ["engine", "host_registrations", "statistics"], ∀ entries,
        some name ∉ entries.map Prod.fst →
        Config.vmConfig? d (.table ((some name, .table []) :: entries)) =
          Config.vmConfig? d (.table entries)) ∧
    -- In a configuration file the fields without a value are not written.
    (∀ file : ConfigFile, file.vm = c → ∀ gone doc,
      Partial (fun way => gone way || file.lacks way) file.toDocument doc →
      (∀ text, Config.Toml.parse? text = some doc →
        ConfigFile.ofToml text = .ok (file.without gone)) ∧
      (Config.Toml.Fits (Config.Toml.maxDepth + 1) doc →
        ConfigFile.ofToml (Config.Toml.write doc) = .ok (file.without gone))) ∧
    -- Both notations have the document if its numbers have a sign and 63 bits, and agree on it.
    ((∀ limit ∈ c.costLimit, limit.toNat < Nat.pow 2 63) →
      ∀ file : ConfigFile, file.vm = c → ∀ gone, gone ["vm"] = false →
      ofJson (Config.Json.write (c.toDocument.without (under gone "vm"))) =
        some (c.without (under gone "vm")) ∧
      (ConfigFile.ofToml (Config.Toml.write (file.toDocument.without fun way =>
        gone way || file.lacks way))).map ConfigFile.vm = .ok (c.without (under gone "vm"))) ∧
    -- Three fields decide whether the engine meters.
    ∀ c' : VmConfig, c'.statistics.instructionCounting = c.statistics.instructionCounting →
      c'.statistics.costMeasuring = c.statistics.costMeasuring →
      c'.costLimit.isSome = c.costLimit.isSome → c'.meters = c.meters := by
  have hjson : ∀ gone, ofJson (Config.Json.write (c.toDocument.without gone)) =
      some (c.without gone) := fun gone =>
    ofJson_write (c.partial_without gone) (c.fits_json gone)
  refine ⟨?_, ?_, ?_, ?_, ?_, ?_⟩
  · have hall := hjson fun _ => false
    rwa [c.document_without_none, c.without_none] at hall
  · intro gone doc h
    exact ⟨fun text => ofJson_of_partial h, ofJson_write h⟩
  · intro d
    exact ⟨rfl, rfl, rfl, rfl, fun name hname entries => empty_section d hname⟩
  · intro file _ gone doc h
    exact ⟨fun text => ConfigFile.ofToml_of_partial h, ConfigFile.ofToml_write h⟩
  · rintro low file rfl gone hvm
    refine ⟨hjson _, ?_⟩
    rw [ConfigFile.ofToml_write (file.partial_without _) (file.fits_toml gone low)]
    simp [ConfigFile.without, hvm, Except.map]
  · intro c' hcount hcost hlimit
    rw [meters, meters, hcount, hcost, hlimit]

/-- A configuration with other values than a new one has. -/
def VmConfig.thrifty : VmConfig where
  engine := { optLevel := .none, simd := false, bulkMemory := false, maxMemoryPages := some 16 }
  hostRegistrations := ⟨true⟩
  statistics := .all
  costLimit := some 7

/-- All of it is gone but one field. -/
def VmConfig.thriftyGone (way : List String) : Bool := way ∉ [[], ["engine"], ["engine", "simd"]]

/-- What is left of it, with two fields that nobody knows. -/
def VmConfig.thriftyDocument : Document := .table [(some "x", .list [.integer 4]),
  (some "engine", .table [(some "y", .boolean true), (some "simd", .boolean false)])]

theorem VmConfig.partial_thriftyDocument :
    Partial thriftyGone thrifty.toDocument thriftyDocument := by
  have hengine : Partial (under thriftyGone "engine") thrifty.engine.toDocument
      (.table [(some "y", .boolean true), (some "simd", .boolean false)]) := by
    refine @Partial.table _ _ (fun _ => .boolean false) [(some "y", .boolean true)] _ ?_ ?_
      (.swap _ _ [])
    · simp only [List.forall_mem_cons]
      refine ⟨?_, fun _ => .leaf _ nofun, ?_, ?_, ?_, ?_, List.forall_mem_nil _⟩
      all_goals exact fun kept => absurd kept (by decide)
    · simp
  refine @Partial.table _ _ (fun _ => _) [(some "x", .list [.integer 4])] _ ?_ ?_ (.swap _ _ [])
  · simp only [List.forall_mem_cons]
    refine ⟨fun _ => hengine, ?_, ?_, ?_, List.forall_mem_nil _⟩
    all_goals exact fun kept => absurd kept (by decide)
  · simp

/-- What TOML has a value for JSON has, too. -/
theorem Config.Toml.Fits.json {depth : Nat} (h : Config.Toml.Fits depth doc) :
    Config.Json.Fits doc := by
  induction h with
  | boolean _ b => exact .boolean b
  | integer _ low high => exact .integer low (Int.lt_trans high (by decide))
  | float _ => exact .float
  | text _ s => exact .text s
  | list _ ih => exact .list ih
  | table named _ _ ih => exact .table named ih

theorem VmConfig.fits_thriftyDocument (depth : Nat) :
    Config.Toml.Fits (depth + 2) thriftyDocument := by
  refine .table (by simp) (by simp) ?_
  simp only [List.forall_mem_cons]
  refine ⟨.list ?_, .table (by simp) (by simp) ?_, nofun⟩
  · simp only [List.forall_mem_cons]
    exact ⟨.integer _ (by decide) (by decide), nofun⟩
  · simp only [List.forall_mem_cons]
    exact ⟨.boolean _ _, .boolean _ _, nofun⟩

/-- A configuration file with it. -/
def ConfigFile.thrifty : ConfigFile := ⟨.thrifty, { args := ["guest"] }⟩

/-- What is gone of the file. -/
def ConfigFile.thriftyGone : List String → Bool
  | [] => false
  | name :: way => name ≠ "vm" || VmConfig.thriftyGone way

theorem ConfigFile.partial_thriftyDocument :
    Partial (fun way => thriftyGone way || thrifty.lacks way) thrifty.toDocument
      (.table [(some "vm", VmConfig.thriftyDocument)]) := by
  have hgone : under (fun way => thriftyGone way || thrifty.lacks way) "vm" =
      VmConfig.thriftyGone := by
    funext way
    cases way <;> simp [under, thriftyGone, lacks, thrifty, VmConfig.lacks, VmConfig.thrifty,
      EngineConfig.lacks]
  refine @Partial.table _ _ (fun _ => VmConfig.thriftyDocument) [] _ ?_ (List.forall_mem_nil _)
    (.refl _)
  simp only [List.forall_mem_cons]
  refine ⟨fun _ => ?_, fun kept => absurd kept (by decide), List.forall_mem_nil _⟩
  rw [hgone]
  exact VmConfig.partial_thriftyDocument

/-- The configuration and the file are given in part, with little left of them, and both notations
have a text of that; they also have one without the engine's settings. -/
theorem VmConfig.given_in_part_thrifty :
    (Partial thriftyGone thrifty.toDocument thriftyDocument ∧
      Config.Json.Fits thriftyDocument ∧
      ofJson "\x7b\"x\":[4],\"engine\":\x7b\"y\":true,\"simd\":false\x7d\x7d" =
        some { engine := { simd := false } } ∧
      ofJson (Config.Json.write thriftyDocument) = some { engine := { simd := false } }) ∧
    Config.vmConfig? .json (.table [(some "engine", .table []), (some "x", .null)]) =
      Config.vmConfig? .json (.table [(some "x", .null)]) ∧
    (Config.Toml.parse? (Config.Toml.write (.table [(some "vm", thriftyDocument)])) =
        some (.table [(some "vm", thriftyDocument)]) ∧
      ConfigFile.ofToml (Config.Toml.write (.table [(some "vm", thriftyDocument)])) =
        .ok { vm := { engine := { simd := false } } }) ∧
    (ConfigFile.ofToml (Config.Toml.write (ConfigFile.thrifty.toDocument.without fun way =>
        way == ["vm", "engine"] || ConfigFile.thrifty.lacks way))).map ConfigFile.vm =
      .ok { thrifty with engine := {} } ∧
    ({ statistics := { StatisticsConfig.all with timeMeasuring := false }, costLimit := some 0 } :
      VmConfig).meters = thrifty.meters := by
  obtain ⟨-, hjson, hsections, htoml, hboth, hmeters⟩ := given_in_part thrifty
  have hfits := fits_thriftyDocument 0
  have htext : Config.Json.write thriftyDocument =
      "\x7b\"x\":[4],\"engine\":\x7b\"y\":true,\"simd\":false\x7d\x7d" := rfl
  have hparse := Config.Json.parse?_write hfits.json
  rw [htext] at hparse
  have hvm : Config.Toml.Fits (Config.Toml.maxDepth + 1)
      (.table [(some "vm", thriftyDocument)]) := by
    refine .table (by simp) (by simp) ?_
    simp only [List.forall_mem_cons]
    exact ⟨fits_thriftyDocument _, List.forall_mem_nil _⟩
  have hlaid := Config.Toml.parse?_write hvm
  obtain ⟨hread, hwritten⟩ := hjson _ _ partial_thriftyDocument
  obtain ⟨hfile, -⟩ := htoml _ rfl _ _ ConfigFile.partial_thriftyDocument
  refine ⟨⟨partial_thriftyDocument, hfits.json, hread _ hparse, hwritten hfits.json⟩, ?_,
    ⟨hlaid, hfile _ hlaid⟩, ?_, hmeters _ rfl rfl rfl⟩
  · exact (hsections .json).2.2.2.2 _ (by simp) _ (by simp)
  · exact (hboth (by simp [thrifty]) _ rfl _ rfl).2

end WasmEmbedding
