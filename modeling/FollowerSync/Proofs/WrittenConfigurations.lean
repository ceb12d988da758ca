import FollowerSync.Config.Document
import FollowerSync.Proofs.Ranges
import FollowerSync.Proofs.Rereading
import FollowerSync.Proofs.Spellings

set_option autoImplicit false

namespace FollowerSync

namespace Document
open Toml

theorem map_lookup_zip {names : List String} {values : List Value} (distinct : names.Nodup)
    (length : names.length = values.length) :
    (names.map fun name => (names.zip values).lookup name) = values.map some := by
  induction names generalizing values with
  | nil =>
    cases values with
    | nil => rfl
    | cons => cases length
  | cons n names ih =>
    cases values with
    | nil => cases length
    | cons v values =>
      rw [List.nodup_cons] at distinct
      have later : (names.map fun name => ((n, v) :: names.zip values).lookup name) =
          names.map fun name => (names.zip values).lookup name := by
        refine List.map_congr_left fun name mem => ?_
        have : name ≠ n := by
          rintro rfl
          exact distinct.1 mem
        rw [List.lookup_cons, beq_false_of_ne this]
      have here : ((n, v) :: names.zip values).lookup n = some v := List.lookup_cons_self
      rw [List.zip_cons_cons, List.map_cons, List.map_cons, here, later,
        ih distinct.2 (Nat.succ.inj length)]

theorem fields?_zip {names : List String} {values : List Value} (form : ListForm)
    (distinct : names.Nodup) (length : names.length = values.length) :
    (Value.table (names.zip values)).fields? form names = some (values.map some) := by
  rw [Value.fields?, map_lookup_zip distinct length]

end Document

namespace Config
open Document Numeric

-- The readers of numbers become variables below: their bounds are too large to be computed with.

theorem uint64?_reads : ∃ read : Reader UInt64, Value.uint64? = read ∧
    ∀ n, read (whole n) = some n := by
  refine ⟨_, rfl, fun n => ?_⟩
  have : n.toNat < UInt64.size := n.toNat_lt
  have fits : (0 : Int) ≤ n.toNat ∧ (n.toNat : Int) < UInt64.size := ⟨by omega, by omega⟩
  rw [whole, Value.uint64?, Value.natBelow?, if_pos fits, Int.toNat_natCast, Option.map_some,
    UInt64.ofNat_toNat]

theorem uint32?_reads : ∃ read : Reader UInt32, Value.uint32? = read ∧
    ∀ n : UInt32, read (.integer n.toNat) = some n := by
  refine ⟨_, rfl, fun n => ?_⟩
  have : n.toNat < UInt32.size := n.toNat_lt
  have fits : (0 : Int) ≤ n.toNat ∧ (n.toNat : Int) < UInt32.size := ⟨by omega, by omega⟩
  rw [Value.uint32?, Value.natBelow?, if_pos fits, Int.toNat_natCast, Option.map_some,
    UInt32.ofNat_toNat]

theorem Node.ofDocument?_values (n : Node) :
    Node.ofDocument? (.table (fieldNames.zip n.values)) = some n := by
  obtain ⟨read, same, numbers⟩ := uint64?_reads
  rw [ofDocument?, fields?_zip .surplus (by decide) rfl, same]
  simp [values, required, Document.optional, Value.text?, numbers]

theorem Pacing.ofDocument?_values (p : Pacing) :
    Pacing.ofDocument? (.table (fieldNames.zip p.values)) = some p := by
  obtain ⟨read, same, numbers⟩ := uint64?_reads
  obtain ⟨readShort, sameShort, shortNumbers⟩ := uint32?_reads
  rw [ofDocument?, fields?_zip .surplus (by decide) rfl, same, sameShort, Option.bind_eq_bind,
    Option.bind_some]
  dsimp only [values, List.map, Document.optional, Value.float?]
  simp only [numbers, shortNumbers, Option.bind_eq_bind, Option.bind_some]
  rfl

theorem Requests.ofDocument?_values (r : Requests) :
    Requests.ofDocument? (.table (fieldNames.zip r.values)) = some r := by
  obtain ⟨read, same, numbers⟩ := uint64?_reads
  rw [ofDocument?, fields?_zip .surplus (by decide) rfl, same]
  simp [values, Document.optional, numbers]

theorem Logging.ofDocument?_values (l : Logging) :
    Logging.ofDocument? (.table (fieldNames.zip l.values)) = some l := by
  rw [ofDocument?, fields?_zip .surplus (by decide) rfl]
  simp [values, Document.optional, Value.text?]

theorem ofDocument?_sections (c : Config) :
    ofDocument? (.table (c.sections.map fun s => (s.name, .table s.fields))) = some c := by
  have tables : (c.sections.map fun s => (s.name, Value.table s.fields)) =
      partNames.zip [.table (Node.fieldNames.zip c.node.values),
        .table (Pacing.fieldNames.zip c.pacing.values),
        .table (Requests.fieldNames.zip c.requests.values),
        .table (Logging.fieldNames.zip c.logging.values)] := rfl
  have read {node pacing requests logging : Value}
      (readNode : Node.ofDocument? node = some c.node)
      (readPacing : Pacing.ofDocument? pacing = some c.pacing)
      (readRequests : Requests.ofDocument? requests = some c.requests)
      (readLogging : Logging.ofDocument? logging = some c.logging) :
      ofDocument? (.table (partNames.zip [node, pacing, requests, logging])) = some c := by
    rw [ofDocument?, fields?_zip .surplus (by decide) rfl]
    simp [required, Document.optional, readNode, readPacing, readRequests, readLogging]
  rw [tables]
  exact read (Node.ofDocument?_values _) (Pacing.ofDocument?_values _)
    (Requests.ofDocument?_values _) (Logging.ofDocument?_values _)

def FloatsLegible (c : Config) : Prop :=
  ∀ x ∈ [c.pacing.softLockDutyCycle, c.pacing.backoffMax],
    Toml.Legible (.float x) x.settingText.toList

theorem legible_scalar {v : Value} {text : String} (written : Toml.scalarText? v = some text)
    (floats : ∀ x, v = .float x → Toml.Legible (.float x) x.settingText.toList) :
    Toml.Legible v text.toList := by
  cases v with
  | text s =>
    cases written
    exact Toml.legible_text s
  | integer n =>
    obtain ⟨fits, ⟨⟩⟩ : Toml.fitsInt64 n ∧ some (Toml.integerText n) = some text := by
      simpa [Toml.scalarText?] using written
    exact Toml.legible_integer fits
  | float x =>
    cases written
    exact floats x rfl
  | boolean b =>
    cases written
    exact Toml.legible_boolean b
  | _ => cases written

theorem names_bare : ∀ name ∈ partNames ++ Node.fieldNames ++ Pacing.fieldNames ++
    Requests.fieldNames ++ Logging.fieldNames, Toml.Bare name := by
  have checked : ((partNames ++ Node.fieldNames ++ Pacing.fieldNames ++ Requests.fieldNames ++
      Logging.fieldNames).all fun name =>
        !name.toList.isEmpty && name.toList.all Toml.isBareKey) = true := by
    decide +kernel
  intro name mem
  simpa [Toml.Bare] using List.all_eq_true.mp checked name mem

/-- A part of a configuration as a section: its names stand without quotes and are told apart, and
its values are those of the part. -/
structure Labelled (c : Config) (s : Toml.Section) (names : List String) (values : List Value) :
    Prop where
  fields_eq : s.fields = names.zip values
  bare : ∀ name ∈ s.name :: names, Toml.Bare name
  distinct : names.Nodup
  length_eq : names.length = values.length
  values_mem : values ∈ [c.node.values, c.pacing.values, c.requests.values, c.logging.values]

theorem exists_labelled {c : Config} {s : Toml.Section} (mem : s ∈ c.sections) :
    ∃ names values, Labelled c s names values := by
  have bare (part : String) (names : List String)
      (among : ∀ name ∈ part :: names, name ∈ partNames ++ Node.fieldNames ++ Pacing.fieldNames ++
        Requests.fieldNames ++ Logging.fieldNames) : ∀ name ∈ part :: names, Toml.Bare name :=
    fun name mem => names_bare name (among name mem)
  simp only [sections, List.mem_cons, List.not_mem_nil, or_false] at mem
  rcases mem with rfl | rfl | rfl | rfl
  · exact ⟨Node.fieldNames, c.node.values, rfl, bare "node" _ (by decide), by decide, rfl, by simp⟩
  · exact ⟨Pacing.fieldNames, c.pacing.values, rfl, bare "sync" _ (by decide), by decide, rfl,
      by simp⟩
  · exact ⟨Requests.fieldNames, c.requests.values, rfl, bare "rpc" _ (by decide), by decide, rfl,
      by simp⟩
  · exact ⟨Logging.fieldNames, c.logging.values, rfl, bare "logging" _ (by decide), by decide, rfl,
      by simp⟩

theorem sections_distinct (c : Config) : Toml.Distinct c.sections := by
  refine ⟨by simp only [sections, List.map_cons, List.map_nil]; decide, fun s mem => ?_⟩
  obtain ⟨names, values, labelled⟩ := exists_labelled mem
  rw [labelled.fields_eq, List.map_fst_zip (Nat.le_of_eq labelled.length_eq)]
  exact labelled.distinct

theorem float_mem {c : Config} {values : List Value} {x : Binary64}
    (among : values ∈ [c.node.values, c.pacing.values, c.requests.values, c.logging.values])
    (mem : .float x ∈ values) : x ∈ [c.pacing.softLockDutyCycle, c.pacing.backoffMax] := by
  simp only [List.mem_cons, List.not_mem_nil, or_false] at among
  rcases among with rfl | rfl | rfl | rfl
  · simp [Node.values, whole] at mem
  · simpa [Pacing.values, whole] using mem
  · simp [Requests.values, whole] at mem
  · simp [Logging.values] at mem

theorem sections_legible {c : Config} (floats : c.FloatsLegible) :
    ∀ s ∈ c.sections, s.Legible := by
  intro s mem
  obtain ⟨names, values, labelled⟩ := exists_labelled mem
  refine ⟨labelled.bare _ List.mem_cons_self, fun p field => ?_⟩
  rw [labelled.fields_eq] at field
  obtain ⟨name, value⟩ := List.of_mem_zip field
  refine ⟨labelled.bare _ (List.mem_cons_of_mem _ name), fun text written => ?_⟩
  exact legible_scalar written fun x same => floats x (float_mem labelled.values_mem (same ▸ value))

/-- A configuration that is written is read as itself, and then validated. -/
theorem parse_of_write? {c : Config} {text : String}
    (written : Toml.write? c.sections = some text) (floats : c.FloatsLegible) :
    parse text = c.validate.map fun _ => c := by
  have read := Toml.read?_of_write? written (sections_legible floats) (sections_distinct c)
  have found : (Toml.read? text).bind ofDocument? = some c := by
    rw [read, Option.bind_some, ofDocument?_sections]
  unfold parse
  rw [found]

/-! ## The defaults -/

theorem defaults_written : ∀ values ∈ [[whole 0], ({} : Pacing).values, ({} : Requests).values,
    ({} : Logging).values], ∀ v ∈ values, ∃ text, Toml.scalarText? v = some text := by
  simp only [← Option.isSome_iff_exists]
  decide +kernel

theorem forNode_written (node : String) :
    ∃ text, Toml.write? (forNode node).sections = some text := by
  refine Toml.exists_write? fun s mem p field => ?_
  obtain ⟨names, values, labelled⟩ := exists_labelled mem
  rw [labelled.fields_eq] at field
  have value := (List.of_mem_zip field).2
  have among := labelled.values_mem
  simp only [List.mem_cons, List.not_mem_nil, or_false] at among
  rcases among with rfl | rfl | rfl | rfl
  · rcases List.mem_cons.mp value with id | rebootId
    · rw [id]
      exact ⟨_, rfl⟩
    · exact defaults_written _ (.head _) _ rebootId
  · exact defaults_written _ (.tail _ (.head _)) _ value
  · exact defaults_written _ (.tail _ (.tail _ (.head _))) _ value
  · exact defaults_written _ (.tail _ (.tail _ (.tail _ (.head _)))) _ value

theorem render_forNode {node text : String}
    (written : Toml.write? (forNode node).sections = some text) :
    (forNode node).render = .ok text := by
  unfold render
  rw [written]

theorem forNode_legible (node : String) : (forNode node).FloatsLegible := by
  have share : ({} : Pacing).softLockDutyCycle = Toml.pointed false 0 ['6'] := by decide +kernel
  have cap : ({} : Pacing).backoffMax = Toml.pointed false 15 ['0'] := by decide +kernel
  have shareText : (Toml.pointed false 0 ['6']).settingText = "0.6" := by decide +kernel
  have capText : (Toml.pointed false 15 ['0']).settingText = "15.0" := by decide +kernel
  intro x mem
  rw [List.mem_cons, List.mem_singleton] at mem
  rcases mem with rfl | rfl
  · have same : (forNode node).pacing.softLockDutyCycle = Toml.pointed false 0 ['6'] := share
    rw [same, shareText]
    exact Toml.legible_pointed false 0 (List.forall_mem_singleton.mpr rfl) (List.cons_ne_nil _ _)
      (by decide +kernel)
  · have same : (forNode node).pacing.backoffMax = Toml.pointed false 15 ['0'] := cap
    rw [same, capText]
    exact Toml.legible_pointed false 15 (List.forall_mem_singleton.mpr rfl) (List.cons_ne_nil _ _)
      (by decide +kernel)

theorem forNode_validate (node : String) : (forNode node).validate =
    if node = "" then .error (.config "node.id cannot be empty") else .ok () := by
  have paced : isShare ({} : Pacing).softLockDutyCycle = true ∧
      ({} : Pacing).softLockMaxRounds ≠ 0 ∧ isSpan ({} : Pacing).backoffMax = true ∧
      ({} : Pacing).readinessPollMillis ≠ 0 ∧ ({} : Pacing).backoffStepMillis ≠ 0 := by
    decide +kernel
  split
  · rename_i nobody
    rw [nobody]
    rfl
  · rename_i named
    exact validate_eq_ok_iff.mpr (complaint?_eq_none_iff.mpr ⟨named, paced⟩)

theorem load_forNode {node text : String} (rendered : (forNode node).render = .ok text) :
    load (.ok text.toUTF8.data.toList) =
      if node = "" then .error (.config "node.id cannot be empty") else .ok (forNode node) := by
  obtain ⟨text', written⟩ := forNode_written node
  obtain rfl : text' = text := by
    rw [render_forNode written] at rendered
    exact Except.ok.inj rendered
  rw [load, Wire.text?_eq_some_iff.mpr rfl]
  dsimp only
  rw [parse_of_write? written (forNode_legible node), forNode_validate]
  split <;> rfl

theorem forNode_resolved (node : String) : ∃ settings budget,
    (forNode node).settings? = some settings ∧ settings.softCatchUpBudget? = some budget := by
  have defined : (({} : Pacing).settings?.bind Settings.softCatchUpBudget?).isSome := by
    decide +kernel
  obtain ⟨budget, found⟩ := Option.isSome_iff_exists.mp defined
  obtain ⟨settings, resolved, budgeted⟩ := Option.bind_eq_some_iff.mp found
  exact ⟨settings, budget, resolved, budgeted⟩

end Config
end FollowerSync
