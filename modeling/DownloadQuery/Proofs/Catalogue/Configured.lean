import DownloadQuery.Config
import DownloadQuery.Proofs.Catalogue.History

/-!
# Catalogues of configurations

Whether fields can be registered one after the other, and which of them cannot, is decided by their
names alone (`registerAll_ok_iff`, `registerAll_error_iff`). So a configuration has a catalogue just
if its own fields have names that differ from each other and from those of the built-in fields
(`Config.catalogue_iff`).
-/

namespace DownloadQuery

namespace Catalogue

variable {c d : Catalogue} {f : Field} {added : List Field} {name : String}

theorem get?_eq_none_iff : c.get? name = none ↔ name ∉ c.names := by
  rw [mem_names_iff, Option.eq_none_iff_forall_ne_some, not_exists]

theorem names_ascending (c : Catalogue) : c.names.Pairwise (· < ·) :=
  List.pairwise_map.2 c.ascending

theorem mem_names_add : name ∈ (c.add f).names ↔ name ∈ c.names ∨ f.name = name := by
  rw [mem_names_iff, mem_names_iff, get?_add]
  cases c.get? name <;> simp

/-! ## Registering fields one after the other -/

/-- Whether all names are free and none repeats. -/
structure Fits (c : Catalogue) (names : List String) : Prop where
  distinct : names.Nodup
  free : ∀ name ∈ names, name ∉ c.names

theorem fits_nil (c : Catalogue) : c.Fits [] := ⟨.nil, nofun⟩

/-- Names fit after a field if they fit together with its name. -/
theorem fits_cons_iff {names : List String} :
    c.Fits (f.name :: names) ↔ f.name ∉ c.names ∧ (c.add f).Fits names := by
  constructor
  · rintro ⟨hdistinct, hfree⟩
    obtain ⟨hother, hdistinct⟩ := List.nodup_cons.1 hdistinct
    obtain ⟨hfirst, hrest⟩ := List.forall_mem_cons.1 hfree
    refine ⟨hfirst, hdistinct, ?_⟩
    intro name hname htaken
    rcases mem_names_add.1 htaken with htaken | rfl
    · exact hrest name hname htaken
    · exact hother hname
  · rintro ⟨hfirst, hdistinct, hrest⟩
    refine ⟨List.nodup_cons.2 ⟨?_, hdistinct⟩, List.forall_mem_cons.2 ⟨hfirst, ?_⟩⟩
    · intro hname
      exact hrest _ hname (mem_names_add.2 (.inr rfl))
    · intro name hname htaken
      exact hrest name hname (mem_names_add.2 (.inl htaken))

theorem registerAll_of_free (h : f.name ∉ c.names) :
    c.registerAll (f :: added) = (c.add f).registerAll added := by
  rw [registerAll, register_of_none (get?_eq_none_iff.2 h)]

theorem registerAll_of_taken (h : f.name ∈ c.names) :
    c.registerAll (f :: added) = .error ⟨f.name⟩ := by
  obtain ⟨g, hg⟩ := mem_names_iff.1 h
  rw [registerAll, register_of_some hg]

/-- Fields can be registered just if their names fit. -/
theorem registerAll_ok_iff :
    (∃ d, c.registerAll added = .ok d) ↔ c.Fits (added.map (·.name)) := by
  induction added generalizing c with
  | nil => exact ⟨fun _ => fits_nil c, fun _ => ⟨c, rfl⟩⟩
  | cons f rest ih =>
    rw [List.map_cons, fits_cons_iff]
    by_cases hf : f.name ∈ c.names
    · simp [registerAll_of_taken hf, hf]
    · rw [registerAll_of_free hf, ih]
      exact ⟨fun h => ⟨hf, h⟩, And.right⟩

/-- Registering fields stops at the first whose name does not fit with those before. -/
theorem registerAll_error_iff {e : DuplicateField} :
    c.registerAll added = .error e ↔
      ∃ before f after, added = before ++ f :: after ∧ c.Fits (before.map (·.name)) ∧
        (f.name ∈ c.names ∨ f.name ∈ before.map (·.name)) ∧ e = ⟨f.name⟩ := by
  induction added generalizing c with
  | nil => simp [registerAll]
  | cons g rest ih =>
    by_cases hg : g.name ∈ c.names
    · rw [registerAll_of_taken hg]
      constructor
      · intro h
        cases h
        exact ⟨[], g, rest, rfl, fits_nil c, .inl hg, rfl⟩
      · rintro ⟨before, f, after, hadded, hfits, -, rfl⟩
        cases before with
        | nil =>
          cases hadded
          rfl
        | cons g' before =>
          cases hadded
          exact absurd hg (fits_cons_iff.1 hfits).1
    · rw [registerAll_of_free hg, ih]
      constructor
      · rintro ⟨before, f, after, rfl, hfits, htaken, rfl⟩
        refine ⟨g :: before, f, after, rfl, fits_cons_iff.2 ⟨hg, hfits⟩, ?_, rfl⟩
        rw [mem_names_add] at htaken
        rw [List.map_cons, List.mem_cons]
        tauto
      · rintro ⟨before, f, after, hadded, hfits, htaken, rfl⟩
        cases before with
        | nil =>
          cases hadded
          simp [hg] at htaken
        | cons g' before =>
          cases hadded
          refine ⟨before, f, after, rfl, (fits_cons_iff.1 hfits).2, ?_, rfl⟩
          rw [List.map_cons, List.mem_cons] at htaken
          rw [mem_names_add]
          tauto

/-- Registered fields are found next to those that were there before. -/
theorem get?_registerAll (h : c.registerAll added = .ok d) (name : String) :
    d.get? name = (c.get? name).or (added.find? (·.name == name)) := by
  induction added generalizing c with
  | nil =>
    cases h
    simp
  | cons f rest ih =>
    by_cases hf : f.name ∈ c.names
    · rw [registerAll_of_taken hf] at h
      cases h
    · rw [registerAll_of_free hf] at h
      rw [ih h, get?_add, Option.or_assoc]
      by_cases hname : f.name = name
      · simp [hname]
      · rw [if_neg hname, Option.none_or, List.find?_cons_of_neg (by simpa using hname)]

/-- Each registered field is found under its name. -/
theorem get?_of_registerAll (h : c.registerAll added = .ok d) (hf : f ∈ added) :
    d.get? f.name = some f := by
  induction added generalizing c with
  | nil => cases hf
  | cons g rest ih =>
    by_cases hg : g.name ∈ c.names
    · rw [registerAll_of_taken hg] at h
      cases h
    · rw [registerAll_of_free hg] at h
      rcases List.mem_cons.1 hf with rfl | hf
      · rw [get?_registerAll h, get?_add, get?_eq_none_iff.2 hg]
        simp
      · exact ih h hf

theorem mem_names_registerAll (h : c.registerAll added = .ok d) :
    name ∈ d.names ↔ name ∈ c.names ∨ name ∈ added.map (·.name) := by
  rw [mem_names_iff, get?_registerAll h, mem_names_iff, List.mem_map]
  cases hget : c.get? name with
  | some g => simp
  | none => simp [← Option.isSome_iff_exists]

end Catalogue

/-! ## Built-in fields -/

/-- The names of the built-in fields. -/
def Field.builtinNames : List String := (builtins [] []).map (·.name)

/-- The trackers of a site do not change the names of the built-in fields. -/
theorem Field.names_builtins (table : AnnounceTable) (themes : List (String × String)) :
    (builtins table themes).map (·.name) = builtinNames := rfl

theorem Field.nodup_builtinNames : builtinNames.Nodup := by decide

namespace Catalogue

variable {table : AnnounceTable} {themes : List (String × String)}

/-- The built-in fields do not get in each other's way. -/
theorem exists_builtin (table : AnnounceTable) (themes : List (String × String)) :
    ∃ c, builtin table themes = .ok c := by
  apply registerAll_ok_iff.2
  rw [Field.names_builtins]
  exact ⟨Field.nodup_builtinNames, fun name _ => List.not_mem_nil⟩

theorem mem_names_builtin {c : Catalogue} (h : builtin table themes = .ok c) {name : String} :
    name ∈ c.names ↔ name ∈ Field.builtinNames := by
  rw [mem_names_registerAll h, Field.names_builtins]
  exact ⟨fun h => h.resolve_left List.not_mem_nil, .inr⟩

end Catalogue

/-! ## Configured fields -/

/-- The kind of values and the comparisons that a configuration chooses with each family. -/
inductive CustomFamily.Chooses : CustomFamily → ValueKind → Family → Prop
  /-- Texts are matched with a pattern. -/
  | text : Chooses .text .text .pattern
  /-- The paths of a list of files are matched with a pattern. -/
  | files : Chooses .files .files .files
  | tags : Chooses .tags .tags .tagged
  | bool : Chooses .bool .boolean .bool
  | float : Chooses .float .float .float
  /-- Integers are compared with a number of bytes. -/
  | bytes : Chooses .bytes .integer .byteSize
  /-- Times are compared with a time, but an unset one with none. -/
  | time : Chooses .time .timestamp .timeNotNull
  | duration : Chooses .duration .duration .duration
  /-- Values are taken as they are, and the literal decides about the comparison. -/
  | magic : Chooses .magic .untyped .magic

/-- Whether a field is what a configuration means by one of its own: its values and comparisons are
those that the family chooses, and it reads the raw value under the given key, or else under its own
name. -/
structure CustomField.Describes (entry : CustomField) (f : Field) : Prop where
  name : f.name = entry.name
  chosen : ∃ family, entry.family.Chooses f.kind family ∧ f.family? = some family
  value (scene : Scene) (r : Reading) :
    (f.value scene r).1 =
      liftM (f.kind.convert entry.name (r.item.raw.value (entry.source?.getD entry.name)))

theorem CustomFamily.chooses_kindAndFamily (family : CustomFamily) :
    family.Chooses family.kindAndFamily.1 family.kindAndFamily.2 := by
  cases family <;> constructor

theorem CustomField.describes_field (entry : CustomField) : entry.Describes entry.field where
  name := rfl
  chosen := ⟨_, entry.family.chooses_kindAndFamily, rfl⟩
  value _ _ := rfl

namespace Config

variable {config : Config} {c : Catalogue}

/-- The catalogue of a configuration starts from the built-in fields. -/
theorem exists_catalogue_eq (config : Config) :
    ∃ built, Catalogue.builtin config.announce config.themes = .ok built ∧
      config.catalogue = built.registerAll (config.customFields.map CustomField.field) := by
  obtain ⟨built, hbuilt⟩ := Catalogue.exists_builtin config.announce config.themes
  exact ⟨built, hbuilt, by rw [catalogue, hbuilt]⟩

theorem names_fields (entries : List CustomField) :
    (entries.map CustomField.field).map (·.name) = entries.map (·.name) := by
  rw [List.map_map]
  rfl

theorem fits_builtin_iff {built : Catalogue} {config : Config} {names : List String}
    (h : Catalogue.builtin config.announce config.themes = .ok built) :
    built.Fits names ↔ names.Nodup ∧ ∀ name ∈ names, name ∉ Field.builtinNames := by
  simp only [← Catalogue.mem_names_builtin h]
  constructor
  · rintro ⟨hdistinct, hfree⟩
    exact ⟨hdistinct, hfree⟩
  · rintro ⟨hdistinct, hfree⟩
    exact ⟨hdistinct, hfree⟩

/-- A name that is bound in the catalogue of a configuration finds its field from then on, and
looking it up adds nothing. -/
theorem lookup_run {name : String} {f : Field} (h : c.get? name = some f)
    (history : List Catalogue.Operation) :
    (c.run history).lookup name = (.ok (some f), c.run history) :=
  Catalogue.lookup_of_get? (Catalogue.get?_run h history)

/-- A configuration has a catalogue just if the names of its own fields differ from each other and
from those of the built-in fields. The names of the catalogue are then those of both, in ascending
order; each name of the configuration stands for the field that its own entry describes and each
name of a built-in field for this field, whatever else is done with the catalogue. Otherwise the
error names the first of its own fields whose name is that of a built-in field or of a field
before. -/
theorem catalogue_iff (config : Config) :
    let own := config.customFields.map (·.name)
    ((∃ c, config.catalogue = .ok c) ↔
      own.Nodup ∧ ∀ name ∈ own, name ∉ Field.builtinNames) ∧
    (∀ c, config.catalogue = .ok c →
      c.names.Pairwise (· < ·) ∧
      (∀ name, name ∈ c.names ↔ name ∈ Field.builtinNames ∨ name ∈ own) ∧
      (∀ entry ∈ config.customFields, ∃ f, entry.Describes f ∧
        ∀ history, (c.run history).lookup entry.name = (.ok (some f), c.run history)) ∧
      ∀ f ∈ Field.builtins config.announce config.themes,
        ∀ history, (c.run history).lookup f.name = (.ok (some f), c.run history)) ∧
    ∀ e, config.catalogue = .error e ↔
      ∃ before entry after, config.customFields = before ++ entry :: after ∧
        (before.map (·.name)).Nodup ∧
        (∀ name ∈ before.map (·.name), name ∉ Field.builtinNames) ∧
        (entry.name ∈ Field.builtinNames ∨ entry.name ∈ before.map (·.name)) ∧
        e = ⟨entry.name⟩ := by
  intro own
  obtain ⟨built, hbuilt, hcatalogue⟩ := exists_catalogue_eq config
  have hown : (config.customFields.map CustomField.field).map (·.name) = own := names_fields _
  rw [hcatalogue]
  refine ⟨?_, ?_, ?_⟩
  · rw [Catalogue.registerAll_ok_iff, hown]
    exact fits_builtin_iff hbuilt
  · intro c hc
    refine ⟨c.names_ascending, ?_, ?_, ?_⟩
    · intro name
      rw [Catalogue.mem_names_registerAll hc, Catalogue.mem_names_builtin hbuilt, hown]
    · intro entry hentry
      have hget : c.get? entry.name = some entry.field :=
        Catalogue.get?_of_registerAll hc (List.mem_map_of_mem hentry)
      exact ⟨entry.field, entry.describes_field, lookup_run hget⟩
    · intro f hf
      have hget : c.get? f.name = some f := by
        rw [Catalogue.get?_registerAll hc, Catalogue.get?_of_registerAll hbuilt hf, Option.some_or]
      exact lookup_run hget
  · intro e
    rw [Catalogue.registerAll_error_iff]
    constructor
    · rintro ⟨before, f, after, hsplit, hfits, htaken, rfl⟩
      obtain ⟨first, rest, hentries, rfl, hrest⟩ := List.map_eq_append_iff.1 hsplit
      obtain ⟨entry, last, rfl, rfl, rfl⟩ := List.map_eq_cons_iff.1 hrest
      rw [names_fields, fits_builtin_iff hbuilt] at hfits
      rw [names_fields, Catalogue.mem_names_builtin hbuilt] at htaken
      exact ⟨first, entry, last, hentries, hfits.1, hfits.2, htaken, rfl⟩
    · rintro ⟨before, entry, after, hsplit, hdistinct, hfree, htaken, rfl⟩
      refine ⟨before.map CustomField.field, entry.field, after.map CustomField.field, ?_, ?_, ?_,
        rfl⟩
      · rw [hsplit, List.map_append, List.map_cons]
      · rw [names_fields, fits_builtin_iff hbuilt]
        exact ⟨hdistinct, hfree⟩
      · rw [names_fields, Catalogue.mem_names_builtin hbuilt]
        exact htaken

end Config
end DownloadQuery
