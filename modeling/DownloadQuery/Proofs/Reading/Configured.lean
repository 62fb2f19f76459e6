import DownloadQuery.Proofs.Reading.Kept

/-!
# Fields of configurations

The fields that a configuration provides, built-in, of its own or parametric, read their values from
the item and the scene alone.
-/

namespace DownloadQuery

namespace Field

theorem repeatable_builtins (table : AnnounceTable) (themes : List (String × String)) :
    ∀ f ∈ builtins table themes, f.source.Repeatable := by
  simp [builtins, textual, flag, bytes, timestamp, duration, tags, kinds, Source.Repeatable]

theorem repeatable_parametric {name : String} {f : Field} (h : parametric? name = .ok (some f)) :
    f.source.Repeatable := by
  rcases eq_of_parametric? h with ⟨_, rfl⟩ | ⟨_, rfl⟩
  · simp [kinds, tags, Source.Repeatable]
  · simp [custom, Source.Repeatable]

end Field

namespace Config

/-- Where the fields of a configuration come from. -/
theorem mem_of_resolve {config : Config} {c : Catalogue} (hc : config.catalogue = .ok c)
    {name : String} {f : Field} (h : c.resolve name = .ok (some f)) :
    f ∈ Field.builtins config.announce config.themes ∨
      (∃ custom ∈ config.customFields, f = custom.field) ∨
      Field.parametric? name = .ok (some f) := by
  unfold catalogue at hc
  split at hc
  · next built hbuilt =>
    unfold Catalogue.resolve at h
    split at h
    · next g hget =>
      cases h
      have hmem : f ∈ c.fields := List.mem_of_find?_eq_some hget
      rcases Catalogue.mem_of_registerAll hc f hmem with hmem | hmem
      · rcases Catalogue.mem_of_registerAll hbuilt f hmem with hmem | hmem
        · simp [Catalogue.empty] at hmem
        · exact .inl hmem
      · obtain ⟨custom, hcustom, rfl⟩ := List.mem_map.1 hmem
        exact .inr (.inl ⟨custom, hcustom, rfl⟩)
    · exact .inr (.inr h)
  · cases hc

/-- The fields of a configuration have repeatable sources. -/
theorem repeatable_of_resolve {config : Config} {c : Catalogue} (hc : config.catalogue = .ok c)
    {name : String} {f : Field} (h : c.resolve name = .ok (some f)) : f.source.Repeatable := by
  rcases mem_of_resolve hc h with hmem | ⟨custom, -, rfl⟩ | hparametric
  · exact Field.repeatable_builtins _ _ f hmem
  · simp [CustomField.field, Source.Repeatable]
  · exact Field.repeatable_parametric hparametric

end Config
end DownloadQuery
