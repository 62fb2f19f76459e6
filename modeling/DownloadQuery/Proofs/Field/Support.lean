import DownloadQuery.Proofs.Reading.Configured
import DownloadQuery.Proofs.Text.Splitting

/-!
# What fields read

The support of a field are the keys that its raw value may come from. Snapshots that agree on them
give the field the same value (`Field.fresh_congr`). A stored field reads its own key, a custom
attribute also the object of all of them, and a derived field what its computation is about
(`Field.HasSupport`).
-/

namespace DownloadQuery

namespace Snapshot

/-- The keys that the value of a name may come from. -/
def keysOf (name : String) : List String :=
  if "custom_".toList <+: name.toList then [name, "custom"] else [name]

/-- Whether two snapshots have the same values under some keys, or none under the same ones. -/
def AgreeOn (keys : List String) (raw other : Snapshot) : Prop :=
  ∀ key ∈ keys, raw.lookup key = other.lookup key

variable {keys : List String} {raw other : Snapshot} {name : String}

theorem AgreeOn.mono {more : List String} (h : raw.AgreeOn more other)
    (hkeys : ∀ key ∈ keys, key ∈ more) : raw.AgreeOn keys other :=
  fun key hkey => h key (hkeys key hkey)

theorem value_congr (h : raw.AgreeOn (keysOf name) other) : raw.value name = other.value name := by
  have hname : raw.lookup name = other.lookup name := by
    apply h
    unfold keysOf
    split <;> exact List.mem_cons_self
  rw [value, value, hname]
  cases other.lookup name with
  | some v => rfl
  | none =>
    cases hkey : customKey? name with
    | none => rfl
    | some key =>
      obtain ⟨rest, hrest, -⟩ := Option.map_eq_some_iff.1 hkey
      have hfront : "custom_".toList <+: name.toList :=
        ⟨rest, (Text.stripFront?_eq_some_iff.1 hrest).symm⟩
      have hcustom : raw.lookup "custom" = other.lookup "custom" := by
        apply h
        rw [keysOf, if_pos hfront]
        exact List.mem_cons_of_mem _ (List.mem_singleton_self _)
      rw [hcustom]

theorem value_congr_of_mem (h : raw.AgreeOn keys other) (hmem : name ∈ keys)
    (hname : ¬ "custom_".toList <+: name.toList) : raw.value name = other.value name := by
  apply value_congr
  intro key hkey
  rw [keysOf, if_neg hname, List.mem_singleton] at hkey
  exact h key (hkey ▸ hmem)

end Snapshot

/-! ## Computations -/

namespace Derivation

/-- The keys that a computation reads. -/
def support : Derivation → List String
  | .ghost | .realPath => ["path"]
  | .transferRate => ["up", "down"]
  | .age => ["loaded"]
  | .seedTime => ["completed"]
  | .leechTime => ["started", "completed"]
  | .tracker => ["tracker", "announce"]
  | .kinds _ => ["files"]
  | .trackerAlias _ => ["alias", "tracker", "announce"]
  | .traits _ _ => ["name", "files", "alias", "tracker", "announce"]

variable {raw other : Snapshot}

theorem textOf_congr {name : String} (h : raw.value name = other.value name) :
    textOf raw name = textOf other name := by
  rw [textOf, textOf, h]

theorem numberOf_congr {name : String} (h : raw.value name = other.value name) :
    numberOf raw name = numberOf other name := by
  rw [numberOf, numberOf, h]

theorem timeOf_congr {name : String} (h : raw.value name = other.value name) :
    timeOf raw name = timeOf other name := by
  rw [timeOf, timeOf, h]

theorem filesOf_congr (h : raw.value "files" = other.value "files") :
    filesOf raw = filesOf other := by
  rw [filesOf, filesOf, h]

theorem trackerOf_congr (htracker : raw.value "tracker" = other.value "tracker")
    (hannounce : raw.value "announce" = other.value "announce") :
    trackerOf raw = trackerOf other := by
  rw [trackerOf, trackerOf, textOf_congr htracker, hannounce]

theorem aliasOf_congr (table : AnnounceTable) (halias : raw.value "alias" = other.value "alias")
    (htracker : raw.value "tracker" = other.value "tracker")
    (hannounce : raw.value "announce" = other.value "announce") :
    aliasOf raw table = aliasOf other table := by
  rw [aliasOf, aliasOf, textOf_congr halias, trackerOf_congr htracker hannounce]

/-- No computation reads a custom attribute. -/
theorem not_custom_of_mem_support {d : Derivation} {key : String} (h : key ∈ d.support) :
    ¬ "custom_".toList <+: key.toList := by
  have hplain {keys : List String}
      (hkeys : ∀ key ∈ keys, ¬ "custom_".toList <+: key.toList) (hmem : key ∈ keys) :
      ¬ "custom_".toList <+: key.toList := hkeys key hmem
  cases d <;> simp only [support] at h <;> exact hplain (by decide) h

/-- A computation reads nothing beside its support. -/
theorem compute_congr (scene : Scene) {d : Derivation} (h : raw.AgreeOn d.support other) :
    d.compute scene raw = d.compute scene other := by
  have hvalue : ∀ key ∈ d.support, raw.value key = other.value key := by
    intro key hkey
    exact Snapshot.value_congr_of_mem h hkey (not_custom_of_mem_support hkey)
  cases d <;> simp only [support, List.forall_mem_cons, List.not_mem_nil, false_implies,
    implies_true, and_true] at hvalue
  case ghost | realPath => rw [compute, compute, pathOf, pathOf, textOf_congr hvalue]
  case transferRate =>
    obtain ⟨hup, hdown⟩ := hvalue
    rw [compute, compute, numberOf_congr hup, numberOf_congr hdown]
  case age | seedTime => rw [compute, compute, timeOf_congr hvalue]
  case leechTime =>
    obtain ⟨hstarted, hcompleted⟩ := hvalue
    rw [compute, compute, timeOf_congr hstarted, timeOf_congr hcompleted]
  case tracker =>
    obtain ⟨htracker, hannounce⟩ := hvalue
    rw [compute, compute, trackerOf_congr htracker hannounce]
  case kinds => rw [compute, compute, filesOf_congr hvalue]
  case trackerAlias table =>
    obtain ⟨halias, htracker, hannounce⟩ := hvalue
    rw [compute, compute, aliasOf_congr table halias htracker hannounce]
  case traits table themes =>
    obtain ⟨hname, hfiles, halias, htracker, hannounce⟩ := hvalue
    rw [compute, compute, textOf_congr hname, filesOf_congr hfiles,
      aliasOf_congr table halias htracker hannounce]

end Derivation

/-! ## Fields -/

namespace Source

/-- The keys that the raw value of a field may come from. -/
def support (field : String) : Source → List String
  | .stored => Snapshot.keysOf field
  | .other name => Snapshot.keysOf name
  | .failing _ | .counter => []
  | .derived d => d.support

theorem read_congr {source : Source} {field : String} {raw other : Snapshot}
    (h : raw.AgreeOn (source.support field) other) (scene : Scene) (call : Nat) :
    source.read scene raw field call = source.read scene other field call := by
  cases source with
  | stored | other name => exact congrArg Except.ok (Snapshot.value_congr h)
  | failing reason | counter => rfl
  | derived d => exact Derivation.compute_congr scene h

end Source

namespace Field

/-- The keys that the raw value of the field may come from. -/
def support (f : Field) : List String := f.source.support f.name

/-- The keys that the raw value of a built-in field may come from, by its name. -/
def builtinSupport : (name : String) → List String
  | "xfer" => ["up", "down"]
  | "is_ghost" | "realpath" => ["path"]
  | "age" => ["loaded"]
  | "seedtime" => ["completed"]
  | "leechtime" => ["started", "completed"]
  | "tracker" => ["tracker", "announce"]
  | "kind" => ["files"]
  | "alias" => ["alias", "tracker", "announce"]
  | "traits" => ["name", "files", "alias", "tracker", "announce"]
  | name => [name]

theorem support_builtins (table : AnnounceTable) (themes : List (String × String)) :
    ∀ f ∈ builtins table themes, f.support = builtinSupport f.name := by
  apply List.map_inj_left.1
  rfl

theorem fresh_congr {f : Field} {raw other : Snapshot} (h : raw.AgreeOn f.support other)
    (scene : Scene) (call : Nat) : f.fresh scene raw call = f.fresh scene other call := by
  rw [fresh, fresh, Source.read_congr h]

/-- The keys that the fields of the program read, by where these fields come from. -/
inductive HasSupport : Field → List String → Prop
  | stored {f : Field} (h : f.source = .stored) : HasSupport f (Snapshot.keysOf f.name)
  | builtin {table : AnnounceTable} {themes : List (String × String)} {f : Field}
    (h : f ∈ builtins table themes) : HasSupport f (builtinSupport f.name)
  | kinds (name : String) (percent : Nat) : HasSupport (kinds name percent) ["files"]
  | configured (entry : CustomField) :
    HasSupport entry.field (Snapshot.keysOf (entry.source?.getD entry.name))

theorem HasSupport.support_eq {f : Field} {keys : List String} (h : f.HasSupport keys) :
    f.support = keys := by
  cases h with
  | stored h => rw [support, h, Source.support]
  | builtin h => exact support_builtins _ _ f h
  | kinds name percent => rfl
  | configured entry => rfl

theorem HasSupport.repeatable {f : Field} {keys : List String} (h : f.HasSupport keys) :
    f.source.Repeatable := by
  cases h with
  | stored h => simp [h, Source.Repeatable]
  | builtin h => exact repeatable_builtins _ _ f h
  | kinds name percent => simp [Field.kinds, tags, Source.Repeatable]
  | configured entry => simp [CustomField.field, Source.Repeatable]

end Field
end DownloadQuery
