import DownloadQuery.Proofs.Catalogue.Events
import DownloadQuery.Proofs.Number.Numerals
import DownloadQuery.Proofs.Text.Splitting

/-!
# Parametric names

A name that is free and of one of the two families is bound when it is looked up. Digits are read
into 32 bits: leading zeros count for nothing, and a number that does not fit is out of range as any
above 100 is (`Field.percent?_of_isNumeral`). A name out of range, or of neither family, leaves the
catalogue as it was (`Catalogue.lookup_free`).
-/

namespace DownloadQuery

namespace Field

/-- Whether a name is `kind_` and digits that stand for a number. -/
structure IsKindName (name : String) (digits : List Char) (percent : Nat) : Prop where
  name_eq : name.toList = "kind_".toList ++ digits
  numeral : Whole.IsNumeral percent digits

/-- Whether a name is `custom_` and a key. -/
structure IsCustomName (name : String) (key : List Char) : Prop where
  name_eq : name.toList = "custom_".toList ++ key
  key_ne_nil : key ≠ []

variable {name : String} {digits key : List Char} {percent : Nat}

/-- A percentage is read from any number of digits, if it is at most 100. -/
theorem percent?_of_isNumeral (h : Whole.IsNumeral percent digits) :
    percent? digits = if percent ≤ 100 then some percent else none := by
  rw [percent?]
  by_cases hword : percent ≤ Nat.pow 2 32 - 1
  · rw [h.readNat hword]
  · obtain ⟨e, he⟩ := h.exists_readNat_error (Nat.lt_of_not_le hword)
    have hlarge : ¬ percent ≤ 100 := fun hle => hword (hle.trans (by decide))
    rw [he, if_neg hlarge]

theorem kindDigits?_eq_some_iff :
    kindDigits? name = some digits ↔ ∃ percent, IsKindName name digits percent := by
  have hdigits : (digits != [] && digits.all Whole.isDigit) = true ↔
      ∃ percent, Whole.IsNumeral percent digits := by
    simp only [Bool.and_eq_true, bne_iff_ne, List.all_eq_true]
    constructor
    · rintro ⟨hne, hall⟩
      exact ⟨_, hne, hall, rfl⟩
    · rintro ⟨percent, h⟩
      exact ⟨h.ne_nil, h.digits⟩
  constructor
  · intro h
    unfold kindDigits? at h
    split at h
    · next found hfound =>
      split at h
      · next htrue =>
        cases h
        obtain ⟨percent, hnumeral⟩ := hdigits.1 htrue
        exact ⟨percent, Text.stripFront?_eq_some_iff.1 hfound, hnumeral⟩
      · cases h
    · cases h
  · rintro ⟨percent, hname, hnumeral⟩
    rw [kindDigits?, Text.stripFront?_eq_some_iff.2 hname]
    exact if_pos (hdigits.2 ⟨percent, hnumeral⟩)

theorem customKey?_eq_some_iff {key : String} :
    Snapshot.customKey? name = some key ↔ name.toList = "custom_".toList ++ key.toList := by
  rw [Snapshot.customKey?, Option.map_eq_some_iff]
  simp only [Text.stripFront?_eq_some_iff]
  constructor
  · rintro ⟨rest, hname, rfl⟩
    exact hname.trans (congrArg _ String.toList_ofList.symm)
  · intro hname
    exact ⟨key.toList, hname, String.ofList_toList⟩

theorem parametric?_kind (h : IsKindName name digits percent) :
    parametric? name = if percent ≤ 100 then .ok (some (kinds name percent))
      else .error (.percentOutOfRange name (String.ofList digits)) := by
  rw [parametric?, kindDigits?_eq_some_iff.2 ⟨percent, h⟩]
  dsimp only
  rw [percent?_of_isNumeral h.numeral]
  by_cases hle : percent ≤ 100
  · rw [if_pos hle, if_pos hle]
  · rw [if_neg hle, if_neg hle]

/-- A custom name is no name of a share. -/
theorem IsCustomName.kindDigits?_eq_none (h : IsCustomName name key) : kindDigits? name = none := by
  cases hdigits : kindDigits? name with
  | none => rfl
  | some digits =>
    obtain ⟨percent, hkind⟩ := kindDigits?_eq_some_iff.1 hdigits
    have hnames := h.name_eq.symm.trans hkind.name_eq
    cases hnames

theorem parametric?_custom (h : IsCustomName name key) :
    parametric? name = .ok (some (custom name (String.ofList key))) := by
  have hkey : Snapshot.customKey? name = some (String.ofList key) :=
    customKey?_eq_some_iff.2 (h.name_eq.trans (congrArg _ String.toList_ofList.symm))
  have hne : String.ofList key ≠ "" := by
    intro hempty
    exact h.key_ne_nil (String.ofList_injective hempty)
  rw [parametric?, h.kindDigits?_eq_none, hkey]
  exact if_neg hne

theorem parametric?_other (hkind : ∀ digits percent, ¬ IsKindName name digits percent)
    (hcustom : ∀ key, ¬ IsCustomName name key) : parametric? name = .ok none := by
  have hdigits : kindDigits? name = none := by
    rw [Option.eq_none_iff_forall_not_mem]
    intro digits hmem
    obtain ⟨percent, h⟩ := kindDigits?_eq_some_iff.1 hmem
    exact hkind digits percent h
  rw [parametric?, hdigits]
  dsimp only
  split
  · next key hkey =>
    refine if_pos ?_
    by_contra hne
    refine hcustom key.toList ⟨customKey?_eq_some_iff.1 hkey, ?_⟩
    simpa using hne
  · rfl

end Field

namespace Catalogue

open DownloadQuery.Field

/-- Whether looking a name up finds a field of that name and binds it, and binds no other name. -/
structure Binds (c : Catalogue) (name : String) (f : Field) : Prop where
  found : (c.lookup name).1 = .ok (some f)
  named : f.name = name
  bound : (c.lookup name).2.get? name = some f
  others : ∀ other, other ≠ name → (c.lookup name).2.get? other = c.get? other

variable {c : Catalogue} {name : String}

theorem binds_of_parametric? {f : Field} (hfree : c.get? name = none)
    (h : parametric? name = .ok (some f)) : c.Binds name f where
  found := by rw [lookup_fst, resolve, hfree, h]
  named := name_of_parametric? h
  bound := by
    have hoffer : (Event.lookedUp name).offer? = some f := by
      rw [Event.offer?, h]
      rfl
    rw [get?_lookup, hfree, Option.none_or, ← hoffer]
    exact if_pos rfl
  others other hother := by
    have hoffer : (Event.lookedUp name).offerFor? other = none := if_neg hother.symm
    rw [get?_lookup, hoffer, Option.or_none]

/-- What is not found is not bound. -/
theorem lookup_of_not_found (hfree : c.get? name = none)
    (h : ∀ f, parametric? name ≠ .ok (some f)) : c.lookup name = (parametric? name, c) := by
  have hresolve : c.resolve name = parametric? name := by rw [resolve, hfree]
  rw [lookup, hresolve]
  split
  · next f hf => exact absurd hf (h f)
  · rfl

/-- Looking a free name up binds just the names of the two families: `kind_` with digits that stand
for at most 100, however many zeros lead them, and `custom_` with a key. A greater number, whether it
fits a word or not, is out of range, and any other name stands for nothing; then the catalogue is
left as it was. -/
theorem lookup_free (hfree : c.get? name = none) :
    (∀ digits percent, IsKindName name digits percent → percent ≤ 100 →
      c.Binds name (kinds name percent)) ∧
    (∀ key, IsCustomName name key → c.Binds name (custom name (String.ofList key))) ∧
    (∀ digits percent, IsKindName name digits percent → 100 < percent →
      c.lookup name = (.error (.percentOutOfRange name (String.ofList digits)), c)) ∧
    ((∀ digits percent, ¬ IsKindName name digits percent) → (∀ key, ¬ IsCustomName name key) →
      c.lookup name = (.ok none, c)) := by
  refine ⟨?kind, ?custom, ?large, ?other⟩
  case kind =>
    intro digits percent hkind hle
    apply binds_of_parametric? hfree
    rw [parametric?_kind hkind, if_pos hle]
  case custom =>
    intro key hcustom
    exact binds_of_parametric? hfree (parametric?_custom hcustom)
  case large =>
    intro digits percent hkind hlarge
    have herror := parametric?_kind hkind
    rw [if_neg (Nat.not_le_of_lt hlarge)] at herror
    rw [lookup_of_not_found hfree (by simp [herror]), herror]
  case other =>
    intro hkind hcustom
    have hnone := parametric?_other hkind hcustom
    rw [lookup_of_not_found hfree (by simp [hnone]), hnone]

/-- Zeros that lead a percentage, and a number that is 1 beyond the words. -/
theorem lookup_free_kinds :
    empty.Binds "kind_0000000000100" (kinds "kind_0000000000100" 100) ∧
      empty.lookup "kind_4294967297" =
        (.error (.percentOutOfRange "kind_4294967297" "4294967297"), empty) := by
  have hhundred : IsKindName "kind_0000000000100" _ 100 :=
    ⟨by decide, Whole.isNumeral_replicate_zero 10 100⟩
  have hbeyond : IsKindName "kind_4294967297" "4294967297".toList 4294967297 :=
    ⟨by decide, Whole.isNumeral_replicate_zero 0 4294967297⟩
  exact ⟨(lookup_free rfl).1 _ _ hhundred (by decide),
    (lookup_free rfl).2.2.1 _ _ hbeyond (by decide)⟩

end Catalogue
end DownloadQuery
