import DownloadQuery.Field.Catalogue
import Mathlib.Tactic.SplitIfs

/-!
# Catalogues grow without changing their answers

A field that is added takes a free name, and the field of a parametric name is the one that the name
stands for anyway. So a lookup leaves what every name stands for as it is (`resolve_lookup`).
-/

namespace DownloadQuery

namespace Ascending

variable {α : Type} (key : α → String)

theorem find?_key_lt {x : α} {ys : List α} (h : ∀ y ∈ ys, key x < key y) :
    ys.find? (key · == key x) = none :=
  List.find?_eq_none.2 fun y hy => by simpa using (String.ne_of_lt (h y hy)).symm

/-- An element is found under its own key. -/
theorem find?_of_mem {x : α} {ys : List α} (hx : x ∈ ys) (h : ys.Pairwise (key · < key ·)) :
    ys.find? (key · == key x) = some x := by
  induction ys with
  | nil => cases hx
  | cons y rest ih =>
    obtain ⟨hfirst, hrest⟩ := List.pairwise_cons.1 h
    rcases List.mem_cons.1 hx with rfl | hx
    · simp
    · have hne : key y ≠ key x := String.ne_of_lt (hfirst x hx)
      simpa [hne] using ih hx hrest

/-- An element that has been put in its place is found under its key, if nothing was before. -/
theorem find?_place (x : α) {ys : List α} (h : ys.Pairwise (key · < key ·)) (name : String) :
    (place key x ys).find? (key · == name) =
      (ys.find? (key · == name)).or (if key x = name then some x else none) := by
  induction ys with
  | nil => by_cases hx : key x = name <;> simp [place, hx]
  | cons y rest ih =>
    obtain ⟨hfirst, hrest⟩ := List.pairwise_cons.1 h
    rw [place]
    split_ifs with hlt hname heq hname hname
    · have hnone : (y :: rest).find? (key · == name) = none := by
        rw [← hname]
        refine find?_key_lt key (List.forall_mem_cons.2 ⟨hlt, fun z hz => ?_⟩)
        exact String.lt_trans hlt (hfirst z hz)
      simp [hnone, hname]
    · simp [hname]
    · simp [← heq, hname]
    · simp
    · have hy : key y ≠ name := fun hy => heq (by rw [hname, hy])
      simpa [hy, hname] using ih hrest
    · by_cases hy : key y = name
      · simp [hy]
      · simpa [hy, hname] using ih hrest

/-- A key that is taken stays with its element. -/
theorem place_of_taken {x : α} {ys : List α} (h : ys.Pairwise (key · < key ·))
    (htaken : ∃ y ∈ ys, key y = key x) : place key x ys = ys := by
  obtain ⟨y, hy, hkey⟩ := htaken
  induction ys with
  | nil => cases hy
  | cons z rest ih =>
    obtain ⟨hfirst, hrest⟩ := List.pairwise_cons.1 h
    have hle : ¬ key x < key z := by
      rcases List.mem_cons.1 hy with rfl | hy
      · rw [hkey]
        exact String.lt_irrefl _
      · rw [← hkey]
        exact String.lt_asymm (hfirst y hy)
    rw [place, if_neg hle]
    split_ifs with heq
    · rfl
    · have hmem : y ∈ rest := by
        rcases List.mem_cons.1 hy with rfl | hy
        · exact absurd hkey.symm heq
        · exact hy
      rw [ih hrest hmem]

end Ascending

namespace Catalogue

theorem name_of_get? {c : Catalogue} {name : String} {f : Field} (h : c.get? name = some f) :
    f.name = name := by
  simpa using List.find?_some h

theorem get?_add (c : Catalogue) (f : Field) (name : String) :
    (c.add f).get? name = (c.get? name).or (if f.name = name then some f else none) :=
  Ascending.find?_place Field.name f c.ascending name

theorem add_of_get? {c : Catalogue} {f g : Field} (h : c.get? f.name = some g) : c.add f = c := by
  have hplace : Ascending.place Field.name f c.fields = c.fields :=
    Ascending.place_of_taken Field.name c.ascending
      ⟨g, List.mem_of_find?_eq_some h, name_of_get? h⟩
  cases c
  exact (Catalogue.mk.injEq ..).mpr hplace

/-- Looking up a name that is bound finds its field and changes nothing. -/
theorem lookup_of_get? {c : Catalogue} {name : String} {f : Field} (h : c.get? name = some f) :
    c.lookup name = (.ok (some f), c) := by
  have hresolve : c.resolve name = .ok (some f) := by rw [resolve, h]
  have hname : c.get? f.name = some f := by rwa [name_of_get? h]
  rw [lookup, hresolve]
  exact congrArg (Except.ok (some f), ·) (add_of_get? hname)

end Catalogue

namespace Field

/-- A field of a parametric name is one of the two families. -/
theorem eq_of_parametric? {name : String} {f : Field} (h : parametric? name = .ok (some f)) :
    (∃ percent, f = kinds name percent) ∨ ∃ key, f = custom name key := by
  unfold parametric? at h
  split at h
  · split at h
    · next percent _ =>
      cases h
      exact .inl ⟨percent, rfl⟩
    · cases h
  · split at h
    · next key _ =>
      split_ifs at h
      · cases h
      · cases h
        exact .inr ⟨key, rfl⟩
    · cases h

theorem name_of_parametric? {name : String} {f : Field} (h : parametric? name = .ok (some f)) :
    f.name = name := by
  rcases eq_of_parametric? h with ⟨_, rfl⟩ | ⟨_, rfl⟩ <;> rfl

end Field

namespace Catalogue

/-- A field that a name stands for bears the name. -/
theorem name_of_resolve {c : Catalogue} {name : String} {f : Field}
    (h : c.resolve name = .ok (some f)) : f.name = name := by
  unfold resolve at h
  split at h
  · next hget =>
    cases h
    exact name_of_get? hget
  · exact Field.name_of_parametric? h

/-- What names stand for stays the same when a field is added that its name stands for already. -/
theorem resolve_add {c : Catalogue} {f : Field} (h : c.resolve f.name = .ok (some f)) :
    (c.add f).resolve = c.resolve := by
  funext name
  unfold resolve at h ⊢
  rw [get?_add]
  cases hget : c.get? name with
  | some g => simp
  | none =>
    by_cases hname : f.name = name
    · rw [hname, hget] at h
      simp [hname, h]
    · simp [hname]

@[simp] theorem lookup_fst (c : Catalogue) (name : String) :
    (c.lookup name).1 = c.resolve name := by
  unfold lookup
  split
  · next h => exact h.symm
  · rfl

/-- Registering fields adds nothing else. -/
theorem mem_of_registerAll {c d : Catalogue} {added : List Field}
    (h : c.registerAll added = .ok d) :
    ∀ f ∈ d.fields, f ∈ c.fields ∨ f ∈ added := by
  induction added generalizing c with
  | nil =>
    cases h
    exact fun f hf => .inl hf
  | cons g rest ih =>
    rw [registerAll, register] at h
    cases hg : c.get? g.name with
    | some taken => simp [hg] at h
    | none =>
      simp only [hg] at h
      intro f hf
      rcases ih h f hf with hmem | hmem
      · rcases Ascending.mem_of_mem_place _ hmem with rfl | hmem
        · exact .inr List.mem_cons_self
        · exact .inl hmem
      · exact .inr (List.mem_cons_of_mem g hmem)

/-- Looking a field up does not change what any name stands for. -/
theorem resolve_lookup (c : Catalogue) (name : String) : (c.lookup name).2.resolve = c.resolve := by
  unfold lookup
  split
  · next f h => exact resolve_add (by rwa [name_of_resolve h])
  · rfl

end Catalogue
end DownloadQuery
