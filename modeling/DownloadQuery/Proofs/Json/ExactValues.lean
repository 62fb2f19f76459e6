import DownloadQuery.Json.Reader
import DownloadQuery.Proofs.Json.Members
import DownloadQuery.Proofs.Number.Rounding

/-!
# Exact values

A value of the model may hold any integer and any count of units. Those that a program has are the
exact ones: integers within 64 bits, numbers that binary64 has, and objects with each name once, in
order. What is read from a text is exact (`Json.isExact_of_read?`).
-/

namespace DownloadQuery
namespace Json

/-- Whether everything within a value is what a program can hold. -/
inductive IsExact : Json → Prop
  | null : IsExact .null
  | bool (b : Bool) : IsExact (.bool b)
  | integer {n : Int} (hlow : -2 ^ 63 ≤ n) (hhigh : n < 2 ^ 64) : IsExact (.integer n)
  | number {negative : Bool} {units : Nat} (hx : (Binary64.finite negative units).IsRounded) :
    IsExact (.number (.finite negative units))
  | string (s : String) : IsExact (.string s)
  | array {elements : List Json} (h : ∀ v ∈ elements, IsExact v) : IsExact (.array elements)
  | object {members : List (String × Json)} (h : ∀ entry ∈ members, IsExact entry.2)
    (ascending : (members.map (·.1)).Pairwise (· < ·)) : IsExact (.object members)

namespace IsExact

variable {v : Json} {name : String} {members : List (String × Json)}

theorem lookup (h : IsExact (.object members)) (hv : members.lookup name = some v) :
    v.IsExact := by
  obtain ⟨before, after, rfl, -⟩ := List.lookup_eq_some_iff.1 hv
  cases h with
  | object h => exact h (name, v) (by simp)

theorem get? (h : v.IsExact) {w : Json} (hw : v.get? name = some w) : w.IsExact := by
  cases v with
  | object members => exact h.lookup hw
  | null | bool | integer | number | string | array => cases hw

end IsExact

theorem isExact_ofBinary64 {x : Binary64} (hx : x.IsRounded) : (ofBinary64 x).IsExact := by
  cases x with
  | finite => exact .number hx
  | nan | infinite => exact .null

theorem isExact_insertMember {name : String} {value : Json} (hvalue : value.IsExact)
    {members : List (String × Json)} (h : ∀ entry ∈ members, entry.2.IsExact) :
    ∀ entry ∈ insertMember name value members, entry.2.IsExact := by
  induction members with
  | nil => exact List.forall_mem_singleton.2 hvalue
  | cons entry rest ih =>
    obtain ⟨hentry, hrest⟩ := List.forall_mem_cons.1 h
    rw [insertMember]
    split_ifs
    · exact List.forall_mem_cons.2 ⟨hvalue, hrest⟩
    · exact List.forall_mem_cons.2 ⟨hvalue, h⟩
    · exact List.forall_mem_cons.2 ⟨hentry, ih hrest⟩

theorem isExact_insertAll {sorted members : List (String × Json)}
    (hsorted : ∀ entry ∈ sorted, entry.2.IsExact) (h : ∀ entry ∈ members, entry.2.IsExact) :
    ∀ entry ∈ insertAll sorted members, entry.2.IsExact := by
  induction members generalizing sorted with
  | nil => exact hsorted
  | cons entry rest ih =>
    obtain ⟨hentry, hrest⟩ := List.forall_mem_cons.1 h
    exact ih (isExact_insertMember hentry hsorted) hrest

theorem isExact_ofMembers {members : List (String × Json)}
    (h : ∀ entry ∈ members, entry.2.IsExact) : (ofMembers members).IsExact := by
  have hnone : ∀ entry ∈ ([] : List (String × Json)), entry.2.IsExact := by simp
  exact .object (isExact_insertAll hnone h) (ascending_insertAll .nil)

namespace Reader

theorem isExact_ofWhole (negative : Bool) (n : Nat) : (ofWhole negative n).IsExact := by
  unfold ofWhole
  generalize (if negative = true then -(n : Int) else (n : Int)) = i
  dsimp only
  split_ifs with hrange
  · exact isExact_ofBinary64 (Binary64.isRounded_ofRatio negative n 1)
  · simp only [Bool.or_eq_true, decide_eq_true_eq, not_or, Int.not_lt, Int.not_le] at hrange
    exact .integer hrange.1.2 hrange.2

variable {negative : Bool} {text rest : List Char} {v : Json}

theorem isExact_of_decimal (h : readUnsigned.decimal negative text = some (v, rest)) :
    v.IsExact := by
  rw [readUnsigned.decimal] at h
  dsimp only at h
  split_ifs at h
  · cases h
  · cases h
  · cases h
  · obtain ⟨⟨exponent, rest'⟩, -, h⟩ := Option.bind_eq_some_iff.1 h
    split at h
    · cases h
      exact isExact_ofWhole _ _
    · cases h
      exact isExact_ofBinary64 (Binary64.isRounded_ofDecimal _ _ _)

/-- A number is exact as it is read. -/
theorem isExact_of_readUnsigned (h : readUnsigned negative text = some (v, rest)) :
    v.IsExact := by
  unfold readUnsigned at h
  split at h
  · cases h
    exact .null
  · cases h
    exact .null
  · split at h
    · dsimp only at h
      split_ifs at h
      · obtain ⟨n, -, heq⟩ := Option.map_eq_some_iff.1 h
        cases heq
        exact isExact_ofWhole _ _
      · exact isExact_of_decimal h
    · exact isExact_of_decimal h

/-- Whether what is read with some fuel is exact: values, elements and members. -/
structure ReadsExact (fuel : Nat) : Prop where
  value : ∀ text v rest, readValue fuel text = some (v, rest) → v.IsExact
  elements : ∀ text vs rest, readElements fuel text = some (vs, rest) → ∀ v ∈ vs, v.IsExact
  members : ∀ text members rest, readMembers fuel text = some (members, rest) →
    ∀ entry ∈ members, entry.2.IsExact

namespace ReadsExact

variable {fuel : Nat}

theorem value_succ (hfuel : ReadsExact fuel) (h : readValue (fuel + 1) text = some (v, rest)) :
    v.IsExact := by
  cases text with
  | nil => cases h
  | cons c text =>
    unfold readValue at h
    dsimp only at h
    split at h
    -- an array
    · obtain ⟨start, -, h⟩ := Option.bind_eq_some_iff.1 h
      split at h
      · cases h
        exact .array (by simp)
      · obtain ⟨⟨elements, rest'⟩, hread, h⟩ := Option.bind_eq_some_iff.1 h
        cases h
        exact .array (hfuel.elements _ _ _ hread)
    -- an object
    · obtain ⟨start, -, h⟩ := Option.bind_eq_some_iff.1 h
      split at h
      · cases h
        exact .object (by simp) .nil
      · obtain ⟨⟨members, rest'⟩, hread, h⟩ := Option.bind_eq_some_iff.1 h
        cases h
        exact isExact_ofMembers (hfuel.members _ _ _ hread)
    -- a string, in either kind of quotes
    · obtain ⟨s, -, h⟩ := Option.map_eq_some_iff.1 h
      cases h
      exact .string _
    · obtain ⟨s, -, h⟩ := Option.map_eq_some_iff.1 h
      cases h
      exact .string _
    -- a number with a sign
    · exact isExact_of_readUnsigned h
    · exact isExact_of_readUnsigned h
    -- a word, or a number without a sign
    · split at h
      · cases h
        exact .null
      · cases h
        exact .bool true
      · cases h
        exact .bool false
      · exact isExact_of_readUnsigned h

theorem elements_succ (hfuel : ReadsExact fuel) {vs : List Json}
    (h : readElements (fuel + 1) text = some (vs, rest)) : ∀ v ∈ vs, v.IsExact := by
  unfold readElements at h
  obtain ⟨⟨v, afterValue⟩, hv, h⟩ := Option.bind_eq_some_iff.1 h
  have hfirst := hfuel.value _ _ _ hv
  obtain ⟨next, -, h⟩ := Option.bind_eq_some_iff.1 h
  split at h
  · cases h
    exact List.forall_mem_singleton.2 hfirst
  · obtain ⟨next, -, h⟩ := Option.bind_eq_some_iff.1 h
    split at h
    · cases h
      exact List.forall_mem_singleton.2 hfirst
    · obtain ⟨⟨others, rest'⟩, hothers, h⟩ := Option.bind_eq_some_iff.1 h
      cases h
      exact List.forall_mem_cons.2 ⟨hfirst, hfuel.elements _ _ _ hothers⟩
  · cases h

theorem members_succ (hfuel : ReadsExact fuel) {members : List (String × Json)}
    (h : readMembers (fuel + 1) text = some (members, rest)) :
    ∀ entry ∈ members, entry.2.IsExact := by
  unfold readMembers at h
  obtain ⟨⟨name, afterName⟩, -, h⟩ := Option.bind_eq_some_iff.1 h
  obtain ⟨next, -, h⟩ := Option.bind_eq_some_iff.1 h
  split at h
  · obtain ⟨start, -, h⟩ := Option.bind_eq_some_iff.1 h
    obtain ⟨⟨v, afterValue⟩, hv, h⟩ := Option.bind_eq_some_iff.1 h
    have hfirst := hfuel.value _ _ _ hv
    obtain ⟨next, -, h⟩ := Option.bind_eq_some_iff.1 h
    split at h
    · cases h
      exact List.forall_mem_singleton.2 hfirst
    · obtain ⟨next, -, h⟩ := Option.bind_eq_some_iff.1 h
      split at h
      · cases h
        exact List.forall_mem_singleton.2 hfirst
      · obtain ⟨⟨others, rest'⟩, hothers, h⟩ := Option.bind_eq_some_iff.1 h
        cases h
        exact List.forall_mem_cons.2 ⟨hfirst, hfuel.members _ _ _ hothers⟩
    · cases h
  · cases h

end ReadsExact

theorem readsExact (fuel : Nat) : ReadsExact fuel := by
  induction fuel with
  | zero => exact ⟨nofun, nofun, nofun⟩
  | succ fuel ih =>
    exact ⟨fun _ _ _ => ih.value_succ, fun _ _ _ => ih.elements_succ,
      fun _ _ _ => ih.members_succ⟩

end Reader

/-- Every value that a text holds is exact. -/
theorem isExact_of_read? {text : String} {v : Json} (h : read? text = some v) :
    v.IsExact := by
  obtain ⟨start, -, h⟩ := Option.bind_eq_some_iff.1 h
  obtain ⟨⟨w, rest⟩, hread, h⟩ := Option.bind_eq_some_iff.1 h
  obtain ⟨rest', -, h⟩ := Option.bind_eq_some_iff.1 h
  split_ifs at h
  cases h
  exact (Reader.readsExact _).value _ _ _ hread

end Json

end DownloadQuery
