import DownloadQuery.Json.Value
import Mathlib.Tactic.SplitIfs
import Mathlib.Tactic.Tauto

/-!
# Members of objects

The members of an object are in ascending order of their names, each name once, and of members that
are given more than once the last counts (`Json.lookup_insertAll`).
-/

namespace DownloadQuery
namespace Json

variable {name other : String} {value : Json} {members sorted : List (String × Json)}

theorem lookup_cons : ((name, value) :: members).lookup other =
    if other = name then some value else members.lookup other := by
  rw [List.lookup_cons]
  by_cases h : other = name
  · rw [beq_iff_eq.2 h, if_pos h]
  · rw [beq_eq_false_iff_ne.2 h, if_neg h]

theorem lookup_insertMember : (insertMember name value members).lookup other =
    if other = name then some value else members.lookup other := by
  induction members with
  | nil => exact lookup_cons
  | cons entry rest ih =>
    obtain ⟨n, v⟩ := entry
    rw [insertMember]
    by_cases hsame : name = n
    · subst hsame
      rw [if_pos rfl, lookup_cons, lookup_cons]
      split_ifs <;> rfl
    by_cases hless : name < n
    · rw [if_neg hsame, if_pos hless, lookup_cons]
    · rw [if_neg hsame, if_neg hless, lookup_cons, lookup_cons, ih]
      split_ifs with hn hname
      · exact absurd (hname.symm.trans hn) hsame
      all_goals rfl

theorem mem_keys_insertMember :
    other ∈ (insertMember name value members).map (·.1) ↔
      other = name ∨ other ∈ members.map (·.1) := by
  induction members with
  | nil => simp [insertMember]
  | cons entry rest ih =>
    rw [insertMember]
    split_ifs with hsame hless
    · simp [hsame]
    · simp
    · simp only [List.map_cons, List.mem_cons, ih]
      tauto

/-- Members stay in ascending order of their names. -/
theorem ascending_insertMember (h : (members.map (·.1)).Pairwise (· < ·)) :
    ((insertMember name value members).map (·.1)).Pairwise (· < ·) := by
  induction members with
  | nil => exact List.pairwise_singleton _ _
  | cons entry rest ih =>
    obtain ⟨hfirst, hrest⟩ := List.pairwise_cons.1 h
    rw [insertMember]
    split_ifs with hsame hless
    · rw [hsame]
      exact h
    · refine List.pairwise_cons.2 ⟨?_, h⟩
      intro key hkey
      rcases List.mem_cons.1 hkey with rfl | hkey
      · exact hless
      · exact String.lt_trans hless (hfirst key hkey)
    · refine List.pairwise_cons.2 ⟨?_, ih hrest⟩
      intro key hkey
      rcases mem_keys_insertMember.1 hkey with rfl | hkey
      · exact Decidable.byContradiction fun hn => hsame (String.le_antisymm hn hless)
      · exact hfirst key hkey

/-- Members that are inserted one after the other. -/
def insertAll (sorted members : List (String × Json)) : List (String × Json) :=
  members.foldl (fun sorted (name, value) => insertMember name value sorted) sorted

theorem insertAll_cons (entry : String × Json) :
    insertAll sorted (entry :: members) =
      insertAll (insertMember entry.1 entry.2 sorted) members := rfl

theorem mem_keys_insertAll :
    name ∈ (insertAll sorted members).map (·.1) ↔
      name ∈ sorted.map (·.1) ∨ name ∈ members.map (·.1) := by
  induction members generalizing sorted with
  | nil => simp [insertAll]
  | cons entry rest ih =>
    rw [insertAll_cons, ih, mem_keys_insertMember, List.map_cons, List.mem_cons]
    tauto

theorem ascending_insertAll (h : (sorted.map (·.1)).Pairwise (· < ·)) :
    ((insertAll sorted members).map (·.1)).Pairwise (· < ·) := by
  induction members generalizing sorted with
  | nil => exact h
  | cons entry rest ih => exact ih (ascending_insertMember h)

theorem insertMember_eq_append (h : ∀ key ∈ sorted.map (·.1), key < name) :
    insertMember name value sorted = sorted ++ [(name, value)] := by
  induction sorted with
  | nil => rfl
  | cons entry rest ih =>
    obtain ⟨hfirst, hrest⟩ := List.forall_mem_cons.1 h
    rw [insertMember, if_neg (String.ne_of_lt hfirst).symm, if_neg (String.lt_asymm hfirst),
      ih hrest]
    rfl

theorem insertAll_eq_append (h : ((sorted ++ members).map (·.1)).Pairwise (· < ·)) :
    insertAll sorted members = sorted ++ members := by
  induction members generalizing sorted with
  | nil => exact (List.append_nil _).symm
  | cons entry rest ih =>
    have hbelow : ∀ key ∈ sorted.map (·.1), key < entry.1 := by
      rw [List.map_append, List.pairwise_append] at h
      exact fun key hkey => h.2.2 key hkey entry.1 List.mem_cons_self
    rw [insertAll_cons, insertMember_eq_append hbelow, ih (by simpa using h)]
    simp

/-- Members in ascending order stay as they are. -/
theorem ofMembers_eq_object (h : (members.map (·.1)).Pairwise (· < ·)) :
    ofMembers members = .object members :=
  congrArg Json.object (insertAll_eq_append h)

theorem lookup_insertAll_of_notMem (h : name ∉ members.map (·.1)) :
    (insertAll sorted members).lookup name = sorted.lookup name := by
  induction members generalizing sorted with
  | nil => rfl
  | cons entry rest ih =>
    obtain ⟨hfirst, hrest⟩ := not_or.1 (mt List.mem_cons.2 h)
    rw [insertAll_cons, ih hrest, lookup_insertMember, if_neg hfirst]

/-- The last member of a name counts. -/
theorem lookup_insertAll {before after : List (String × Json)} (h : name ∉ after.map (·.1)) :
    (insertAll sorted (before ++ (name, value) :: after)).lookup name = some value := by
  have hsplit : insertAll sorted (before ++ (name, value) :: after) =
      insertAll (insertMember name value (insertAll sorted before)) after := List.foldl_append
  rw [hsplit, lookup_insertAll_of_notMem h, lookup_insertMember, if_pos rfl]

/-- A member is found under its name if all members of this name have its value. -/
theorem lookup_insertAll_of_only {v : Json} (honly : ∀ w, (name, w) ∈ members → w = v)
    (hfound : (name, v) ∈ members ∨ sorted.lookup name = some v) :
    (insertAll sorted members).lookup name = some v := by
  induction members generalizing sorted with
  | nil => exact hfound.resolve_left List.not_mem_nil
  | cons entry rest ih =>
    obtain ⟨n, w⟩ := entry
    refine ih (fun w' hw' => honly w' (List.mem_cons_of_mem _ hw')) ?_
    rw [lookup_insertMember]
    by_cases hname : name = n
    · subst hname
      rw [if_pos rfl, honly w List.mem_cons_self]
      exact .inr rfl
    · rw [if_neg hname]
      refine hfound.imp_left fun hmem => ?_
      exact (List.mem_cons.1 hmem).resolve_left fun heq => hname (congrArg Prod.fst heq)

end Json
end DownloadQuery
