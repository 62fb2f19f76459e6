import DownloadQuery.Proofs.Condition.WrittenConditions

/-!
# The fields that conditions compare

What holds of the filters of all conditions holds of the filter that is read, if groups keep it
(`holds_of_readWithText`). What holds of all leaves is kept (`grouped_allLeaves`), and each field
that a condition compares is the one that the name of the field stands for (`allLeaves_of_readOne`).
-/

namespace DownloadQuery
namespace Condition

open DownloadQuery.Filter

/-- Whether a property of filters passes on to what groups make of them. -/
structure Grouped (P : Filter → Prop) : Prop where
  all : ∀ {members}, members ≠ [] → (∀ f ∈ members, P f) → P (.all members)
  any : ∀ {members}, 2 ≤ members.length → (∀ f ∈ members, P f) → P (.any members)
  not : ∀ {f}, f.isCompound = true → P f → P (.not f)

section
variable {P : Filter → Prop}

theorem Grouped.ofRun (hP : Grouped P) {run : List Filter} (hne : run ≠ [])
    (h : ∀ f ∈ run, P f) : P (Progress.ofRun run) := by
  match run with
  | [] => exact absurd rfl hne
  | [f] => exact h f List.mem_cons_self
  | f :: g :: rest => exact hP.all hne h

namespace Progress

/-- Whether all that has been met has a property, and no alternative before is empty. -/
structure Holds (P : Filter → Prop) (p : Progress) : Prop where
  alternatives : ∀ run ∈ p.alternatives, run ≠ [] ∧ ∀ f ∈ run, P f
  current : ∀ f ∈ p.current, P f

theorem holds_start : start.Holds P := ⟨by simp [start], by simp [start]⟩

theorem Holds.finish (hP : Grouped P) {p : Progress} (h : p.Holds P) (hne : p.current ≠ []) :
    P p.finish := by
  have hruns : ∀ run ∈ p.current :: p.alternatives, run ≠ [] ∧ ∀ f ∈ run, P f :=
    List.forall_mem_cons.2 ⟨⟨hne, h.current⟩, h.alternatives⟩
  let root := if p.alternatives = [] then Filter.all p.current.reverse
    else .any ((p.current :: p.alternatives).reverse.map fun run => ofRun run.reverse)
  have hroot : P root ∧ root.isCompound = true := by
    by_cases halternatives : p.alternatives = []
    · simp only [root, if_pos halternatives]
      exact ⟨hP.all (by simpa using hne) (by simpa using h.current), rfl⟩
    · simp only [root, if_neg halternatives]
      refine ⟨hP.any ?_ (List.forall_mem_map.2 fun run hrun => ?_), rfl⟩
      · have hpos := List.length_pos_of_ne_nil halternatives
        rw [List.length_map, List.length_reverse, List.length_cons]
        omega
      · obtain ⟨hrun', hmembers⟩ := hruns run (List.mem_reverse.1 hrun)
        exact hP.ofRun (by simpa using hrun') (by simpa using hmembers)
  unfold Progress.finish
  by_cases hnegated : p.negated
  · rw [if_pos hnegated]
    exact hP.not hroot.2 hroot.1
  · rw [if_neg hnegated]
    exact hroot.1

end Progress

variable {accept : Accept}

mutual

theorem holds_of_readNode (hP : Grouped P) (hc : ∀ c f, accept c = .ok f → P f) (n : Node)
    {f : Filter} (h : readNode accept n = .ok f) : P f := by
  cases n with
  | term token =>
    rw [readNode] at h
    exact hc token f h
  | group nodes =>
    rw [readNode] at h
    exact holds_of_readGroup hP hc nodes Progress.holds_start h

/-- What the filters of the conditions have, that of the group has. -/
theorem holds_of_readGroup (hP : Grouped P) (hc : ∀ c f, accept c = .ok f → P f)
    (nodes : List Node) {text : String} {p : Progress} (hp : p.Holds P) {f : Filter}
    (h : readGroup accept text p nodes = .ok f) : P f := by
  cases nodes with
  | nil =>
    unfold readGroup at h
    split_ifs at h with hempty
    cases h
    exact hp.finish hP (by simpa using hempty)
  | cons n rest =>
    unfold readGroup at h
    split_ifs at h with _ _ hempty
    · have hnegated : { p with negated := true }.Holds P := ⟨hp.alternatives, hp.current⟩
      exact holds_of_readGroup hP hc rest hnegated h
    · have hturn : p.turn.Holds P :=
        ⟨List.forall_mem_cons.2 ⟨⟨by simpa using hempty, hp.current⟩, hp.alternatives⟩,
          by simp [Progress.turn]⟩
      exact holds_of_readGroup hP hc rest hturn h
    · obtain ⟨g, hg, hrest⟩ := exists_of_bind_ok h
      have hpart : { p with begun := true, current := g :: p.current }.Holds P :=
        ⟨hp.alternatives,
          List.forall_mem_cons.2 ⟨holds_of_readNode hP hc n hg, hp.current⟩⟩
      exact holds_of_readGroup hP hc rest hpart hrest

end

theorem holds_of_readWithText {tokens : List String} {text : String} {f : Filter}
    {answers : Answers} {settings : Settings} (hP : Grouped P)
    (hc : ∀ c f, readOne answers.find settings c = .ok f → P f)
    (h : readWithText answers.find settings tokens text = .ok f) : P f := by
  unfold readWithText at h
  split at h
  · cases h
  · exact holds_of_readGroup hP hc _ Progress.holds_start h

end

theorem grouped_allLeaves (P : Leaf → Prop) : Grouped fun f => f.AllLeaves P where
  all _ h := allLeaves_all.2 h
  any _ h := allLeaves_any.2 h
  not _ h := allLeaves_not.2 h

variable {answers : Answers} {settings : Settings}

theorem allLeaves_of_valueFilter {clock : Clock} {field : Field} {family : Family}
    {value : List Char} {f : Filter} (h : valueFilter clock field family value = .ok f) :
    f.AllLeaves fun l => l.field = field := by
  obtain ⟨l, hl, ⟨rfl, -⟩ | ⟨rfl, -⟩⟩ := valueFilter_ok h
  · simpa using hl
  · simpa using hl

/-- A condition compares the field that its name stands for. -/
theorem allLeaves_of_readOne
    (hown : ∀ {name : String} {field : Field}, answers name = .ok (some field) →
      answers field.name = .ok (some field))
    {c : String} {f : Filter} (h : readOne answers.find settings c = .ok f) :
    f.AllLeaves fun l => answers l.field.name = .ok (some l.field) := by
  obtain ⟨name, values, field, family, -, ha, -, hvalues⟩ := readOne_ok h
  have hfield : f.AllLeaves fun l => l.field = field := by
    rcases ofValues_ok hvalues with ⟨value, -, hv⟩ | ⟨members, -, hm, rfl⟩
    · exact allLeaves_of_valueFilter hv
    · rw [allLeaves_any]
      intro g hg
      obtain ⟨value, -, hv⟩ := exists_value_of_mem hm g hg
      exact allLeaves_of_valueFilter hv
  intro l hl
  rw [hfield l hl]
  exact hown ha

end Condition
end DownloadQuery
