import DownloadQuery.Proofs.Reading.Matching
import Mathlib

/-!
# The order of operands

Operands are tried in order, so another order may meet an error that the first one passed by, or
pass by one that it met. It never turns a match into a mismatch (`isMatch_reordered`): a filter
answers with its three-valued truth, in which a leaf that fails is undecided (`explains_isMatch`),
and this truth does not depend on the order of operands (`Reordered.truth_eq`).

The fields have to say the same of an item whenever they are read. Those that count their readings
do not, and neither do two on-demand fields that an item keeps under one name.
-/

namespace DownloadQuery

/-! ## Three-valued truth -/

namespace ThreeValued

/-- The truth of both; one that is false decides. -/
def both : Option Bool → Option Bool → Option Bool
  | some false, _ => some false
  | some true, b => b
  | none, some false => some false
  | none, _ => none

/-- The truth of either; one that is true decides. -/
def either : Option Bool → Option Bool → Option Bool
  | some true, _ => some true
  | some false, b => b
  | none, some true => some true
  | none, _ => none

theorem both_left_comm (a b c : Option Bool) : both a (both b c) = both b (both a c) := by
  revert a b c
  decide

theorem either_left_comm (a b c : Option Bool) : either a (either b c) = either b (either a c) := by
  revert a b c
  decide

end ThreeValued

namespace Filter

open ThreeValued

/-- What a leaf says of an item. -/
abbrev Verdict := Leaf → Except (Halt FieldError) Bool

section
variable (verdict : Verdict)

mutual

/-- The truth of a filter, whatever the order in which its leaves are tried. -/
def truth : Filter → Option Bool
  | .leaf l => (verdict l).toOption
  | .all members => allTruth members
  | .any members => anyTruth members
  | .not inner => (truth inner).map (! ·)

def allTruth : List Filter → Option Bool
  | [] => some true
  | f :: rest => both (truth f) (allTruth rest)

def anyTruth : List Filter → Option Bool
  | [] => some false
  | f :: rest => either (truth f) (anyTruth rest)

end

theorem allTruth_perm {fs gs : List Filter} (h : fs.Perm gs) :
    allTruth verdict fs = allTruth verdict gs := by
  induction h with
  | nil => rfl
  | cons f _ ih => rw [allTruth, allTruth, ih]
  | swap f g rest => exact both_left_comm _ _ _
  | trans _ _ ih ih' => exact ih.trans ih'

theorem anyTruth_perm {fs gs : List Filter} (h : fs.Perm gs) :
    anyTruth verdict fs = anyTruth verdict gs := by
  induction h with
  | nil => rfl
  | cons f _ ih => rw [anyTruth, anyTruth, ih]
  | swap f g rest => exact either_left_comm _ _ _
  | trans _ _ ih ih' => exact ih.trans ih'

variable {f g : Filter}

theorem allTruth_member (h : truth verdict f = truth verdict g) (before after : List Filter) :
    allTruth verdict (before ++ f :: after) = allTruth verdict (before ++ g :: after) := by
  induction before with
  | nil => simp only [List.nil_append, allTruth, h]
  | cons k rest ih => simp only [List.cons_append, allTruth, ih]

theorem anyTruth_member (h : truth verdict f = truth verdict g) (before after : List Filter) :
    anyTruth verdict (before ++ f :: after) = anyTruth verdict (before ++ g :: after) := by
  induction before with
  | nil => simp only [List.nil_append, anyTruth, h]
  | cons k rest ih => simp only [List.cons_append, anyTruth, ih]

end

/-! ## Reordering -/

/-- Whether a filter becomes another one when operands change places, at any depth. -/
inductive Reordered : Filter → Filter → Prop
  | refl (f : Filter) : Reordered f f
  | trans {f g h : Filter} : Reordered f g → Reordered g h → Reordered f h
  | all {fs gs : List Filter} : fs.Perm gs → Reordered (.all fs) (.all gs)
  | any {fs gs : List Filter} : fs.Perm gs → Reordered (.any fs) (.any gs)
  | inAll {f g : Filter} (before after : List Filter) : Reordered f g →
      Reordered (.all (before ++ f :: after)) (.all (before ++ g :: after))
  | inAny {f g : Filter} (before after : List Filter) : Reordered f g →
      Reordered (.any (before ++ f :: after)) (.any (before ++ g :: after))
  | not {f g : Filter} : Reordered f g → Reordered (.not f) (.not g)

variable {f g : Filter}

theorem Reordered.truth_eq (h : f.Reordered g) (verdict : Verdict) :
    f.truth verdict = g.truth verdict := by
  induction h with
  | refl f => rfl
  | trans _ _ ih ih' => exact ih.trans ih'
  | all h => exact allTruth_perm verdict h
  | any h => exact anyTruth_perm verdict h
  | inAll before after _ ih => exact allTruth_member verdict ih before after
  | inAny before after _ ih => exact anyTruth_member verdict ih before after
  | not _ ih => rw [truth, truth, ih]

/-- Reordering keeps the leaves. -/
theorem Reordered.allLeaves_iff {P : Leaf → Prop} (h : f.Reordered g) :
    f.AllLeaves P ↔ g.AllLeaves P := by
  induction h with
  | refl f => exact Iff.rfl
  | trans _ _ ih ih' => exact ih.trans ih'
  | all h => simp only [allLeaves_all, h.mem_iff]
  | any h => simp only [allLeaves_any, h.mem_iff]
  | inAll before after _ ih => simp [ih, or_imp, forall_and]
  | inAny before after _ ih => simp [ih, or_imp, forall_and]
  | not _ ih => simpa using ih

/-! ## Answers are truths -/

/-- Whether a result is the truth of operands, or the error that one of their leaves meets. -/
inductive Explains (verdict : Verdict) (leaves : List Leaf) (truth : Option Bool) :
    Except (Halt FieldError) Bool → Prop
  | decided {b : Bool} (h : truth = some b) : Explains verdict leaves truth (.ok b)
  | failed {l : Leaf} {e : Halt FieldError} (hl : l ∈ leaves) (h : verdict l = .error e) :
      Explains verdict leaves truth (.error e)

namespace Explains

variable {verdict : Verdict} {leaves : List Leaf} {truth : Option Bool}

theorem truth_eq {b : Bool} (h : Explains verdict leaves truth (.ok b)) : truth = some b := by
  cases h
  assumption

theorem exists_ok {result : Except (Halt FieldError) Bool}
    (h : Explains verdict leaves truth result) (hok : ∀ l ∈ leaves, ∃ b, verdict l = .ok b) :
    ∃ b, result = .ok b := by
  cases h with
  | @decided b _ => exact ⟨b, rfl⟩
  | failed hl he =>
    obtain ⟨b, hb⟩ := hok _ hl
    rw [he] at hb
    cases hb

theorem of_subset {more : List Leaf} {result : Except (Halt FieldError) Bool}
    (h : Explains verdict leaves truth result) (hsubset : leaves ⊆ more) :
    Explains verdict more truth result := by
  cases h with
  | decided h => exact .decided h
  | failed hl h => exact .failed (hsubset hl) h

end Explains

/-- Whether a leaf says the same of all readings of a kind, and testing it leaves a reading of that
kind behind. -/
def Keeps (scene : Scene) (P : Reading → Prop) (verdict : Verdict) (l : Leaf) : Prop :=
  ∀ r, P r → (l.isMatch scene r).1 = verdict l ∧ P (l.isMatch scene r).2

variable {scene : Scene} {P : Reading → Prop} {verdict : Verdict}

mutual

/-- A filter answers with its truth, or fails as one of its leaves does. -/
theorem explains_isMatch {f : Filter} (hf : f.AllLeaves (Keeps scene P verdict)) {r : Reading}
    (hr : P r) :
    Explains verdict f.leaves (f.truth verdict) (f.isMatch scene r).1 ∧
      P (f.isMatch scene r).2 := by
  cases f with
  | leaf l =>
    obtain ⟨hl, hleft⟩ := allLeaves_leaf.1 hf r hr
    rw [isMatch, hl, truth, leaves]
    refine ⟨?_, hleft⟩
    cases hv : verdict l with
    | ok b => exact .decided rfl
    | error e => exact .failed (List.mem_singleton_self l) hv
  | all members =>
    rw [isMatch_all, truth]
    exact explains_allMatch (allLeaves_all.1 hf) hr
  | any members =>
    rw [isMatch_any, truth]
    exact explains_anyMatch (allLeaves_any.1 hf) hr
  | not inner =>
    obtain ⟨hinner, hleft⟩ := explains_isMatch (allLeaves_not.1 hf) hr
    rw [isMatch, truth, leaves]
    rcases hmatch : inner.isMatch scene r with ⟨result, left⟩
    rw [hmatch] at hinner hleft
    cases hinner with
    | decided h => exact ⟨.decided (by rw [h]; rfl), hleft⟩
    | failed hl h => exact ⟨.failed hl h, hleft⟩

theorem explains_allMatch {members : List Filter}
    (hm : ∀ f ∈ members, f.AllLeaves (Keeps scene P verdict)) {r : Reading} (hr : P r) :
    Explains verdict (leavesOfAll members) (allTruth verdict members)
        (allMatch scene members r).1 ∧
      P (allMatch scene members r).2 := by
  cases members with
  | nil => exact ⟨.decided rfl, hr⟩
  | cons f rest =>
    obtain ⟨hfirst, hrest⟩ := List.forall_mem_cons.1 hm
    obtain ⟨hf, hleft⟩ := explains_isMatch hfirst hr
    rw [allMatch, allTruth, leavesOfAll]
    rcases hmatch : f.isMatch scene r with ⟨result, left⟩
    rw [hmatch] at hf hleft
    cases hf with
    | failed hl h => exact ⟨.failed (List.mem_append_left _ hl) h, hleft⟩
    | @decided b h =>
      rw [h]
      cases b with
      | false => exact ⟨.decided rfl, hleft⟩
      | true =>
        obtain ⟨hafter, hend⟩ := explains_allMatch hrest hleft
        exact ⟨hafter.of_subset (List.subset_append_right _ _), hend⟩

theorem explains_anyMatch {members : List Filter}
    (hm : ∀ f ∈ members, f.AllLeaves (Keeps scene P verdict)) {r : Reading} (hr : P r) :
    Explains verdict (leavesOfAll members) (anyTruth verdict members)
        (anyMatch scene members r).1 ∧
      P (anyMatch scene members r).2 := by
  cases members with
  | nil => exact ⟨.decided rfl, hr⟩
  | cons f rest =>
    obtain ⟨hfirst, hrest⟩ := List.forall_mem_cons.1 hm
    obtain ⟨hf, hleft⟩ := explains_isMatch hfirst hr
    rw [anyMatch, anyTruth, leavesOfAll]
    rcases hmatch : f.isMatch scene r with ⟨result, left⟩
    rw [hmatch] at hf hleft
    cases hf with
    | failed hl h => exact ⟨.failed (List.mem_append_left _ hl) h, hleft⟩
    | @decided b h =>
      rw [h]
      cases b with
      | true => exact ⟨.decided rfl, hleft⟩
      | false =>
        obtain ⟨hafter, hend⟩ := explains_anyMatch hrest hleft
        exact ⟨hafter.of_subset (List.subset_append_right _ _), hend⟩

end

end Filter

/-! ## Fields that say the same -/

namespace Field

/-- The value of a field depends on the raw values of an item, and on what the item keeps under the
name of the field if it is on demand. -/
theorem value_congr {f : Field} (hf : f.source.Repeatable) (scene : Scene) {r r' : Reading}
    (hraw : r.item.raw = r'.item.raw)
    (hkept : f.freshness = .onDemand → r.item.kept? f.name = r'.item.kept? f.name) :
    (f.value scene r).1 = (f.value scene r').1 := by
  have hfetch : (f.fetch scene r).1 = (f.fetch scene r').1 := by
    rw [fetch, fetch, hraw]
    exact fresh_eq hf scene _ _ _
  rw [value, value]
  split
  · next hd =>
    rw [hkept hd]
    cases r'.item.kept? f.name with
    | some v => rfl
    | none =>
      dsimp only
      rcases hr : f.fetch scene r with ⟨result, left⟩
      rcases hr' : f.fetch scene r' with ⟨result', left'⟩
      rw [hr, hr'] at hfetch
      obtain rfl : result = result' := hfetch
      cases result <;> rfl
  · exact hfetch

/-- Whether two fields are one if items keep their values under one name. -/
def OwnNames (f g : Field) : Prop :=
  f.freshness = .onDemand → g.freshness = .onDemand → f.name = g.name → f = g

/-- Reading a field does not show in the value of another. -/
theorem value_after {f g : Field} (hf : f.source.Repeatable) (hown : f.OwnNames g) (scene : Scene)
    (r : Reading) : (f.value scene (g.value scene r).2).1 = (f.value scene r).1 := by
  by_cases hfg : f = g
  · subst hfg
    exact value_again hf scene r
  · refine value_congr hf scene raw_value fun hd => ?_
    cases g.outcome scene r with
    | computed _ _ hitem => rw [hitem]
    | found _ _ _ _ hitem => rw [hitem]
    | stored v _ hdg hk _ _ hitem =>
      have hname : f.name ≠ g.name := fun hname => hfg (hown hd hdg hname)
      rw [hitem, Item.kept?_keep hk, if_neg hname]

end Field

namespace Filter

/-- Whether the fields of a filter say the same of an item whenever they are read: none counts its
readings, and items keep the values of no two of them under one name. -/
structure Settled (f : Filter) : Prop where
  repeatable : f.AllLeaves fun l => l.field.source.Repeatable
  ownNames : f.AllLeaves fun k => f.AllLeaves fun l => k.field.OwnNames l.field

/-- A filter whose fields are those that their names stand for is settled. -/
theorem Genuine.settled {resolve : String → Except FieldError (Option Field)} {f : Filter}
    (h : f.Genuine resolve) : f.Settled where
  repeatable l hl := (h l hl).repeatable
  ownNames k hk l hl _ _ hname := by
    have hsame := (h k hk).resolved
    rw [hname, (h l hl).resolved] at hsame
    exact (Option.some.inj (Except.ok.inj hsame)).symm

/-- Testing the leaves of a settled filter does not change what they say. -/
theorem Settled.keeps {f : Filter} (h : f.Settled) (scene : Scene) (r : Reading) :
    f.AllLeaves (Keeps scene
      (fun s => ∀ l ∈ f.leaves, (l.field.value scene s).1 = (l.field.value scene r).1)
      fun l => (l.isMatch scene r).1) := by
  intro k hk s hs
  constructor
  · show (k.isMatch scene s).1 = (k.isMatch scene r).1
    rw [k.isMatch_eq, k.isMatch_eq, hs k hk]
  · intro l hl
    rw [k.isMatch_eq, Field.value_after (h.repeatable l hl) (h.ownNames l hl k hk), hs l hl]

/-- The order of operands does not change an answer, and there is one if no leaf fails. -/
theorem isMatch_reordered {f g : Filter} (h : f.Reordered g) (hf : f.Settled) (scene : Scene)
    (r : Reading) :
    (∀ b c, (f.isMatch scene r).1 = .ok b → (g.isMatch scene r).1 = .ok c → b = c) ∧
    ((∀ l ∈ f.leaves, ∃ b, (l.isMatch scene r).1 = .ok b) →
      ∃ b, (f.isMatch scene r).1 = .ok b ∧ (g.isMatch scene r).1 = .ok b) := by
  have hkeeps := hf.keeps scene r
  obtain ⟨hexplained, -⟩ := explains_isMatch hkeeps fun l _ => rfl
  obtain ⟨hexplained', -⟩ := explains_isMatch (h.allLeaves_iff.1 hkeeps) fun l _ => rfl
  rw [← h.truth_eq] at hexplained'
  have hsame : ∀ b c, (f.isMatch scene r).1 = .ok b → (g.isMatch scene r).1 = .ok c → b = c := by
    intro b c hb hc
    rw [hb] at hexplained
    rw [hc] at hexplained'
    exact Option.some.inj (hexplained.truth_eq.symm.trans hexplained'.truth_eq)
  refine ⟨hsame, fun hok => ?_⟩
  have hok' : g.AllLeaves fun l => ∃ b, (l.isMatch scene r).1 = .ok b := h.allLeaves_iff.1 hok
  obtain ⟨b, hb⟩ := hexplained.exists_ok hok
  obtain ⟨c, hc⟩ := hexplained'.exists_ok hok'
  obtain rfl := hsame b c hb hc
  exact ⟨b, hb, hc⟩

/-- A disjunction and a conjunction in it, both in another order, on the main view. -/
theorem isMatch_reordered_views :
    let scene : Scene := ⟨⟨.fixed 0, 0⟩, fun _ => false, fun _ => none⟩
    let r : Reading := ⟨.ofSnapshot [("views", .array [.string "main"])], []⟩
    let main : Filter := .leaf ⟨Field.tags .onDemand "views" "views" .stored, "main",
      .tags (.member "main"), false⟩
    let opened : Filter := .leaf ⟨Field.flag .dynamic "is_open" "open" .stored, "yes",
      .truth true, false⟩
    let f : Filter := .any [.not (.all [main, opened]), main]
    let g : Filter := .any [main, .not (.all [opened, main])]
    f.Reordered g ∧
      (∀ b c, (f.isMatch scene r).1 = .ok b → (g.isMatch scene r).1 = .ok c → b = c) ∧
      ∃ b, (f.isMatch scene r).1 = .ok b ∧ (g.isMatch scene r).1 = .ok b := by
  intro scene r main opened f g
  have hreordered : f.Reordered g :=
    .trans (.inAny [] [main] (.not (.all (.swap _ _ _)))) (.any (.swap _ _ _))
  let resolve (name : String) : Except FieldError (Option Field) :=
    if name = "views" then .ok (some (Field.tags .onDemand "views" "views" .stored))
    else .ok (some (Field.flag .dynamic "is_open" "open" .stored))
  have hmain : main.Genuine resolve :=
    allLeaves_leaf.2 ⟨rfl, by simp [Field.tags, Source.Repeatable]⟩
  have hopened : opened.Genuine resolve :=
    allLeaves_leaf.2 ⟨rfl, by simp [Field.flag, Source.Repeatable]⟩
  have hgenuine : f.Genuine resolve := by simp [f, hmain, hopened]
  obtain ⟨hsame, hok⟩ := isMatch_reordered hreordered hgenuine.settled scene r
  let answers (l : Leaf) : Prop := ∃ b, (l.isMatch scene r).1 = .ok b
  have hviews : main.AllLeaves answers := allLeaves_leaf.2 ⟨true, by decide +kernel⟩
  have hopen : opened.AllLeaves answers := allLeaves_leaf.2 ⟨false, by decide +kernel⟩
  have hleaves : f.AllLeaves answers := by simp [f, hviews, hopen]
  exact ⟨hreordered, hsame, hok hleaves⟩

/-- Where a field counts its readings, or an item keeps the values of two fields under one name, the
order of operands decides. -/
theorem isMatch_order_decides :
    let scene : Scene := ⟨⟨.fixed 0, 0⟩, fun _ => false, fun _ => none⟩
    let r : Reading := ⟨.ofSnapshot [("track", .string "05")], []⟩
    let count (n : Nat) : Filter :=
      .leaf ⟨⟨"calls", "", .integer, .dynamic, .counter, some .float, none⟩, toString n,
        .number .equal (Binary64.ofInt n), false⟩
    let label : Filter :=
      .leaf ⟨⟨"track", "", .text, .onDemand, .stored, some .pattern, none⟩, "05",
        .text (.glob [.literal '0', .literal '5']), false⟩
    let number : Filter :=
      .leaf ⟨⟨"track", "", .integer, .onDemand, .stored, some .float, none⟩, "5",
        .number .equal 5, false⟩
    ((Filter.all [count 1, count 2]).Reordered (.all [count 2, count 1]) ∧
      ((Filter.all [count 1, count 2]).isMatch scene r).1 = .ok true ∧
      ((Filter.all [count 2, count 1]).isMatch scene r).1 = .ok false) ∧
    (Filter.all [label, number]).Reordered (.all [number, label]) ∧
      ((Filter.all [label, number]).isMatch scene r).1 = .ok true ∧
      ((Filter.all [number, label]).isMatch scene r).1 = .ok false := by
  intro scene r count label number
  refine ⟨⟨.all (.swap _ _ _), ?_, ?_⟩, .all (.swap _ _ _), ?_, ?_⟩
  · decide +kernel
  · decide +kernel
  · decide +kernel
  · decide +kernel

end Filter
end DownloadQuery
