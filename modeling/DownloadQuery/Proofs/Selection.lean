import DownloadQuery.Proofs.Filter.Overflow
import DownloadQuery.Proofs.Filter.Unseen
import DownloadQuery.Selection

/-!
# Selections as verdicts on items

A selection sorts items by what the filter says about each of them in its turn (`Sorts`). A strict
selection is the same up to the first failure, which is then its result (`selectStrictFrom_eq`). An
overflow ends either.
-/

namespace DownloadQuery

/-- What a filter says about items one after another. What one reading leaves behind for all items
is there at the next. -/
def Filter.verdictsFrom (scene : Scene) (f : Filter) :
    List Item → Tally → List (Except (Halt FieldError) Bool)
  | [], _ => []
  | item :: rest, tally =>
    (f.isMatch scene ⟨item, tally⟩).1 ::
      verdictsFrom scene f rest (f.isMatch scene ⟨item, tally⟩).2.tally

/-- What a filter says about the items of a stock. -/
def Stock.verdicts (scene : Scene) (f : Filter) (stock : Stock) :
    List (Except (Halt FieldError) Bool) :=
  f.verdictsFrom scene stock.items stock.tally

namespace Filter

theorem length_verdictsFrom (scene : Scene) (f : Filter) (items : List Item) (tally : Tally) :
    (f.verdictsFrom scene items tally).length = items.length := by
  induction items generalizing tally with
  | nil => rfl
  | cons item rest ih => rw [verdictsFrom, List.length_cons, List.length_cons, ih]

/-- Unless a filter reads fields that count their readings, it takes each item by itself. -/
theorem verdictsFrom_eq_map {f : Filter} (h : f.AllLeaves fun l => l.field.source.Repeatable)
    (scene : Scene) (items : List Item) (tally tally' : Tally) :
    f.verdictsFrom scene items tally =
      items.map fun item => (f.isMatch scene ⟨item, tally'⟩).1 := by
  induction items generalizing tally with
  | nil => rfl
  | cons item rest ih =>
    rw [verdictsFrom, List.map_cons, ih, isMatch_tally h scene item tally tally']

end Filter

namespace Selection

/-- The index of an item that passed. -/
def passed : Except (Halt FieldError) Bool × Nat → Option Nat
  | (.ok true, index) => some index
  | _ => none

/-- The failure of an item that could not be matched. -/
def failed : Except (Halt FieldError) Bool × Nat → Option ItemFailure
  | (.error (.error e), index) => some ⟨index, e⟩
  | _ => none

/-- Why matching an item ended without an answer. -/
def halted : Except (Halt FieldError) Bool × Nat → Option (Halt ItemFailure)
  | (.error halt, index) => some (halt.map (⟨index, ·⟩))
  | _ => none

theorem passed_eq_some {verdict : Except (Halt FieldError) Bool × Nat} {index : Nat} :
    passed verdict = some index ↔ verdict = (.ok true, index) := by
  rcases verdict with ⟨_ | _ | _, i⟩ <;> simp [passed]

theorem failed_eq_some {verdict : Except (Halt FieldError) Bool × Nat} {e : ItemFailure} :
    failed verdict = some e ↔ verdict = (.error (.error e.error), e.index) := by
  obtain ⟨index, error⟩ := e
  rcases verdict with ⟨(_ | _) | _, i⟩ <;> simp [failed, and_comm]

/-- The items of some verdicts that passed and those that failed. -/
def sorted (verdicts : List (Except (Halt FieldError) Bool)) (index : Nat) : Selection :=
  ⟨(verdicts.zipIdx index).filterMap passed, (verdicts.zipIdx index).filterMap failed⟩

section
variable (verdicts : List (Except (Halt FieldError) Bool)) (index : Nat)

theorem sorted_ok (b : Bool) :
    sorted (.ok b :: verdicts) index =
      if b then
        { sorted verdicts (index + 1) with
          matched := index :: (sorted verdicts (index + 1)).matched }
      else sorted verdicts (index + 1) := by
  cases b <;> rfl

theorem sorted_error (e : FieldError) :
    sorted (.error (.error e) :: verdicts) index =
      { sorted verdicts (index + 1) with
        failures := ⟨index, e⟩ :: (sorted verdicts (index + 1)).failures } := rfl

theorem findSome?_halted_ok (b : Bool) :
    ((.ok b :: verdicts : List (Except (Halt FieldError) Bool)).zipIdx index).findSome? halted =
      (verdicts.zipIdx (index + 1)).findSome? halted := rfl

theorem findSome?_halted_error (halt : Halt FieldError) :
    ((.error halt :: verdicts : List (Except (Halt FieldError) Bool)).zipIdx index).findSome?
      halted = some (halt.map (⟨index, ·⟩)) := rfl

end

/-- A selection lists the items that passed and those that failed, unless the program ends. -/
theorem selectFrom_eq (scene : Scene) (f : Filter) (index : Nat) (items : List Item)
    (tally : Tally) :
    (selectFrom scene f index items tally).1 =
      if .error .overflow ∈ f.verdictsFrom scene items tally then .error ⟨⟩
      else .ok (sorted (f.verdictsFrom scene items tally) index) := by
  induction items generalizing index tally with
  | nil => rfl
  | cons item rest ih =>
    have hrest := ih (index + 1) (f.isMatch scene ⟨item, tally⟩).2.tally
    rw [selectFrom, Filter.verdictsFrom]
    rcases hresult : f.isMatch scene ⟨item, tally⟩ with ⟨(e | _) | b, r⟩
    · rw [hresult] at hrest
      simp only [hrest, sorted_error, List.mem_cons, Except.error.injEq, reduceCtorEq, false_or]
      split <;> rfl
    · simp
    · rw [hresult] at hrest
      simp only [hrest, sorted_ok, List.mem_cons, reduceCtorEq, false_or]
      by_cases hends : .error .overflow ∈ f.verdictsFrom scene rest r.tally <;> cases b <;>
        simp [hends, Except.map]

/-- A strict selection ends where the first item has no answer, or has the items that passed. -/
theorem selectStrictFrom_eq (scene : Scene) (f : Filter) (index : Nat) (items : List Item)
    (tally : Tally) :
    (selectStrictFrom scene f index items tally).1 =
      (((f.verdictsFrom scene items tally).zipIdx index).findSome? halted).elim
        (.ok (sorted (f.verdictsFrom scene items tally) index).matched) .error := by
  induction items generalizing index tally with
  | nil => rfl
  | cons item rest ih =>
    have hrest := ih (index + 1) (f.isMatch scene ⟨item, tally⟩).2.tally
    rw [selectStrictFrom, Filter.verdictsFrom]
    rcases hresult : f.isMatch scene ⟨item, tally⟩ with ⟨halt | b, r⟩
    · rw [findSome?_halted_error]
      rfl
    · rw [hresult] at hrest
      rw [findSome?_halted_ok, sorted_ok]
      dsimp only
      rw [hrest]
      cases ((f.verdictsFrom scene rest r.tally).zipIdx (index + 1)).findSome? halted <;>
        cases b <;> rfl

/-- Whether a selection sorts items by verdicts on them. -/
structure Sorts (s : Selection) (verdicts : List (Except (Halt FieldError) Bool)) : Prop where
  matched_ascending : s.matched.Pairwise (· < ·)
  failures_ascending : (s.failures.map (·.index)).Pairwise (· < ·)
  disjoint : ∀ index ∈ s.matched, index ∉ s.failures.map (·.index)
  /-- The items that match are those that pass. -/
  matched_iff : ∀ index, index ∈ s.matched ↔ verdicts[index]? = some (.ok true)
  /-- The failures are those of items that cannot be matched, with their errors. -/
  failures_iff : ∀ index e, ⟨index, e⟩ ∈ s.failures ↔ verdicts[index]? = some (.error (.error e))
  /-- The items left over are those that do not pass. -/
  neither_iff : ∀ index < verdicts.length,
    (index ∉ s.matched ∧ index ∉ s.failures.map (·.index)) ↔
      verdicts[index]? = some (.ok false)

/-- Whether a verdict is the first that is no answer, and why. -/
def HaltsAt (verdicts : List (Except (Halt FieldError) Bool)) (index : Nat)
    (halt : Halt FieldError) : Prop :=
  verdicts[index]? = some (.error halt) ∧ ∀ before < index, ∃ b, verdicts[before]? = some (.ok b)

theorem zipIdx_ascending (verdicts : List (Except (Halt FieldError) Bool)) :
    verdicts.zipIdx.Pairwise fun a b => a.2 < b.2 := by
  apply List.pairwise_map.1
  rw [List.zipIdx_map_snd]
  exact List.pairwise_lt_range' 1

theorem mem_passed {verdicts : List (Except (Halt FieldError) Bool)} {index : Nat} :
    index ∈ (sorted verdicts 0).matched ↔ verdicts[index]? = some (.ok true) := by
  simp [sorted, List.mem_filterMap, passed_eq_some, List.mk_mem_zipIdx_iff_getElem?]

theorem mem_failed {verdicts : List (Except (Halt FieldError) Bool)} {e : ItemFailure} :
    e ∈ (sorted verdicts 0).failures ↔ verdicts[e.index]? = some (.error (.error e.error)) := by
  simp [sorted, List.mem_filterMap, failed_eq_some, List.mk_mem_zipIdx_iff_getElem?]

theorem mem_failed_index {verdicts : List (Except (Halt FieldError) Bool)} {index : Nat} :
    index ∈ (sorted verdicts 0).failures.map (·.index) ↔
      ∃ e, verdicts[index]? = some (.error (.error e)) := by
  rw [List.mem_map]
  constructor
  · rintro ⟨e, he, rfl⟩
    exact ⟨e.error, mem_failed.1 he⟩
  · rintro ⟨e, he⟩
    exact ⟨⟨index, e⟩, mem_failed.2 he, rfl⟩

/-- The items that passed and those that failed are sorted by the verdicts, if none is an
overflow. -/
theorem sorts_sorted {verdicts : List (Except (Halt FieldError) Bool)}
    (h : .error .overflow ∉ verdicts) : (sorted verdicts 0).Sorts verdicts where
  matched_ascending := by
    refine (zipIdx_ascending verdicts).filterMap passed ?_
    intro a a' hlt b hb b' hb'
    rw [passed_eq_some] at hb hb'
    simpa [hb, hb'] using hlt
  failures_ascending := by
    rw [List.pairwise_map]
    refine (zipIdx_ascending verdicts).filterMap failed ?_
    intro a a' hlt b hb b' hb'
    rw [failed_eq_some] at hb hb'
    simpa [hb, hb'] using hlt
  disjoint := by
    intro index hmatched hfailed
    obtain ⟨e, he⟩ := mem_failed_index.1 hfailed
    rw [mem_passed.1 hmatched] at he
    cases he
  matched_iff index := mem_passed
  failures_iff index e := mem_failed
  neither_iff := by
    intro index hindex
    obtain ⟨verdict, hverdict⟩ : ∃ verdict, verdicts[index]? = some verdict :=
      ⟨_, List.getElem?_eq_getElem hindex⟩
    rw [mem_passed, mem_failed_index, hverdict]
    rcases verdict with (_ | _) | _ | _
    · simp
    · exact absurd (List.mem_of_getElem? hverdict) h
    · simp
    · simp

/-- What is found first is that of the first verdict that is no answer. -/
theorem findSome?_halted_eq_some {verdicts : List (Except (Halt FieldError) Bool)} {index : Nat}
    {halt : Halt ItemFailure} :
    (verdicts.zipIdx index).findSome? halted = some halt ↔
      ∃ i reason, HaltsAt verdicts i reason ∧ halt = reason.map (⟨index + i, ·⟩) := by
  induction verdicts generalizing index with
  | nil => simp [HaltsAt]
  | cons verdict rest ih =>
    rw [List.zipIdx_cons, List.findSome?_cons]
    cases verdict with
    | error reason =>
      simp only [halted, Option.some.injEq]
      constructor
      · rintro rfl
        exact ⟨0, reason, ⟨rfl, fun _ hlt => absurd hlt (Nat.not_lt_zero _)⟩, rfl⟩
      · rintro ⟨i, reason', ⟨hi, hbefore⟩, rfl⟩
        cases i with
        | zero => cases hi; rfl
        | succ i =>
          obtain ⟨b, hb⟩ := hbefore 0 (Nat.succ_pos i)
          cases hb
    | ok b =>
      simp only [halted, ih]
      constructor
      · rintro ⟨i, reason, ⟨hi, hbefore⟩, rfl⟩
        refine ⟨i + 1, reason, ⟨hi, fun before hlt => ?_⟩, by rw [Nat.add_assoc, Nat.add_comm 1]⟩
        cases before with
        | zero => exact ⟨b, rfl⟩
        | succ before => exact hbefore before (Nat.lt_of_succ_lt_succ hlt)
      · rintro ⟨i, reason, ⟨hi, hbefore⟩, rfl⟩
        cases i with
        | zero => cases hi
        | succ i =>
          exact ⟨i, reason, ⟨hi, fun before hlt => hbefore (before + 1) (Nat.succ_lt_succ hlt)⟩,
            by rw [Nat.add_assoc, Nat.add_comm 1]⟩

/-- If no verdict is an overflow, the first that is no answer is the first failure. -/
theorem findSome?_halted_eq_head? {verdicts : List (Except (Halt FieldError) Bool)}
    (h : .error .overflow ∉ verdicts) (index : Nat) :
    (verdicts.zipIdx index).findSome? halted =
      (sorted verdicts index).failures.head?.map .error := by
  induction verdicts generalizing index with
  | nil => rfl
  | cons verdict rest ih =>
    rw [List.mem_cons, not_or] at h
    rcases verdict with (e | _) | b
    · rfl
    · exact absurd rfl h.1
    · rw [findSome?_halted_ok, ih h.2, sorted_ok]
      cases b <;> rfl

theorem overflow_not_mem_verdicts {scene : Scene} {f : Filter} {stock : Stock}
    (h : ∀ item ∈ stock.items, item.raw.BytesFit) :
    .error .overflow ∉ stock.verdicts scene f := by
  have hfrom (items : List Item) (tally : Tally) (hitems : ∀ item ∈ items, item.raw.BytesFit) :
      .error .overflow ∉ f.verdictsFrom scene items tally := by
    induction items generalizing tally with
    | nil => exact List.not_mem_nil
    | cons item rest ih =>
      obtain ⟨hitem, hrest⟩ := List.forall_mem_cons.1 hitems
      rw [Filter.verdictsFrom, List.mem_cons, not_or]
      exact ⟨(Filter.isMatch_ne_overflow (r := ⟨item, tally⟩) hitem f).symm, ih _ hrest⟩
  exact hfrom stock.items stock.tally h

/-- A selection sorts items by what the filter says about each of them, and a strict one gives the
same matches if there are no failures, and else the first of them. A selection has a result just if
no sum of sizes is too great for one of the items, which none is if the bytes of each fit. A strict
selection ends where the first item has no answer. -/
theorem select_sorts (scene : Scene) (f : Filter) (stock : Stock) :
    (∀ s, (select scene f stock).1 = .ok s →
      s.Sorts (stock.verdicts scene f) ∧
      (∀ matched, (selectStrict scene f stock).1 = .ok matched ↔
        s.failures = [] ∧ matched = s.matched) ∧
      ∀ halt, (selectStrict scene f stock).1 = .error halt ↔
        ∃ e, halt = .error e ∧ s.failures.head? = some e) ∧
    ((∃ s, (select scene f stock).1 = .ok s) ↔ .error .overflow ∉ stock.verdicts scene f) ∧
    ((∀ item ∈ stock.items, item.raw.BytesFit) → ∃ s, (select scene f stock).1 = .ok s) ∧
    (∀ halt, (selectStrict scene f stock).1 = .error halt ↔
      ∃ index reason, HaltsAt (stock.verdicts scene f) index reason ∧
        halt = reason.map (⟨index, ·⟩)) ∧
    (stock.verdicts scene f).length = stock.items.length ∧
    (f.AllLeaves (fun l => l.field.source.Repeatable) → ∀ tally,
      stock.verdicts scene f =
        stock.items.map fun item => (f.isMatch scene ⟨item, tally⟩).1) ∧
    selectWith scene f true stock =
      ((selectStrict scene f stock).1.map fun matched => ⟨matched, []⟩,
        (selectStrict scene f stock).2) ∧
    selectWith scene f false stock =
      (liftM (select scene f stock).1, (select scene f stock).2) := by
  have hlenient : (select scene f stock).1 =
      if .error .overflow ∈ stock.verdicts scene f then .error ⟨⟩
      else .ok (sorted (stock.verdicts scene f) 0) :=
    selectFrom_eq scene f 0 stock.items stock.tally
  have hstrict : (selectStrict scene f stock).1 =
      ((stock.verdicts scene f).zipIdx.findSome? halted).elim
        (.ok (sorted (stock.verdicts scene f) 0).matched) .error :=
    selectStrictFrom_eq scene f 0 stock.items stock.tally
  have hexists (h : .error .overflow ∉ stock.verdicts scene f) :
      ∃ s, (select scene f stock).1 = .ok s :=
    ⟨_, by rw [hlenient, if_neg h]⟩
  refine ⟨?sorts, ⟨?_, hexists⟩, fun h => hexists (overflow_not_mem_verdicts h), ?strict,
    f.length_verdictsFrom scene stock.items stock.tally,
    fun h tally => Filter.verdictsFrom_eq_map h scene stock.items stock.tally tally, rfl, rfl⟩
  case sorts =>
    intro s hs
    rw [hlenient] at hs
    split at hs
    · cases hs
    · next hoverflow =>
      obtain rfl := Except.ok.inj hs
      refine ⟨sorts_sorted hoverflow, ?_, ?_⟩
      · intro matched
        rw [hstrict, findSome?_halted_eq_head? hoverflow]
        cases (sorted (stock.verdicts scene f) 0).failures <;> simp [eq_comm]
      · intro halt
        rw [hstrict, findSome?_halted_eq_head? hoverflow]
        cases (sorted (stock.verdicts scene f) 0).failures <;> simp [eq_comm]
  case strict =>
    intro halt
    have hfirst := @findSome?_halted_eq_some (stock.verdicts scene f) 0 halt
    simp only [Nat.zero_add] at hfirst
    rw [← hfirst, hstrict]
    cases (stock.verdicts scene f).zipIdx.findSome? halted <;> simp
  · rintro ⟨s, hs⟩ hoverflow
    rw [hlenient, if_pos hoverflow] at hs
    cases hs

end Selection
end DownloadQuery
