import DownloadQuery.Condition.Values
import Mathlib.Data.List.TakeWhile

/-!
# Value lists

How a text is taken apart into values, and when values with commas between them are split into the
same values again.

The values of a list that has been split before are (`split_join_split`). Values from elsewhere may
not be: an empty one is lost, and one that opens with its only slash may reach to a slash of a later
one. Values without such an encounter are separate (`split_join_iff`).
-/

namespace DownloadQuery
namespace Values

/-- What may stand before the slashes of a value. -/
def IsMark (mark : List Char) : Prop := mark = [] ∨ mark = ['!']

/-- Whether a comma or the end follows the first slash of a text. -/
def Closes (text : List Char) : Prop :=
  ∃ before after, text = before ++ '/' :: after ∧ '/' ∉ before ∧ ∀ c ∈ after.head?, c = ','

/-- Whether a value opens with its only slash. -/
def IsOpen (value : List Char) : Prop :=
  ∃ mark rest, IsMark mark ∧ value = mark ++ '/' :: rest ∧ '/' ∉ rest

/-- Whether a text is a value between slashes. -/
def IsSlashed (value : List Char) : Prop :=
  ∃ mark inside, IsMark mark ∧ value = mark ++ '/' :: inside ++ ['/'] ∧ '/' ∉ inside

/-- Whether a value is never split: it stands between slashes, or has no comma. -/
def IsSingle (value : List Char) : Prop := IsSlashed value ∨ value ≠ [] ∧ ',' ∉ value

/-! ## The first slash -/

theorem takeWhile_slash {inside : List Char} (hi : '/' ∉ inside) (rest : List Char) :
    (inside ++ rest).takeWhile (· != '/') = inside ++ rest.takeWhile (· != '/') :=
  List.takeWhile_append_of_pos fun c hc => by simpa using ne_of_mem_of_not_mem hc hi

theorem closes_append {before : List Char} (hb : '/' ∉ before) (text : List Char) :
    Closes (before ++ text) ↔ Closes text := by
  constructor
  · rintro ⟨x, y, h, hx, hy⟩
    rcases List.append_eq_append_iff.1 h with ⟨u, rfl, rfl⟩ | ⟨u, rfl, hu⟩
    · exact ⟨u, y, rfl, fun hu => hx (List.mem_append_right _ hu), hy⟩
    · cases u with
      | nil => exact ⟨[], y, hu.symm, by simp, hy⟩
      | cons d u =>
        obtain rfl : '/' = d := (List.cons.inj hu).1
        simp at hb
  · rintro ⟨x, y, rfl, hx, hy⟩
    exact ⟨before ++ x, y, by simp, by simp [hb, hx], hy⟩

theorem closes_slash_iff {before : List Char} (hb : '/' ∉ before) (after : List Char) :
    Closes (before ++ '/' :: after) ↔ ∀ c ∈ after.head?, c = ',' := by
  rw [closes_append hb]
  constructor
  · rintro ⟨x, y, h, hx, hy⟩
    cases x with
    | nil => rwa [(List.cons.inj h).2]
    | cons d x =>
      obtain rfl : '/' = d := (List.cons.inj h).1
      simp at hx
  · exact fun h => ⟨[], after, rfl, by simp, h⟩

theorem not_closes {text : List Char} (h : '/' ∉ text) : ¬ Closes text := by
  rintro ⟨x, y, rfl, -⟩
  simp at h

/-! ## Values between slashes -/

theorem slashed?_slash {mark : List Char} (hm : IsMark mark) (rest : List Char) :
    slashed? (mark ++ '/' :: rest) =
      match rest.drop (rest.takeWhile (· != '/')).length with
      | ['/'] => some (mark ++ '/' :: rest.takeWhile (· != '/') ++ ['/'], [])
      | '/' :: ',' :: after => some (mark ++ '/' :: rest.takeWhile (· != '/') ++ ['/'], after)
      | _ => none := by
  rcases hm with rfl | rfl <;> rfl

theorem slashed?_closed {mark inside : List Char} (hm : IsMark mark) (hi : '/' ∉ inside)
    (after : List Char) :
    slashed? (mark ++ '/' :: (inside ++ '/' :: after)) =
      match after with
      | [] => some (mark ++ '/' :: inside ++ ['/'], [])
      | ',' :: after => some (mark ++ '/' :: inside ++ ['/'], after)
      | _ => none := by
  have htake : (inside ++ '/' :: after).takeWhile (· != '/') = inside := by
    simp [takeWhile_slash hi]
  have hdrop : (inside ++ '/' :: after).drop inside.length = '/' :: after := List.drop_left
  rw [slashed?_slash hm, htake, hdrop]
  rcases after with _ | ⟨c, after⟩
  · rfl
  · by_cases hc : c = ',' <;> simp [hc]

theorem slashed?_open {mark rest : List Char} (hm : IsMark mark) (hr : '/' ∉ rest) :
    slashed? (mark ++ '/' :: rest) = none := by
  have htake : rest.takeWhile (· != '/') = rest := by
    simpa using takeWhile_slash hr []
  simp [slashed?_slash hm, htake]

/-- A value is found between slashes if what opens it closes. -/
theorem slashed?_isSome_iff {text : List Char} :
    (slashed? text).isSome = true ↔
      ∃ mark rest, IsMark mark ∧ text = mark ++ '/' :: rest ∧ Closes rest := by
  constructor
  · intro h
    obtain ⟨mark, rest, hm, rfl⟩ : ∃ mark rest, IsMark mark ∧ text = mark ++ '/' :: rest := by
      rcases text with _ | ⟨c, text⟩
      · simp [slashed?] at h
      · by_cases hc : c = '!'
        · subst hc
          rcases text with _ | ⟨d, text⟩
          · simp [slashed?] at h
          · by_cases hd : d = '/'
            · exact ⟨['!'], text, .inr rfl, by rw [hd]; rfl⟩
            · simp [slashed?, hd] at h
        · by_cases hd : c = '/'
          · exact ⟨[], text, .inl rfl, by rw [hd]; rfl⟩
          · simp [slashed?, hc, hd] at h
    refine ⟨mark, rest, hm, rfl, ?_⟩
    by_cases hr : '/' ∈ rest
    · obtain ⟨inside, after, rfl, hi⟩ := List.eq_append_cons_of_mem hr
      rw [slashed?_closed hm hi] at h
      rw [closes_slash_iff hi]
      rcases after with _ | ⟨c, after⟩
      · simp
      · by_cases hc : c = ','
        · simp [hc]
        · simp [hc] at h
    · simp [slashed?_open hm hr] at h
  · rintro ⟨mark, rest, hm, rfl, inside, after, rfl, hi, ha⟩
    rw [slashed?_closed hm hi]
    rcases after with _ | ⟨c, after⟩
    · rfl
    · obtain rfl : c = ',' := ha c rfl
      rfl

theorem slashed?_eq_some {text value after : List Char} (h : slashed? text = some (value, after)) :
    IsSlashed value ∧ (text = value ∧ after = [] ∨ text = value ++ ',' :: after) := by
  obtain ⟨mark, rest, hm, rfl, inside, rest, rfl, hi, -⟩ :=
    slashed?_isSome_iff.1 (by rw [h]; rfl)
  rw [slashed?_closed hm hi] at h
  refine ⟨⟨mark, inside, hm, ?_⟩, ?_⟩ <;> split at h <;> cases h <;> simp [hi]

theorem slashed?_self {value : List Char} (h : IsSlashed value) :
    slashed? value = some (value, []) := by
  obtain ⟨mark, inside, hm, rfl, hi⟩ := h
  simpa using slashed?_closed hm hi []

theorem slashed?_comma {value : List Char} (h : IsSlashed value) (after : List Char) :
    slashed? (value ++ ',' :: after) = some (value, after) := by
  obtain ⟨mark, inside, hm, rfl, hi⟩ := h
  simpa using slashed?_closed hm hi (',' :: after)

theorem IsSlashed.ne_nil {value : List Char} (h : IsSlashed value) : value ≠ [] := by
  obtain ⟨mark, inside, -, rfl, -⟩ := h
  simp

theorem IsSlashed.not_isOpen {value : List Char} (h : IsSlashed value) : ¬ IsOpen value := by
  have hcount {mark : List Char} (hm : IsMark mark) : mark.count '/' = 0 := by
    rcases hm with rfl | rfl <;> rfl
  obtain ⟨mark, inside, hm, rfl, -⟩ := h
  rintro ⟨mark', rest, hm', heq, hr⟩
  have key := congrArg (List.count '/') heq
  simp [hcount hm, hcount hm', List.count_eq_zero.2 hr] at key

theorem not_isOpen {value : List Char} (h : '/' ∉ value) : ¬ IsOpen value := by
  rintro ⟨mark, rest, -, rfl, -⟩
  simp at h

/-! ## Splitting -/

@[simp] theorem split_nil : split [] = [] := by rw [split]

theorem split_slashed {text value after : List Char} (h : slashed? text = some (value, after)) :
    split text = value :: split after := by
  cases text with
  | nil => simp [slashed?] at h
  | cons c rest =>
    rw [split]
    split
    · next h' => rw [h'] at h; cases h; rfl
    · next h' => rw [h'] at h; cases h

theorem split_comma (rest : List Char) : split (',' :: rest) = split rest := by
  have h : slashed? (',' :: rest) = none := rfl
  rw [split]
  split
  · next h' => rw [h'] at h; cases h
  · simp

/-- A value that is not between slashes ends before the next comma. -/
theorem split_plain {c : Char} {rest : List Char} (h : slashed? (c :: rest) = none) (hc : c ≠ ',') :
    split (c :: rest) = (c :: rest.takeWhile (· != ',')) ::
      split (rest.drop ((rest.takeWhile (· != ',')).length + 1)) := by
  rw [split]
  split
  · next h' => rw [h'] at h; cases h
  · simp [hc]

theorem split_slashed_self {value : List Char} (h : IsSlashed value) : split value = [value] := by
  rw [split_slashed (slashed?_self h), split_nil]

theorem takeWhile_comma {first : List Char} (h : ',' ∉ first) (rest : List Char) :
    (first ++ ',' :: rest).takeWhile (· != ',') = first := by
  rw [List.takeWhile_append_of_pos fun c hc => by simpa using ne_of_mem_of_not_mem hc h]
  simp

theorem takeWhile_commaFree {first : List Char} (h : ',' ∉ first) :
    first.takeWhile (· != ',') = first :=
  List.takeWhile_eq_self_iff.2 fun c hc => by simpa using ne_of_mem_of_not_mem hc h

theorem split_commaFree {value : List Char} (hn : value ≠ []) (hc : ',' ∉ value) :
    split value = [value] := by
  obtain ⟨c, rest, rfl⟩ := List.exists_cons_of_ne_nil hn
  cases hs : slashed? (c :: rest) with
  | some found =>
    obtain ⟨h, ⟨hv, -⟩ | hv⟩ := slashed?_eq_some hs
    · rw [hv]
      exact split_slashed_self h
    · simp [hv] at hc
  | none =>
    rw [List.mem_cons, not_or] at hc
    rw [split_plain hs (Ne.symm hc.1), takeWhile_commaFree hc.2,
      List.drop_eq_nil_of_le (by omega), split_nil]

theorem IsSingle.split_eq {value : List Char} (h : IsSingle value) : split value = [value] := by
  rcases h with h | ⟨hn, hc⟩
  · exact split_slashed_self h
  · exact split_commaFree hn hc

theorem IsSingle.ne_nil {value : List Char} (h : IsSingle value) : value ≠ [] := by
  rcases h with h | ⟨hn, -⟩
  · exact h.ne_nil
  · exact hn

/-! ## Values put together -/

/-- Values with a comma between each two. -/
abbrev join (values : List (List Char)) : List Char := [','].intercalate values

@[simp] theorem join_nil : join [] = [] := rfl

@[simp] theorem join_singleton (value : List Char) : join [value] = value := by simp [join]

theorem join_cons {value : List Char} {rest : List (List Char)} (h : rest ≠ []) :
    join (value :: rest) = value ++ ',' :: join rest := by
  obtain ⟨second, others, rfl⟩ := List.exists_cons_of_ne_nil h
  simp [join, List.intercalate_cons_cons]

/-- Where a value has a slash, what follows the value does not matter as long as it is set off. -/
theorem Closes.replace {value before after : List Char} (hv : '/' ∈ value)
    (hafter : ∀ c ∈ after.head?, c = ',') (h : Closes (value ++ before)) :
    Closes (value ++ after) := by
  obtain ⟨x, y, rfl, hx⟩ := List.eq_append_cons_of_mem hv
  rw [List.append_assoc, List.cons_append, closes_slash_iff hx] at h ⊢
  cases y with
  | nil => exact hafter
  | cons c y => exact h

theorem closes_comma (text : List Char) : Closes (',' :: text) ↔ Closes text :=
  @closes_append [','] (by simp) text

/-- A text without a comma at the front of another ends before its first comma. -/
theorem eq_append_of_append_comma {front value rest body : List Char} (hf : ',' ∉ front)
    (h : value ++ ',' :: rest = front ++ body) :
    ∃ inside, value = front ++ inside ∧ body = inside ++ ',' :: rest := by
  rcases List.append_eq_append_iff.1 h with ⟨u, rfl, hu⟩ | ⟨u, rfl, hu⟩
  · cases u with
    | nil => exact ⟨[], by simp, hu.symm⟩
    | cons c u =>
      obtain rfl : ',' = c := (List.cons.inj hu).1
      simp at hf
  · exact ⟨u, rfl, hu⟩

/-- A value is split off what follows, unless the two together may stand between slashes. -/
theorem split_append_comma {value : List Char} (hv : IsSingle value) {rest : List Char}
    (h : IsOpen value → ¬ Closes rest) :
    split (value ++ ',' :: rest) = value :: split rest := by
  by_cases hslash : IsSlashed value
  · exact split_slashed (slashed?_comma hslash rest)
  · obtain ⟨hn, hfree⟩ := hv.resolve_left hslash
    have hnone : slashed? (value ++ ',' :: rest) = none := by
      rw [← Option.not_isSome_iff_eq_none, slashed?_isSome_iff]
      rintro ⟨mark, body, hm, heq, hclose⟩
      have hmark : ',' ∉ mark ++ ['/'] := by rcases hm with rfl | rfl <;> decide
      obtain ⟨inside, rfl, rfl⟩ := eq_append_of_append_comma hmark (by simpa using heq)
      simp only [List.append_assoc, List.singleton_append] at hslash hfree h
      by_cases hi : '/' ∈ inside
      · obtain ⟨front, back, rfl, hfront⟩ := List.eq_append_cons_of_mem hi
        rw [List.append_assoc, List.cons_append, closes_slash_iff hfront] at hclose
        cases back with
        | nil => exact hslash ⟨mark, front, hm, by simp, hfront⟩
        | cons c back =>
          obtain rfl : c = ',' := hclose c rfl
          simp at hfree
      · rw [closes_append hi, closes_comma] at hclose
        exact h ⟨mark, inside, hm, rfl, hi⟩ hclose
    obtain ⟨c, others, rfl⟩ := List.exists_cons_of_ne_nil hn
    rw [List.mem_cons, not_or] at hfree
    rw [List.cons_append] at hnone ⊢
    rw [split_plain hnone (Ne.symm hfree.1), takeWhile_comma hfree.2, ← List.drop_drop,
      List.drop_left]
    rfl

/-- How a text is taken apart into values. -/
inductive Splits : List Char → List (List Char) → Prop
  | nil : Splits [] []
  | comma {rest values} : Splits rest values → Splits (',' :: rest) values
  | last {value} : IsSingle value → Splits value [value]
  | cons {value rest values} : IsSingle value → (IsOpen value → ¬ Closes rest) →
      Splits rest values → Splits (value ++ ',' :: rest) (value :: values)

theorem splits_split (text : List Char) : Splits text (split text) := by
  fun_induction split text with
  | case1 => exact .nil
  | case2 c rest found after hs ih =>
    obtain ⟨hf, ⟨hv, rfl⟩ | hv⟩ := slashed?_eq_some hs
    · rw [hv, split_nil]
      exact .last (.inl hf)
    · rw [hv]
      exact .cons (.inl hf) (fun ho => absurd ho hf.not_isOpen) ih
  | case3 rest hs ih => exact .comma ih
  | case4 c rest hs hc first ih =>
    by_cases hr : ',' ∈ rest
    · obtain ⟨front, after, rfl, hfront⟩ := List.eq_append_cons_of_mem hr
      have hfirst : first = front := takeWhile_comma hfront after
      have hdrop : (front ++ ',' :: after).drop (front.length + 1) = after := by
        rw [← List.drop_drop, List.drop_left]
        rfl
      rw [hfirst, hdrop] at ih ⊢
      have hsingle : IsSingle (c :: front) := .inr ⟨by simp, by simp [Ne.symm hc, hfront]⟩
      refine @Splits.cons (c :: front) after _ hsingle ?_ ih
      rintro ⟨mark, inside, hm, heq, hi⟩ hclose
      have hsome := slashed?_isSome_iff.2
        ⟨mark, inside ++ ',' :: after, hm, rfl, (closes_append hi _).2 ((closes_comma _).2 hclose)⟩
      rw [← List.cons_append, heq, List.append_assoc, List.cons_append] at hs
      rw [hs] at hsome
      cases hsome
    · have hfirst : first = rest := takeWhile_commaFree hr
      rw [hfirst, List.drop_eq_nil_of_le (by omega), split_nil]
      exact .last (.inr ⟨by simp, by simp [Ne.symm hc, hr]⟩)

/-- A text is taken apart in one way only. -/
theorem Splits.split_eq {text : List Char} {values : List (List Char)} (h : Splits text values) :
    split text = values := by
  induction h with
  | nil => exact split_nil
  | comma _ ih => rw [split_comma, ih]
  | last hv => exact hv.split_eq
  | cons hv hopen _ ih => rw [split_append_comma hv hopen, ih]

/-- The values of a list are never split again. -/
theorem Splits.isSingle {text : List Char} {values : List (List Char)} (h : Splits text values) :
    ∀ value ∈ values, IsSingle value := by
  induction h with
  | nil => simp
  | comma _ ih => exact ih
  | last hv => simpa using hv
  | cons hv _ _ ih => exact List.forall_mem_cons.2 ⟨hv, ih⟩

theorem isSingle_of_mem {text value : List Char} (h : value ∈ split text) : IsSingle value :=
  (splits_split text).isSingle value h

/-- Putting a list together from its values makes no new end at a slash. -/
theorem Splits.closes {text : List Char} {values : List (List Char)} (h : Splits text values)
    (hclose : Closes (join values)) : Closes text := by
  induction h with
  | nil => exact hclose
  | @comma rest values _ ih => exact (closes_comma rest).2 (ih hclose)
  | last hv => simpa using hclose
  | @cons value rest values hv _ _ ih =>
    have hcases : ∃ after, join (value :: values) = value ++ after ∧
        (Closes after → Closes rest) := by
      by_cases hvalues : values = []
      · exact ⟨[], by simp [hvalues], fun hn => absurd hn (not_closes (by simp))⟩
      · exact ⟨_, join_cons hvalues, fun hn => ih ((closes_comma _).1 hn)⟩
    obtain ⟨after, heq, hafter⟩ := hcases
    rw [heq] at hclose
    by_cases hslash : '/' ∈ value
    · exact hclose.replace hslash (by simp)
    · rw [closes_append hslash] at hclose ⊢
      exact (closes_comma rest).2 (hafter hclose)

/-- Values that stay apart when commas are put between them: none is empty, and none that opens with
its only slash reaches to a slash of the values after it. -/
def Separate : List (List Char) → Prop
  | [] => True
  | value :: rest => value ≠ [] ∧ (IsOpen value → ¬ Closes (join rest)) ∧ Separate rest

/-- Values stay apart if none of them opens with its only slash. -/
theorem separate_of_not_isOpen {values : List (List Char)} (hne : ∀ v ∈ values, v ≠ [])
    (h : ∀ v ∈ values, ¬ IsOpen v) : Separate values := by
  induction values with
  | nil => trivial
  | cons v rest ih =>
    rw [List.forall_mem_cons] at hne h
    exact ⟨hne.1, fun hopen => absurd hopen h.1, ih hne.2 h.2⟩

theorem Splits.separate {text : List Char} {values : List (List Char)} (h : Splits text values) :
    Separate values := by
  induction h with
  | nil => trivial
  | comma _ ih => exact ih
  | last hv => exact ⟨hv.ne_nil, fun _ => not_closes (by simp), trivial⟩
  | cons hv hopen hr ih => exact ⟨hv.ne_nil, fun ho hc => hopen ho (hr.closes hc), ih⟩

/-- Separate values are split apart again where they have been put together. -/
theorem splits_join {values : List (List Char)} (hs : ∀ value ∈ values, value = [] ∨ IsSingle value)
    (h : Separate values) : Splits (join values) values := by
  induction values with
  | nil => exact .nil
  | cons value rest ih =>
    obtain ⟨hne, hopen, hrest⟩ := h
    rw [List.forall_mem_cons] at hs
    have hv : IsSingle value := hs.1.resolve_left hne
    by_cases hr : rest = []
    · rw [hr, join_singleton]
      exact .last hv
    · rw [join_cons hr]
      exact .cons hv hopen (ih hs.2 hrest)

/-- Values that have commas put between them are split into the same values again exactly if they
are separate. -/
theorem split_join_iff {values : List (List Char)}
    (hs : ∀ value ∈ values, value = [] ∨ IsSingle value) :
    split (join values) = values ↔ Separate values := by
  constructor
  · intro h
    have key := (splits_split (join values)).separate
    rwa [h] at key
  · exact fun h => (splits_join hs h).split_eq

/-- A list that has been split and put together again has the same values. -/
theorem split_join_split (text : List Char) : split (join (split text)) = split text :=
  (split_join_iff fun _ h => .inr (isSingle_of_mem h)).2 (splits_split text).separate

end Values
end DownloadQuery
