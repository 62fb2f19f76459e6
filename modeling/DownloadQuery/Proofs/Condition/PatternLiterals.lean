import DownloadQuery.Proofs.Condition.WrittenConditions

/-!
# Literals between slashes

A field that is compared with patterns reads a literal as the pattern it denotes
(`Leaf.read_of_pattern`), and one between slashes as a regular expression, whatever stands between
them (`Leaf.read_slashed`). The values of a condition are more particular: such a literal is one
value only if it has no further slash or no comma (`isSingle_slashed_iff`), and is taken apart into
several otherwise (`two_le_length_split_slashed`).
-/

namespace DownloadQuery

namespace Values

/-- A text between slashes. -/
def slashed (body : List Char) : List Char := '/' :: body ++ ['/']

theorem isSlashed_slashed_iff {body : List Char} : IsSlashed (slashed body) ↔ '/' ∉ body := by
  constructor
  · rintro ⟨mark, inside, rfl | rfl, heq, hinside⟩
    · have hbody : body ++ ['/'] = inside ++ ['/'] := (List.cons.inj heq).2
      rwa [List.append_cancel_right hbody]
    · exact absurd (List.cons.inj heq).1 (by decide)
  · exact fun h => ⟨[], body, .inl rfl, rfl, h⟩

theorem isSingle_slashed_iff {body : List Char} :
    IsSingle (slashed body) ↔ ',' ∉ body ∨ '/' ∉ body := by
  have hcomma : ',' ∉ slashed body ↔ ',' ∉ body := by simp [slashed]
  have hne : slashed body ≠ [] := List.cons_ne_nil _ _
  rw [IsSingle, isSlashed_slashed_iff, hcomma, or_comm]
  simp [hne]

theorem splitNegation_slashed (body : List Char) :
    splitNegation (slashed body) = (false, slashed body) := rfl

/-- A text without values consists of commas. -/
theorem Splits.eq_comma {text : List Char} (h : Splits text []) : ∀ c ∈ text, c = ',' := by
  generalize hvalues : ([] : List (List Char)) = values at h
  induction h with
  | nil => simp
  | comma _ ih => exact List.forall_mem_cons.2 ⟨rfl, ih hvalues⟩
  | last _ => cases hvalues
  | cons _ _ _ _ => cases hvalues

/-- A text that neither starts nor ends with a comma is its only value, or has several. -/
theorem two_le_length_split {text : List Char} (hstart : ∀ c ∈ text.head?, c ≠ ',')
    (hend : ∀ c ∈ text.getLast?, c ≠ ',') (hne : text ≠ []) (h : ¬ IsSingle text) :
    2 ≤ (split text).length := by
  have hsplits := splits_split text
  rcases hsplit : split text with _ | ⟨value, _ | ⟨second, rest⟩⟩
  · rw [hsplit] at hsplits
    obtain ⟨c, others, rfl⟩ := List.exists_cons_of_ne_nil hne
    exact absurd (hsplits.eq_comma c List.mem_cons_self) (hstart c rfl)
  · rw [hsplit] at hsplits
    cases hsplits with
    | comma _ => exact absurd rfl (hstart ',' rfl)
    | last hv => exact absurd hv h
    | @cons _ after _ _ _ hrest =>
      -- Nothing but commas would follow the only value, up to the end of the text.
      have hcommas : ∀ c ∈ ',' :: after, c = ',' := List.forall_mem_cons.2 ⟨rfl, hrest.eq_comma⟩
      rw [List.getLast?_append_of_ne_nil _ (List.cons_ne_nil _ _)] at hend
      have hlast := List.getLast?_eq_some_getLast (List.cons_ne_nil ',' after)
      exact absurd (hcommas _ (List.getLast_mem _)) (hend _ hlast)
  · simp

theorem two_le_length_split_slashed {body : List Char} (hcomma : ',' ∈ body) (hslash : '/' ∈ body) :
    2 ≤ (split (slashed body)).length := by
  have hlast : (slashed body).getLast? = some '/' := List.getLast?_concat
  refine two_le_length_split ?_ ?_ (List.cons_ne_nil _ _) ?_
  · rintro c ⟨⟩
    decide
  · rw [hlast]
    rintro c ⟨⟩
    decide
  · rw [isSingle_slashed_iff]
    simp [hcomma, hslash]

end Values

open DownloadQuery.Values (slashed)

/-- The test that a family asks with a pattern, if it takes nothing else. -/
def Family.patternTest? : Family → Option (TextPattern → Test)
  | .pattern => some .text
  | .files => some .files
  | _ => none

theorem TextPattern.regexBody?_slashed (body : List Char) :
    regexBody? (slashed body) = some body := by
  have hlast : (body ++ ['/']).getLast? = some '/' := List.getLast?_concat
  have hinit : (body ++ ['/']).dropLast = body := List.dropLast_concat
  simp [regexBody?, slashed, hlast, hinit]

theorem TextPattern.read_slashed {body : List Char} {r : Regex} (h : Regex.read? body = some r) :
    TextPattern.read (String.ofList (slashed body)) = .ok (.regex r) := by
  simp only [TextPattern.read, String.toList_ofList, regexBody?_slashed, h]

/-- A family that takes nothing but a pattern asks what the pattern of the literal does. -/
theorem Leaf.read_of_pattern {family : Family} {test : TextPattern → Test}
    (hfamily : family.patternTest? = some test) {literal : String} {p : TextPattern}
    (h : TextPattern.read literal = .ok p) (clock : Clock) (field : Field) :
    Leaf.read clock family field literal = .ok ⟨field, literal, test p, false⟩ := by
  have hpattern : Test.readPattern literal = .ok p := by rw [Test.readPattern, h]
  cases family with
  | pattern =>
    cases hfamily
    simp [Leaf.read, Test.ofLiteral, hpattern, Except.map]
  | files =>
    cases hfamily
    simp [Leaf.read, Test.ofLiteral, hpattern, Except.map]
  | _ => cases hfamily

/-- A text between slashes is read as a regular expression. -/
theorem Leaf.read_slashed {family : Family} {test : TextPattern → Test}
    (hfamily : family.patternTest? = some test) {body : List Char} {r : Regex}
    (h : Regex.read? body = some r) (clock : Clock) (field : Field) :
    Leaf.read clock family field (String.ofList (slashed body)) =
      .ok ⟨field, String.ofList (slashed body), test (.regex r), false⟩ :=
  Leaf.read_of_pattern hfamily (TextPattern.read_slashed h) clock field

/-- What is read up to the end of a text is its expression, if that is no deeper and no larger than
it may be. -/
theorem Regex.read?_of_readGroup {text : List Char} {r : Nested Regex} {names : List (List Char)}
    {rest : List Char}
    (h : readGroup (text.length + 1) false ⟨[], [], Modes.initial, []⟩ text = some (r, names, rest))
    (hdepth : r.depth ≤ depthLimit) (hweight : r.value.weight ≤ weightLimit) :
    Regex.read? text = some r.value := by
  simp only [read?, h, hdepth, hweight, and_self, if_true]

end DownloadQuery
