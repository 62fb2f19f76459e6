/-!
# Values of conditions

A condition may list several values between commas. A value between slashes may hold commas itself;
values without a character are left out.
-/

namespace DownloadQuery
namespace Values

/-- A value between slashes at the front of a text, perhaps after an exclamation mark, and what
follows the comma after it. A comma or the end must come next. -/
def slashed? (text : List Char) : Option (List Char × List Char) :=
  let (mark, body) :=
    match text with
    | '!' :: rest => (['!'], rest)
    | _ => ([], text)
  match body with
  | '/' :: rest =>
    let inside := rest.takeWhile (· != '/')
    match rest.drop inside.length with
    | ['/'] => some (mark ++ '/' :: inside ++ ['/'], [])
    | '/' :: ',' :: after => some (mark ++ '/' :: inside ++ ['/'], after)
    | _ => none
  | _ => none

theorem slashed?_length {text value after : List Char} (h : slashed? text = some (value, after)) :
    after.length < text.length := by
  have key : ∀ rest : List Char, ∀ mark : List Char,
      (match rest.drop (rest.takeWhile (· != '/')).length with
        | ['/'] => some (mark ++ '/' :: rest.takeWhile (· != '/') ++ ['/'], ([] : List Char))
        | '/' :: ',' :: after => some (mark ++ '/' :: rest.takeWhile (· != '/') ++ ['/'], after)
        | _ => none) = some (value, after) → after.length ≤ rest.length := by
    intro rest mark h
    split at h
    · simp only [Option.some.injEq, Prod.mk.injEq] at h
      simp [← h.2]
    · next hd =>
      simp only [Option.some.injEq, Prod.mk.injEq] at h
      have := congrArg List.length hd
      simp only [List.length_drop, List.length_cons] at this
      rw [← h.2]; omega
    · simp at h
  unfold slashed? at h
  split at h
  next mark body hm =>
  split at h
  · next rest =>
    have hk := key rest mark h
    split at hm <;> simp only [Prod.mk.injEq] at hm
    · rw [hm.2]; simp; omega
    · rw [hm.2]; simp; omega
  · simp at h

/-- The values of a list. -/
def split (text : List Char) : List (List Char) :=
  match text with
  | [] => []
  | c :: rest =>
    match h : slashed? (c :: rest) with
    | some (value, after) => value :: split after
    | none =>
      if c = ',' then split rest
      else
        let value := rest.takeWhile (· != ',')
        (c :: value) :: split (rest.drop (value.length + 1))
termination_by text.length
decreasing_by
  · exact slashed?_length h
  · simp
  · simp only [List.length_drop, List.length_cons]; omega

/-- Splits the exclamation mark of a negation off a value. -/
def splitNegation : List Char → Bool × List Char
  | '!' :: literal => (true, literal)
  | literal => (false, literal)

end Values
end DownloadQuery
