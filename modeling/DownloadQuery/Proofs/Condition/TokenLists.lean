import DownloadQuery.Proofs.Condition.Lookups
import DownloadQuery.Proofs.Condition.Quoting

/-!
# Conditions as texts and as token lists

A list of tokens may be written with any blanks between each two. The text is split into the same
tokens again, and is read as the list is (`read_joined`): with the same filter, or with an error
that differs at most in the text of the condition which it shows.
-/

namespace DownloadQuery

namespace Token

/-- Blanks that may stand between two tokens. -/
structure Gap where
  text : List Char
  ne_nil : text ≠ []
  blank : ∀ c ∈ text, Text.isBlank c = true

/-- The characters of written tokens with gaps between each two. -/
def joinedChars (gap : Nat → Gap) : List (List Char) → List Char
  | [] => []
  | [t] => writeChars t
  | t :: u :: rest =>
    writeChars t ++ (gap 0).text ++ joinedChars (fun i => gap (i + 1)) (u :: rest)

/-- Written tokens with gaps between each two. -/
def joined (gap : Nat → Gap) (tokens : List String) : String :=
  String.ofList (joinedChars gap (tokens.map String.toList))

/-- Blanks before a token are skipped. -/
theorem splitFrom_blanks {blanks : List Char} (hb : ∀ c ∈ blanks, Text.isBlank c = true)
    (rest : List Char) : splitFrom .bare none (blanks ++ rest) = splitFrom .bare none rest := by
  induction blanks with
  | nil => rfl
  | cons c others ih =>
    rw [List.forall_mem_cons] at hb
    rw [List.cons_append, splitFrom_blank hb.1, ih hb.2]

/-- A token ends where a gap begins. -/
theorem splitFrom_gap {t : List Char} (ht : t ≠ []) (g : Gap) (rest : List Char) :
    splitFrom .bare none (writeChars t ++ g.text ++ rest) =
      (splitFrom .bare none rest).map (t :: ·) := by
  have hhead : ∀ c ∈ (g.text ++ rest).head?, Text.isBlank c = true := by
    obtain ⟨c, others, hc⟩ := List.exists_cons_of_ne_nil g.ne_nil
    have hblank := g.blank c (by simp [hc])
    simpa [hc] using hblank
  rw [List.append_assoc, splitFrom_token ht hhead, splitFrom_blanks g.blank]

theorem splitFrom_joinedChars (gap : Nat → Gap) {tokens : List (List Char)}
    (ht : ∀ t ∈ tokens, t ≠ []) :
    splitFrom .bare none (joinedChars gap tokens) = some tokens := by
  induction tokens generalizing gap with
  | nil => simp [joinedChars, splitFrom]
  | cons t rest ih =>
    rw [List.forall_mem_cons] at ht
    cases rest with
    | nil =>
      have hsingle : splitFrom .bare none (writeChars t ++ []) = _ :=
        splitFrom_token ht.1 (by simp)
      rw [List.append_nil] at hsingle
      simp [joinedChars, hsingle, splitFrom]
    | cons u others =>
      rw [joinedChars, splitFrom_gap ht.1, ih _ ht.2, Option.map_some]

/-- Tokens that are written with gaps between each two are read back unchanged. -/
theorem split?_joined (gap : Nat → Gap) {tokens : List String} (ht : ∀ t ∈ tokens, t ≠ "") :
    split? (joined gap tokens) = some tokens := by
  have hne : ∀ t ∈ tokens.map String.toList, t ≠ [] := by simpa using ht
  rw [split?, joined, String.toList_ofList, splitFrom_joinedChars gap hne]
  simp [Function.comp_def]

end Token

/-- The error without the text of the condition it is about. -/
def ConditionError.textless : ConditionError → ConditionError
  | .tooManyClosing _ => .tooManyClosing ""
  | .tooManyOpening _ => .tooManyOpening ""
  | .missingLeftOperand _ => .missingLeftOperand ""
  | .missingRightOperand _ => .missingRightOperand ""
  | e => e

namespace Condition

variable {σ α : Type}

/-- What reading leads to, less the text that an error shows. -/
def Reader.textless (x : Reader σ α) (s : σ) : Except ConditionError α × σ :=
  (x.run s).map (Except.mapError ConditionError.textless) id

theorem Reader.textless_throw {e e' : ConditionError} (h : e.textless = e'.textless) (s : σ) :
    (throw e : Reader σ α).textless s = (throw e' : Reader σ α).textless s := by
  have hrun (e : ConditionError) : (throw e : Reader σ α).run s = (.error e, s) := rfl
  simp [textless, hrun, Except.mapError, h]

theorem Reader.textless_bind {β : Type} (x : Reader σ β) {k l : β → Reader σ α}
    (h : ∀ b s, (k b).textless s = (l b).textless s) (s : σ) :
    (x >>= k).textless s = (x >>= l).textless s := by
  simp only [textless, run_bind]
  rcases x.run s with ⟨_ | b, t⟩
  · rfl
  · exact h b t

/-- The text of a group is shown in its errors and does nothing else. -/
theorem readGroup_textless (accept : String → Reader σ Filter) (nodes : List Node)
    (text text' : String) (p : Progress) (s : σ) :
    (readGroup accept text p nodes).textless s = (readGroup accept text' p nodes).textless s := by
  induction nodes generalizing p s with
  | nil =>
    unfold readGroup
    split_ifs
    · exact Reader.textless_throw rfl s
    · rfl
    · rfl
    · rfl
  | cons n rest ih =>
    unfold readGroup
    split_ifs
    · exact ih _ s
    · exact Reader.textless_throw rfl s
    · exact ih _ s
    · exact Reader.textless_bind _ (fun f t => ih _ t) s

theorem readWithText_textless (lookup : Lookup σ) (settings : Settings) (tokens : List String)
    (text text' : String) (s : σ) :
    (readWithText lookup.find settings tokens text).textless s =
      (readWithText lookup.find settings tokens text').textless s := by
  unfold readWithText
  cases Node.nest tokens with
  | error u =>
    refine Reader.textless_throw ?_ s
    cases u <;> rfl
  | ok nodes => exact readGroup_textless _ nodes text text' .start s

/-- A list of tokens is read as any text it may be written as. -/
theorem read_joined (lookup : Lookup σ) (settings : Settings) (gap : Nat → Token.Gap)
    {tokens : List String} (ht : ∀ t ∈ tokens, t ≠ "") (s : σ) :
    Token.split? (Token.joined gap tokens) = some tokens ∧
      (read lookup.find settings (Token.joined gap tokens)).textless s =
        (readTokens lookup.find settings tokens).textless s := by
  have hsplit := Token.split?_joined gap ht
  refine ⟨hsplit, ?_⟩
  rw [read, hsplit]
  exact readWithText_textless lookup settings tokens _ _ s

theorem read_joined_tabs :
    let gap : Nat → Token.Gap := fun i =>
      { text := List.replicate (i + 1) '\t'
        ne_nil := by simp
        blank := fun c hc => by rw [List.eq_of_mem_replicate hc]; decide }
    let tokens := ["[", "a=say \"hi\"", "OR", "'b'=\\", "]"]
    let settings : Settings := ⟨⟨.fixed 0, 0⟩, none⟩
    (∀ t ∈ tokens, t ≠ "") ∧
      Token.joined gap tokens =
        "[\t\"a=say \\\"hi\\\"\"\t\tOR\t\t\t\"'b'=\\\\\"\t\t\t\t]" ∧
      Token.split? (Token.joined gap tokens) = some tokens ∧
      (read openLookup.find settings (Token.joined gap tokens)).textless () =
        (readTokens openLookup.find settings tokens).textless () := by
  intro gap tokens settings
  have ht : ∀ t ∈ tokens, t ≠ "" := by decide
  obtain ⟨hsplit, hread⟩ := read_joined openLookup settings gap ht ()
  exact ⟨ht, by decide, hsplit, hread⟩

end Condition
end DownloadQuery
