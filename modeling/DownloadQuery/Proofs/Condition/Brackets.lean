import DownloadQuery.Proofs.Condition.GroupReading
import DownloadQuery.Proofs.Condition.InlineOperators

/-!
# Brackets that do not match

Which way the brackets of a condition fail to match is told by counting them (`nest_error_iff`).
Such a condition is refused as a whole before any field is looked up, and no other condition is
refused for its brackets (`readTokens_unbalanced`).
-/

namespace DownloadQuery

namespace Node

/-- Whether at some point more brackets have been closed than opened, where `depth` brackets have
been opened before. -/
def Overclosed (depth : Nat) (tokens : List String) : Prop :=
  ∃ front, front <+: tokens ∧ depth + front.count "[" < front.count "]"

variable {depth : Nat} {token : String} {rest : List String}

theorem not_overclosed_nil : ¬ Overclosed depth [] := by
  rintro ⟨front, hfront, hcount⟩
  simp [List.prefix_nil.1 hfront] at hcount

/-- Before the first token no bracket has been closed. -/
theorem overclosed_cons : Overclosed depth (token :: rest) ↔ ∃ front, front <+: rest ∧
    depth + (token :: front).count "[" < (token :: front).count "]" := by
  constructor
  · rintro ⟨front, hfront, hcount⟩
    rcases List.prefix_cons_iff.1 hfront with rfl | ⟨front, rfl, hrest⟩
    · simp at hcount
    · exact ⟨front, hrest, hcount⟩
  · rintro ⟨front, hfront, hcount⟩
    exact ⟨token :: front, List.prefix_cons_inj token |>.2 hfront, hcount⟩

theorem overclosed_open : Overclosed depth ("[" :: rest) ↔ Overclosed (depth + 1) rest := by
  rw [overclosed_cons]
  simp [Overclosed, ← Nat.add_assoc, Nat.add_right_comm]

theorem overclosed_close : Overclosed (depth + 1) ("]" :: rest) ↔ Overclosed depth rest := by
  rw [overclosed_cons]
  simp [Overclosed, Nat.add_right_comm]

theorem overclosed_zero_close : Overclosed 0 ("]" :: rest) :=
  overclosed_cons.2 ⟨[], List.nil_prefix, by decide⟩

theorem overclosed_term (hopen : token ≠ "[") (hclose : token ≠ "]") :
    Overclosed depth (token :: rest) ↔ Overclosed depth rest := by
  rw [overclosed_cons]
  simp [Overclosed, hopen, hclose]

namespace Unbalanced

/-- Whether tokens fail to match in a way, where `depth` brackets have been opened before: some
bracket closes none, or brackets stay open at the end. -/
def Arises (depth : Nat) (tokens : List String) : Unbalanced → Prop
  | .tooManyClosing => Overclosed depth tokens
  | .tooManyOpening =>
    ¬ Overclosed depth tokens ∧ tokens.count "]" < depth + tokens.count "["

variable {u : Unbalanced}

theorem arises_nil : u.Arises depth [] ↔ u = .tooManyOpening ∧ 0 < depth := by
  cases u <;> simp [Arises, not_overclosed_nil]

theorem arises_open : u.Arises depth ("[" :: rest) ↔ u.Arises (depth + 1) rest := by
  cases u <;> simp [Arises, overclosed_open, ← Nat.add_assoc, Nat.add_right_comm]

theorem arises_close : u.Arises (depth + 1) ("]" :: rest) ↔ u.Arises depth rest := by
  cases u <;> simp [Arises, overclosed_close, Nat.add_right_comm]

theorem arises_zero_close : u.Arises 0 ("]" :: rest) ↔ u = .tooManyClosing := by
  cases u <;> simp [Arises, overclosed_zero_close]

theorem arises_term (hopen : token ≠ "[") (hclose : token ≠ "]") :
    u.Arises depth (token :: rest) ↔ u.Arises depth rest := by
  cases u <;> simp [Arises, overclosed_term hopen hclose, hopen, hclose]

end Unbalanced

/-- The brackets that are open are as many as there are nodes around the current ones. -/
theorem nestFrom_error_iff {outer : List (List Node)} {current : List Node} {tokens : List String}
    {u : Unbalanced} :
    nestFrom outer current tokens = .error u ↔ u.Arises outer.length tokens := by
  induction tokens generalizing outer current with
  | nil =>
    rw [Unbalanced.arises_nil]
    cases outer <;> simp [nestFrom, eq_comm]
  | cons token rest ih =>
    by_cases hopen : token = "["
    · subst hopen
      rw [nestFrom_open, ih, Unbalanced.arises_open, List.length_cons]
    · by_cases hclose : token = "]"
      · subst hclose
        cases outer with
        | nil =>
          rw [List.length_nil, Unbalanced.arises_zero_close]
          simp [nestFrom, eq_comm]
        | cons around outer =>
          rw [nestFrom_close, ih, List.length_cons, Unbalanced.arises_close]
      · rw [nestFrom_term outer current rest hopen hclose, ih,
          Unbalanced.arises_term hopen hclose]

/-- Brackets fail to match as their numbers say. -/
theorem nest_error_iff {tokens : List String} {u : Unbalanced} :
    nest tokens = .error u ↔ u.Arises 0 tokens := nestFrom_error_iff

end Node

/-- Whether an error is about brackets. -/
def ConditionError.IsOfBrackets : ConditionError → Prop
  | .tooManyClosing _ => True
  | .tooManyOpening _ => True
  | _ => False

namespace Node.Unbalanced

theorem isOfBrackets_error (u : Unbalanced) (text : String) : (u.error text).IsOfBrackets := by
  cases u <;> trivial

theorem error_inj {u v : Unbalanced} {text text' : String} :
    u.error text = v.error text' ↔ u = v ∧ text = text' := by
  cases u <;> cases v <;> simp [error]

end Node.Unbalanced

namespace Condition

variable {σ α β : Type} {P : ConditionError → Prop}

/-- Whether a reader fails only with errors of a kind. -/
def Reader.FailsWith (P : ConditionError → Prop) (x : Reader σ α) : Prop :=
  ∀ s e s', x.run s = (.error e, s') → P e

namespace Reader

theorem failsWith_pure (a : α) : FailsWith P (pure a : Reader σ α) := nofun

theorem failsWith_throw {e : ConditionError} (h : P e) : FailsWith P (throw e : Reader σ α) := by
  intro s e' s' hrun
  cases hrun
  exact h

theorem failsWith_ofExcept {x : Except ConditionError α} (h : ∀ e, x = .error e → P e) :
    FailsWith P (MonadExcept.ofExcept x : Reader σ α) := by
  cases x with
  | ok a => exact failsWith_pure a
  | error e => exact failsWith_throw (h e rfl)

theorem FailsWith.bind {x : Reader σ α} {k : α → Reader σ β} (hx : FailsWith P x)
    (hk : ∀ a, FailsWith P (k a)) : FailsWith P (x >>= k) := by
  intro s e s' hrun
  rw [run_bind] at hrun
  rcases hr : x.run s with ⟨e' | a, t⟩
  · rw [hr] at hrun
    cases hrun
    exact hx s e s' hr
  · rw [hr] at hrun
    exact hk a t e s' hrun

theorem groupClosed_failsWith (h : ∀ e : ConditionError, e.IsOfGroup → P e) :
    GroupClosed (FailsWith P : Reader σ Filter → Prop) where
  pure f := failsWith_pure f
  throw e he := failsWith_throw (h e he)
  bind := FailsWith.bind

end Reader

/-! ## Errors of single conditions -/

variable {condition : String} {e : ConditionError}

theorem not_isOfBrackets_split {settings : Settings}
    (h : split settings condition = .error e) : ¬ e.IsOfBrackets := by
  unfold split at h
  dsimp only at h
  split at h
  · split at h <;> cases h <;> exact id
  · split at h
    · cases h
    · split at h <;> cases h
      exact id

theorem not_isOfBrackets_familyOf {name : String} {found : Except FieldError (Option Field)}
    (h : familyOf name condition found = .error e) : ¬ e.IsOfBrackets := by
  unfold familyOf at h
  split at h
  · cases h
    exact id
  · cases h
    exact id
  · split at h <;> cases h
    exact id

section
variable {clock : Clock} {field : Field} {family : Family}

theorem error_of_map {f : α → β} {x : Except ConditionError α} (h : x.map f = .error e) :
    x = .error e := by
  cases x with
  | error e' =>
    cases h
    rfl
  | ok a => cases h

theorem not_isOfBrackets_valueFilter {value : List Char}
    (h : valueFilter clock field family value = .error e) : ¬ e.IsOfBrackets := by
  rw [valueFilter_eq rfl] at h
  have hread := error_of_map h
  unfold Leaf.read at hread
  dsimp only at hread
  split at hread <;> cases hread
  exact id

theorem not_isOfBrackets_valueFilters {values : List (List Char)}
    (h : valueFilters clock field family values = .error e) : ¬ e.IsOfBrackets := by
  induction values with
  | nil => cases h
  | cons value rest ih =>
    rw [valueFilters] at h
    split at h
    · next hvalue =>
      cases h
      exact not_isOfBrackets_valueFilter hvalue
    · exact ih (error_of_map h)

theorem not_isOfBrackets_ofValues {values : List Char}
    (h : ofValues clock field family values condition = .error e) : ¬ e.IsOfBrackets := by
  unfold ofValues at h
  split at h
  · cases h
    exact id
  · exact not_isOfBrackets_valueFilter h
  · exact not_isOfBrackets_valueFilters (error_of_map h)

end

theorem readOne_failsWith (lookup : Lookup σ) (settings : Settings) (condition : String) :
    (readOne lookup.find settings condition).FailsWith (¬ ·.IsOfBrackets) := by
  refine (Reader.failsWith_ofExcept fun e => not_isOfBrackets_split).bind ?_
  rintro ⟨name, values⟩
  refine Reader.FailsWith.bind (nofun : (lookup.find name).FailsWith _) fun found => ?_
  refine (Reader.failsWith_ofExcept fun e => not_isOfBrackets_familyOf).bind ?_
  rintro ⟨field, family⟩
  exact Reader.failsWith_ofExcept fun e => not_isOfBrackets_ofValues

/-- What is read between matching brackets fails for other reasons than brackets. -/
theorem readGroup_failsWith (lookup : Lookup σ) (settings : Settings) (nodes : List Node)
    (text : String) (p : Progress) :
    (readGroup (readOne lookup.find settings) text p nodes).FailsWith (¬ ·.IsOfBrackets) := by
  have hgroup : ∀ e : ConditionError, e.IsOfGroup → ¬ e.IsOfBrackets := by
    intro e he
    cases e <;> first | exact id | cases he
  exact readGroup_closed (Reader.groupClosed_failsWith hgroup) nodes text p
    fun token _ => readOne_failsWith lookup settings token

/-- A list of tokens is refused for its brackets if these do not match, and at once. -/
theorem readTokens_error_iff {lookup : Lookup σ} {settings : Settings} {tokens : List String}
    {s s' : σ} {u : Node.Unbalanced} {text : String} :
    (readTokens lookup.find settings tokens).run s = (.error (u.error text), s') ↔
      u.Arises 0 tokens ∧ text = " ".intercalate tokens ∧ s' = s := by
  rw [← Node.nest_error_iff, readTokens, readWithText]
  cases hnest : Node.nest tokens with
  | ok nodes =>
    constructor
    · intro h
      exact absurd (u.isOfBrackets_error text)
        (readGroup_failsWith lookup settings nodes _ .start s _ s' h)
    · rintro ⟨h, -⟩
      cases h
  | error v =>
    have hrun : (throw (v.error (" ".intercalate tokens)) : Reader σ Filter).run s =
        (.error (v.error (" ".intercalate tokens)), s) := rfl
    dsimp only
    rw [hrun, Prod.mk.injEq, Except.error.injEq, Node.Unbalanced.error_inj, Except.error.injEq,
      and_assoc, eq_comm (a := s), eq_comm (a := " ".intercalate tokens)]

/-- A list of tokens is refused for a closing bracket if one closes no bracket before it, and for an
opening one if no closing one is at fault and one stays open. The whole list is shown, and no field
is looked up: whatever a lookup may leave behind, it leaves nothing. For other lists neither of the
two errors is given, whatever else may be wrong with them. -/
theorem readTokens_unbalanced (lookup : Lookup σ) (settings : Settings) (tokens : List String)
    (s : σ) (text : String) (s' : σ) :
    ((readTokens lookup.find settings tokens).run s = (.error (.tooManyClosing text), s') ↔
      (∃ front, front <+: tokens ∧ front.count "[" < front.count "]") ∧
        text = " ".intercalate tokens ∧ s' = s) ∧
    ((readTokens lookup.find settings tokens).run s = (.error (.tooManyOpening text), s') ↔
      (¬ ∃ front, front <+: tokens ∧ front.count "[" < front.count "]") ∧
        tokens.count "]" < tokens.count "[" ∧ text = " ".intercalate tokens ∧ s' = s) := by
  have hclosing := @readTokens_error_iff σ lookup settings tokens s s' .tooManyClosing text
  have hopening := @readTokens_error_iff σ lookup settings tokens s s' .tooManyOpening text
  simp only [Node.Unbalanced.Arises, Node.Overclosed, Nat.zero_add, and_assoc] at hclosing hopening
  exact ⟨hclosing, hopening⟩

end Condition
end DownloadQuery
