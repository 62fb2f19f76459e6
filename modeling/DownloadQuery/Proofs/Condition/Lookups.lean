import DownloadQuery.Proofs.Catalogue
import DownloadQuery.Proofs.Condition.Grammar

/-!
# Lookups that stay with their answers

A lookup may keep a state, but the answers that it gives to names should not depend on what has been
looked up before. Reading with such a lookup yields what reading with its answers yields, whatever
state it starts in (`readTokens_yields`), so that nothing about conditions depends on the order in
which they are read.
-/

namespace DownloadQuery
namespace Condition

/-- What a name stands for. -/
abbrev Answers := String → Except FieldError (Option Field)

/-- Finds fields by fixed answers. -/
def Answers.find (answers : Answers) (name : String) :
    Except ConditionError (Except FieldError (Option Field)) :=
  .ok (answers name)

section
variable {σ α β : Type}

/-- The states that lookups lead to. -/
inductive Lookup.Visits (lookup : Lookup σ) (s : σ) : σ → Prop
  | start : Visits lookup s s
  | next {t : σ} (name : String) : Visits lookup s t → Visits lookup s (lookup name t).2

/-- Whether a lookup keeps to its answers, and a field that has been found is found by its own name.
-/
structure Lookup.Steady (lookup : Lookup σ) (s : σ) (answers : Answers) : Prop where
  keeps : ∀ {t : σ}, lookup.Visits s t → ∀ name, (lookup name t).1 = answers name
  own_name : ∀ {name : String} {field : Field}, answers name = .ok (some field) →
    answers field.name = .ok (some field)

/-- Whether a reader yields a result from any state of a kind, and leaves one of this kind behind.
-/
def Reader.Yields (P : σ → Prop) (x : Reader σ α) (y : Except ConditionError α) : Prop :=
  ∀ s, P s → ∃ s', P s' ∧ x.run s = (y, s')

namespace Reader

variable {P : σ → Prop}

theorem yields_pure (a : α) : Yields P (pure a) (pure a) := fun s hs => ⟨s, hs, rfl⟩

theorem yields_throw (e : ConditionError) :
    Yields P (throw e : Reader σ α) (throw e) := fun s hs => ⟨s, hs, rfl⟩

theorem yields_ofExcept (y : Except ConditionError α) :
    Yields P (MonadExcept.ofExcept y) (MonadExcept.ofExcept y) := by
  cases y with
  | ok a => exact yields_pure a
  | error e => exact yields_throw e

theorem Yields.bind {x : Reader σ α} {y : Except ConditionError α} {k : α → Reader σ β}
    {l : α → Except ConditionError β} (hx : Yields P x y) (hk : ∀ a, Yields P (k a) (l a)) :
    Yields P (x >>= k) (y >>= l) := by
  intro s hs
  obtain ⟨t, ht, hrun⟩ := hx s hs
  rw [run_bind, hrun]
  cases y with
  | ok a => exact hk a t ht
  | error e => exact ⟨t, ht, rfl⟩

end Reader

section
variable {P : σ → Prop} {x : String → Reader σ Filter} {y : String → Except ConditionError Filter}

mutual

theorem readNode_yields (h : ∀ c, (x c).Yields P (y c)) (n : Node) :
    (readNode x n).Yields P (readNode y n) := by
  cases n with
  | term token => simpa only [readNode] using h token
  | group nodes => simpa only [readNode] using readGroup_yields h nodes _ _

theorem readGroup_yields (h : ∀ c, (x c).Yields P (y c)) (nodes : List Node) (text : String)
    (p : Progress) :
    (readGroup x text p nodes).Yields P (readGroup y text p nodes) := by
  cases nodes with
  | nil =>
    unfold readGroup
    split_ifs
    · exact Reader.yields_throw _
    · exact Reader.yields_throw _
    · exact Reader.yields_throw _
    · exact Reader.yields_pure _
  | cons n rest =>
    unfold readGroup
    split_ifs
    · exact readGroup_yields h rest text _
    · exact Reader.yields_throw _
    · exact readGroup_yields h rest text _
    · exact (readNode_yields h n).bind fun f => readGroup_yields h rest text _

end

end

variable {lookup : Lookup σ} {s : σ} {answers : Answers}

theorem Lookup.Steady.find_yields (h : lookup.Steady s answers) (name : String) :
    (lookup.find name).Yields (lookup.Visits s) (answers.find name) := by
  intro t ht
  refine ⟨(lookup name t).2, ht.next name, ?_⟩
  rw [Answers.find, ← h.keeps ht name]
  rfl

theorem readOne_yields (h : lookup.Steady s answers) (settings : Settings) (c : String) :
    (readOne lookup.find settings c).Yields (lookup.Visits s) (readOne answers.find settings c) :=
  (Reader.yields_ofExcept _).bind fun _ => (h.find_yields _).bind fun _ =>
    (Reader.yields_ofExcept _).bind fun _ => Reader.yields_ofExcept _

theorem readWithText_yields (h : lookup.Steady s answers) (settings : Settings)
    (tokens : List String) (text : String) :
    (readWithText lookup.find settings tokens text).Yields (lookup.Visits s)
      (readWithText answers.find settings tokens text) := by
  unfold readWithText
  cases Node.nest tokens with
  | error u => exact Reader.yields_throw _
  | ok nodes => exact readGroup_yields (readOne_yields h settings) nodes text .start

/-- Reading with a lookup that keeps to its answers is reading with the answers. -/
theorem readTokens_yields (h : lookup.Steady s answers) (settings : Settings)
    (tokens : List String) :
    (readTokens lookup.find settings tokens).Yields (lookup.Visits s)
      (readTokens answers.find settings tokens) :=
  readWithText_yields h settings tokens _

theorem read_yields (h : lookup.Steady s answers) (settings : Settings) (condition : String) :
    (read lookup.find settings condition).Yields (lookup.Visits s)
      (read answers.find settings condition) := by
  unfold read
  cases Token.split? condition with
  | some tokens => exact readWithText_yields h settings tokens condition
  | none => exact Reader.yields_throw _

end

/-! ## The lookups there are -/

/-- Finds the untyped field of any name. -/
def openLookup : Lookup Unit := fun name => pure (.ok (some (Catalogue.openField name)))

theorem openLookup_steady :
    openLookup.Steady () fun name => .ok (some (Catalogue.openField name)) where
  keeps _ _ := rfl
  own_name h := by cases h; rfl

theorem resolve_of_visits {c d : Catalogue} (h : Lookup.Visits (fun name c => c.lookup name) c d) :
    d.resolve = c.resolve := by
  induction h with
  | start => rfl
  | next name _ ih => rw [Catalogue.resolve_lookup, ih]

/-- A catalogue keeps to its answers, although it grows. -/
theorem catalogue_steady (c : Catalogue) :
    Lookup.Steady (fun name c => c.lookup name) c c.resolve where
  keeps h name := by rw [← resolve_of_visits h]; exact Catalogue.lookup_fst _ name
  own_name h := by rw [Catalogue.name_of_resolve h]; exact h

end Condition
end DownloadQuery
