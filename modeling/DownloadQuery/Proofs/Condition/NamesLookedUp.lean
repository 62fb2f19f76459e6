import DownloadQuery.Proofs.Catalogue.Events
import DownloadQuery.Proofs.Condition.GroupReading
import DownloadQuery.Proofs.Condition.RoundTrip

/-!
# The names that conditions look up

Reading conditions with a catalogue looks up the field names of conditions and does nothing else to
the catalogue, also where it fails on the way (`Input.read_replays`).
-/

namespace DownloadQuery
namespace Condition

open Catalogue (Event)

variable {α β : Type} {P : Event → Prop}

/-- Whether a reader leaves the catalogue that some events of a kind leave, whatever its result. -/
def Replays (P : Event → Prop) (x : CatalogueReader α) : Prop :=
  ∀ c : Catalogue, ∃ events : List Event, (∀ e ∈ events, P e) ∧ (x.run c).2 = c.replay events

theorem replays_pure (a : α) : Replays P (pure a) := fun _ => ⟨[], by simp, rfl⟩

theorem replays_throw (e : ConditionError) : Replays P (throw e : CatalogueReader α) :=
  fun _ => ⟨[], by simp, rfl⟩

theorem replays_findIn {name : String} (h : P (.lookedUp name)) : Replays P (findIn name) :=
  fun _ => ⟨[.lookedUp name], by simpa using h, rfl⟩

theorem Replays.bind {x : CatalogueReader α} {k : α → CatalogueReader β} (hx : Replays P x)
    (hk : ∀ a, Replays P (k a)) : Replays P (x >>= k) := by
  intro c
  obtain ⟨first, hfirst, hrun⟩ := hx c
  rw [Reader.run_bind]
  rcases hr : x.run c with ⟨e | a, d⟩
  · rw [hr] at hrun
    exact ⟨first, hfirst, hrun⟩
  · rw [hr] at hrun
    have hd : d = c.replay first := hrun
    obtain ⟨second, hsecond, hrest⟩ := hk a d
    refine ⟨first ++ second, ?_, ?_⟩
    · intro e he
      exact (List.mem_append.1 he).elim (hfirst e) (hsecond e)
    · rw [Catalogue.replay_append, ← hd]
      exact hrest

/-- Only what goes on with a result matters. -/
theorem replays_ofExcept_bind {y : Except ConditionError α} {k : α → CatalogueReader β}
    (h : ∀ a, y = .ok a → Replays P (k a)) : Replays P (MonadExcept.ofExcept y >>= k) := by
  cases y with
  | ok a => exact h a rfl
  | error e => exact fun _ => ⟨[], by simp, rfl⟩

theorem replays_ofExcept (y : Except ConditionError α) :
    Replays P (MonadExcept.ofExcept y : CatalogueReader α) := by
  cases y with
  | ok a => exact replays_pure a
  | error e => exact replays_throw e

/-- The name of the field that a condition is about. -/
def fieldName? (settings : Settings) (condition : String) : Option String :=
  (split settings condition).toOption.map (·.1)

/-- A condition looks up the name of its field. -/
theorem readOne_replays {settings : Settings} {condition : String}
    (h : ∀ name, fieldName? settings condition = some name → P (.lookedUp name)) :
    Replays P (readOne findIn settings condition) := by
  refine replays_ofExcept_bind ?_
  rintro ⟨name, values⟩ hs
  have hname : P (.lookedUp name) := h name (by simp [fieldName?, hs, Except.toOption])
  refine (replays_findIn hname).bind fun found => ?_
  refine replays_ofExcept_bind ?_
  rintro ⟨field, family⟩ -
  exact replays_ofExcept _

theorem groupClosed_replays : GroupClosed (Replays P : CatalogueReader Filter → Prop) where
  pure f := replays_pure f
  throw e _ := replays_throw e
  bind := Replays.bind

theorem readWithText_replays {settings : Settings} {tokens : List String} (text : String)
    (h : ∀ token ∈ tokens, ∀ name, fieldName? settings token = some name → P (.lookedUp name)) :
    Replays P (readWithText findIn settings tokens text) := by
  unfold readWithText
  cases hn : Node.nest tokens with
  | error u => exact replays_throw _
  | ok nodes =>
    refine readGroup_closed groupClosed_replays nodes text .start ?_
    intro token ht
    rw [(Node.listTokens_of_nest hn).1] at ht
    exact readOne_replays (h token ht)

/-- Reading looks up nothing but field names of conditions. -/
theorem Input.read_replays (input : Input) (settings : Settings) :
    Replays (fun e => ∃ tokens token name, input.tokens? = some tokens ∧ token ∈ tokens ∧
      fieldName? settings token = some name ∧ e = .lookedUp name)
      (input.read findIn settings) := by
  cases ht : input.tokens? with
  | some tokens =>
    obtain ⟨text, hread⟩ := input.read_eq findIn settings ht
    rw [hread]
    refine readWithText_replays text ?_
    intro token hmem name hname
    exact ⟨tokens, token, name, rfl, hmem, hname, rfl⟩
  | none =>
    cases input with
    | listed tokens => cases ht
    | written condition =>
      have hsplit : Token.split? condition = none := ht
      rw [Input.read, Condition.read, hsplit]
      exact replays_throw _

end Condition
end DownloadQuery
