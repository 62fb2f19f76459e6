import DownloadQuery.Proofs.Catalogue

/-!
# What binds names

A name is bound when a field is registered under it, or when it is looked up and is of one of the
parametric families. The first such event decides: replaying events binds each name to what the
first event about this name offers (`get?_replay`), so that the events about other names play no
part.
-/

namespace DownloadQuery
namespace Catalogue

/-- What may bind a name. -/
inductive Event where
  | registered (f : Field)
  | lookedUp (name : String)

namespace Event

/-- The name that an event is about. -/
def name : Event → String
  | registered f => f.name
  | lookedUp name => name

/-- The field that an event offers for its name. -/
def offer? : Event → Option Field
  | registered f => some f
  | lookedUp name => (Field.parametric? name).toOption.join

/-- The field that an event offers for a name. -/
def offerFor? (e : Event) (name : String) : Option Field := if e.name = name then e.offer? else none

theorem parametric?_of_offer? {name : String} {f : Field}
    (h : (lookedUp name).offer? = some f) : Field.parametric? name = .ok (some f) := by
  rw [offer?] at h
  rcases hp : Field.parametric? name with e | _ | g
  · rw [hp] at h
    cases h
  · rw [hp] at h
    cases h
  · rw [hp] at h
    cases h
    rfl

end Event

/-- The catalogue after an event. -/
def after (c : Catalogue) : Event → Catalogue
  | .registered f => (c.register f).toOption.getD c
  | .lookedUp name => (c.lookup name).2

/-- The catalogue after events. -/
def replay (c : Catalogue) (events : List Event) : Catalogue := events.foldl after c

@[simp] theorem replay_nil (c : Catalogue) : c.replay [] = c := rfl

@[simp] theorem replay_cons (c : Catalogue) (e : Event) (events : List Event) :
    c.replay (e :: events) = (c.after e).replay events := rfl

theorem replay_append (c : Catalogue) (first second : List Event) :
    c.replay (first ++ second) = (c.replay first).replay second :=
  List.foldl_append

theorem register_of_none {c : Catalogue} {f : Field} (h : c.get? f.name = none) :
    c.register f = .ok (c.add f) := by
  rw [register, h]

theorem register_of_some {c : Catalogue} {f g : Field} (h : c.get? f.name = some g) :
    c.register f = .error ⟨f.name⟩ := by
  rw [register, h]

/-- Looking a name up binds it if it is free and parametric. -/
theorem get?_lookup (c : Catalogue) (name other : String) :
    (c.lookup name).2.get? other =
      (c.get? other).or ((Event.lookedUp name).offerFor? other) := by
  have hoffer : (Event.lookedUp name).offerFor? other =
      if name = other then (Field.parametric? name).toOption.join else none := rfl
  unfold lookup
  split
  · next f hf =>
    have hname := name_of_resolve hf
    rw [get?_add, hname, hoffer]
    by_cases ho : name = other
    · subst ho
      cases hget : c.get? name with
      | some g => rfl
      | none =>
        rw [resolve, hget] at hf
        simp [hf, Except.toOption]
    · simp [ho]
  · next result hresult =>
    rw [hoffer]
    by_cases ho : name = other
    · subst ho
      cases hget : c.get? name with
      | some g =>
        rw [resolve, hget] at hresult
        exact absurd rfl (hresult g)
      | none =>
        rw [resolve, hget] at hresult
        rcases hp : Field.parametric? name with e | _ | f
        · simp [Except.toOption]
        · simp [Except.toOption]
        · exact absurd hp (hresult f)
    · simp [ho]

/-- An event binds its name if it is free. -/
theorem get?_after (c : Catalogue) (e : Event) (name : String) :
    (c.after e).get? name = (c.get? name).or (e.offerFor? name) := by
  cases e with
  | lookedUp other => exact get?_lookup c other name
  | registered f =>
    have hoffer : (Event.registered f).offerFor? name = if f.name = name then some f else none :=
      rfl
    rw [after, hoffer]
    cases hget : c.get? f.name with
    | none =>
      rw [register_of_none hget, ← get?_add]
      rfl
    | some g =>
      rw [register_of_some hget]
      by_cases hn : f.name = name
      · simp [Except.toOption, ← hn, hget]
      · simp [Except.toOption, hn]

/-- Events bind a free name to what the first of them that is about this name offers. -/
theorem get?_replay (c : Catalogue) (events : List Event) (name : String) :
    (c.replay events).get? name =
      (c.get? name).or (events.findSome? (·.offerFor? name)) := by
  induction events generalizing c with
  | nil => simp
  | cons e rest ih =>
    rw [replay_cons, ih, get?_after, Option.or_assoc, List.findSome?_cons]
    cases e.offerFor? name <;> simp

/-- Lookups do not change what any name stands for. -/
theorem resolve_replay {c : Catalogue} {events : List Event}
    (h : ∀ e ∈ events, ∃ name, e = .lookedUp name) : (c.replay events).resolve = c.resolve := by
  induction events generalizing c with
  | nil => rfl
  | cons e rest ih =>
    obtain ⟨⟨name, rfl⟩, hrest⟩ := List.forall_mem_cons.1 h
    rw [replay_cons, ih hrest, after, resolve_lookup]

/-- A field is in the catalogue just if its name is bound to it. -/
theorem mem_fields_iff {c : Catalogue} {f : Field} : f ∈ c.fields ↔ c.get? f.name = some f := by
  constructor
  · intro hf
    exact Ascending.find?_of_mem Field.name hf c.ascending
  · intro hget
    exact List.mem_of_find?_eq_some hget

theorem mem_names_iff {c : Catalogue} {name : String} :
    name ∈ c.names ↔ ∃ f, c.get? name = some f := by
  rw [names, List.mem_map]
  constructor
  · rintro ⟨f, hf, rfl⟩
    exact ⟨f, mem_fields_iff.1 hf⟩
  · rintro ⟨f, hf⟩
    exact ⟨f, List.mem_of_find?_eq_some hf, name_of_get? hf⟩

end Catalogue
end DownloadQuery
