import DownloadQuery.Proofs.Condition.NamesLookedUp
import DownloadQuery.Report.Items

/-!
# The history of a catalogue

Fields are registered, looked up and read, and conditions are read, in any order. Every operation
leaves what some events leave (`perform_eq`), so a history is a list of events: names that are bound
stay bound to the same field, and what a name is bound to is decided by the events about this name
alone (`run_appends`).
-/

namespace DownloadQuery
namespace Catalogue

/-- What is done with a catalogue. -/
inductive Operation where
  | register (f : Field)
  | registerAll (added : List Field)
  | get (name : String)
  | lookup (name : String)
  /-- The value of a field for the item at an index. -/
  | value (scene : Scene) (stock : Stock) (index : Nat) (name : String)
  | read (input : Condition.Input) (settings : Condition.Settings)

/-- What an operation may do to a catalogue. -/
inductive Operation.Causes : Operation → Event → Prop
  | register (f : Field) : Causes (.register f) (.registered f)
  | registerAll {f : Field} {added : List Field} (hf : f ∈ added) :
    Causes (.registerAll added) (.registered f)
  | lookup (name : String) : Causes (.lookup name) (.lookedUp name)
  | value (scene : Scene) (stock : Stock) (index : Nat) (name : String) :
    Causes (.value scene stock index name) (.lookedUp name)
  | read {input : Condition.Input} {settings : Condition.Settings} {tokens : List String}
    {token name : String} (htokens : input.tokens? = some tokens) (htoken : token ∈ tokens)
    (hname : Condition.fieldName? settings token = some name) :
    Causes (.read input settings) (.lookedUp name)

/-- Whether an operation registers no field. -/
def Operation.RegistersNone (op : Operation) : Prop := ∀ f, ¬ op.Causes (.registered f)

/-- The catalogue after an operation. -/
def perform (c : Catalogue) : Operation → Catalogue
  | .register f => (c.register f).toOption.getD c
  | .registerAll added => (c.registerEach added).2
  | .get _ => c
  | .lookup name => (c.lookup name).2
  | .value scene stock index name =>
    ((Inventory.read scene index name).run ⟨c, stock⟩).2.catalogue
  | .read input settings => ((input.read Condition.findIn settings).run c).2

/-- The catalogue after operations. -/
def run (c : Catalogue) (history : List Operation) : Catalogue := history.foldl perform c

@[simp] theorem run_nil (c : Catalogue) : c.run [] = c := rfl

@[simp] theorem run_cons (c : Catalogue) (op : Operation) (rest : List Operation) :
    c.run (op :: rest) = (c.perform op).run rest := rfl

/-! ## Operations are events -/

/-- Registering fields is registering each up to the first whose name is taken. -/
theorem registerEach_eq (c : Catalogue) (added : List Field) :
    ∃ before, before <+: added ∧ (c.registerEach added).2 = c.replay (before.map .registered) := by
  induction added generalizing c with
  | nil => exact ⟨[], List.nil_prefix, rfl⟩
  | cons f rest ih =>
    rw [registerEach]
    cases hf : c.register f with
    | error e => exact ⟨[], List.nil_prefix, rfl⟩
    | ok d =>
      obtain ⟨before, hbefore, hd⟩ := ih d
      have hafter : c.after (.registered f) = d := by rw [after, hf]; rfl
      refine ⟨f :: before, List.cons_prefix_cons.2 ⟨rfl, hbefore⟩, ?_⟩
      rw [List.map_cons, replay_cons, hafter]
      exact hd

/-- Reading a value looks its field up. -/
theorem catalogue_read (scene : Scene) (index : Nat) (name : String) (inventory : Inventory) :
    ((Inventory.read scene index name).run inventory).2.catalogue =
      (inventory.catalogue.lookup name).2 := by
  have hfield : ((Inventory.field name).run inventory).2.catalogue =
      (inventory.catalogue.lookup name).2 := by
    change (Inventory.field name inventory).2.catalogue = _
    rw [Inventory.field]
    rcases inventory.catalogue.lookup name with ⟨e | _ | f, c⟩ <;> rfl
  rw [Inventory.read, Condition.Reader.run_bind, ← hfield]
  rcases (Inventory.field name).run inventory with ⟨e | f, found⟩
  · rfl
  · have hvalue : ((Inventory.value scene index f).run found).2.catalogue = found.catalogue := rfl
    dsimp only
    rw [Condition.Reader.run_bind, ← hvalue]
    rcases (Inventory.value scene index f).run found with ⟨e | v, left⟩ <;> rfl

/-- An operation does what some events that it may cause do. -/
theorem perform_eq (c : Catalogue) (op : Operation) :
    ∃ events : List Event, (∀ e ∈ events, op.Causes e) ∧ c.perform op = c.replay events := by
  cases op with
  | register f => exact ⟨[.registered f], by simpa using .register f, rfl⟩
  | registerAll added =>
    obtain ⟨before, hbefore, hc⟩ := registerEach_eq c added
    refine ⟨before.map .registered, ?_, hc⟩
    intro e he
    obtain ⟨f, hf, rfl⟩ := List.mem_map.1 he
    exact .registerAll (hbefore.subset hf)
  | get name => exact ⟨[], by simp, rfl⟩
  | lookup name => exact ⟨[.lookedUp name], by simpa using .lookup name, rfl⟩
  | value scene stock index name =>
    exact ⟨[.lookedUp name], by simpa using .value scene stock index name,
      catalogue_read scene index name ⟨c, stock⟩⟩
  | read input settings =>
    obtain ⟨events, hevents, hc⟩ := input.read_replays settings c
    refine ⟨events, ?_, hc⟩
    intro e he
    obtain ⟨tokens, token, name, htokens, htoken, hname, rfl⟩ := hevents e he
    exact .read htokens htoken hname

theorem run_eq (c : Catalogue) (history : List Operation) :
    ∃ events : List (List Event),
      List.Forall₂ (fun op es => ∀ e ∈ es, op.Causes e) history events ∧
      c.run history = c.replay events.flatten := by
  induction history generalizing c with
  | nil => exact ⟨[], .nil, rfl⟩
  | cons op rest ih =>
    obtain ⟨first, hfirst, hop⟩ := perform_eq c op
    obtain ⟨events, hevents, hrest⟩ := ih (c.perform op)
    refine ⟨first :: events, .cons hfirst hevents, ?_⟩
    rw [run_cons, hrest, hop, List.flatten_cons, replay_append]

/-! ## What a history keeps -/

/-- What a name is bound to stays. -/
theorem get?_run {c : Catalogue} {name : String} {f : Field} (h : c.get? name = some f)
    (history : List Operation) : (c.run history).get? name = some f := by
  obtain ⟨events, -, hrun⟩ := run_eq c history
  rw [hrun, get?_replay, h, Option.some_or]

/-- A name is newly bound by registering a field or by looking the name up. -/
theorem causes_of_get? {c : Catalogue} {op : Operation} {name : String} {f : Field}
    (hfree : c.get? name = none) (h : (c.perform op).get? name = some f) :
    op.Causes (.registered f) ∨
      op.Causes (.lookedUp name) ∧ Field.parametric? name = .ok (some f) := by
  obtain ⟨events, hevents, hop⟩ := perform_eq c op
  rw [hop, get?_replay, hfree, Option.none_or] at h
  obtain ⟨e, he, hoffer⟩ := List.exists_of_findSome?_eq_some h
  have hcauses := hevents e he
  rw [Event.offerFor?] at hoffer
  split_ifs at hoffer with hname
  cases e with
  | registered g =>
    cases hoffer
    exact .inl hcauses
  | lookedUp other =>
    cases hname
    exact .inr ⟨hcauses, Event.parametric?_of_offer? hoffer⟩

/-- A field that is found is bound to its name from then on. -/
theorem get?_of_lookup {c : Catalogue} {name : String} {f : Field}
    (h : (c.lookup name).1 = .ok (some f)) : (c.lookup name).2.get? name = some f := by
  rw [lookup_fst, resolve] at h
  rw [get?_lookup]
  cases hget : c.get? name with
  | some g =>
    rw [hget] at h
    cases h
    rfl
  | none =>
    rw [hget] at h
    have hparametric : Field.parametric? name = .ok (some f) := h
    simp [Event.offerFor?, Event.name, Event.offer?, hparametric, Except.toOption]

/-- What a name stands for stays as long as no field is registered. -/
theorem resolve_run {c : Catalogue} {history : List Operation}
    (h : ∀ op ∈ history, op.RegistersNone) : (c.run history).resolve = c.resolve := by
  induction history generalizing c with
  | nil => rfl
  | cons op rest ih =>
    obtain ⟨hop, hrest⟩ := List.forall_mem_cons.1 h
    obtain ⟨events, hevents, hperform⟩ := perform_eq c op
    rw [run_cons, ih hrest, hperform]
    refine resolve_replay ?_
    intro e he
    cases e with
    | registered f => exact absurd (hevents _ he) (hop f)
    | lookedUp name => exact ⟨name, rfl⟩

/-- A field is registered just if its name is free; then no other name is touched, and otherwise
nothing is. -/
theorem register_iff (c : Catalogue) (f : Field) :
    ((∃ d, c.register f = .ok d) ↔ c.get? f.name = none) ∧
    (∀ d, c.register f = .ok d →
      d.get? f.name = some f ∧ ∀ name, name ≠ f.name → d.get? name = c.get? name) ∧
    ∀ e, c.register f = .error e → e = ⟨f.name⟩ ∧ c.perform (.register f) = c := by
  cases hget : c.get? f.name with
  | some g =>
    have hregister := register_of_some hget
    have hperform : c.perform (.register f) = c := by
      rw [perform, hregister]
      rfl
    refine ⟨by simp [hregister], ?_, ?_⟩
    · intro d hd
      rw [hregister] at hd
      cases hd
    · intro e he
      rw [hregister] at he
      cases he
      exact ⟨rfl, hperform⟩
  | none =>
    have hregister := register_of_none hget
    refine ⟨by simp [hregister], ?_, ?_⟩
    · intro d hd
      rw [hregister] at hd
      cases hd
      refine ⟨by simp [get?_add, hget], ?_⟩
      intro name hname
      simp [get?_add, Ne.symm hname]
    · intro e he
      rw [hregister] at he
      cases he

/-- A catalogue is an append-only map of uniquely named fields. Whatever its history is, its fields
bear the names that they are bound to, and are listed once each in ascending order. What is bound
stays bound to the same field. Registering a field succeeds just if its name is free, and changes
nothing otherwise. Any other new binding comes from looking that very name up, which must be free
and parametric; a field that is found is bound. So what a lookup finds stays as it is while no field
is registered, and over the whole history it is decided by the events about this name alone, of
which the first counts. -/
theorem run_appends (history : List Operation) :
    let c := empty.run history
    (∀ name f, c.get? name = some f → f.name = name) ∧
    c.names.Pairwise (· < ·) ∧ (∀ name, name ∈ c.names ↔ ∃ f, c.get? name = some f) ∧
    c.fields.Pairwise (·.name < ·.name) ∧ (∀ f, f ∈ c.fields ↔ c.get? f.name = some f) ∧
    (∀ more name f, c.get? name = some f → (c.run more).get? name = some f) ∧
    (∀ f, ((∃ d, c.register f = .ok d) ↔ c.get? f.name = none) ∧
      (∀ d, c.register f = .ok d →
        d.get? f.name = some f ∧ ∀ name, name ≠ f.name → d.get? name = c.get? name) ∧
      ∀ e, c.register f = .error e → e = ⟨f.name⟩ ∧ c.perform (.register f) = c) ∧
    (∀ op name f, c.get? name = none → (c.perform op).get? name = some f →
      op.Causes (.registered f) ∨
        op.Causes (.lookedUp name) ∧ Field.parametric? name = .ok (some f)) ∧
    (∀ name f, (c.lookup name).1 = .ok (some f) →
      (c.perform (.lookup name)).get? name = some f) ∧
    (∀ more, (∀ op ∈ more, op.RegistersNone) →
      ∀ name, ((c.run more).lookup name).1 = (c.lookup name).1) ∧
    ∃ events : List (List Event),
      List.Forall₂ (fun op es => ∀ e ∈ es, op.Causes e) history events ∧
      ∀ name, c.get? name = events.flatten.findSome? (·.offerFor? name) := by
  intro c
  have hnames : c.names.Pairwise (· < ·) := List.pairwise_map.2 c.ascending
  refine ⟨fun name f => name_of_get?, hnames, fun name => mem_names_iff, c.ascending,
    fun f => mem_fields_iff, fun more name f h => get?_run h more, register_iff c,
    fun op name f => causes_of_get?, fun name f => get?_of_lookup, ?_, ?_⟩
  · intro more hmore name
    rw [lookup_fst, lookup_fst, resolve_run hmore]
  · obtain ⟨events, hevents, hrun⟩ := run_eq empty history
    refine ⟨events, hevents, ?_⟩
    intro name
    have hempty : empty.get? name = none := rfl
    rw [show c = empty.replay events.flatten from hrun, get?_replay, hempty, Option.none_or]

/-- A condition that is refused leaves the fields of the conditions before it behind. -/
example :
    (empty.run [.read (.listed ["custom_x=1", "nothing=2", "custom_y=3"])
      ⟨⟨.fixed 0, 0⟩, none⟩]).names = ["custom_x"] := by
  decide +kernel

end Catalogue
end DownloadQuery
