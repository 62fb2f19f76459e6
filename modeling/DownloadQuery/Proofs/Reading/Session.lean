import DownloadQuery.Proofs.Condition.RoundTrip
import DownloadQuery.Proofs.Reading.Configured
import DownloadQuery.Proofs.Reading.Matching
import DownloadQuery.Proofs.Reading.Reports

/-!
# Sessions

In a session, values of items are read, conditions are read and matched, items are selected and
reports are made, in any order. All this shares the catalogue and the values that items keep.

Every step is an inquiry into the stock (`step_follows`) and leaves the session sound
(`sound_step`). So what items keep shows in no answer (`answer_forget`), and each value is kept once
and for all (`advances_run`).
-/

namespace DownloadQuery

/-- An inventory, and the filters that have been read so far. -/
structure Session where
  inventory : Inventory
  filters : List Filter

namespace Session

/-- What may be asked of a session. -/
inductive Request where
  /-- The value of a field of the item at an index. -/
  | value (index : Nat) (name : String)
  /-- The filter of conditions, which is there from then on. -/
  | read (input : Condition.Input) (settings : Condition.Settings)
  /-- Whether the item at an index matches a filter. -/
  | isMatch (index number : Nat)
  | select (number : Nat) (strict : Bool)
  | text (indices : List Nat) (names : List String)
  | json (indices : List Nat) (names : List String)

inductive Answer where
  | value (result : Except (Halt FieldError) FieldValue)
  | filter (result : Except ConditionError Filter)
  | isMatch (result : Except (Halt FieldError) Bool)
  | selection (result : Except (Halt ItemFailure) Selection)
  | report (result : Except (Halt FieldError) String)
  /-- There is no such item or filter. -/
  | missing

def Answer.ofRead (result : Except (Halt FieldError) (Field × FieldValue)) : Answer :=
  .value (result.map (·.2))

abbrev stock (s : Session) : Stock := s.inventory.stock

/-- What names stand for. -/
abbrev resolve (s : Session) : String → Except FieldError (Option Field) :=
  s.inventory.catalogue.resolve

def withStock (s : Session) (stock : Stock) : Session := { s with inventory.stock := stock }

/-- A session of items that keep nothing yet. -/
def start (c : Catalogue) (raws : List Snapshot) : Session :=
  ⟨⟨c, ⟨raws.map Item.ofSnapshot, []⟩⟩, []⟩

/-- The session if its items had kept nothing. -/
def forget (s : Session) : Session :=
  s.withStock ⟨s.stock.items.map fun item => .ofSnapshot item.raw, []⟩

/-- Reads the inventory. -/
def consult {α : Type} (s : Session) (x : InventoryReader α)
    (answer : Except (Halt FieldError) α → Answer) : Answer × Session :=
  let (result, inventory) := x.run s.inventory
  (answer result, { s with inventory })

/-- The answer to a request, and the session afterwards. -/
def step (scene : Scene) (s : Session) : Request → Answer × Session
  | .value index name => s.consult (Inventory.read scene index name) .ofRead
  | .read input settings =>
    let (result, catalogue) := (input.read Condition.findIn settings).run s.inventory.catalogue
    (.filter result, ⟨{ s.inventory with catalogue }, s.filters ++ result.toOption.toList⟩)
  | .isMatch index number =>
    match s.filters[number]? with
    | some f =>
      if index < s.stock.items.length then
        let (result, stock) := s.stock.readAt index (f.isMatch scene)
        (.isMatch result, s.withStock stock)
      else (.missing, s)
    | none => (.missing, s)
  | .select number strict =>
    match s.filters[number]? with
    | some f =>
      let (result, stock) := Selection.selectWith scene f strict s.stock
      (.selection result, s.withStock stock)
    | none => (.missing, s)
  | .text indices names => s.consult (Report.itemsText scene indices names) .report
  | .json indices names => s.consult (Report.itemsJson scene indices names) .report

/-- The session after some requests. -/
def run (scene : Scene) : Session → List Request → Session
  | s, [] => s
  | s, q :: rest => run scene (s.step scene q).2 rest

/-! ## Steps are inquiries -/

/-- What a request asks for. -/
def inquiry (scene : Scene) (s : Session) : Request → Inquiry Answer
  | .value index name => do
    return .ofRead (← (FieldInquiry.read s.resolve index name).run)
  | .read input settings =>
    return .filter ((input.read Condition.findIn settings).run s.inventory.catalogue).1
  | .isMatch index number =>
    match s.filters[number]? with
    | some f =>
      if index < s.stock.items.length then do return .isMatch (← f.inquiry index)
      else return .missing
    | none => return .missing
  | .select number strict =>
    match s.filters[number]? with
    | some f => do return .selection (← Selection.inquiry f strict s.stock.items.length)
    | none => return .missing
  | .text indices names => do
    return .report (← (FieldInquiry.itemsText s.resolve scene.clock.zone indices names).run)
  | .json indices names => do
    return .report (← (FieldInquiry.itemsJson s.resolve indices names).run)

/-- What requests store, in order: indices of items and names of fields. -/
def stored (scene : Scene) : Session → List Request → List (Nat × String)
  | _, [] => []
  | s, q :: rest =>
    (s.inquiry scene q).stored scene s.stock ++ stored scene (s.step scene q).2 rest

/-- Whether items are faithful to what names stand for, and filters compare nothing else. -/
structure Sound (scene : Scene) (s : Session) : Prop where
  repeatable : ∀ name f, s.resolve name = .ok (some f) → f.source.Repeatable
  filters : ∀ f ∈ s.filters, f.Genuine s.resolve
  faithful : s.stock.Faithful s.resolve scene

/-- Whether an answer and the session after it are those of an inquiry. -/
structure Follows (scene : Scene) (s : Session) (result : Answer × Session) (q : Inquiry Answer) :
    Prop where
  genuine : q.Genuine s.resolve
  run_eq : (result.1, result.2.stock) = q.run scene s.stock
  resolve_eq : result.2.resolve = s.resolve
  filters : ∀ f ∈ result.2.filters, f.Genuine s.resolve

variable {scene : Scene} {s : Session}

theorem Sound.genuine (hs : s.Sound scene) (name : String) (f : Field)
    (h : s.resolve name = .ok (some f)) : f.Genuine s.resolve where
  resolved := by
    rw [Catalogue.name_of_resolve h]
    exact h
  repeatable := hs.repeatable name f h

/-- Nothing is asked for where there is no item or filter. -/
theorem missing_follows (hs : s.Sound scene) : s.Follows scene (.missing, s) (pure .missing) where
  genuine := trivial
  run_eq := rfl
  resolve_eq := rfl
  filters := hs.filters

theorem consult_follows {α : Type} {x : InventoryReader α} {q : FieldInquiry α}
    (h : x.Follows s.resolve scene q) (hs : s.Sound scene)
    (answer : Except (Halt FieldError) α → Answer) :
    s.Follows scene (s.consult x answer) (do return answer (← q.run)) := by
  obtain ⟨catalogue, hresolve, hrun⟩ := h.run_eq s.inventory rfl
  have hconsult : s.consult x answer = (answer (q.run.run scene s.stock).1,
      { s with inventory := ⟨catalogue, (q.run.run scene s.stock).2⟩ }) := by
    rw [consult, hrun]
  rw [hconsult]
  exact {
    genuine := Inquiry.genuine_bind h.genuine fun _ => trivial
    run_eq := by rw [Inquiry.run_bind]; rfl
    resolve_eq := hresolve
    filters := hs.filters }

theorem read_follows (hs : s.Sound scene) (input : Condition.Input)
    (settings : Condition.Settings) :
    s.Follows scene (s.step scene (.read input settings))
      (s.inquiry scene (.read input settings)) := by
  have hsteady := Condition.catalogue_steady s.inventory.catalogue
  obtain ⟨catalogue, hvisits, hrun⟩ :=
    input.read_yields hsteady settings s.inventory.catalogue .start
  rw [← Condition.findIn_eq] at hrun
  rw [step, inquiry, hrun]
  exact {
    genuine := trivial
    run_eq := rfl
    resolve_eq := Condition.resolve_of_visits hvisits
    filters := by
      intro f hf
      rcases List.mem_append.1 hf with hf | hf
      · exact hs.filters f hf
      · have hread : input.read (Condition.Answers.find s.resolve) settings = .ok f := by
          cases hr : input.read (Condition.Answers.find s.resolve) settings with
          | error e => simp [hr, Except.toOption] at hf
          | ok g => simp_all [Except.toOption]
        intro l hl
        exact hs.genuine _ _ (Condition.Input.allLeaves_of_read hsteady.own_name hread l hl) }

/-- Every step is an inquiry. -/
theorem step_follows (hs : s.Sound scene) (q : Request) :
    s.Follows scene (s.step scene q) (s.inquiry scene q) := by
  cases q with
  | value index name =>
    exact consult_follows (Inventory.read_follows hs.genuine index name) hs .ofRead
  | read input settings => exact read_follows hs input settings
  | isMatch index number =>
    rw [step, inquiry]
    cases hf : s.filters[number]? with
    | none => exact missing_follows hs
    | some f =>
      by_cases hi : index < s.stock.items.length
      · have hreads := f.reads_inquiry (hs.filters f (List.mem_of_getElem? hf)) scene index
        simp only [hi, if_true]
        exact {
          genuine := Inquiry.genuine_bind hreads.genuine fun _ => trivial
          run_eq := by rw [hreads.run_bind_eq hi]; rfl
          resolve_eq := rfl
          filters := hs.filters }
      · simp only [hi, if_false]
        exact missing_follows hs
  | select number strict =>
    rw [step, inquiry]
    cases hf : s.filters[number]? with
    | none => exact missing_follows hs
    | some f =>
      have hgenuine := hs.filters f (List.mem_of_getElem? hf)
      exact {
        genuine :=
          Inquiry.genuine_bind (Selection.genuine_inquiry hgenuine strict _) fun _ => trivial
        run_eq := by rw [Inquiry.run_bind, Selection.run_inquiry hgenuine]; rfl
        resolve_eq := rfl
        filters := hs.filters }
  | text indices names =>
    exact consult_follows (Report.itemsText_follows hs.genuine scene indices names) hs .report
  | json indices names =>
    exact consult_follows (Report.itemsJson_follows hs.genuine scene indices names) hs .report

/-! ## What steps preserve -/

theorem stock_step (hs : s.Sound scene) (q : Request) :
    (s.step scene q).2.stock = ((s.inquiry scene q).run scene s.stock).2 :=
  congrArg Prod.snd (step_follows hs q).run_eq

theorem sound_step (hs : s.Sound scene) (q : Request) : (s.step scene q).2.Sound scene where
  repeatable := by
    rw [(step_follows hs q).resolve_eq]
    exact hs.repeatable
  filters := by
    rw [(step_follows hs q).resolve_eq]
    exact (step_follows hs q).filters
  faithful := by
    rw [(step_follows hs q).resolve_eq, stock_step hs]
    exact Inquiry.faithful_run (step_follows hs q).genuine hs.faithful

theorem sound_run (hs : s.Sound scene) (requests : List Request) :
    (s.run scene requests).Sound scene := by
  induction requests generalizing s with
  | nil => exact hs
  | cons q rest ih => exact ih (sound_step hs q)

theorem resolve_run (hs : s.Sound scene) (requests : List Request) :
    (s.run scene requests).resolve = s.resolve := by
  induction requests generalizing s with
  | nil => rfl
  | cons q rest ih => exact (ih (sound_step hs q)).trans (step_follows hs q).resolve_eq

theorem sound_start {config : Config} {c : Catalogue} (hc : config.catalogue = .ok c)
    (scene : Scene) (raws : List Snapshot) : (start c raws).Sound scene where
  repeatable _ _ h := Config.repeatable_of_resolve hc h
  filters := by simp [start]
  faithful := by
    intro item hitem
    obtain ⟨raw, -, rfl⟩ := List.mem_map.1 hitem
    exact Item.faithful_ofSnapshot _ scene raw

theorem raws_start (c : Catalogue) (raws : List Snapshot) : (start c raws).stock.raws = raws := by
  simp [start, Stock.raws, Function.comp_def, Item.ofSnapshot]

theorem sound_forget (hs : s.Sound scene) : s.forget.Sound scene where
  repeatable := hs.repeatable
  filters := hs.filters
  faithful := by
    intro item hitem
    obtain ⟨kept, -, rfl⟩ := List.mem_map.1 hitem
    exact Item.faithful_ofSnapshot _ scene kept.raw

theorem raws_forget (s : Session) : s.forget.stock.raws = s.stock.raws := by
  simp [forget, withStock, Stock.raws, Function.comp_def, Item.ofSnapshot]

/-- What items keep has no part in what is asked for. -/
theorem inquiry_forget (s : Session) (q : Request) :
    s.forget.inquiry scene q = s.inquiry scene q := by
  have hlength : s.forget.stock.items.length = s.stock.items.length := List.length_map _
  cases q with
  | isMatch index number => rw [inquiry, hlength]; rfl
  | select number strict => rw [inquiry, hlength]; rfl
  | value index name => rfl
  | read input settings => rfl
  | text indices names => rfl
  | json indices names => rfl

/-- What items keep shows in no answer. -/
theorem answer_forget (hs : s.Sound scene) (q : Request) :
    (s.step scene q).1 = (s.forget.step scene q).1 := by
  have hstep : (s.step scene q).1 = ((s.inquiry scene q).run scene s.stock).1 :=
    congrArg Prod.fst (step_follows hs q).run_eq
  have hforget : (s.forget.step scene q).1 =
      ((s.forget.inquiry scene q).run scene s.forget.stock).1 :=
    congrArg Prod.fst (step_follows (sound_forget hs) q).run_eq
  rw [hstep, hforget, inquiry_forget]
  exact Inquiry.run_eq (step_follows hs q).genuine hs.faithful (sound_forget hs).faithful
    (raws_forget s).symm

theorem advances_run (hs : s.Sound scene) (requests : List Request) :
    s.stock.Advances (s.stored scene requests) (s.run scene requests).stock := by
  induction requests generalizing s with
  | nil => exact .refl s.stock
  | cons q rest ih =>
    have hfirst : s.stock.Advances ((s.inquiry scene q).stored scene s.stock)
        ((s.inquiry scene q).run scene s.stock).2 := Inquiry.advances_run _ _
    rw [← stock_step hs] at hfirst
    exact hfirst.append (ih (sound_step hs q))

/-- The items stay as they are if a value cannot be read. -/
theorem items_of_value_error (hs : s.Sound scene) {index : Nat} {name : String}
    {e : Halt FieldError} (h : (s.step scene (.value index name)).1 = .value (.error e)) :
    (s.step scene (.value index name)).2.stock.items = s.stock.items := by
  have hrun := (step_follows hs (.value index name)).run_eq
  rw [inquiry, Inquiry.run_bind, FieldInquiry.run_read, Inquiry.run_pure, Prod.mk.injEq] at hrun
  rw [hrun.1] at h
  rw [hrun.2]
  rcases hr : s.resolve name with _ | _ | f
  · rfl
  · rfl
  · rw [hr] at h
    cases hv : (s.stock.ask scene index f).1 with
    | error e => exact Stock.items_ask_of_error hv
    | ok v => simp [hv, Except.map, Answer.ofRead] at h

/-- What items keep is transparent. In any session with the fields of a configuration, a request is
answered as if items had kept nothing. An item keeps names of on-demand fields only, each with the
value that computing it anew yields. What is kept stays as it is, is given without computing
anything, and each name is stored once for an item. A value that cannot be read leaves the items as
they are. -/
theorem kept_transparent {config : Config} {c : Catalogue} (hc : config.catalogue = .ok c)
    (scene : Scene) (raws : List Snapshot) (requests : List Request) :
    let s := (start c raws).run scene requests
    (∀ q, (s.step scene q).1 = (s.forget.step scene q).1) ∧
    (∀ index, ∀ entry ∈ (s.stock.item index).kept, ∃ f, c.resolve entry.1 = .ok (some f) ∧
      f.freshness = .onDemand ∧ ∀ call, f.fresh scene (raws.getD index []) call = .ok entry.2) ∧
    (∀ more, s.stock.Advances (s.stored scene more) (s.run scene more).stock) ∧
    ((start c raws).stored scene requests).Nodup ∧
    (∀ index (f : Field) v, f.freshness = .onDemand →
      (s.stock.item index).kept? f.name = some v →
        f.value scene (s.stock.reading index) = (.ok v, s.stock.reading index)) ∧
    (∀ index (f : Field) e, (f.value scene (s.stock.reading index)).1 = .error e →
      (f.value scene (s.stock.reading index)).2.item = s.stock.item index) ∧
    ∀ index name e, (s.step scene (.value index name)).1 = .value (.error e) →
      (s.step scene (.value index name)).2.stock.items = s.stock.items := by
  intro s
  have hstart := sound_start hc scene raws
  have hs : s.Sound scene := sound_run hstart requests
  have hadvances := advances_run hstart requests
  have hresolve : s.resolve = c.resolve := resolve_run hstart requests
  refine ⟨answer_forget hs, ?_, advances_run hs, hadvances.nodup, ?_, ?_, ?_⟩
  · intro index entry hentry
    have hraw : (s.stock.item index).raw = raws.getD index [] := by
      rw [Stock.raw_item, hadvances.raws_eq, raws_start]
    obtain ⟨f, hf, hd, hv⟩ := Stock.faithful_item hs.faithful index entry hentry
    rw [hresolve] at hf
    rw [hraw] at hv
    exact ⟨f, hf, hd, hv⟩
  · exact fun index f v hd hk => Field.value_of_kept? hd hk
  · exact fun index f e h => Field.item_value_of_error h
  · exact fun index name e h => items_of_value_error hs h

/-- With the standard configuration, where an item keeps two values. -/
theorem kept_transparent_standard :
    let scene : Scene := ⟨⟨.fixed 0, 0⟩, fun _ => false, fun _ => none⟩
    let raws : List Snapshot := [[("views", .array [.string "main"])]]
    let requests : List Request := [.value 0 "views",
      .read (.written "views=main kind_25=avi") ⟨scene.clock, none⟩, .isMatch 0 0,
      .text [0] ["kind_25"]]
    ∃ c, Config.standard.catalogue = .ok c ∧
      (start c raws).stored scene requests = [(0, "views"), (0, "kind_25")] ∧
      ((start c raws).stored scene requests).Nodup ∧
      ∀ q, (((start c raws).run scene requests).step scene q).1 =
        (((start c raws).run scene requests).forget.step scene q).1 := by
  intro scene raws requests
  have hstored : (Config.standard.catalogue.toOption.map fun c =>
      (start c raws).stored scene requests) = some [(0, "views"), (0, "kind_25")] := by
    decide +kernel
  cases hc : Config.standard.catalogue with
  | error e =>
    rw [hc] at hstored
    cases hstored
  | ok c =>
    rw [hc] at hstored
    obtain ⟨hanswers, -, -, hnodup, -⟩ := kept_transparent hc scene raws requests
    exact ⟨c, rfl, Option.some.inj hstored, hnodup, hanswers⟩

end Session
end DownloadQuery
