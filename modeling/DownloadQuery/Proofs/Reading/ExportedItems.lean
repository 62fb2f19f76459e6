import DownloadQuery.Proofs.Reading.Session
import DownloadQuery.Proofs.Report.Agreement

/-!
# Exported items

A list of objects that a session reports is a text that holds items again. These have the values
that were reported of fields that take the raw values under their own names
(`Session.exported_items_read_back`): the raw form of a value reads back as the value, and the text
holds the raw forms. Other fields are computed from other raw values, which the report need not have
(`Session.exported_items_lost`).
-/

namespace DownloadQuery

theorem Item.ofElements_objects (index : Nat) (snapshots : List Snapshot) :
    ofElements index (snapshots.map Json.object) = .ok (snapshots.map ofSnapshot) := by
  induction snapshots generalizing index with
  | nil => rfl
  | cons snapshot rest ih =>
    rw [List.map_cons, ofElements, ih]
    rfl

/-- The items of a text that holds objects. -/
theorem Item.read_of_objects {text : String} {snapshots : List Snapshot}
    (h : Json.read? text = some (.array (snapshots.map Json.object))) :
    read text = .ok (snapshots.map ofSnapshot) := by
  rw [read, h]
  exact ofElements_objects 0 snapshots

/-- The indented text of exact objects holds items of them. -/
theorem Item.read_pretty {text : String} {snapshots : List Snapshot}
    (htext : (Json.array (snapshots.map Json.object)).pretty = text)
    (h : ∀ snapshot ∈ snapshots, (Json.object snapshot).IsExact) :
    read text = .ok (snapshots.map ofSnapshot) := by
  rw [← htext]
  exact read_of_objects (Json.read?_pretty (.array (List.forall_mem_map.2 h)))

namespace Inventory

variable {resolve : String → Except FieldError (Option Field)} {scene : Scene}
  {raws : List Snapshot} {inventory left : Inventory}

/-- Whether names stand for the same fields as ever, and items have the same raw values as ever and
keep what reading them anew yields. -/
structure Stays (resolve : String → Except FieldError (Option Field)) (scene : Scene)
    (raws : List Snapshot) (inventory : Inventory) : Prop where
  resolve_eq : inventory.catalogue.resolve = resolve
  raws_eq : inventory.stock.raws = raws
  faithful : inventory.stock.Faithful resolve scene

/-- What is read for a cell is the value of the field computed anew. -/
theorem fresh_of_cellRead (hres : ∀ name f, resolve name = .ok (some f) → f.Genuine resolve)
    (hstays : inventory.Stays resolve scene raws) {index : Nat} {name : String}
    {cell : Field × FieldValue} (h : CellRead scene index inventory name cell left) :
    (resolve name = .ok (some cell.1) ∧
      cell.1.fresh scene (raws.getD index []) 0 = .ok cell.2) ∧ left.Stays resolve scene raws := by
  obtain ⟨hresolve, hraws, hfaithful⟩ := hstays
  cases h with
  | @mk f catalogue v _ hfield hvalue =>
    have hfound := inventory.catalogue.lookup_fst name
    have hsame := inventory.catalogue.resolve_lookup name
    rw [hfield] at hfound hsame
    rw [hresolve] at hfound hsame
    have hgenuine := hres name f hfound.symm
    rw [run_value] at hvalue
    obtain ⟨hv, rfl⟩ := Prod.mk.inj hvalue
    rw [Stock.ask_eq_fresh hgenuine hfaithful, hraws] at hv
    exact ⟨⟨hfound.symm, hv⟩, hsame, Stock.raws_ask.trans hraws,
      Stock.faithful_ask hgenuine hfaithful⟩

end Inventory

namespace Session

variable {scene : Scene} {s : Session}

/-- A session answers with the value of a field computed anew. -/
theorem value_answer (hs : s.Sound scene) {name : String} {f : Field}
    (hf : s.resolve name = .ok (some f)) (index : Nat) :
    (s.step scene (.value index name)).1 =
      .value (f.fresh scene (s.stock.raws.getD index []) 0) := by
  have hrun := (step_follows hs (.value index name)).run_eq
  rw [inquiry, Inquiry.run_bind, FieldInquiry.run_read, Inquiry.run_pure, Prod.mk.injEq] at hrun
  rw [hrun.1, hf, ← Stock.ask_eq_fresh (hs.genuine name f hf) hs.faithful]
  dsimp only
  rcases (s.stock.ask scene index f).1 with e | v <;> rfl

theorem value_answer_run {config : Config} {c : Catalogue} (hc : config.catalogue = .ok c)
    (scene : Scene) (raws : List Snapshot) (requests : List Request) {name : String} {f : Field}
    (hf : c.resolve name = .ok (some f)) (index : Nat) :
    (((start c raws).run scene requests).step scene (.value index name)).1 =
      .value (f.fresh scene (raws.getD index []) 0) := by
  have hstart := sound_start hc scene raws
  have hresolve : ((start c raws).run scene requests).resolve = c.resolve :=
    resolve_run hstart requests
  rw [value_answer (sound_run hstart requests) (by rw [hresolve, hf]),
    (advances_run hstart requests).raws_eq, raws_start]

/-- The rows of a report hold the values of fields computed anew. -/
theorem fresh_of_rowsRead (hs : s.Sound scene) {indices : List Nat} {names : List String}
    {rows : List (List (Field × FieldValue))} {left : Inventory}
    (h : Inventory.RowsRead scene names s.inventory indices rows left) :
    List.Forall₂ (fun index row => List.Forall₂ (fun name cell =>
      s.resolve name = .ok (some cell.1) ∧
        cell.1.fresh scene (s.stock.raws.getD index []) 0 = .ok cell.2) names row) indices rows :=
  (Inventory.forall₂_of_rowsRead
    (fun _ _ _ _ _ hstays hcell => Inventory.fresh_of_cellRead hs.genuine hstays hcell)
    ⟨rfl, rfl, hs.faithful⟩ h).1

end Session

namespace Report

/-- The object of a row has the raw form of the value of each field that was asked for. -/
theorem lookup_of_fresh {resolve : String → Except FieldError (Option Field)} {scene : Scene}
    {raw : Snapshot} {names : List String} {row : List (Field × FieldValue)}
    (h : List.Forall₂ (fun name cell => resolve name = .ok (some cell.1) ∧
      cell.1.fresh scene raw 0 = .ok cell.2) names row) {name : String} (hname : name ∈ names)
    {f : Field} (hf : resolve name = .ok (some f)) {v : FieldValue}
    (hv : f.fresh scene raw 0 = .ok v) : (membersOf names row).lookup name = some v.toJson := by
  have hsame (g : Field) (w : FieldValue) (hg : resolve name = .ok (some g))
      (hw : g.fresh scene raw 0 = .ok w) : g = f ∧ w = v := by
    obtain rfl : g = f := Option.some.inj (Except.ok.inj (hg.symm.trans hf))
    exact ⟨rfl, Except.ok.inj (hw.symm.trans hv)⟩
  obtain ⟨hlength, hcells⟩ := List.forall₂_iff_zip.1 h
  obtain ⟨place, hplace⟩ := List.getElem?_of_mem hname
  obtain ⟨⟨g, w⟩, hcell, hg, hw⟩ := exists_getElem?_of_related h hplace
  obtain ⟨rfl, rfl⟩ := hsame g w hg hw
  apply lookup_membersOf
  · exact List.mem_of_getElem? (List.getElem?_zip_eq_some.2 ⟨hplace, hcell⟩)
  · intro g' w' hmem
    exact (hsame g' w' (hcells hmem).1 (hcells hmem).2).2

end Report

/-! ## Fields that read their own raw values -/

namespace Derivation

variable {raw : Snapshot} {s : String}

theorem textOf_of_lookup {name : String} (h : raw.lookup name = some (.string s)) :
    textOf raw name = .ok s := by
  rw [textOf, Snapshot.value, h]
  rfl

theorem compute_tracker (scene : Scene) (h : raw.lookup "tracker" = some (.string s))
    (hne : s ≠ "") : tracker.compute scene raw = .ok (.string s) := by
  have htracker : trackerOf raw = .ok s := by
    rw [trackerOf, textOf_of_lookup h, ok_bind, if_pos (by simpa using hne)]
    rfl
  rw [compute, htracker]
  rfl

theorem exists_of_text {text : Except (Halt FieldError) String} {given : Json}
    (h : (do return Json.string (← text)) = Except.ok given) : ∃ s, given = .string s := by
  obtain ⟨s, -, h⟩ := exists_of_bind_ok h
  cases h
  exact ⟨s, rfl⟩

theorem compute_trackerAlias (scene : Scene) (table : AnnounceTable)
    (h : raw.lookup "alias" = some (.string s)) (hne : s ≠ "") :
    (trackerAlias table).compute scene raw = .ok (.string s) := by
  have halias : aliasOf raw table = .ok s := by
    rw [aliasOf, textOf_of_lookup h, ok_bind, if_pos (by simpa using hne)]
    rfl
  rw [compute, halias]
  rfl

end Derivation

namespace Field

/-- Whether a field with a value reads the raw value under its own name, if there is one. The
tracker of an item and its alias are told by others only where they are not given. -/
inductive TakesOwn (f : Field) (v : FieldValue) : Prop
  | stored (h : f.source = .stored)
  | other (h : f.source = .other f.name)
  | tracker (h : f.source = .derived .tracker) (hne : v ≠ .text "")
  | trackerAlias {table : AnnounceTable} (h : f.source = .derived (.trackerAlias table))
    (hne : v ≠ .text "")

theorem tracker_of_mem_builtins {table : AnnounceTable} {themes : List (String × String)} :
    ∀ f ∈ builtins table themes, f.source = .derived .tracker →
      f.name = "tracker" ∧ f.kind = .text := by
  simp [builtins, textual, flag, bytes, timestamp, duration, tags, kinds]

theorem alias_of_mem_builtins {table table' : AnnounceTable} {themes : List (String × String)} :
    ∀ f ∈ builtins table themes, f.source = .derived (.trackerAlias table') →
      f.name = "alias" ∧ f.kind = .text := by
  simp [builtins, textual, flag, bytes, timestamp, duration, tags, kinds]

/-- A field of a configuration that is computed, and is no share of file types, is built in. -/
theorem mem_builtins_of_derived {config : Config} {c : Catalogue} (hc : config.catalogue = .ok c)
    {name : String} {f : Field} (hf : c.resolve name = .ok (some f)) {d : Derivation}
    (hd : f.source = .derived d) (hkinds : ∀ percent, d ≠ .kinds percent) :
    f ∈ builtins config.announce config.themes := by
  rcases Config.mem_of_resolve hc hf with hmem | ⟨custom, -, rfl⟩ | hparametric
  · exact hmem
  · cases hd
  · rcases eq_of_parametric? hparametric with ⟨percent, rfl⟩ | ⟨key, rfl⟩
    · cases hd
      exact absurd rfl (hkinds _)
    · cases hd

variable {f : Field} {scene scene' : Scene} {raw raw' : Snapshot} {call call' : Nat}
  {v : FieldValue}

theorem fresh_of_read {given : Json} (h : f.source.read scene raw f.name call = .ok given) :
    f.fresh scene raw call = liftM (f.kind.convert f.name given) := by
  rw [fresh, h]
  rfl

/-- A field that is computed as a text reads back a text that is given. -/
theorem fresh_of_given {d : Derivation} (hkind : f.kind = .text) (hsource : f.source = .derived d)
    (htext : ∀ given, d.compute scene raw = .ok given → ∃ s, given = .string s)
    (hv : f.fresh scene raw call = .ok v) (hne : v ≠ .text "")
    (hgiven : ∀ s, s ≠ "" → v.toJson = .string s → d.compute scene' raw' = .ok (.string s)) :
    f.fresh scene' raw' call' = .ok v := by
  obtain ⟨given, hread, hconvert⟩ := exists_of_bind_ok hv
  rw [hsource] at hread
  obtain ⟨s, rfl⟩ := htext given hread
  rw [hkind] at hconvert
  obtain rfl : FieldValue.text s = v := Except.ok.inj (liftM_eq_ok_iff.1 hconvert)
  have hs : s ≠ "" := by
    rintro rfl
    exact hne rfl
  have hread' : f.source.read scene' raw' f.name call' = .ok (.string s) := by
    rw [hsource]
    exact hgiven s hs rfl
  rw [fresh_of_read hread', hkind]
  rfl

/-- A field that takes its own raw value reads back the raw form of the value that it has. -/
theorem fresh_of_lookup {config : Config} {c : Catalogue} (hc : config.catalogue = .ok c)
    {name : String} (hf : c.resolve name = .ok (some f)) (hown : f.TakesOwn v)
    (hraw : (raw.value f.name).IsRounded) (hfinite : v.IsFinite)
    (hv : f.fresh scene raw call = .ok v) (hlookup : raw'.lookup f.name = some v.toJson) :
    f.fresh scene' raw' call' = .ok v := by
  have hvalue : raw'.value f.name = v.toJson := by
    rw [Snapshot.value, hlookup]
  -- What has been read under the own name reads back.
  have hback (hread : f.source.read scene raw f.name call = .ok (raw.value f.name))
      (hread' : f.source.read scene' raw' f.name call' = .ok (raw'.value f.name)) :
      f.fresh scene' raw' call' = .ok v := by
    rw [fresh_of_read hread, liftM_eq_ok_iff] at hv
    rw [fresh_of_read hread', liftM_eq_ok_iff, hvalue]
    exact ValueKind.convert_toJson hraw hfinite hv
  cases hown with
  | stored h => exact hback (by rw [h]; rfl) (by rw [h]; rfl)
  | other h => exact hback (by rw [h]; rfl) (by rw [h]; rfl)
  | tracker h hne =>
    obtain ⟨hname, hkind⟩ :=
      tracker_of_mem_builtins f (mem_builtins_of_derived hc hf h (by simp)) h
    rw [hname] at hlookup
    refine fresh_of_given hkind h (fun _ => Derivation.exists_of_text) hv hne fun s hs hjson => ?_
    exact Derivation.compute_tracker scene' (hlookup.trans (congrArg some hjson)) hs
  | trackerAlias h hne =>
    obtain ⟨hname, hkind⟩ :=
      alias_of_mem_builtins f (mem_builtins_of_derived hc hf h (by simp)) h
    rw [hname] at hlookup
    refine fresh_of_given hkind h (fun _ => Derivation.exists_of_text) hv hne fun s hs hjson => ?_
    exact Derivation.compute_trackerAlias scene' _ (hlookup.trans (congrArg some hjson)) hs

end Field

namespace Session

/-- Exported values read back as they were: what a kind makes of a raw value, it makes of the raw
form of the result too, if its numbers are finite, and the text of the raw form holds just this
form. So a list of objects that a session reports is a text of items, one for each that was asked
for. In any session with the same fields, these have the values that were reported of the fields
that take their own raw values. -/
theorem exported_items_read_back :
    (∀ (kind : ValueKind) (field text : String) (raw : Json) (v : FieldValue),
      Json.read? text = some raw → kind.convert field raw = .ok v →
        Json.read? v.toJson.pretty = some v.toJson ∧
        (v.IsFinite → kind.convert field v.toJson = .ok v)) ∧
    ∀ (config : Config) (c : Catalogue) (text : String) (items : List Item) (scene : Scene)
      (requests : List Request) (indices : List Nat) (names : List String) (report : String),
      config.catalogue = .ok c → Item.read text = .ok items →
      let s := (start c (items.map (·.raw))).run scene requests
      (s.step scene (.json indices names)).1 = .report (.ok report) →
      ∃ exported, Item.read report = .ok exported ∧ exported.length = indices.length ∧
        ∀ place index name f v, indices[place]? = some index → name ∈ names →
          c.resolve name = .ok (some f) → f.TakesOwn v → v.IsFinite →
          (s.step scene (.value index name)).1 = .value (.ok v) →
          ∀ scene' requests',
            (((start c (exported.map (·.raw))).run scene' requests').step scene'
              (.value place name)).1 = .value (.ok v) := by
  refine ⟨fun kind field text raw v hraw hv => ?_, ?_⟩
  · have hexact := Json.isExact_of_read? hraw
    exact ⟨Json.read?_pretty (ValueKind.isExact_of_convert hexact.fromSource hv),
      fun hfinite => ValueKind.convert_toJson hexact.isRounded hfinite hv⟩
  intro config c text items scene requests indices names report hc hitems s hreport
  have hstart := sound_start hc scene (items.map (·.raw))
  have hs : s.Sound scene := sound_run hstart requests
  have hresolve : s.resolve = c.resolve := resolve_run hstart requests
  have hraws : s.stock.raws = items.map (·.raw) :=
    (advances_run hstart requests).raws_eq.trans (raws_start c _)
  have hrun : ((Report.itemsJson scene indices names).run s.inventory).1 = .ok report :=
    Answer.report.inj hreport
  obtain ⟨rows, -, hread, rfl⟩ := Report.exists_rows_of_itemsJson hrun
  have hexact : ∀ raw ∈ items.map (·.raw), (Json.object raw).IsExact :=
    List.forall_mem_map.2 fun item hitem => (Item.isExact_of_read hitems item hitem).raw
  have hkept : ∀ item ∈ s.stock.items, item.IsExact := by
    intro item hitem
    have hmem : item.raw ∈ s.stock.raws := List.mem_map_of_mem hitem
    rw [hraws] at hmem
    exact (hs.faithful item hitem).isExact (hexact _ hmem)
  have htext := Report.read?_objects hkept hread
  have hrows := fresh_of_rowsRead hs hread
  rw [hraws, hresolve] at hrows
  refine ⟨_, Item.read_of_objects htext, by simp [hrows.length_eq], ?_⟩
  intro place index name f v hplace hname hf hown hfinite hv scene' requests'
  obtain ⟨row, hrow, hcells⟩ := exists_getElem?_of_related hrows hplace
  have hfresh : f.fresh scene ((items.map (·.raw)).getD index []) 0 = .ok v := by
    rw [value_answer_run hc scene _ requests hf] at hv
    exact Answer.value.inj hv
  have hlookup : (Report.membersOf names row).lookup f.name = some v.toJson := by
    rw [Catalogue.name_of_resolve hf]
    exact Report.lookup_of_fresh hcells hname hf hfresh
  have hexported : (((rows.map (Report.membersOf names)).map Item.ofSnapshot).map
      Item.raw).getD place [] = Report.membersOf names row := by
    simp [hrow, Item.ofSnapshot]
  have hraw : (((items.map Item.raw).getD index []).value f.name).IsRounded :=
    (Snapshot.isExact_value (Snapshot.isExact_getD hexact index) f.name).isRounded
  rw [value_answer_run hc scene' _ requests' hf, hexported]
  exact congrArg Answer.value (Field.fresh_of_lookup hc hf hown hraw hfinite hfresh hlookup)

/-- A ratio of 1500 thousandths is exported as one and a half, and is not scaled again. -/
theorem exported_items_read_back_ratio :
    let scene : Scene := ⟨⟨.fixed 0, 0⟩, fun _ => false, fun _ => none⟩
    let v : FieldValue := .float (.ofInt 1500 / .ofInt 1000)
    let text := "[\n  \x7b\n    \"ratio\": 1500\n  \x7d\n]"
    let report := "[\n  \x7b\n    \"ratio\": 1.5\n  \x7d\n]"
    ∃ c items exported, Config.standard.catalogue = .ok c ∧ Item.read text = .ok items ∧
      ((start c (items.map (·.raw))).step scene (.json [0] ["ratio"])).1 = .report (.ok report) ∧
      Item.read report = .ok exported ∧ exported.length = 1 ∧
      ((start c (items.map (·.raw))).step scene (.value 0 "ratio")).1 = .value (.ok v) ∧
      ((start c (exported.map (·.raw))).step scene (.value 0 "ratio")).1 = .value (.ok v) := by
  intro scene v text report
  have hitems : Item.read text = .ok [.ofSnapshot [("ratio", .integer 1500)]] :=
    Item.read_pretty (by decide +kernel) (List.forall_mem_singleton.2
      (.object (List.forall_mem_singleton.2 (.integer (by decide) (by decide))) (by decide)))
  have hfinite : v.IsFinite := by
    refine ⟨fun x hx => ?_, fun entries hentries => FieldValue.noConfusion hentries⟩
    rw [← FieldValue.float.inj hx]
    exact Binary64.ofInt_div_finite (n := 1000) (by decide) (by decide) (by decide)
  have hcomputed : (Config.standard.catalogue.toOption.map fun c =>
      let s := start c [[("ratio", .integer 1500)]]
      (((Report.itemsJson scene [0] ["ratio"]).run s.inventory).1.toOption,
        (((Inventory.read scene 0 "ratio").run s.inventory).1.map (·.2)).toOption,
        (c.resolve "ratio").toOption.map fun f => f.map (·.source))) =
      some (some report, some v, some (some .stored)) := by decide +kernel
  cases hc : Config.standard.catalogue with
  | error e =>
    rw [hc] at hcomputed
    cases hcomputed
  | ok c =>
    rw [hc] at hcomputed
    obtain ⟨hreport, hrest⟩ := Prod.mk.inj (Option.some.inj hcomputed)
    obtain ⟨hvalue, hsource⟩ := Prod.mk.inj hrest
    obtain ⟨found, hf, hfound⟩ := Option.map_eq_some_iff.1 hsource
    obtain ⟨f, rfl, hstored⟩ := Option.map_eq_some_iff.1 hfound
    have hjson := congrArg Answer.report (eq_ok_of_toOption hreport)
    have hv := congrArg Answer.value (eq_ok_of_toOption hvalue)
    obtain ⟨exported, hexported, hlength, hback⟩ := exported_items_read_back.2 .standard c text _
      scene [] [0] ["ratio"] report hc hitems hjson
    exact ⟨c, _, exported, rfl, hitems, hjson, hexported, hlength, hv,
      hback 0 0 "ratio" f v rfl List.mem_cons_self (eq_ok_of_toOption hf) (.stored hstored)
        hfinite hv scene []⟩

/-- A rate is told by other values, so it is lost when it alone is exported. -/
theorem exported_items_lost :
    let scene : Scene := ⟨⟨.fixed 0, 0⟩, fun _ => false, fun _ => none⟩
    let text := "[\n  \x7b\n    \"down\": 2,\n    \"up\": 1\n  \x7d\n]"
    let report := "[\n  \x7b\n    \"xfer\": 3\n  \x7d\n]"
    ∃ c items exported, Config.standard.catalogue = .ok c ∧ Item.read text = .ok items ∧
      ((start c (items.map (·.raw))).step scene (.json [0] ["xfer"])).1 = .report (.ok report) ∧
      Item.read report = .ok exported ∧
      ((start c (items.map (·.raw))).step scene (.value 0 "xfer")).1 = .value (.ok (.int 3)) ∧
      ((start c (exported.map (·.raw))).step scene (.value 0 "xfer")).1 =
        .value (.ok (.int 0)) := by
  intro scene text report
  have hitems : Item.read text = .ok [.ofSnapshot [("down", .integer 2), ("up", .integer 1)]] := by
    refine Item.read_pretty (by decide +kernel) (List.forall_mem_singleton.2 ?_)
    refine .object (List.forall_mem_cons.2 ⟨?_, List.forall_mem_singleton.2 ?_⟩) (by decide)
    · exact .integer (by decide) (by decide)
    · exact .integer (by decide) (by decide)
  have hexported : Item.read report = .ok [.ofSnapshot [("xfer", .integer 3)]] :=
    Item.read_pretty (by decide +kernel) (List.forall_mem_singleton.2
      (.object (List.forall_mem_singleton.2 (.integer (by decide) (by decide))) (by decide)))
  have hcomputed : (Config.standard.catalogue.toOption.map fun c =>
      let s := start c [[("down", .integer 2), ("up", .integer 1)]]
      let s' := start c [[("xfer", .integer 3)]]
      (((Report.itemsJson scene [0] ["xfer"]).run s.inventory).1.toOption,
        (((Inventory.read scene 0 "xfer").run s.inventory).1.map (·.2)).toOption,
        (((Inventory.read scene 0 "xfer").run s'.inventory).1.map (·.2)).toOption)) =
      some (some report, some (.int 3), some (.int 0)) := by decide +kernel
  cases hc : Config.standard.catalogue with
  | error e =>
    rw [hc] at hcomputed
    cases hcomputed
  | ok c =>
    rw [hc] at hcomputed
    obtain ⟨hreport, hrest⟩ := Prod.mk.inj (Option.some.inj hcomputed)
    obtain ⟨hvalue, hlost⟩ := Prod.mk.inj hrest
    exact ⟨c, _, _, rfl, hitems, congrArg Answer.report (eq_ok_of_toOption hreport), hexported,
      congrArg Answer.value (eq_ok_of_toOption hvalue),
      congrArg Answer.value (eq_ok_of_toOption hlost)⟩

end Session
end DownloadQuery
