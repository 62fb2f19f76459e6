import DownloadQuery.Config
import DownloadQuery.Proofs.Condition.InlineOperators
import DownloadQuery.Proofs.Filter.Leaves
import Mathlib

/-!
# Ordering unset times and unknown spans

A test on times fails an unset value, unless it compares with zero, and a test on spans fails an
unknown value, unless it asks for less than zero. The operators for less and greater are such tests,
but those for at most and at least are negations of the opposite test. So an item without a time
matches these two whatever the time is that they compare with (`isMatch_unset`).
-/

namespace DownloadQuery

/-- Whether the number of a value is zero, as that of an unknown one is. -/
def FieldValue.IsUnset (v : FieldValue) (field : String) : Prop :=
  ∃ x, v.toNumber field = .ok x ∧ x.eq 0 = true

theorem FieldValue.isUnset_null (field : String) : FieldValue.null.IsUnset field :=
  ⟨0, rfl, by decide +kernel⟩

namespace Test

/-- The time that a literal says. -/
def Point.time : Point → Binary64
  | .seconds x => x
  | .ago timestamp => timestamp
  | .date timestamp => timestamp

/-- The span that a literal says. -/
def Point.span (clock : Clock) : Point → Binary64
  | .seconds x => x
  | .ago timestamp => timestampOfMillis clock.now - timestamp
  | .date timestamp => timestamp - timestampOfMillis clock.now

/-- How times are compared with a literal: spans before now are counted backwards. -/
def Point.sense : Point → Comparison → Comparison
  | .seconds _, c => c
  | .ago _, c => c.inverted
  | .date _, c => c

theorem timeOf_eq (c : Comparison) (skipsUnset : Bool) (p : Point) :
    timeOf c skipsUnset p = .time (p.sense c) p.time skipsUnset := by
  cases p <;> rfl

theorem durationOf_eq (clock : Clock) (c : Comparison) (p : Point) :
    durationOf clock c p = .duration c (p.span clock) := by
  cases p <;> rfl

/-- An unset time fails, whichever way it is compared. -/
theorem passes_timeOf_unset {v : FieldValue} {field : String} (hv : v.IsUnset field) {p : Point}
    (hp : p.time.eq 0 = false) (c : Comparison) :
    (timeOf c true p).passes field v = .ok false := by
  obtain ⟨x, hx, hzero⟩ := hv
  rw [timeOf_eq, passes, hx]
  simp [Except.map, hp, hzero]

/-- An unknown span passes just if less than zero is asked for. -/
theorem passes_durationOf_null (clock : Clock) (c : Comparison) (p : Point) (field : String) :
    (durationOf clock c p).passes field .null =
      .ok ((p.span clock).eq 0 && c == .less) := by
  have hbelow : c.holds (-1) 0 = (c == .less) := by cases c <;> decide +kernel
  rw [durationOf_eq, passes]
  simp [FieldValue.isNull, hbelow]

end Test

namespace Condition

variable {σ : Type} {settings : Settings} {condition : String} {name values : List Char}
  {op : Operator} {clock : Clock} {field : Field} {family : Family}

/-- Where the literal does not decide the family, a leaf tests what the family makes of it. -/
theorem test_of_read {literal : String} {l : Leaf}
    (h : Leaf.read clock family field literal = .ok l) (hfamily : family ≠ .magic) :
    Test.ofLiteral clock family literal = .ok l.test := by
  have hdetected : (family == .magic) = false := by simpa using hfamily
  rw [Leaf.read, hdetected] at h
  simp only [Bool.false_eq_true, if_false] at h
  cases ht : Test.ofLiteral clock family literal with
  | error fault =>
    rw [ht] at h
    cases h
  | ok test =>
    rw [ht] at h
    cases h
    rfl

/-- The filter of a value with or without an exclamation mark. -/
theorem isMatch_value {l : Leaf} {scene : Scene} {r : Reading} {v : FieldValue} {b : Bool}
    (hv : (l.field.value scene r).1 = .ok v) (hb : l.test.passes l.field.name v = .ok b)
    (negated : Bool) :
    ((Filter.all [if negated then .not (.leaf l) else .leaf l]).isMatch scene r).1 =
      .ok (negated != b) := by
  have hleaf : ((Filter.leaf l).isMatch scene r).1 = .ok b := by
    rw [Filter.isMatch, Leaf.isMatch_value hv, hb]
    rfl
  rw [Filter.isMatch_all, Filter.allMatch_singleton]
  cases negated with
  | false => simpa using hleaf
  | true => simpa using Filter.isMatch_not_ok scene hleaf

/-- An ordering comparison of one value tests its literal, and is negated as the operator says. -/
theorem ordering_ok (lookup : Lookup σ)
    (ht : Operator.readInline? condition.toList = some (name, op, values)) (hop : op.IsOrdering)
    (hv : ',' ∉ values) {f : Filter} {s s' : σ}
    (hf : (readTokens lookup.find settings [condition]).run s = (.ok f, s'))
    (hfield : (lookup (String.ofList name) s).1 = .ok (some field))
    (hfamily : field.family? = some family) (hmagic : family ≠ .magic) :
    ∃ test, Test.ofLiteral settings.clock family (String.ofList (op.sign ++ values)) = .ok test ∧
      ∀ scene r v b, (field.value scene r).1 = .ok v → test.passes field.name v = .ok b →
        (f.isMatch scene r).1 = .ok (op.negates != b) := by
  have hkeyword := Operator.ne_keyword ht
  obtain ⟨_, _, _, _, _, hsplit, -⟩ := (readTokens_singleton_ok lookup hkeyword).1 hf
  obtain ⟨-, -, hparts⟩ := (split_comparison_ok ht).1 hsplit
  cases hparts
  rw [Operator.apply_eq hop.2] at hsplit
  obtain ⟨_, _, l, ha, hfamily', hl, rfl, -⟩ := (readTokens_value_ok lookup hkeyword hsplit
    (Operator.isSingle_mark hop.2 hv) (Operator.splitNegation_mark hop.2 values)).1 hf
  cases hfield.symm.trans ha
  cases hfamily.symm.trans hfamily'
  obtain ⟨rfl, -⟩ := leaf_read_ok hl
  refine ⟨l.test, test_of_read hl hmagic, ?_⟩
  intro scene r v b hvalue hb
  exact isMatch_value hvalue hb op.negates

/-- Which ordering comparisons match an item that lacks the time or the span they compare. An unset
time matches those for at most and at least and no others, if the time it is compared with is not
zero. An unknown span also matches less than zero, and does not match at least zero. -/
theorem isMatch_unset (lookup : Lookup σ)
    (ht : Operator.readInline? condition.toList = some (name, op, values)) (hop : op.IsOrdering)
    (hv : ',' ∉ values) {f : Filter} {s s' : σ}
    (hf : (readTokens lookup.find settings [condition]).run s = (.ok f, s'))
    (hfield : (lookup (String.ofList name) s).1 = .ok (some field)) :
    (field.family? = some .timeNotNull →
      ∃ p, Test.readPoint settings.clock values = .ok p ∧
        (p.time.eq 0 = false → ∀ scene r v, (field.value scene r).1 = .ok v →
          v.IsUnset field.name → (f.isMatch scene r).1 = .ok op.negates)) ∧
    (field.family? = some .duration →
      ∃ p, Test.readPoint settings.clock values = .ok p ∧
        ∀ scene r, (field.value scene r).1 = .ok .null → (f.isMatch scene r).1 =
          .ok (op.negates != ((p.span settings.clock).eq 0 && op.comparison == .less))) := by
  constructor
  · intro hfamily
    obtain ⟨test, htest, hmatch⟩ := ordering_ok lookup ht hop hv hf hfield hfamily (by decide)
    rw [Test.ofLiteral, String.toList_ofList, Operator.splitSign_sign hop] at htest
    obtain ⟨p, hp, rfl⟩ := exists_of_map_ok htest
    refine ⟨p, hp, ?_⟩
    intro hzero scene r v hvalue hunset
    have hfails := Test.passes_timeOf_unset hunset hzero op.comparison
    simpa using hmatch scene r v false hvalue hfails
  · intro hfamily
    obtain ⟨test, htest, hmatch⟩ := ordering_ok lookup ht hop hv hf hfield hfamily (by decide)
    rw [Test.ofLiteral, String.toList_ofList, Operator.splitSign_sign hop] at htest
    obtain ⟨p, hp, rfl⟩ := exists_of_map_ok htest
    refine ⟨p, hp, ?_⟩
    intro scene r hvalue
    have hpasses := Test.passes_durationOf_null settings.clock op.comparison p field.name
    exact hmatch scene r .null _ hvalue hpasses

/-- An item without a time of completion matches a comparison for at most a time. -/
theorem isMatch_unset_completed :
    let completed := Field.timestamp "completed" "time download was finished"
    let lookup : Lookup Unit := fun _ => pure (.ok (some completed))
    let scene : Scene := ⟨⟨.fixed 0, 0⟩, fun _ => false, fun _ => none⟩
    ∃ f, (readTokens lookup.find ⟨scene.clock, none⟩ ["completed<=1000"]).run () = (.ok f, ()) ∧
      (f.isMatch scene ⟨.ofSnapshot [], []⟩).1 = .ok true := by
  intro completed lookup scene
  have hparts : Operator.readInline? "completed<=1000".toList =
      some ("completed".toList, .lessOrEqual, "1000".toList) := by decide
  have hread : ((readTokens lookup.find ⟨scene.clock, none⟩ ["completed<=1000"]).run ()).1.isOk =
      true := by decide +kernel
  have hpoint : ((Test.readPoint scene.clock "1000".toList).toOption.map
      fun p => p.time.eq 0) = some false := by decide +kernel
  rcases hf : (readTokens lookup.find ⟨scene.clock, none⟩ ["completed<=1000"]).run ()
    with ⟨e | f, u⟩
  · rw [hf] at hread
    cases hread
  · obtain ⟨htime, -⟩ := isMatch_unset lookup hparts (by decide) (by decide) hf rfl
    obtain ⟨p, hp, hmatch⟩ := htime rfl
    rw [hp] at hpoint
    have hzero : p.time.eq 0 = false := by simpa [Except.toOption] using hpoint
    have hvalue : (completed.value scene ⟨.ofSnapshot [], []⟩).1 = .ok .null := by cbv
    exact ⟨f, rfl, hmatch hzero scene _ .null hvalue (FieldValue.isUnset_null _)⟩

/-- An item that was never completed and has no age is among those that were completed before a time
and are at least a day old. -/
theorem unset_at_most_at_least :
    let scene : Scene := ⟨⟨.fixed 0, 0⟩, fun _ => false, fun _ => none⟩
    ∃ c f d, Config.standard.catalogue = .ok c ∧
      (readTokens findIn ⟨scene.clock, none⟩ ["completed<=1000", "age>=1d"]).run c = (.ok f, d) ∧
      (f.isMatch scene ⟨.ofSnapshot [("completed", .integer 0)], []⟩).1 = .ok true := by
  intro scene
  have hmatch : (Config.standard.catalogue.toOption.bind fun c =>
      ((readTokens findIn ⟨scene.clock, none⟩
        ["completed<=1000", "age>=1d"]).run c).1.toOption.bind fun f =>
          (f.isMatch scene ⟨.ofSnapshot [("completed", .integer 0)], []⟩).1.toOption) =
      some true := by decide +kernel
  obtain ⟨c, hc, hmatch⟩ := Option.bind_eq_some_iff.1 hmatch
  obtain ⟨f, hf, hmatch⟩ := Option.bind_eq_some_iff.1 hmatch
  have hok {ε α : Type} {x : Except ε α} {a : α} (h : x.toOption = some a) : x = .ok a := by
    cases x with
    | error e => cases h
    | ok b =>
      cases h
      rfl
  exact ⟨c, f, _, hok hc, Prod.ext (hok hf) rfl, hok hmatch⟩

end Condition
end DownloadQuery
