import DownloadQuery.Proofs.Calendar.Shift
import DownloadQuery.Proofs.Condition.TimeLiterals
import DownloadQuery.Proofs.Condition.UnsetValues

/-!
# Conditions on times

More of a span before now is an earlier time, so that the signs and the inline operators of spans
have the opposite sense of those of numbers and dates (`Condition.senses_of_time`). What is older
than a span is older than every shorter one, and what is younger is younger than every longer one
(`Condition.longer_spans`).
-/

namespace DownloadQuery

theorem Test.Point.sense_inverted (p : Test.Point) (c : Comparison) :
    p.sense c.inverted = (p.sense c).inverted := by
  cases p <;> rfl

namespace Condition

variable {σ : Type} {lookup : Lookup σ} {settings : Settings} {s : σ} {name : String}
  {field : Field}

/-! ## Single conditions -/

/-- Whether a field is compared as a time. -/
def IsTime (field : Field) : Prop :=
  field.family? = some .time ∨ field.family? = some .timeNotNull

/-- Whether tests of a field skip unset times. -/
def skipsUnset (field : Field) : Bool := field.family? == some .timeNotNull

/-- A literal of a time is accepted if its point is, and tests for this. -/
theorem leaf_read_point (htime : IsTime field) {literal rest : List Char} {c : Comparison}
    (hsign : Comparison.splitSign literal = (c, rest)) {p : Test.Point}
    (hp : Test.readPoint settings.clock rest = .ok p) :
    ∃ family, field.family? = some family ∧
      Leaf.read settings.clock family field (String.ofList literal) =
        .ok ⟨field, String.ofList literal, .time (p.sense c) p.time (skipsUnset field), false⟩ := by
  rcases htime with hfamily | hfamily
  all_goals
    refine ⟨_, hfamily, ?_⟩
    simp [Leaf.read, Test.ofLiteral, hsign, hp, Test.timeOf_eq, Except.map, skipsUnset, hfamily]

/-- Whether a condition is accepted, and its filter matches an item with a set time just if this
time passes. -/
def DecidesSet (lookup : Lookup σ) (settings : Settings) (s : σ) (field : Field)
    (condition : String) (verdict : Binary64 → Bool) : Prop :=
  ∃ f, Reads lookup settings s condition f ∧
    ∀ scene r v t, (field.value scene r).1 = .ok v → v.toNumber field.name = .ok t → t ≠ .nan →
      t.eq 0 = false → (f.isMatch scene r).1 = .ok (verdict t)

theorem read_time (hfield : (lookup name s).1 = .ok (some field)) (htime : IsTime field)
    {condition : String} (hkeyword : ∀ keyword ∈ ["NOT", "OR", "[", "]"], condition ≠ keyword)
    {value literal rest : List Char} {negated : Bool} {c : Comparison}
    (hsplit : split settings condition = .ok (name, value)) (hvalue : Values.IsSingle value)
    (hnegation : Values.splitNegation value = (negated, literal))
    (hsign : Comparison.splitSign literal = (c, rest)) {p : Test.Point}
    (hp : Test.readPoint settings.clock rest = .ok p) :
    ∃ l, Reads lookup settings s condition
        (.all [if negated then .not (.leaf l) else .leaf l]) ∧
      l.field = field ∧ l.test = .time (p.sense c) p.time (skipsUnset field) := by
  obtain ⟨family, hfamily, hl⟩ := leaf_read_point htime hsign hp
  exact ⟨_, ⟨_, (readTokens_value_ok lookup hkeyword hsplit hvalue hnegation).2
    ⟨field, family, _, hfield, hfamily, hl, rfl, rfl⟩⟩, rfl, rfl⟩

variable {p : Test.Point}

theorem decidesSet_symbol (hname : IsIdentifier name)
    (hfield : (lookup name s).1 = .ok (some field)) (htime : IsTime field) {literal : String}
    (hvalue : Values.IsBare literal.toList)
    (hp : Test.readPoint settings.clock literal.toList = .ok p) {symbol : String} {negated : Bool}
    {c : Comparison} (hsymbol : (symbol, negated, c) ∈ symbols) :
    DecidesSet lookup settings s field (name ++ symbol ++ literal)
      fun t => negated != (p.sense c).holds t p.time := by
  obtain ⟨family, hfamily, hl⟩ := leaf_read_point htime (hvalue.splitSign_sign c) hp
  refine ⟨_, reads_symbol hname hfield hfamily hvalue hsymbol hl, ?_⟩
  intro scene r v t hv ht _ hset
  have hpasses : (Test.time (p.sense c) p.time (skipsUnset field)).passes field.name v =
      .ok ((p.sense c).holds t p.time) := by
    rw [Test.passes, ht]
    simp [Except.map, hset]
  exact isMatch_value hv hpasses negated

theorem DecidesSet.congr {condition : String} {verdict verdict' : Binary64 → Bool}
    (h : DecidesSet lookup settings s field condition verdict)
    (hverdict : ∀ t, t ≠ .nan → verdict t = verdict' t) :
    DecidesSet lookup settings s field condition verdict' := by
  obtain ⟨f, hread, hmatch⟩ := h
  refine ⟨f, hread, fun scene r v t hv ht hnan hset => ?_⟩
  rw [← hverdict t hnan]
  exact hmatch scene r v t hv ht hnan hset

/-- What the conditions on a time with one literal mean for set times: which times are more and
which are less than the literal says. -/
structure Senses (lookup : Lookup σ) (settings : Settings) (s : σ) (field : Field)
    (name literal : String) (time : Binary64) (more less : Binary64 → Bool) : Prop where
  plus : DecidesSet lookup settings s field (name ++ "=+" ++ literal) more
  greater : DecidesSet lookup settings s field (name ++ ">" ++ literal) more
  minus : DecidesSet lookup settings s field (name ++ "=-" ++ literal) less
  lesser : DecidesSet lookup settings s field (name ++ "<" ++ literal) less
  equal : DecidesSet lookup settings s field (name ++ "=" ++ literal) fun t => t.eq time
  atLeast : DecidesSet lookup settings s field (name ++ ">=" ++ literal)
    fun t => more t || t.eq time
  atMost : DecidesSet lookup settings s field (name ++ "<=" ++ literal)
    fun t => less t || t.eq time
  different : DecidesSet lookup settings s field (name ++ "!=" ++ literal) fun t => !t.eq time
  partition : ∀ t : Binary64, t ≠ .nan → [more t, less t, t.eq time].count true = 1

theorem senses (hname : IsIdentifier name) (hfield : (lookup name s).1 = .ok (some field))
    (htime : IsTime field) {literal : String} (hvalue : Values.IsBare literal.toList)
    (hp : Test.readPoint settings.clock literal.toList = .ok p) (hnan : p.time ≠ .nan) :
    Senses lookup settings s field name literal p.time
      (fun t => (p.sense .greater).holds t p.time) (fun t => (p.sense .less).holds t p.time) := by
  have hsymbol (symbol : String) (negated : Bool) (c : Comparison)
      (h : (symbol, negated, c) ∈ symbols) := decidesSet_symbol hname hfield htime hvalue hp h
  have hless : p.sense .less = (p.sense .greater).inverted := p.sense_inverted .greater
  have hgreater : p.sense .greater = (p.sense .less).inverted := p.sense_inverted .less
  have hequal : p.sense .equal = .equal := by cases p <;> rfl
  have hordered : p.sense .less ≠ .equal ∧ p.sense .greater ≠ .equal := by
    cases p <;> simp [Test.Point.sense, Comparison.inverted]
  refine ⟨?_, ?_, ?_, ?_, ?_, ?_, ?_, ?_, ?_⟩
  · exact (hsymbol "=+" false .greater (by simp [symbols])).congr fun t _ => Bool.false_bne _
  · exact (hsymbol ">" false .greater (by simp [symbols])).congr fun t _ => Bool.false_bne _
  · exact (hsymbol "=-" false .less (by simp [symbols])).congr fun t _ => Bool.false_bne _
  · exact (hsymbol "<" false .less (by simp [symbols])).congr fun t _ => Bool.false_bne _
  · refine (hsymbol "=" false .equal (by simp [symbols])).congr fun t _ => ?_
    rw [hequal]
    exact Bool.false_bne _
  · refine (hsymbol ">=" true .less (by simp [symbols])).congr fun t ht => ?_
    rw [hgreater, ← Comparison.not_holds hordered.1 ht hnan]
    exact Bool.true_bne _
  · refine (hsymbol "<=" true .greater (by simp [symbols])).congr fun t ht => ?_
    rw [hless, ← Comparison.not_holds hordered.2 ht hnan]
    exact Bool.true_bne _
  · refine (hsymbol "!=" true .equal (by simp [symbols])).congr fun t _ => ?_
    rw [hequal]
    exact Bool.true_bne _
  · intro t ht
    have hcount := Binary64.count_orders ht hnan
    cases p with
    | ago timestamp => exact hcount
    | _ => exact ((List.Perm.swap _ _ _).count_eq true).trans hcount

/-- The sense of conditions on times, for every literal and every set time: times before the time of
a span pass `+` and `>`, those before a number of seconds or a date pass `-` and `<`. -/
theorem senses_of_time (lookup : Lookup σ) (settings : Settings) (s : σ) (name : String)
    (hname : IsIdentifier name) (field : Field) (hfield : (lookup name s).1 = .ok (some field))
    (htime : IsTime field) (literal : String) (time : Binary64) :
    (∀ d, literal ≠ "" → Delta.read? literal.toList = some d →
      d.before settings.clock.zone settings.clock.now literal = .ok time →
        Senses lookup settings s field name literal time (fun t => t.lt time)
          (fun t => time.lt t)) ∧
    (literal ≠ "" ∧ literal.toList.all Whole.isDigit = true ∧
          Decimal.read literal.toList = .ok time ∨
        '\n' ∉ literal.toList ∧ literal.toList.head? ≠ some '+' ∧
          literal.toList.head? ≠ some '-' ∧
          DateLiteral.read settings.clock.zone literal = .ok time →
      Senses lookup settings s field name literal time (fun t => time.lt t)
        (fun t => t.lt time)) := by
  have hempty (hne : literal ≠ "") : literal.toList ≠ [] := by simpa using hne
  constructor
  · intro d hne hread hbefore
    have hdigits := (Delta.read?_eq_some_iff.1 hread).1
    have hp : Test.readPoint settings.clock literal.toList = .ok (.ago time) :=
      Test.readPoint_span hread (by rwa [String.ofList_toList])
    exact senses hname hfield htime (Values.isBare_span (hempty hne) hread) hp
      (Delta.before_ne_nan hdigits hbefore)
  · rintro (⟨hne, hdigits, hnumber⟩ | ⟨hline, hplus, hminus, hdate⟩)
    · have hp : Test.readPoint settings.clock literal.toList = .ok (.seconds time) :=
        Test.readPoint_digits (hempty hne) hdigits hnumber
      exact senses hname hfield htime (Values.isBare_digits (hempty hne) hdigits) hp
        (Decimal.read_ne_nan hdigits hnumber)
    · have hp : Test.readPoint settings.clock literal.toList = .ok (.date time) :=
        Test.readPoint_date (by rwa [String.ofList_toList])
      exact senses hname hfield htime (Values.isBare_date hdate hline ⟨hplus, hminus⟩) hp
        (DateLiteral.read_ne_nan hdate)

/-- Two weeks, the number and the date that say the same time two weeks before noon of
15 March 2024: only the span has the inverted sense. -/
theorem senses_of_completed :
    let completed := Field.timestamp "completed" "time download was finished"
    let lookup : Lookup Unit := fun _ => pure (.ok (some completed))
    let settings : Settings := ⟨⟨.fixed 0, 1710504000000⟩, none⟩
    let time := Binary64.ofInt 1709294400
    Senses lookup settings () completed "completed" "2W" time (fun t => t.lt time)
        (fun t => time.lt t) ∧
      Senses lookup settings () completed "completed" "1709294400" time (fun t => time.lt t)
        (fun t => t.lt time) ∧
      Senses lookup settings () completed "completed" "01.03.2024 12:00" time (fun t => time.lt t)
        (fun t => t.lt time) := by
  intro completed lookup settings time
  have hsense (literal : String) := senses_of_time lookup settings () "completed" (by decide)
    completed rfl (.inr rfl) literal time
  refine ⟨(hsense "2W").1 ⟨none, none, some ['2'], none, none, none, none⟩ (by decide) (by decide)
    (by decide +kernel), (hsense "1709294400").2 (.inl ⟨by decide, by decide, by decide +kernel⟩),
    (hsense "01.03.2024 12:00").2 (.inr ⟨by decide, by decide, by decide, by decide +kernel⟩)⟩

/-! ## Longer spans -/

theorem passes_time_iff {c : Comparison} {bound : Binary64} {skips : Bool} {field : String}
    {v : FieldValue} : (Test.time c bound skips).passes field v = .ok true ↔
      ∃ x, v.toNumber field = .ok x ∧ c.holds x bound = true ∧
        ¬ (skips = true ∧ bound.eq 0 = false ∧ x.eq 0 = true) := by
  rw [Test.passes]
  cases v.toNumber field with
  | error e => simp [Except.map]
  | ok x =>
    cases skips <;> cases bound.eq 0 <;> cases x.eq 0 <;> simp [Except.map, and_comm]

/-- An unset time is neither before nor after a time that it is compared with. -/
theorem set_of_passes_time {c : Comparison} (hc : c ≠ .equal) {bound : Binary64} {skips : Bool}
    {field : String} {v : FieldValue} (h : (Test.time c bound skips).passes field v = .ok true) :
    ∃ x, v.toNumber field = .ok x ∧ c.holds x bound = true ∧
      ¬ (skips = true ∧ x.eq 0 = true) := by
  obtain ⟨x, hx, hholds, hset⟩ := passes_time_iff.1 h
  refine ⟨x, hx, hholds, fun ⟨hskips, hzero⟩ => hset ⟨hskips, ?_, hzero⟩⟩
  rw [← Bool.not_eq_true]
  intro hbound
  cases c with
  | equal => exact hc rfl
  | less =>
    rw [Comparison.holds, Binary64.lt_eq_false hzero hbound] at hholds
    cases hholds
  | greater =>
    rw [Comparison.holds, Binary64.lt_eq_false hbound hzero] at hholds
    cases hholds

theorem passes_less_of_le {bound bound' : Binary64} (hle : bound.le bound' = true) {skips : Bool}
    {field : String} {v : FieldValue}
    (h : (Test.time .less bound skips).passes field v = .ok true) :
    (Test.time .less bound' skips).passes field v = .ok true := by
  obtain ⟨x, hx, hlt, hset⟩ := set_of_passes_time (c := .less) nofun h
  exact passes_time_iff.2 ⟨x, hx, Binary64.lt_of_lt_of_le hlt hle, fun hall =>
    hset ⟨hall.1, hall.2.2⟩⟩

theorem passes_greater_of_le {bound bound' : Binary64} (hle : bound.le bound' = true) {skips : Bool}
    {field : String} {v : FieldValue}
    (h : (Test.time .greater bound' skips).passes field v = .ok true) :
    (Test.time .greater bound skips).passes field v = .ok true := by
  obtain ⟨x, hx, hlt, hset⟩ := set_of_passes_time (c := .greater) nofun h
  exact passes_time_iff.2 ⟨x, hx, Binary64.lt_of_le_of_lt hle hlt, fun hall =>
    hset ⟨hall.1, hall.2.2⟩⟩

/-- Whether a filter matches each item that another matches. -/
def Implies (f g : Filter) : Prop :=
  ∀ scene r, (f.isMatch scene r).1 = .ok true → (g.isMatch scene r).1 = .ok true

theorem implies_leaf {l l' : Leaf} (hfield : l.field = l'.field)
    (htest : ∀ name v, l.test.passes name v = .ok true → l'.test.passes name v = .ok true) :
    Implies (.all [.leaf l]) (.all [.leaf l']) := by
  intro scene r h
  rw [Filter.isMatch_all, Filter.allMatch_singleton, Filter.isMatch, Leaf.isMatch_eq] at h ⊢
  obtain ⟨v, hv, hpasses⟩ := exists_of_bind_ok h
  rw [← hfield, hv]
  exact liftM_eq_ok_iff.2 (htest _ v (liftM_eq_ok_iff.1 hpasses))

/-- A condition with a sign and a span is accepted as a test for the time of the span. -/
theorem reads_span (hname : ∀ values, split settings (name ++ "=" ++ values) =
      .ok (name, values.toList)) (hfield : (lookup name s).1 = .ok (some field))
    (htime : IsTime field) {span : String} {d : Delta} {time : Binary64}
    (hread : Delta.read? span.toList = some d)
    (hbefore : d.before settings.clock.zone settings.clock.now span = .ok time) (mark : String)
    (c : Comparison) (hmark : mark.toList = '=' :: c.sign) (hc : c ≠ .equal) :
    ∃ l, Reads lookup settings s (name ++ mark ++ span) (.all [.leaf l]) ∧
      l.field = field ∧ l.test = .time c.inverted time (skipsUnset field) := by
  have hcondition : name ++ mark ++ span =
      name ++ "=" ++ String.ofList (c.sign ++ span.toList) := by
    apply String.toList_injective
    simp [hmark]
  have hsplit := hname (String.ofList (c.sign ++ span.toList))
  rw [String.toList_ofList] at hsplit
  have hcomma : ',' ∉ span.toList := Values.not_mem_span hread (by simp)
  have hmarks : Values.IsSingle (c.sign ++ span.toList) ∧
      Values.splitNegation (c.sign ++ span.toList) = (false, c.sign ++ span.toList) ∧
      Comparison.splitSign (c.sign ++ span.toList) = (c, span.toList) := by
    cases c with
    | equal => exact absurd rfl hc
    | _ => exact ⟨.inr ⟨List.cons_ne_nil _ _, by simp [Comparison.sign, hcomma]⟩, rfl, rfl⟩
  have hp : Test.readPoint settings.clock span.toList = .ok (.ago time) :=
    Test.readPoint_span hread (by rwa [String.ofList_toList])
  rw [hcondition]
  exact read_time hfield htime (ne_keyword_of_equals (by simp)) hsplit hmarks.1 hmarks.2.1
    hmarks.2.2 hp

/-- A span with at least as many of each unit reaches at least as far back, from a whole second in a
zone of fixed offset. So what is older than the longer span is older than the shorter one, and what
is younger than the shorter span is younger than the longer one, whether unset times are skipped or
not. -/
theorem longer_spans (lookup : Lookup σ) (settings : Settings) (s : σ) {offset : Int}
    (hzone : settings.clock.zone = .fixed offset) (hwhole : settings.clock.now % 1000 = 0)
    {longer shorter : String} {d₁ d₂ : Delta} {time₁ time₂ : Binary64}
    (hread₁ : Delta.read? longer.toList = some d₁) (hread₂ : Delta.read? shorter.toList = some d₂)
    (h₁ : d₁.before settings.clock.zone settings.clock.now longer = .ok time₁)
    (h₂ : d₂.before settings.clock.zone settings.clock.now shorter = .ok time₂)
    (hle : ∀ unit, d₂.amount unit ≤ d₁.amount unit) (hbound : d₁.secondTotal < 2 ^ 52) :
    time₁.le time₂ = true ∧ ∀ name field,
      (∀ values, split settings (name ++ "=" ++ values) = .ok (name, values.toList)) →
      (lookup name s).1 = .ok (some field) → IsTime field →
        (∃ f₁ f₂, Reads lookup settings s (name ++ "=+" ++ longer) f₁ ∧
          Reads lookup settings s (name ++ "=+" ++ shorter) f₂ ∧ Implies f₁ f₂) ∧
        (∃ f₁ f₂, Reads lookup settings s (name ++ "=-" ++ longer) f₁ ∧
          Reads lookup settings s (name ++ "=-" ++ shorter) f₂ ∧ Implies f₂ f₁) := by
  have hdigits₁ := (Delta.read?_eq_some_iff.1 hread₁).1
  have hdigits₂ := (Delta.read?_eq_some_iff.1 hread₂).1
  have hearlier : time₁.le time₂ = true := by
    rw [hzone] at h₁ h₂
    exact Delta.before_antitone hdigits₁ hdigits₂ hwhole h₁ h₂ hle hbound
  refine ⟨hearlier, fun name field hname hfield htime => ⟨?_, ?_⟩⟩
  · obtain ⟨l₁, hl₁, rfl, htest₁⟩ := reads_span hname hfield htime hread₁ h₁ "=+" .greater rfl
      nofun
    obtain ⟨l₂, hl₂, hfield₂, htest₂⟩ := reads_span hname hfield htime hread₂ h₂ "=+" .greater
      rfl nofun
    refine ⟨_, _, hl₁, hl₂, implies_leaf hfield₂.symm fun _ _ => ?_⟩
    rw [htest₁, htest₂]
    exact passes_less_of_le hearlier
  · obtain ⟨l₁, hl₁, rfl, htest₁⟩ := reads_span hname hfield htime hread₁ h₁ "=-" .less rfl
      nofun
    obtain ⟨l₂, hl₂, hfield₂, htest₂⟩ := reads_span hname hfield htime hread₂ h₂ "=-" .less rfl
      nofun
    refine ⟨_, _, hl₁, hl₂, implies_leaf hfield₂ fun _ _ => ?_⟩
    rw [htest₁, htest₂]
    exact passes_greater_of_le hearlier

/-- A month and two weeks before noon of 31 March 2024 is before two weeks, although the month leads
to 29 February only. -/
theorem longer_spans_completed :
    let completed := Field.timestamp "completed" "time download was finished"
    let lookup : Lookup Unit := fun _ => pure (.ok (some completed))
    let settings : Settings := ⟨⟨.fixed 0, 1711886400000⟩, none⟩
    (Binary64.ofInt 1707998400).le (Binary64.ofInt 1710676800) = true ∧
      ∃ f₁ f₂, Reads lookup settings () "completed=+1m2w" f₁ ∧
        Reads lookup settings () "completed=+2w" f₂ ∧ Implies f₁ f₂ := by
  intro completed lookup settings
  let d₁ : Delta := ⟨none, some ['1'], some ['2'], none, none, none, none⟩
  let d₂ : Delta := ⟨none, none, some ['2'], none, none, none, none⟩
  have hzone : settings.clock.zone = .fixed 0 := rfl
  have hread₁ : Delta.read? "1m2w".toList = some d₁ := by decide
  have hread₂ : Delta.read? "2w".toList = some d₂ := by decide
  have h₁ : d₁.before settings.clock.zone settings.clock.now "1m2w" = .ok (.ofInt 1707998400) := by
    decide +kernel
  have h₂ : d₂.before settings.clock.zone settings.clock.now "2w" = .ok (.ofInt 1710676800) := by
    decide +kernel
  have hle : ∀ unit, d₂.amount unit ≤ d₁.amount unit := by
    intro unit
    cases unit <;> decide
  obtain ⟨hearlier, hconditions⟩ := longer_spans lookup settings () hzone (by decide) hread₁ hread₂
    h₁ h₂ hle (by decide)
  obtain ⟨hplus, -⟩ := hconditions "completed" completed
    (split_named (by decide) settings) rfl (.inr rfl)
  exact ⟨hearlier, hplus⟩

end Condition
end DownloadQuery
