import DownloadQuery.Condition.Error
import DownloadQuery.Filter.Comparison
import DownloadQuery.Filter.Detection
import DownloadQuery.Reading

/-!
# Leaves of filters

A leaf compares one field with a literal. The literal is read once, when the leaf is made; what it
asks for is a test on the values of the field.
-/

namespace DownloadQuery

/-- What a literal asks of a set of tags. -/
inductive TagTest where
  | member (tag : String)
  | exactly (tags : TagSet)
  deriving DecidableEq, Repr

/-- What a literal asks of a value. -/
inductive Test where
  | text (p : TextPattern)
  /-- That some file fits a pattern. -/
  | files (p : TextPattern)
  | tags (t : TagTest)
  | truth (expected : Bool)
  | number (c : Comparison) (bound : Binary64)
  | byteSize (c : Comparison) (bound : Binary64)
  /-- With `skipsUnset` an unset time passes only if it is compared with zero. -/
  | time (c : Comparison) (bound : Binary64) (skipsUnset : Bool)
  | duration (c : Comparison) (bound : Binary64)
  deriving DecidableEq, Repr

namespace TagTest

/-- An equals sign asks for exactly the words that follow, an empty literal for no tags, and any
other literal for one tag. -/
def ofLiteral (literal : String) : TagTest :=
  match Text.lowerChars literal.toList with
  | '=' :: tags => .exactly (.ofList ((Text.wordsOfChars tags).map String.ofList))
  | [] => .exactly .empty
  | tag => .member (String.ofList tag)

def passes (t : TagTest) (tags : TagSet) : Bool :=
  match t with
  | .member tag => tags.contains tag
  | .exactly wanted => wanted == tags

end TagTest

namespace Test

/-- A number in decimal. -/
def readNumber (text : List Char) : Except LiteralFault Binary64 :=
  match Decimal.read text with
  | .ok x => .ok x
  | .error e => .error (.noNumber (String.ofList text) e)

/-- The scale of the unit at the end of a literal. -/
def unitScale? (text : List Char) : Option Nat :=
  text.getLast?.bind fun c =>
    (Family.byteUnits.lookup c.toLower).map (Nat.pow 1024 ·)

/-- A number of bytes, with or without a unit. -/
def readSize (text : List Char) : Except LiteralFault Binary64 :=
  match unitScale? text with
  | some scale => (readNumber text.dropLast).map (· * Binary64.ofInt scale)
  | none => readNumber text

/-- What the literal of a time or a span says. -/
inductive Point where
  /-- A bare number of seconds. -/
  | seconds (x : Binary64)
  /-- The time a span before now. -/
  | ago (timestamp : Binary64)
  | date (timestamp : Binary64)
  deriving DecidableEq, Repr

/-- Reads digits alone, a span before now, or a date. -/
def readPoint (clock : Clock) (text : List Char) : Except LiteralFault Point :=
  if text != [] && text.all Whole.isDigit then (readNumber text).map .seconds
  else
    match Delta.read? text with
    | some delta =>
      match delta.before clock.zone clock.now (String.ofList text) with
      | .ok timestamp => .ok (.ago timestamp)
      | .error e => .error (.noSpan (String.ofList text) e)
    | none =>
      match DateLiteral.read clock.zone (String.ofList text) with
      | .ok timestamp => .ok (.date timestamp)
      | .error e => .error (.noDate (String.ofList text) e)

/-- A comparison of times. More of a span before now is an earlier time. -/
def timeOf (c : Comparison) (skipsUnset : Bool) : Point → Test
  | .seconds x => .time c x skipsUnset
  | .ago timestamp => .time c.inverted timestamp skipsUnset
  | .date timestamp => .time c timestamp skipsUnset

/-- A comparison of spans: a span before now as such, a date by its distance from now. -/
def durationOf (clock : Clock) (c : Comparison) : Point → Test
  | .seconds x => .duration c x
  | .ago timestamp => .duration c (timestampOfMillis clock.now - timestamp)
  | .date timestamp => .duration c (timestamp - timestampOfMillis clock.now)

def readPattern (literal : String) : Except LiteralFault TextPattern :=
  match TextPattern.read literal with
  | .ok p => .ok p
  | .error e => .error (.pattern e)

/-- What a literal asks of the values of a family; where the literal decides the family, it has been
decided before. -/
def ofLiteral (clock : Clock) (family : Family) (literal : String) : Except LiteralFault Test :=
  let (c, rest) := Comparison.splitSign literal.toList
  match family with
  | .pattern | .magic => (readPattern literal).map .text
  | .files => (readPattern literal).map .files
  | .tagged => .ok (.tags (.ofLiteral literal))
  | .bool =>
    match Truth.ofWord? literal with
    | some expected => .ok (.truth expected)
    | none => .error .noTruth
  | .float => (readNumber rest).map (.number c)
  | .byteSize => (readSize rest).map (.byteSize c)
  | .time => (readPoint clock rest).map (timeOf c false)
  | .timeNotNull => (readPoint clock rest).map (timeOf c true)
  | .duration => (readPoint clock rest).map (durationOf clock c)

/-- Compares the number of a value with a bound. -/
def compare (field : String) (c : Comparison) (bound : Binary64) (v : FieldValue) :
    Except FieldError Bool :=
  (v.toNumber field).map fun x => c.holds x bound

/-- Whether the value of a field passes. -/
def passes (t : Test) (field : String) (v : FieldValue) : Except FieldError Bool :=
  match t with
  | .text p => .ok (p.isMatch v.toText)
  | .files p =>
    match v with
    | .null => .ok false
    | .files entries => .ok (entries.any fun entry => p.isMatch entry.path)
    | .list parts => .ok (parts.any p.isMatch)
    | v => .ok (p.isMatch v.toText)
  | .tags t => .ok (t.passes v.toTags)
  | .truth expected => .ok (v.isTruthy == expected)
  | .number c bound => compare field c bound v
  | .byteSize c bound => compare field c bound v
  | .time c bound skipsUnset =>
    (v.toNumber field).map fun x =>
      if skipsUnset && !bound.eq 0 && x.eq 0 then false else c.holds x bound
  | .duration c bound =>
    if v.isNull then .ok (bound.eq 0 && c.holds (-1) 0) else compare field c bound v

end Test

/-- A comparison of a field with a literal. -/
structure Leaf where
  field : Field
  literal : String
  test : Test
  /-- Whether the literal decided the family. -/
  detected : Bool
  deriving DecidableEq, Repr

namespace Leaf

/-- The leaf of a field, a family and a literal. -/
def read (clock : Clock) (family : Family) (field : Field) (literal : String) :
    Except ConditionError Leaf :=
  let detected := family == .magic
  let family := if detected then Family.ofLiteral literal else family
  match Test.ofLiteral clock family literal with
  | .ok test => .ok ⟨field, literal, test, detected⟩
  | .error fault => .error (.badValue field.name literal fault)

/-- Whether an item passes. -/
def isMatch (l : Leaf) (scene : Scene) (r : Reading) : Except (Halt FieldError) Bool × Reading :=
  match l.field.value scene r with
  | (.ok v, r) => (liftM (l.test.passes l.field.name v), r)
  | (.error halt, r) => (.error halt, r)

end Leaf
end DownloadQuery
