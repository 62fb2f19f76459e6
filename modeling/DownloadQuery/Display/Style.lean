import DownloadQuery.Display.Moment
import DownloadQuery.Display.Size
import DownloadQuery.Display.Span
import DownloadQuery.Field.Value

/-!
# Display styles

How the values of a field are shown. A value that a style cannot read as a number is shown like the
number that stands for it: -1 for sizes, zero elsewhere.
-/

namespace DownloadQuery

inductive Style where
  | humanSize
  | isoDatetime
  | humanDuration
  | yesNo
  | percent
  | traitPath
  deriving DecidableEq, Repr

namespace Style

def name : Style → String
  | .humanSize => "HumanSize"
  | .isoDatetime => "IsoDatetime"
  | .humanDuration => "HumanDuration"
  | .yesNo => "YesNo"
  | .percent => "Percent"
  | .traitPath => "TraitPath"

def all : List Style := [.humanSize, .isoDatetime, .humanDuration, .yesNo, .percent, .traitPath]

/-- The style of a name. -/
def ofName? (name : String) : Option Style := all.find? (·.name == name)

/-- The number of a value, or another if it has none. -/
def numberOr (missing : Binary64) (v : FieldValue) : Binary64 :=
  match v.toNumber "" with
  | .ok x => x
  | .error _ => missing

/-- The text that shows a value. -/
def apply (zone : Zone) (style : Style) (v : FieldValue) : String :=
  match style with
  | .humanSize => if v.isNull then "N/A" else Display.size (numberOr (-1) v)
  | .isoDatetime => if v.isNull then "never" else Display.moment zone (numberOr 0 v)
  | .humanDuration => if v.isNull then "never" else Display.span (numberOr 0 v) 2
  | .yesNo => if v.isTruthy then "yes" else "no"
  | .percent =>
    if v.isNull then "N/A" else Display.padLeft 5 (numberOr 0 v).oneDecimal ++ "%"
  | .traitPath => v.toText

end Style
end DownloadQuery
