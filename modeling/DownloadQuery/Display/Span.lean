import DownloadQuery.Number.Binary64

/-!
# Spans for people

A span of seconds as weeks, days, hours, minutes and seconds, such as `2d 3h`. Units before the first
that counts are left out, and so is what goes beyond a number of parts.
-/

namespace DownloadQuery
namespace Display

/-- The counts of all units, largest first; each but the first is below what makes one of the unit
before it. -/
def spanParts (seconds : Nat) : List (Char × Nat) :=
  [('w', seconds / 604800), ('d', seconds / 86400 % 7), ('h', seconds / 3600 % 24),
    ('m', seconds / 60 % 60), ('s', seconds % 60)]

/-- Leaves parts without a count out at the front, but never the last part. -/
def dropIdle : List (Char × Nat) → List (Char × Nat)
  | [] => []
  | [part] => [part]
  | part :: rest => if part.2 = 0 then dropIdle rest else part :: rest

/-- The parts that are shown; a precision of zero shows all. -/
def shownParts (precision seconds : Nat) : List (Char × Nat) :=
  let parts := dropIdle (spanParts seconds)
  if precision = 0 then parts else parts.take precision

def partText (part : Char × Nat) : String := toString part.2 ++ part.1.toString

/-- The text of a span of seconds. -/
def span (seconds : Binary64) (precision : Nat) : String :=
  let sign := if seconds.lt 0 then "-" else ""
  sign ++ " ".intercalate ((shownParts precision seconds.abs.toNat64).map partText)

end Display
end DownloadQuery
