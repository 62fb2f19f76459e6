/-!
# Runs of case mappings

A case mapping of single code points is a list of runs: within one run every code point, or every
second one, moves by the same distance.
-/

namespace DownloadQuery
namespace Text

/-- The code points `first, first + step, …, last`, each mapped to itself plus `shift`. -/
structure CaseRun where
  first : Nat
  last : Nat
  step : Nat
  shift : Int
  deriving DecidableEq, Repr

namespace CaseRun

def covers (r : CaseRun) (code : Nat) : Bool :=
  r.first ≤ code && code ≤ r.last && (code - r.first) % r.step == 0

/-- The image of a code point; one in no run is its own image. -/
def image (runs : List CaseRun) (code : Nat) : Nat :=
  match runs.find? (·.covers code) with
  | some r => ((code : Int) + r.shift).toNat
  | none => code

/-- Every code point of a run whose image is `code`. -/
def preimages (runs : List CaseRun) (code : Nat) : List Nat :=
  runs.filterMap fun r =>
    let source := ((code : Int) - r.shift).toNat
    if r.covers source && ((source : Int) + r.shift).toNat == code then some source else none

end CaseRun
end Text
end DownloadQuery
