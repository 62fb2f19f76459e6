import DownloadQuery.Number.Binary64

/-!
# Shortest digits

The fewest decimal digits that read back as the same binary64 number, and of those the nearest to
it. A decimal reads back as a number when it lies in the number's rounding interval, whose ends
belong to it when the binary digits kept are even. If any point of a decimal grid lies in the
interval, one of the two neighbours of the number on that grid does.
-/

namespace DownloadQuery
namespace Shortest

/-- Digits `d₁d₂…` and a point `p`: the value is `0.d₁d₂… · 10^p`. -/
structure Digits where
  digits : List Char
  point : Int
  deriving DecidableEq, Repr

/-- The rounding interval of a positive count of units, in quarters of a unit, and whether its ends
belong to it. Below a power of two the numbers are twice as dense. -/
structure Interval where
  low : Nat
  high : Nat
  closed : Bool

def interval (units : Nat) : Interval :=
  let k := Binary64.spacing units
  let kept := units / Nat.pow 2 k
  let below := if kept = Nat.pow 2 52 ∧ 0 < k then Nat.pow 2 k else 2 * Nat.pow 2 k
  ⟨4 * units - below, 4 * units + 2 * Nat.pow 2 k, kept % 2 == 0⟩

/-- Whether `n · 10^e` ones lies in the interval. -/
def Interval.contains (i : Interval) (n : Nat) (e : Int) : Bool :=
  let num := if 0 ≤ e then 4 * n * Nat.pow 10 e.toNat * Binary64.one else 4 * n * Binary64.one
  let den := if 0 ≤ e then 1 else Nat.pow 10 (-e).toNat
  if i.closed then i.low * den ≤ num ∧ num ≤ i.high * den
  else i.low * den < num ∧ num < i.high * den

/-- The number in units of `10^e`, as a quotient of naturals. -/
def scaled (units : Nat) (e : Int) : Nat × Nat :=
  if 0 ≤ e then (units, Binary64.one * Nat.pow 10 e.toNat)
  else (units * Nat.pow 10 (-e).toNat, Binary64.one)

/-- The better of the number's two neighbours on the grid of multiples of `10^e`, if one reads back;
of two equally near the even one. -/
def onGrid? (units : Nat) (e : Int) : Option Nat :=
  let i := interval units
  let (num, den) := scaled units e
  let q := num / den
  let lower := i.contains q e && 0 < q
  let upper := i.contains (q + 1) e
  if lower && upper then some (Binary64.roundDiv num den)
  else if lower then some q
  else if upper then some (q + 1)
  else none

/-- The least `p` in the window with the number below `10^p`. -/
def pointFrom (units : Nat) : Nat → Int → Int
  | 0, p => p
  | fuel + 1, p =>
    let (num, den) := scaled units p
    if num < den then p else pointFrom units fuel (p + 1)

/-- The decimal point of a positive number: it is below `10^p` and not below `10^(p-1)`. The search
starts from the count of binary digits. -/
def point (units : Nat) : Int :=
  let binary : Int := (units.log2 : Int) - 1074
  pointFrom units 4 (binary * 30103 / 100000 - 1)

/-- Tries grids of 1, 2, … digits; seventeen always suffice. -/
def search (units : Nat) (p : Int) : Nat → Nat → Nat × Int
  | 0, count =>
    let (num, den) := scaled units (p - count)
    (Binary64.roundDiv num den, p - count)
  | fuel + 1, count =>
    match onGrid? units (p - count) with
    | some n => (n, p - count)
    | none => search units p fuel (count + 1)

/-- Drops the zeros that end a run of digits. -/
def dropZeros (digits : List Char) : List Char :=
  (digits.reverse.dropWhile (· == '0')).reverse

/-- The shortest digits of a count of units. -/
def ofUnits (units : Nat) : Digits :=
  if units = 0 then ⟨['0'], 1⟩
  else
    let (n, e) := search units (point units) 16 1
    let digits := Nat.toDigits 10 n
    ⟨dropZeros digits, digits.length + e⟩

end Shortest
end DownloadQuery
