/-!
# Binary64 numbers

A finite binary64 number is a whole multiple of the least positive one, 2⁻¹⁰⁷⁴. Holding that
multiple makes every number exact: an operation computes its exact result as a quotient of
naturals and rounds once, to the nearest number, and to the even one of two equally near.
-/

namespace DownloadQuery

/-- A binary64 number; `finite negative units` is `±units · 2⁻¹⁰⁷⁴`. -/
inductive Binary64 where
  | nan
  | infinite (negative : Bool)
  | finite (negative : Bool) (units : Nat)
  deriving DecidableEq, Repr, Inhabited

namespace Binary64

/-- How many units make one. -/
def one : Nat := Nat.pow 2 1074

/-- The least number of units that is out of range. -/
def limit : Nat := Nat.pow 2 2098

/-- The quotient rounded to the nearest natural, a tie to the even one. -/
def roundDiv (num den : Nat) : Nat :=
  let q := num / den
  let r := num % den
  if 2 * r < den then q
  else if den < 2 * r then q + 1
  else q + q % 2

/-- The spacing, as a power of two, of the numbers around `n` units: 53 binary digits are kept. -/
def spacing (n : Nat) : Nat := n.log2 + 1 - 53

/-- The representable count of units nearest to `num / den`. -/
def nearest (num den : Nat) : Nat :=
  let k := spacing (num / den)
  roundDiv num (den * Nat.pow 2 k) * Nat.pow 2 k

/-- The number nearest to `±num / den` units. -/
def ofUnits (negative : Bool) (num den : Nat) : Binary64 :=
  let n := nearest num den
  if n < limit then .finite negative n else .infinite negative

/-- The number nearest to `±num / den`. -/
def ofRatio (negative : Bool) (num den : Nat) : Binary64 :=
  ofUnits negative (num * one) den

/-- The number nearest to an integer. -/
def ofInt (i : Int) : Binary64 :=
  ofRatio (i < 0) i.natAbs 1

instance : OfNat Binary64 n := ⟨ofInt n⟩

/-- The number nearest to `±digits · 10^exponent`. An exponent far outside the range is settled
by the count of digits alone. -/
def ofDecimal (negative : Bool) (digits : Nat) (exponent : Int) : Binary64 :=
  if digits = 0 then .finite negative 0
  else
    let magnitude := (Nat.toDigits 10 digits).length + exponent
    if magnitude > 310 then .infinite negative
    else if magnitude < -330 then .finite negative 0
    else if 0 ≤ exponent then ofRatio negative (digits * Nat.pow 10 exponent.toNat) 1
    else ofRatio negative digits (Nat.pow 10 (-exponent).toNat)

/-- A finite number as a signed count of units. -/
def signed (negative : Bool) (units : Nat) : Int :=
  if negative then -(units : Int) else units

/-- The place of a number on the line, infinities standing at the limits; none for NaN. -/
def place : Binary64 → Option Int
  | .nan => none
  | .infinite negative => some (signed negative limit)
  | .finite negative units => some (signed negative units)

/-- Strictly less; false when either side is NaN. -/
def lt (a b : Binary64) : Bool :=
  match a.place, b.place with
  | some x, some y => decide (x < y)
  | _, _ => false

/-- Numeric equality: NaN differs from itself and both zeros agree. -/
def eq (a b : Binary64) : Bool :=
  match a.place, b.place with
  | some x, some y => decide (x = y)
  | _, _ => false

def isNegative : Binary64 → Bool
  | .nan => false
  | .infinite negative => negative
  | .finite negative _ => negative

def neg : Binary64 → Binary64
  | .nan => .nan
  | .infinite negative => .infinite !negative
  | .finite negative units => .finite (!negative) units

def abs : Binary64 → Binary64
  | .nan => .nan
  | .infinite _ => .infinite false
  | .finite _ units => .finite false units

/-- The exact sum, rounded. A zero sum is negative only when both sides are. -/
def add : Binary64 → Binary64 → Binary64
  | .nan, _ => .nan
  | _, .nan => .nan
  | .infinite s, .infinite t => if s = t then .infinite s else .nan
  | .infinite s, .finite _ _ => .infinite s
  | .finite _ _, .infinite t => .infinite t
  | .finite s m, .finite t n =>
    let sum := signed s m + signed t n
    if sum = 0 then .finite (s && t) 0
    else ofUnits (sum < 0) sum.natAbs 1

def sub (a b : Binary64) : Binary64 := a.add b.neg

/-- The exact product, rounded. -/
def mul : Binary64 → Binary64 → Binary64
  | .nan, _ => .nan
  | _, .nan => .nan
  | .infinite s, .infinite t => .infinite (s != t)
  | .infinite s, .finite t n => if n = 0 then .nan else .infinite (s != t)
  | .finite s m, .infinite t => if m = 0 then .nan else .infinite (s != t)
  | .finite s m, .finite t n => ofUnits (s != t) (m * n) one

/-- The exact quotient, rounded. -/
def div : Binary64 → Binary64 → Binary64
  | .nan, _ => .nan
  | _, .nan => .nan
  | .infinite _, .infinite _ => .nan
  | .infinite s, .finite t _ => .infinite (s != t)
  | .finite s _, .infinite t => .finite (s != t) 0
  | .finite s m, .finite t n =>
    if n = 0 then
      if m = 0 then .nan else .infinite (s != t)
    else ofUnits (s != t) (m * one) n

instance : Add Binary64 := ⟨add⟩
instance : Sub Binary64 := ⟨sub⟩
instance : Mul Binary64 := ⟨mul⟩
instance : Div Binary64 := ⟨div⟩
instance : Neg Binary64 := ⟨neg⟩

/-- Whether the number has no fractional part. -/
def isWhole : Binary64 → Bool
  | .finite _ units => units % one == 0
  | _ => false

/-- The integer part, toward zero, held within `lo` and `hi`; zero for NaN. -/
def clampInt (lo hi : Int) : Binary64 → Int
  | .nan => 0
  | .infinite negative => if negative then lo else hi
  | .finite negative units => max lo (min hi (signed negative (units / one)))

/-- The integer part as a signed 64-bit word. -/
def toInt64 (x : Binary64) : Int := x.clampInt (-Int.pow 2 63) (Int.pow 2 63 - 1)

/-- The integer part as an unsigned 64-bit word. -/
def toNat64 (x : Binary64) : Nat := (x.clampInt 0 (Int.pow 2 64 - 1)).toNat

/-- The integer part as an unsigned 32-bit word. -/
def toNat32 (x : Binary64) : Nat := (x.clampInt 0 (Int.pow 2 32 - 1)).toNat

end Binary64
end DownloadQuery
