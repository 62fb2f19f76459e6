/-!
# Whole numbers in decimal

Reading a bounded whole number from text. The text is read from the left and the first fault met
decides the error: a character that is no digit, or a digit that leaves the range.
-/

namespace DownloadQuery

/-- Why a text is no whole number of the wanted range. -/
inductive WholeError where
  | empty
  | invalidDigit
  | tooLarge
  | tooSmall
  deriving DecidableEq, Repr

namespace WholeError

def message : WholeError → String
  | .empty => "cannot parse integer from empty string"
  | .invalidDigit => "invalid digit found in string"
  | .tooLarge => "number too large to fit in target type"
  | .tooSmall => "number too small to fit in target type"

end WholeError

namespace Whole

/-- The value of an ASCII digit. -/
def digit? (c : Char) : Option Nat :=
  if '0' ≤ c ∧ c ≤ '9' then some (c.toNat - '0'.toNat) else none

def isDigit (c : Char) : Bool := (digit? c).isSome

/-- Reads digits onto `value`, which must stay at most `bound`. -/
def readDigits (bound : Nat) (fault : WholeError) : Nat → List Char → Except WholeError Nat
  | value, [] => .ok value
  | value, c :: rest =>
    match digit? c with
    | none => .error .invalidDigit
    | some d =>
      let next := 10 * value + d
      if next ≤ bound then readDigits bound fault next rest else .error fault

/-- A natural number at most `bound`; one leading plus sign is allowed. -/
def readNat (bound : Nat) (text : List Char) : Except WholeError Nat :=
  match text with
  | [] => .error .empty
  | ['+'] => .error .invalidDigit
  | '+' :: rest => readDigits bound .tooLarge 0 rest
  | _ => readDigits bound .tooLarge 0 text

/-- An integer from `-2^63` to `2^63 - 1`; one leading sign is allowed. -/
def readInt64 (text : List Char) : Except WholeError Int :=
  match text with
  | [] => .error .empty
  | ['-'] => .error .invalidDigit
  | '-' :: rest => (readDigits (Nat.pow 2 63) .tooSmall 0 rest).map fun n => -(n : Int)
  | _ => (readNat (Nat.pow 2 63 - 1) text).map Int.ofNat

end Whole
end DownloadQuery
