import DownloadQuery.Number.Shortest

/-!
# Number texts

How numbers are written. Plain text is positional; the text in JSON is positional near one and
scientific elsewhere; text with fixed places rounds the exact value, a tie to the even digit.
-/

namespace DownloadQuery
namespace Binary64

/-- The decisions of a format that writes the shortest digits. -/
structure Layout where
  /-- The least and the greatest point of a positional text; without them every text is positional. -/
  positional : Option (Int × Int)
  /-- Whether a whole number ends in `.0`. -/
  keepsPoint : Bool

/-- Plain text never has an exponent and writes whole numbers without a point. -/
def Layout.plain : Layout := ⟨none, false⟩

/-- JSON text is positional for points from -4 to 16 and always shows that it is no integer. -/
def Layout.json : Layout := ⟨some (-4, 16), true⟩

def zeros (n : Int) : List Char := List.replicate n.toNat '0'

/-- Positional text of digits with a point. -/
def positional (keepsPoint : Bool) (d : Shortest.Digits) : List Char :=
  if d.point ≤ 0 then "0.".toList ++ zeros (-d.point) ++ d.digits
  else if d.digits.length ≤ d.point then
    d.digits ++ zeros (d.point - d.digits.length) ++ (if keepsPoint then ".0".toList else [])
  else d.digits.take d.point.toNat ++ '.' :: d.digits.drop d.point.toNat

/-- Scientific text: one digit before the point and a signed exponent. -/
def scientific (d : Shortest.Digits) : List Char :=
  let exponent := d.point - 1
  let sign := if exponent < 0 then "e-" else "e+"
  let mantissa :=
    match d.digits with
    | [] => ['0']
    | [c] => [c]
    | c :: rest => c :: '.' :: rest
  mantissa ++ sign.toList ++ Nat.toDigits 10 exponent.natAbs

def write (layout : Layout) : Binary64 → String
  | .nan => "NaN"
  | .infinite negative => if negative then "-inf" else "inf"
  | .finite negative units =>
    let d := Shortest.ofUnits units
    let text :=
      match layout.positional with
      | none => positional layout.keepsPoint d
      | some (least, greatest) =>
        if units = 0 ∨ (least ≤ d.point ∧ d.point ≤ greatest) then positional layout.keepsPoint d
        else scientific d
    String.ofList (if negative then '-' :: text else text)

/-- Plain text. -/
def text (x : Binary64) : String := x.write .plain

/-- Text in JSON, for finite numbers. -/
def jsonText (x : Binary64) : String := x.write .json

/-- Text with one decimal place. -/
def oneDecimal : Binary64 → String
  | .nan => "NaN"
  | .infinite negative => if negative then "-inf" else "inf"
  | .finite negative units =>
    let tenths := roundDiv (units * 10) one
    let text := toString (tenths / 10) ++ "." ++ toString (tenths % 10)
    if negative then "-" ++ text else text

end Binary64
end DownloadQuery
