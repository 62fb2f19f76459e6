import DownloadQuery.Text.Classes
import DownloadQuery.Text.WideRanges

/-!
# Display width

How many columns of a terminal a text takes. Marks and ignorable characters take none, wide ones
two, all others one. A variation selector asks for the wide form of the symbol before it, and a
joiner merges the symbol after it into the one before.
-/

namespace DownloadQuery
namespace Text

/-- Characters that a display may leave out. -/
def ignorable : List (Nat × Nat) :=
  [(0xAD, 0xAD), (0x34F, 0x34F), (0x61C, 0x61C), (0x115F, 0x1160), (0x17B4, 0x17B5),
   (0x180B, 0x180F), (0x200B, 0x200F), (0x202A, 0x202E), (0x2060, 0x206F), (0x3164, 0x3164),
   (0xFE00, 0xFE0F), (0xFEFF, 0xFEFF), (0xFFA0, 0xFFA0), (0xFFF0, 0xFFF8), (0x1BCA0, 0x1BCA3),
   (0x1D173, 0x1D17A), (0xE0000, 0xE0FFF)]

/-- Vowels and final consonants that join a Hangul syllable. -/
def syllableParts : List (Nat × Nat) := [(0x1160, 0x11FF), (0xD7B0, 0xD7C6), (0xD7CB, 0xD7FB)]

/-- The columns of one character on its own. -/
def columns (c : Char) : Nat :=
  let code := c.toNat
  if code < 0x80 then 1
  else if code = 0x115F then 2
  else if inRanges ignorable code || inRanges syllableParts code || isExtender c then 0
  else if inRanges wideRanges code then 2
  else 1

/-- Symbols with a wide form. -/
def isPictograph (c : Char) : Bool :=
  let code := c.toNat
  (0x1F000 ≤ code && code ≤ 0x1FAFF) || (0x2190 ≤ code && code ≤ 0x2BFF)

/-- Skin tones. -/
def isTone (c : Char) : Bool := 0x1F3FB ≤ c.toNat && c.toNat ≤ 0x1F3FF

/-- The columns of a text that follows `before`, the two characters last seen. -/
def columnsFrom : (last beforeLast : Option Char) → List Char → Nat
  | _, _, [] => 0
  | last, beforeLast, c :: rest =>
    let here :=
      match last, beforeLast with
      | some '\u200d', some _ => if isPictograph c then 0 else columns c
      | some p, _ =>
        if c = '\ufe0f' && isPictograph p then 2 - columns p
        else if isTone c && isPictograph p then 0
        else columns c
      | none, _ => columns c
    here + columnsFrom (some c) last rest

/-- The columns of a text. -/
def width (s : String) : Nat := columnsFrom none none s.toList

end Text
end DownloadQuery
