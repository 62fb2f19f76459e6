import DownloadQuery.Json.Printer
import DownloadQuery.Json.Reader
import Mathlib.Tactic.Conv
import Mathlib.Tactic.SplitIfs

/-!
# The texts of strings in JSON

A written character is read as its code (`Reader.readCodes_escapeChar`), and codes of characters are
no halves of pairs. So a quoted text is read as the text (`Reader.readString_quoted`).
-/

namespace DownloadQuery
namespace Json
namespace Reader

/-- Two hexadecimal digits after zeros are a code below 32. -/
theorem nat?_hexByte {n : Nat} (h : n < 0x20) :
    Radix.nat? 16 ['0', '0', Nat.digitChar (n / 16), Nat.digitChar (n % 16)] = some n := by
  have hall : ∀ n < 0x20,
      Radix.nat? 16 ['0', '0', Nat.digitChar (n / 16), Nat.digitChar (n % 16)] = some n := by
    decide
  exact hall n h

/-- A character that stands for itself. -/
theorem readCodes_plain {c : Char} (hquote : c ≠ '\x22') (hslash : c ≠ '\\')
    (hcontrol : ¬ c.toNat < 0x20) (codes : List Nat) (rest : List Char) :
    readCodes '\x22' codes (c :: rest) = readCodes '\x22' (c.toNat :: codes) rest := by
  have hline : c ≠ '\n' := by
    rintro rfl
    exact hcontrol (by decide)
  have hreturn : c ≠ '\r' := by
    rintro rfl
    exact hcontrol (by decide)
  conv_lhs => unfold readCodes
  split <;> simp_all

/-- What is written of a character is read as its code. -/
theorem readCodes_escapeChar (c : Char) (codes : List Nat) (rest : List Char) :
    readCodes '\x22' codes (escapeChar c ++ rest) = readCodes '\x22' (c.toNat :: codes) rest := by
  rw [escapeChar]
  split_ifs with hquote hslash hline hreturn htab hback hfeed hcontrol
  · rw [hquote]
    rfl
  · rw [hslash]
    rfl
  · rw [hline]
    rfl
  · rw [hreturn]
    rfl
  · rw [htab]
    rfl
  · rw [hback]
    rfl
  · rw [hfeed]
    rfl
  · simp [hexByte, readCodes, nat?_hexByte hcontrol]
  · exact readCodes_plain hquote hslash hcontrol codes rest

theorem readCodes_escaped (chars : List Char) (codes : List Nat) (rest : List Char) :
    readCodes '\x22' codes (chars.flatMap escapeChar ++ '\x22' :: rest) =
      some (codes.reverse ++ chars.map Char.toNat, rest) := by
  induction chars generalizing codes with
  | nil => simp [readCodes]
  | cons c chars ih =>
    rw [List.flatMap_cons, List.append_assoc, readCodes_escapeChar, ih]
    simp

/-- The codes of characters are no halves of pairs. -/
theorem joinPairs_map_toNat (chars : List Char) :
    joinPairs (chars.map Char.toNat) = some chars := by
  induction chars with
  | nil => rfl
  | cons c chars ih =>
    have hvalid : c.toNat < 0xD800 ∨ 0xDFFF < c.toNat ∧ c.toNat < 0x110000 := c.valid
    rw [List.map_cons]
    unfold joinPairs
    rw [if_neg (by omega), if_neg (by omega), ih, Char.ofNat_toNat]
    rfl

theorem toList_quote (s : String) :
    (quote s).toList = '\x22' :: (s.toList.flatMap escapeChar ++ ['\x22']) := by
  rw [quote, String.toList_ofList]
  rfl

/-- A quoted text is read as the text. -/
theorem readString_quoted (s : String) (rest : List Char) :
    readString '\x22' (s.toList.flatMap escapeChar ++ '\x22' :: rest) = some (s, rest) := by
  simp [readString, readCodes_escaped, joinPairs_map_toNat]

end Reader
end Json
end DownloadQuery
