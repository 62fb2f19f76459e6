import DownloadQuery.Pattern.Glob
import DownloadQuery.Proofs.Text.Lowering
import Mathlib

/-!
# Texts as bytes

A text is known by its bytes (`bytes_injective`). The characters beyond ASCII have no ASCII bytes
among theirs (`le_of_mem_bytesOfChar`), so the letter case of single bytes is that of ASCII letters:
in a text without ASCII capitals a byte whose case does not count is asked for exactly
(`CodeSet.names_asciiFolded`).
-/

namespace DownloadQuery

/-- Whether a code is that of an ASCII capital. -/
def IsCapital (code : Nat) : Prop := 65 ≤ code ∧ code ≤ 90

instance (code : Nat) : Decidable (IsCapital code) := inferInstanceAs (Decidable (_ ∧ _))

namespace CodeSet

/-- A set names a code if it holds no other codes, but for capitals. -/
def Names (s : CodeSet) (code : Nat) : Prop :=
  ∀ c, ¬ IsCapital c → (s.contains c = true ↔ code = c)

/-- A set of one code that is no capital names it, whatever case of letters it allows. -/
theorem names_asciiFolded {s : CodeSet} {code : Nat} (hcode : ¬ IsCapital code)
    (hs : ∀ c, s.contains c = true ↔ code = c) : (asciiFolded s).Names code := by
  intro c hc
  have hswap : code = swapAscii c → code = c := by
    unfold IsCapital at hcode hc
    unfold swapAscii
    split_ifs <;> omega
  rw [contains, Bool.or_eq_true, hs, hs]
  exact ⟨fun h => h.elim id hswap, .inl⟩

/-- Sets that name codes one by one hold these codes alone, if there are no capitals. -/
theorem forall₂_contains_iff {sets : List CodeSet} {codes : List Nat}
    (h : List.Forall₂ Names sets codes) {text : List Nat} (htext : ∀ c ∈ text, ¬ IsCapital c) :
    List.Forall₂ (fun s c => s.contains c = true) sets text ↔ text = codes := by
  induction h generalizing text with
  | nil => exact List.forall₂_nil_left_iff
  | @cons s code sets codes hs _ ih =>
    cases text with
    | nil => simp
    | cons c text =>
      obtain ⟨hc, hrest⟩ := List.forall_mem_cons.1 htext
      rw [List.forall₂_cons, hs c hc, ih hrest, List.cons.injEq, eq_comm]

end CodeSet

namespace Glob

/-- Different texts have different bytes. -/
theorem bytes_injective : Function.Injective bytes := by
  intro text other h
  have hbytes : text.flatMap String.utf8EncodeChar = other.flatMap String.utf8EncodeChar := by
    apply List.map_injective_iff.2 fun _ _ => UInt8.toNat_inj.1
    rw [List.map_flatMap, List.map_flatMap]
    exact h
  have hencoded : (String.ofList text).toByteArray = (String.ofList other).toByteArray := by
    rw [String.toByteArray_ofList, String.toByteArray_ofList, List.utf8Encode, List.utf8Encode,
      hbytes]
  exact String.ofList_injective (String.toByteArray_inj.1 hencoded)

theorem bytesOfChar_ascii {c : Char} (h : c.toNat < 0x80) : bytesOfChar c = [c.toNat] := by
  have hsmall : c.val.toNat ≤ 127 := Nat.le_of_lt_succ h
  simp only [bytesOfChar, String.utf8EncodeChar, hsmall, if_true, List.map_cons, List.map_nil]
  exact congrArg (fun n => [n]) (Nat.mod_eq_of_lt (h.trans (by decide)))

/-- The bytes of a character beyond ASCII are beyond ASCII. -/
theorem le_of_mem_bytesOfChar {c : Char} (h : ¬ c.toNat < 0x80) :
    ∀ b ∈ bytesOfChar c, 0x80 ≤ b := by
  have hlarge : ¬ c.val.toNat ≤ 127 := fun hle => h (Nat.lt_succ_of_le hle)
  simp only [bytesOfChar, String.utf8EncodeChar, hlarge, if_false]
  split_ifs <;> simp <;> omega

theorem not_isCapital_of_mem_bytesOfChar {c : Char} (hc : c.isUpper = false) :
    ∀ b ∈ bytesOfChar c, ¬ IsCapital b := by
  by_cases hascii : c.toNat < 0x80
  · have hcode : ¬ IsCapital c.toNat :=
      Text.forall_ascii (p := fun c => c.isUpper = false → ¬ IsCapital c.toNat) (by decide)
        hascii hc
    rw [bytesOfChar_ascii hascii]
    exact List.forall_mem_singleton.2 hcode
  · intro b hb hcapital
    have hlarge := le_of_mem_bytesOfChar hascii b hb
    unfold IsCapital at hcapital
    omega

/-- A text without ASCII capitals has none among its bytes. -/
theorem not_isCapital_of_mem_bytes {text : List Char} (h : ∀ c ∈ text, c.isUpper = false) :
    ∀ b ∈ bytes text, ¬ IsCapital b := by
  intro b hb
  obtain ⟨c, hc, hb⟩ := List.mem_flatMap.1 hb
  exact not_isCapital_of_mem_bytesOfChar (h c hc) b hb

end Glob
end DownloadQuery
