import DownloadQuery.Field.Builtin
import DownloadQuery.Proofs.Field.Tags
import DownloadQuery.Proofs.Filter.Leaves
import DownloadQuery.Proofs.Reading.RawValues

/-!
# Conditions on tags

A condition on tags looks at the set of the tags only. What a literal asks of that set
(`TagTest.Wants`) is what its test finds (`TagTest.passes_ofLiteral`), whatever the texts are that
an item gives its tags in (`Leaf.isMatch_tagged`).
-/

namespace DownloadQuery

namespace TagTest

/-- What a literal asks of the tags of some texts: behind an equals sign that they are the tags of
the rest, and with nothing in it that there are none; otherwise that the literal is one of them, in
lower case. -/
def Wants (literal : String) (texts : List String) : Prop :=
  match literal.toList with
  | '=' :: rest => ∀ tag, IsTagOf tag texts ↔ IsTagOf tag [String.ofList rest]
  | [] => ∀ tag, ¬ IsTagOf tag texts
  | _ => IsTagOf (Text.lower literal) texts

theorem ofLiteral_equals (rest : List Char) :
    ofLiteral (String.ofList ('=' :: rest)) =
      .exactly (.ofList ((Text.words (String.ofList rest)).map Text.lower)) := by
  have hwords : (Text.wordsOfChars (Text.lowerChars rest)).map String.ofList =
      (Text.words (String.ofList rest)).map Text.lower := by
    rw [Text.wordsOfChars_lowerChars, Text.words, List.map_map, List.map_map, String.toList_ofList]
    apply List.map_congr_left
    intro word _
    simp [Text.lower]
  rw [ofLiteral, String.toList_ofList, Text.lowerChars_mark (by decide), ← hwords]
  rfl

/-- A literal that starts with no equals sign does not so when it is lowered. -/
theorem ofLiteral_member {literal : String} (hne : literal.toList ≠ [])
    (hequals : literal.toList.head? ≠ some '=') :
    ofLiteral literal = .member (Text.lower literal) := by
  have hmark : (Text.lowerChars literal.toList).head? ≠ some '=' := fun h =>
    hequals (Text.head?_of_lowerFrom (by decide) h)
  have hlowered : Text.lowerChars literal.toList ≠ [] := Text.lowerChars_ne_nil hne
  unfold ofLiteral
  split
  · next h => simp [h] at hmark
  · next h => exact absurd h hlowered
  · rfl

/-- A literal finds what it asks for in the tags of the texts. -/
theorem passes_ofLiteral {tags : TagSet} {texts : List String}
    (htags : ∀ tag, tag ∈ tags.toList ↔ IsTagOf tag texts) (literal : String) :
    (ofLiteral literal).passes tags = true ↔ Wants literal texts := by
  unfold Wants
  split
  · next rest h =>
    obtain rfl : literal = String.ofList ('=' :: rest) := by rw [← h, String.ofList_toList]
    rw [ofLiteral_equals, passes, beq_iff_eq, eq_comm, TagSet.ext_iff]
    simp only [htags, TagSet.mem_ofList, mem_lowered_words, isTagOf_singleton]
  · next h =>
    obtain rfl : literal = "" := String.toList_eq_nil_iff.1 h
    have hempty : ofLiteral "" = .exactly .empty := by decide
    rw [hempty, passes, beq_iff_eq, eq_comm, TagSet.ext_iff]
    simp [htags, TagSet.empty]
  · next hequals hne =>
    have hhead : literal.toList.head? ≠ some '=' := by
      intro h
      obtain ⟨rest, hrest⟩ := List.head?_eq_some_iff.1 h
      exact hequals rest hrest
    rw [ofLiteral_member hne hhead, passes, TagSet.contains_iff, htags]

theorem wants_congr {texts texts' : List String} (h : ∀ tag, IsTagOf tag texts ↔ IsTagOf tag texts')
    (literal : String) : Wants literal texts ↔ Wants literal texts' := by
  unfold Wants
  split <;> simp only [h]

theorem wants_equals (text : String) (texts : List String) :
    Wants ("=" ++ text) texts ↔ ∀ tag, IsTagOf tag texts ↔ IsTagOf tag [text] := by
  simp [Wants]

/-- Exact literals with the same tags ask for the same. -/
theorem wants_equals_congr {text text' : String}
    (h : ∀ tag, IsTagOf tag [text] ↔ IsTagOf tag [text']) (texts : List String) :
    Wants ("=" ++ text) texts ↔ Wants ("=" ++ text') texts := by
  simp only [wants_equals, h]

end TagTest

namespace Leaf

/-- The leaf of a field of tags. -/
theorem read_tagged (clock : Clock) (field : Field) (literal : String) :
    read clock .tagged field literal =
      .ok ⟨field, literal, .tags (.ofLiteral literal), false⟩ := rfl

/-- A leaf of tags finds what its literal asks for in the texts that an item gives its tags in. -/
theorem isMatch_tagged {field : Field} (hkind : field.kind = .tags) (literal : String)
    {scene : Scene} {r : Reading} {raw : Json} {texts : List String} (htexts : raw.HasTexts texts)
    (hraw : field.HasRaw scene r raw) :
    ∃ b, (isMatch ⟨field, literal, .tags (.ofLiteral literal), false⟩ scene r).1 = .ok b ∧
      (b = true ↔ TagTest.Wants literal texts) := by
  obtain ⟨tags, hread, htags⟩ := ValueKind.exists_readTags? htexts
  have hvalue : (field.value scene r).1 = .ok (.tags tags) := by
    apply hraw.value_eq
    rw [hkind, ValueKind.convert, htexts.isNull, ValueKind.read?, hread]
    rfl
  refine ⟨(TagTest.ofLiteral literal).passes tags, ?_, TagTest.passes_ofLiteral htags literal⟩
  rw [isMatch_value hvalue]
  rfl

/-- A condition on tags is accepted for every literal and finds what the literal asks of the set of
tags. How an item writes its tags does not matter, nor how an exact literal does. -/
theorem tags_compare_as_sets (clock : Clock) {field : Field} (hkind : field.kind = .tags)
    (literal : String) :
    ∃ l, read clock .tagged field literal = .ok l ∧
      ∀ scene r raw texts, raw.HasTexts texts → field.HasRaw scene r raw →
        (∃ b, (l.isMatch scene r).1 = .ok b ∧ (b = true ↔ TagTest.Wants literal texts)) ∧
        (∀ scene' r' raw' texts', raw'.HasTexts texts' → field.HasRaw scene' r' raw' →
          (∀ tag, IsTagOf tag texts ↔ IsTagOf tag texts') →
            (l.isMatch scene' r').1 = (l.isMatch scene r).1) ∧
        ∀ exact exact', literal = "=" ++ exact →
          (∀ tag, IsTagOf tag [exact] ↔ IsTagOf tag [exact']) →
            ∃ l', read clock .tagged field ("=" ++ exact') = .ok l' ∧
              (l'.isMatch scene r).1 = (l.isMatch scene r).1 := by
  have hsame {b b' : Bool} {p p' : Prop} (hb : b = true ↔ p) (hb' : b' = true ↔ p')
      (h : p ↔ p') : b = b' := Bool.eq_iff_iff.2 (hb.trans (h.trans hb'.symm))
  refine ⟨_, read_tagged clock field literal, fun scene r raw texts htexts hraw => ?_⟩
  obtain ⟨b, hmatch, hb⟩ := isMatch_tagged hkind literal htexts hraw
  refine ⟨⟨b, hmatch, hb⟩, ?_, ?_⟩
  · intro scene' r' raw' texts' htexts' hraw' htags
    obtain ⟨b', hmatch', hb'⟩ := isMatch_tagged hkind literal htexts' hraw'
    rw [hmatch, hmatch', hsame hb hb' (TagTest.wants_congr htags literal)]
  · rintro exact exact' rfl htags
    obtain ⟨b', hmatch', hb'⟩ := isMatch_tagged hkind ("=" ++ exact') htexts hraw
    refine ⟨_, read_tagged clock field _, ?_⟩
    rw [hmatch, hmatch', hsame hb hb' (TagTest.wants_equals_congr htags texts)]

/-- An item tagged as drama and science fiction, with capitals and twice, has exactly these tags. -/
theorem tags_compare_as_sets_drama :
    let field := Field.tags .dynamic "tagged" "has certain tags?" .stored
    ∃ l, read ⟨.utc, 0⟩ .tagged field ("=" ++ "drama SCI-FI") = .ok l ∧ ∀ scene tally,
      (l.isMatch scene ⟨.ofSnapshot [("tagged", .string "Sci-Fi  Drama drama")], tally⟩).1 =
        .ok true := by
  intro field
  have hkind : field.kind = .tags := rfl
  obtain ⟨l, hread, hsets⟩ := tags_compare_as_sets ⟨.utc, 0⟩ hkind ("=" ++ "drama SCI-FI")
  refine ⟨l, hread, fun scene tally => ?_⟩
  have hraw : field.HasRaw scene ⟨.ofSnapshot [("tagged", .string "Sci-Fi  Drama drama")], tally⟩
      (.string "Sci-Fi  Drama drama") := ⟨rfl, nofun⟩
  obtain ⟨⟨b, hb, hwants⟩, -⟩ := hsets scene _ _ _ (.one _) hraw
  have hsame (tag : String) :
      IsTagOf tag ["Sci-Fi  Drama drama"] ↔ IsTagOf tag ["drama SCI-FI"] := by
    have hitem : (Text.words "Sci-Fi  Drama drama").map Text.lower =
        ["sci-fi", "drama", "drama"] := by decide
    have hliteral : (Text.words "drama SCI-FI").map Text.lower = ["drama", "sci-fi"] := by decide
    rw [isTagOf_singleton, isTagOf_singleton, ← mem_lowered_words, ← mem_lowered_words, hitem,
      hliteral]
    simp [or_comm]
  rw [hb, hwants.2 ((TagTest.wants_equals _ _).2 hsame)]

end Leaf

end DownloadQuery
