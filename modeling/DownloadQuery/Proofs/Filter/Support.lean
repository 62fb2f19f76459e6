import DownloadQuery.Proofs.Field.Support
import DownloadQuery.Proofs.Filter.Unseen

/-!
# What filters read

A filter reads of an item the supports of the fields that it compares, and nothing else: items that
agree on these keys get the same answer or the same error (`Filter.isMatch_support`). Both items keep
the same values at every step, so a value that is kept under the name of another field does not tell
them apart either.
-/

namespace DownloadQuery

/-- Whether two items that are being read agree on some keys and keep the same values. -/
structure Reading.SameOn (keys : List String) (r r' : Reading) : Prop where
  raw : r.item.raw.AgreeOn keys r'.item.raw
  kept : r.item.kept = r'.item.kept

/-- A field does not show what stands under keys that it does not read. -/
theorem Field.blind_value_support {f : Field} {keys : List String}
    (hsource : f.source.Repeatable) (hkeys : ∀ key ∈ f.support, key ∈ keys) (scene : Scene) :
    Reading.Blind (Reading.SameOn keys) (f.value scene) := by
  intro r r' h
  have hfresh (call call' : Nat) :
      f.fresh scene r.item.raw call = f.fresh scene r'.item.raw call' :=
    (fresh_congr (h.raw.mono hkeys) scene call).trans (fresh_eq hsource scene _ _ _)
  obtain ⟨hresult, hkept⟩ := value_of_fresh (hfresh _ _) h.kept
  refine ⟨hresult, ?_, hkept⟩
  rw [raw_value, raw_value]
  exact h.raw

namespace Filter

/-- The keys that the fields of a filter read. -/
def support (f : Filter) : List String := f.leaves.flatMap fun l => l.field.support

theorem isMatch_support {f : Filter} (hf : f.AllLeaves fun l => l.field.source.Repeatable)
    {raw other : Snapshot} (h : raw.AgreeOn f.support other) (scene : Scene)
    (tally tally' : Tally) :
    (f.isMatch scene ⟨.ofSnapshot raw, tally⟩).1 =
      (f.isMatch scene ⟨.ofSnapshot other, tally'⟩).1 := by
  have hblind : f.AllLeaves fun l =>
      Reading.Blind (Reading.SameOn f.support) (l.field.value scene) := by
    intro l hl
    apply Field.blind_value_support (hf l hl)
    intro key hkey
    exact List.mem_flatMap.2 ⟨l, hl, hkey⟩
  exact (blind_isMatch hblind ⟨.ofSnapshot raw, tally⟩ ⟨.ofSnapshot other, tally'⟩ ⟨h, rfl⟩).1

/-- Filters see only the values that their fields read. Items that keep nothing yet, and agree on
what each field of a filter reads, get the same answer or the same error. -/
theorem isMatch_of_agreeOn {f : Filter} {raw other : Snapshot}
    (h : f.AllLeaves fun l => ∃ keys, l.field.HasSupport keys ∧ raw.AgreeOn keys other)
    (scene : Scene) (tally tally' : Tally) :
    (f.isMatch scene ⟨.ofSnapshot raw, tally⟩).1 =
      (f.isMatch scene ⟨.ofSnapshot other, tally'⟩).1 := by
  apply isMatch_support
  · intro l hl
    obtain ⟨keys, hkeys, -⟩ := h l hl
    exact hkeys.repeatable
  · intro key hkey
    obtain ⟨l, hl, hmem⟩ := List.mem_flatMap.1 hkey
    obtain ⟨keys, hkeys, hagree⟩ := h l hl
    rw [hkeys.support_eq] at hmem
    exact hagree key hmem

/-- The traits and a custom attribute of an item whose size and path change. -/
theorem isMatch_of_agreeOn_moved :
    let scene : Scene := ⟨⟨.fixed 0, 0⟩, fun _ => false, fun _ => none⟩
    let custom : String × Json := ("custom", .object [("x", .integer 1)])
    let raw : Snapshot := [custom, ("name", .string "a.flac"), ("path", .string "/a")]
    let other : Snapshot := [custom, ("name", .string "a.flac"), ("size", .integer 5)]
    let numbered : Filter :=
      .leaf ⟨.custom "custom_x" "x", "1", .number .equal 1, true⟩
    ∃ traits ∈ Field.builtins [] [], traits.name = "traits" ∧
      let f : Filter := .any [.not numbered, .leaf ⟨traits, "flac", .tags (.member "flac"), false⟩]
      f.AllLeaves (fun l => ∃ keys, l.field.HasSupport keys ∧ raw.AgreeOn keys other) ∧
        (f.isMatch scene ⟨.ofSnapshot raw, []⟩).1 = (f.isMatch scene ⟨.ofSnapshot other, []⟩).1 := by
  intro scene custom raw other numbered
  have hmem := List.getLast_mem (List.cons_ne_nil _ _ : Field.builtins [] [] ≠ [])
  refine ⟨_, hmem, rfl, ?_⟩
  intro f
  have hcustom : raw.AgreeOn (Snapshot.keysOf "custom_x") other := by
    have hkeys : Snapshot.keysOf "custom_x" = ["custom_x", "custom"] := by decide
    rw [hkeys]
    simp [Snapshot.AgreeOn, raw, other, custom, List.lookup]
  have htraits : raw.AgreeOn (Field.builtinSupport "traits") other := by
    simp [Snapshot.AgreeOn, Field.builtinSupport, raw, other, custom, List.lookup]
  have hleaves : f.AllLeaves fun l => ∃ keys, l.field.HasSupport keys ∧ raw.AgreeOn keys other := by
    simp only [f, numbered, allLeaves_any, List.forall_mem_cons, allLeaves_not, allLeaves_leaf]
    exact ⟨⟨_, .stored rfl, hcustom⟩, ⟨_, .builtin hmem, htraits⟩, by simp⟩
  exact ⟨hleaves, isMatch_of_agreeOn hleaves scene [] []⟩

end Filter
end DownloadQuery
