import DownloadQuery.Pattern.Regex
import Mathlib

/-!
# Expressions that spell a text

An expression without choices and repetitions asks for one code after another, each from a set of
its own. A run of it moves one position along the text for as long as the codes belong to the sets
(`Regex.advance_two_pow`), so it matches a whole text if and only if the codes belong to the sets one
by one (`Regex.Spells.matchesWhole_iff`).
-/

namespace DownloadQuery

theorem CodeSet.testBit_positions (s : CodeSet) (text : List Nat) (i : Nat) :
    (s.positions text).testBit i = text[i]?.any s.contains := by
  induction text generalizing i with
  | nil => simp [positions]
  | cons c rest ih =>
    have hbit : (s.positions (c :: rest)) = Nat.bit (s.contains c) (s.positions rest) := by
      rw [positions, Nat.bit_val, Nat.add_comm]
    rw [hbit]
    cases i with
    | zero => simp
    | succ i => simp [Nat.testBit_bit_succ, ih]

namespace Regex

/-- Moves the positions before a code of the set past this code. -/
def advance (text : List Nat) (positions : Nat) (s : CodeSet) : Nat :=
  (positions &&& s.positions text) * 2

theorem foldl_advance_zero (text : List Nat) (sets : List CodeSet) :
    sets.foldl (advance text) 0 = 0 := by
  induction sets with
  | nil => rfl
  | cons s sets ih => simpa [advance] using ih

/-- A single position moves on if the code that follows it belongs to the set. -/
theorem advance_two_pow (before rest : List Nat) (s : CodeSet) :
    advance (before ++ rest) (2 ^ before.length) s =
      if rest.head?.any s.contains then 2 ^ (before.length + 1) else 0 := by
  have hcode : (before ++ rest)[before.length]? = rest.head? := by
    rw [List.getElem?_append_right le_rfl, Nat.sub_self, List.head?_eq_getElem?]
  rw [advance, Nat.two_pow_and, CodeSet.testBit_positions, hcode]
  split_ifs with h
  · simp [h, Nat.pow_succ]
  · simp [h]

/-- An expression spells a list of sets if it asks for a code of each, one after another. -/
inductive Spells : Regex → List CodeSet → Prop
  | empty : Spells .empty []
  | set (s : CodeSet) : Spells (.set s) [s]
  | seq {r q : Regex} {sets more : List CodeSet} :
    Spells r sets → Spells q more → Spells (.seq r q) (sets ++ more)

/-- Expressions one after another spell their sets one after another. -/
theorem spells_ofList {α : Type} {f : α → Regex} {sets : α → List CodeSet} {as : List α}
    (h : ∀ a ∈ as, Spells (f a) (sets a)) : Spells (ofList (as.map f)) (as.flatMap sets) := by
  induction as with
  | nil => exact .empty
  | cons a as ih =>
    obtain ⟨ha, has⟩ := List.forall_mem_cons.1 h
    cases as with
    | nil => simpa [ofList] using ha
    | cons b as => exact ha.seq (ih has)

theorem Spells.run_eq {r : Regex} {sets : List CodeSet} (h : Spells r sets) (text : List Nat)
    (positions : Nat) : run text r positions = sets.foldl (advance text) positions := by
  induction h generalizing positions with
  | empty => rfl
  | set s => rfl
  | seq _ _ ihr ihq => rw [run, ihr, ihq, List.foldl_append]

/-- From a single position, the end of a text is reached if the codes that are left belong to the
sets one by one. -/
theorem testBit_foldl_advance (sets : List CodeSet) (before rest : List Nat) :
    (sets.foldl (advance (before ++ rest)) (2 ^ before.length)).testBit (before ++ rest).length =
      true ↔ List.Forall₂ (fun s c => s.contains c = true) sets rest := by
  induction sets generalizing before rest with
  | nil =>
    rw [List.foldl_nil, Nat.testBit_two_pow, decide_eq_true_eq, List.length_append,
      List.forall₂_nil_left_iff, ← List.length_eq_zero_iff]
    omega
  | cons s sets ih =>
    rw [List.foldl_cons, advance_two_pow]
    cases rest with
    | nil => simp [foldl_advance_zero]
    | cons c rest =>
      rw [List.forall₂_cons]
      cases hc : s.contains c with
      | false => simp [hc, foldl_advance_zero]
      | true =>
        have hnext := ih (before ++ [c]) rest
        rw [List.append_assoc, List.singleton_append, List.length_append, List.length_singleton]
          at hnext
        simpa [hc] using hnext

/-- A whole text matches if its codes belong to the sets one by one. -/
theorem Spells.matchesWhole_iff {r : Regex} {sets : List CodeSet} (h : Spells r sets)
    (text : List Nat) :
    r.matchesWhole text = true ↔ List.Forall₂ (fun s c => s.contains c = true) sets text := by
  rw [matchesWhole, h.run_eq]
  exact testBit_foldl_advance sets [] text

end Regex
end DownloadQuery
