import DownloadQuery.Condition.Reader
import DownloadQuery.Proofs.Condition.Nesting
import Mathlib.Tactic.SplitIfs

/-!
# What groups take over from their conditions

A group is read by reading its conditions from the left, unless it fails for a reason of its own
first. So a property of readers that is closed under what a group does holds of the group if it
holds of its conditions (`readGroup_closed`).
-/

namespace DownloadQuery

/-- Whether an error is about how the conditions of a group are put together. -/
def ConditionError.IsOfGroup : ConditionError → Prop
  | .empty => True
  | .danglingNot => True
  | .missingLeftOperand _ => True
  | .missingRightOperand _ => True
  | _ => False

namespace Condition

section
variable {m : Type → Type} [Monad m] [MonadExceptOf ConditionError m]

/-- Whether a property of readers is closed under what a group does with its conditions. -/
structure GroupClosed (Q : m Filter → Prop) : Prop where
  pure : ∀ f, Q (pure f)
  throw : ∀ e, e.IsOfGroup → Q (throw e)
  bind : ∀ {x : m Filter} {k : Filter → m Filter}, Q x → (∀ f, Q (k f)) → Q (x >>= k)

variable {Q : m Filter → Prop} {accept : String → m Filter}

mutual

theorem readNode_closed (hQ : GroupClosed Q) (n : Node)
    (h : ∀ token ∈ n.tokens, Q (accept token)) : Q (readNode accept n) := by
  cases n with
  | term token =>
    rw [readNode]
    exact h token (by simp [Node.tokens])
  | group nodes =>
    rw [readNode]
    exact readGroup_closed hQ nodes _ _ fun token ht => h token (by simp [Node.tokens, ht])

theorem readGroup_closed (hQ : GroupClosed Q) (nodes : List Node) (text : String) (p : Progress)
    (h : ∀ token ∈ Node.listTokens nodes, Q (accept token)) :
    Q (readGroup accept text p nodes) := by
  cases nodes with
  | nil =>
    unfold readGroup
    split_ifs
    · exact hQ.throw _ trivial
    · exact hQ.throw _ trivial
    · exact hQ.throw _ trivial
    · exact hQ.pure _
  | cons n rest =>
    rw [Node.listTokens] at h
    have hn : ∀ token ∈ n.tokens, Q (accept token) :=
      fun token ht => h token (List.mem_append_left _ ht)
    have hrest : ∀ token ∈ Node.listTokens rest, Q (accept token) :=
      fun token ht => h token (List.mem_append_right _ ht)
    unfold readGroup
    split_ifs
    · exact readGroup_closed hQ rest text _ hrest
    · exact hQ.throw _ trivial
    · exact readGroup_closed hQ rest text _ hrest
    · exact hQ.bind (readNode_closed hQ n hn) fun f => readGroup_closed hQ rest text _ hrest

end

end

end Condition
end DownloadQuery
