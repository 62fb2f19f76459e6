import DownloadQuery.Condition.Node
import DownloadQuery.Filter.Basic

/-!
# Expressions over conditions

The grammar of conditions: an expression is a sequence of runs with `OR` between them, perhaps after
`NOT`; a run is a sequence of parts; a part is a condition or an expression between brackets. `NOT`
is a keyword only where an expression starts, and a condition is any token but a bracket and `OR`.

An expression is at once a derivation of its tokens and, with a filter for each condition, a filter.
Its meaning is found by recursion on the derivation.
-/

namespace DownloadQuery

/-- An evaluation that may fail and may leave something behind. -/
abbrev Evaluation (ε ρ : Type) := ρ → Except ε Bool × ρ

namespace Evaluation

variable {ε ρ : Type}

/-- Whether both operands hold. The second is tried only if the first holds. -/
def both (a b : Evaluation ε ρ) : Evaluation ε ρ := fun r =>
  match a r with
  | (.ok true, r) => b r
  | decided => decided

/-- Whether one of the operands holds. The second is tried only if the first does not hold. -/
def either (a b : Evaluation ε ρ) : Evaluation ε ρ := fun r =>
  match a r with
  | (.ok false, r) => b r
  | decided => decided

/-- Whether the operand does not hold. -/
def complement (a : Evaluation ε ρ) : Evaluation ε ρ := fun r =>
  match a r with
  | (.ok b, r) => (.ok !b, r)
  | failed => failed

theorem both_assoc (a b c : Evaluation ε ρ) : both (both a b) c = both a (both b c) := by
  funext r
  unfold both
  rcases a r with ⟨_ | _ | _, _⟩ <;> rfl

end Evaluation

namespace Condition

mutual

/-- Alternatives, or their negation. -/
inductive Expression (α : Type) where
  | plain (alternatives : Alternatives α)
  | negated (alternatives : Alternatives α)

/-- Runs of which one must match, with `OR` between them. -/
inductive Alternatives (α : Type) where
  | last (run : Run α)
  | or (run : Run α) (rest : Alternatives α)

/-- Parts that must all match. -/
inductive Run (α : Type) where
  | last (part : Part α)
  | and (part : Part α) (rest : Run α)

/-- A condition, or an expression between brackets. -/
inductive Part (α : Type) where
  | condition (c : α)
  | group (e : Expression α)

end

section Tokens

mutual

/-- The tokens that an expression derives. -/
def Expression.tokens : Expression String → List String
  | .plain alternatives => alternatives.tokens
  | .negated alternatives => "NOT" :: alternatives.tokens

def Alternatives.tokens : Alternatives String → List String
  | .last run => run.tokens
  | .or run rest => run.tokens ++ "OR" :: rest.tokens

def Run.tokens : Run String → List String
  | .last part => part.tokens
  | .and part rest => part.tokens ++ rest.tokens

def Part.tokens : Part String → List String
  | .condition c => [c]
  | .group e => "[" :: e.tokens ++ ["]"]

end

mutual

/-- Whether the conditions are no keywords, so that the tokens are derived by the grammar. -/
def Expression.Proper : Expression String → Prop
  | .plain alternatives => alternatives.tokens.head? ≠ some "NOT" ∧ alternatives.Proper
  | .negated alternatives => alternatives.Proper

def Alternatives.Proper : Alternatives String → Prop
  | .last run => run.Proper
  | .or run rest => run.Proper ∧ rest.Proper

def Run.Proper : Run String → Prop
  | .last part => part.Proper
  | .and part rest => part.Proper ∧ rest.Proper

def Part.Proper : Part String → Prop
  | .condition c => c ≠ "[" ∧ c ≠ "]" ∧ c ≠ "OR"
  | .group e => e.Proper

end

/-- The grammar: an expression derives a list of tokens. -/
def Expression.Derives (e : Expression String) (tokens : List String) : Prop :=
  e.Proper ∧ e.tokens = tokens

end Tokens

section Traversal

variable {α β : Type} {m : Type → Type} [Monad m] (f : α → m β)

mutual

/-- Something done for each condition, from the left. -/
def Expression.mapM : Expression α → m (Expression β)
  | .plain alternatives => do return .plain (← alternatives.mapM)
  | .negated alternatives => do return .negated (← alternatives.mapM)

def Alternatives.mapM : Alternatives α → m (Alternatives β)
  | .last run => do return .last (← run.mapM)
  | .or run rest => do
    let run ← run.mapM
    return .or run (← rest.mapM)

def Run.mapM : Run α → m (Run β)
  | .last part => do return .last (← part.mapM)
  | .and part rest => do
    let part ← part.mapM
    return .and part (← rest.mapM)

def Part.mapM : Part α → m (Part β)
  | .condition c => do return .condition (← f c)
  | .group e => do return .group (← e.mapM)

end

end Traversal

section Meaning

variable {α ε ρ : Type} (holds : α → Evaluation ε ρ)

mutual

/-- The meaning of an expression by that of its conditions. -/
def Expression.meaning : Expression α → Evaluation ε ρ
  | .plain alternatives => alternatives.meaning
  | .negated alternatives => .complement alternatives.meaning

def Alternatives.meaning : Alternatives α → Evaluation ε ρ
  | .last run => run.meaning
  | .or run rest => .either run.meaning rest.meaning

def Run.meaning : Run α → Evaluation ε ρ
  | .last part => part.meaning
  | .and part rest => .both part.meaning rest.meaning

def Part.meaning : Part α → Evaluation ε ρ
  | .condition c => holds c
  | .group e => e.meaning

end

end Meaning

end Condition
end DownloadQuery
