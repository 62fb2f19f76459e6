import DownloadQuery.Condition.Node

/-!
# Nesting of tokens

Nesting by brackets loses nothing: the nodes of a condition, written out, are its tokens, and every
list of nodes is that of the tokens it is written as.
-/

namespace DownloadQuery
namespace Node

mutual

/-- The tokens of a node, with those of its brackets. -/
def tokens : Node → List String
  | .term token => [token]
  | .group nodes => "[" :: listTokens nodes ++ ["]"]

def listTokens : List Node → List String
  | [] => []
  | n :: rest => tokens n ++ listTokens rest

end

mutual

/-- Whether no term of a node is a bracket. -/
def BracketFree : Node → Prop
  | .term token => token ≠ "[" ∧ token ≠ "]"
  | .group nodes => ListBracketFree nodes

def ListBracketFree : List Node → Prop
  | [] => True
  | n :: rest => BracketFree n ∧ ListBracketFree rest

end

@[simp] theorem listTokens_append (a b : List Node) :
    listTokens (a ++ b) = listTokens a ++ listTokens b := by
  induction a with
  | nil => simp [listTokens]
  | cons n rest ih => simp [listTokens, ih]

@[simp] theorem listBracketFree_append (a b : List Node) :
    ListBracketFree (a ++ b) ↔ ListBracketFree a ∧ ListBracketFree b := by
  induction a with
  | nil => simp [ListBracketFree]
  | cons n rest ih => simp [ListBracketFree, ih, and_assoc]

@[simp] theorem listBracketFree_reverse (nodes : List Node) :
    ListBracketFree nodes.reverse ↔ ListBracketFree nodes := by
  induction nodes with
  | nil => simp
  | cons n rest ih => simp [ListBracketFree, ih, and_comm]

theorem nestFrom_open (outer : List (List Node)) (current : List Node) (rest : List String) :
    nestFrom outer current ("[" :: rest) = nestFrom (current :: outer) [] rest := by
  cases outer <;> simp [nestFrom]

theorem nestFrom_close (around : List Node) (outer : List (List Node)) (current : List Node)
    (rest : List String) :
    nestFrom (around :: outer) current ("]" :: rest) =
      nestFrom outer (.group current.reverse :: around) rest := by
  simp [nestFrom]

theorem nestFrom_term (outer : List (List Node)) (current : List Node) {token : String}
    (rest : List String) (ho : token ≠ "[") (hc : token ≠ "]") :
    nestFrom outer current (token :: rest) = nestFrom outer (.term token :: current) rest := by
  cases outer <;> simp [nestFrom, ho, hc]

mutual

theorem nestFrom_tokens (n : Node) (hn : BracketFree n) (outer : List (List Node))
    (current : List Node) (rest : List String) :
    nestFrom outer current (tokens n ++ rest) = nestFrom outer (n :: current) rest := by
  cases n with
  | term token => exact nestFrom_term outer current rest hn.1 hn.2
  | group nodes =>
    have inside := nestFrom_listTokens nodes hn (current :: outer) [] ("]" :: rest)
    simp only [tokens, List.cons_append, List.append_assoc, List.nil_append] at inside ⊢
    rw [nestFrom_open, inside, nestFrom_close]
    simp

theorem nestFrom_listTokens (nodes : List Node) (hn : ListBracketFree nodes)
    (outer : List (List Node)) (current : List Node) (rest : List String) :
    nestFrom outer current (listTokens nodes ++ rest) =
      nestFrom outer (nodes.reverse ++ current) rest := by
  cases nodes with
  | nil => rfl
  | cons n others =>
    rw [listTokens, List.append_assoc, nestFrom_tokens n hn.1 outer current,
      nestFrom_listTokens others hn.2 outer (n :: current)]
    simp

end

theorem nest_listTokens {nodes : List Node} (hn : ListBracketFree nodes) :
    nest (listTokens nodes) = .ok nodes := by
  have h := nestFrom_listTokens nodes hn [] [] []
  rw [List.append_nil] at h
  rw [nest, h]
  simp [nestFrom]

/-- The tokens of the nodes that have been read, with the brackets that are open. -/
def openTokens : List (List Node) → List Node → List String
  | [], current => listTokens current.reverse
  | around :: outer, current => openTokens outer around ++ "[" :: listTokens current.reverse

/-- What has been read and what is left are together the tokens of the nodes that come out. -/
theorem nestFrom_ok {outer : List (List Node)} {current nodes : List Node} {rest : List String}
    (h : nestFrom outer current rest = .ok nodes) (ho : ∀ around ∈ outer, ListBracketFree around)
    (hc : ListBracketFree current) :
    listTokens nodes = openTokens outer current ++ rest ∧ ListBracketFree nodes := by
  induction rest generalizing outer current with
  | nil =>
    cases outer with
    | nil =>
      obtain rfl := Except.ok.inj h
      simp [openTokens, hc]
    | cons around outer => simp [nestFrom] at h
  | cons token rest ih =>
    by_cases hopen : token = "["
    · subst hopen
      rw [nestFrom_open] at h
      have key := ih h (by simpa using ⟨hc, ho⟩) trivial
      simpa [openTokens, listTokens] using key
    · by_cases hclose : token = "]"
      · subst hclose
        cases outer with
        | nil => simp [nestFrom] at h
        | cons around outer =>
          rw [nestFrom_close] at h
          simp only [List.mem_cons, forall_eq_or_imp] at ho
          have key := ih h ho.2 ⟨by simpa [BracketFree] using hc, ho.1⟩
          refine ⟨?_, key.2⟩
          rw [key.1]
          cases outer <;> simp [openTokens, listTokens, tokens]
      · rw [nestFrom_term outer current rest hopen hclose] at h
        have key := ih h ho ⟨⟨hopen, hclose⟩, hc⟩
        refine ⟨?_, key.2⟩
        rw [key.1]
        cases outer <;> simp [openTokens, listTokens, tokens]

/-- Nodes come out of tokens that are theirs. -/
theorem listTokens_of_nest {tokens : List String} {nodes : List Node}
    (h : nest tokens = .ok nodes) : listTokens nodes = tokens ∧ ListBracketFree nodes := by
  simpa [openTokens, listTokens] using nestFrom_ok h (by simp) trivial

end Node
end DownloadQuery
