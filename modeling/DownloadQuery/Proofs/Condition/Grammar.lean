import DownloadQuery.Condition.Reader
import DownloadQuery.Proofs.Condition.Expression
import DownloadQuery.Proofs.Condition.Nesting
import Mathlib.Tactic.SplitIfs

/-!
# Reading by the grammar

The reader accepts the tokens that expressions derive, and the filter it makes of them has the
meaning of the expression.

Reading the tokens of an expression is the same as reading its conditions from the left and putting
their filters together (`readTokens_tokens`), in any monad. What is not derived is never accepted
(`derives_of_readWithText`).
-/

namespace DownloadQuery
namespace Condition

mutual

/-- The nodes of an expression. -/
def Expression.nodes : Expression String → List Node
  | .plain alternatives => alternatives.nodes
  | .negated alternatives => .term "NOT" :: alternatives.nodes

def Alternatives.nodes : Alternatives String → List Node
  | .last run => run.nodes
  | .or run rest => run.nodes ++ .term "OR" :: rest.nodes

def Run.nodes : Run String → List Node
  | .last part => [part.node]
  | .and part rest => part.node :: rest.nodes

def Part.node : Part String → Node
  | .condition c => .term c
  | .group e => .group e.nodes

end

mutual

theorem Expression.listTokens_nodes (e : Expression String) :
    Node.listTokens e.nodes = e.tokens := by
  cases e with
  | plain alternatives => exact alternatives.listTokens_nodes
  | negated alternatives =>
    simp [Expression.nodes, Expression.tokens, Node.listTokens, Node.tokens,
      alternatives.listTokens_nodes]

theorem Alternatives.listTokens_nodes (a : Alternatives String) :
    Node.listTokens a.nodes = a.tokens := by
  cases a with
  | last run => exact run.listTokens_nodes
  | or run rest =>
    simp [Alternatives.nodes, Alternatives.tokens, Node.listTokens, Node.tokens,
      run.listTokens_nodes, rest.listTokens_nodes]

theorem Run.listTokens_nodes (r : Run String) : Node.listTokens r.nodes = r.tokens := by
  cases r with
  | last part => simp [Run.nodes, Run.tokens, Node.listTokens, part.tokens_node]
  | and part rest =>
    simp [Run.nodes, Run.tokens, Node.listTokens, part.tokens_node, rest.listTokens_nodes]

theorem Part.tokens_node (p : Part String) : Node.tokens p.node = p.tokens := by
  cases p with
  | condition c => rfl
  | group e => simp [Part.node, Part.tokens, Node.tokens, e.listTokens_nodes]

end

mutual

theorem Expression.bracketFree_nodes {e : Expression String} (h : e.Proper) :
    Node.ListBracketFree e.nodes := by
  cases e with
  | plain alternatives => exact Alternatives.bracketFree_nodes h.2
  | negated alternatives =>
    exact ⟨⟨by decide, by decide⟩, Alternatives.bracketFree_nodes h⟩

theorem Alternatives.bracketFree_nodes {a : Alternatives String} (h : a.Proper) :
    Node.ListBracketFree a.nodes := by
  cases a with
  | last run => exact Run.bracketFree_nodes h
  | or run rest =>
    refine (Node.listBracketFree_append _ _).2 ⟨Run.bracketFree_nodes h.1, ?_⟩
    exact ⟨⟨by decide, by decide⟩, Alternatives.bracketFree_nodes h.2⟩

theorem Run.bracketFree_nodes {r : Run String} (h : r.Proper) :
    Node.ListBracketFree r.nodes := by
  cases r with
  | last part => exact ⟨Part.bracketFree_node h, trivial⟩
  | and part rest => exact ⟨Part.bracketFree_node h.1, Run.bracketFree_nodes h.2⟩

theorem Part.bracketFree_node {p : Part String} (h : p.Proper) : Node.BracketFree p.node := by
  cases p with
  | condition c => exact ⟨h.1, h.2.1⟩
  | group e => exact Expression.bracketFree_nodes h

end

mutual

/-- The filter of an expression by the filters of its conditions. -/
def Expression.filter : Expression Filter → Filter
  | .plain alternatives => alternatives.filter
  | .negated alternatives => .not alternatives.filter

def Alternatives.filter : Alternatives Filter → Filter
  | .last run => .all run.filters
  | .or run rest => .any (Progress.ofRun run.filters :: rest.members)

/-- The filters of the runs. -/
def Alternatives.members : Alternatives Filter → List Filter
  | .last run => [Progress.ofRun run.filters]
  | .or run rest => Progress.ofRun run.filters :: rest.members

/-- The filters of the parts. -/
def Run.filters : Run Filter → List Filter
  | .last part => [part.filter]
  | .and part rest => part.filter :: rest.filters

def Part.filter : Part Filter → Filter
  | .condition f => f
  | .group e => e.filter

end

/-! ## Reading what an expression derives -/

namespace Progress

/-- The filter of a group of which the alternatives `a` are still to come. -/
def close (p : Progress) (a : Alternatives Filter) : Filter :=
  let root :=
    if p.alternatives = [] then a.filter
    else .any ((p.alternatives.reverse.map fun run => ofRun run.reverse) ++ a.members)
  if p.negated then .not root else root

/-- A group in which the run `g` has been met. -/
def meet (p : Progress) (g : Run Filter) : Progress :=
  { p with begun := true, current := g.filters.reverse ++ p.current }

theorem finish_meet {p : Progress} (hp : p.current = []) (g : Run Filter) :
    (p.meet g).finish = p.close (.last g) := by
  simp [finish, meet, close, hp, Alternatives.filter, Alternatives.members]

@[simp] theorem meet_current_isEmpty (p : Progress) (g : Run Filter) :
    (p.meet g).current.isEmpty = false := by
  cases g <;> simp [meet, Run.filters]

/-- A group in which an alternative has ended. -/
def turn (p : Progress) : Progress :=
  { p with begun := true, alternatives := p.current :: p.alternatives, current := [] }

theorem close_or {p : Progress} (hp : p.current = []) (g : Run Filter) (a : Alternatives Filter) :
    (p.meet g).turn.close a = p.close (.or g a) := by
  by_cases h : p.alternatives = [] <;>
    simp [meet, turn, close, hp, h, Alternatives.filter, Alternatives.members]

@[simp] theorem close_start (a : Alternatives Filter) : start.close a = a.filter := rfl

@[simp] theorem close_negated (a : Alternatives Filter) :
    close { start with negated := true } a = .not a.filter := rfl

end Progress

section
variable {m : Type → Type} [Monad m] [MonadExceptOf ConditionError m] (accept : String → m Filter)

/-- Reading on after a node that is no keyword. -/
theorem readGroup_part (text : String) (p : Progress) (n : Node) (rest : List Node)
    (hnot : n.isTerm "NOT" = true → p.begun = true ∨ p.negated = true)
    (hor : n.isTerm "OR" = false) :
    readGroup accept text p (n :: rest) = (do
      let f ← readNode accept n
      readGroup accept text { p with begun := true, current := f :: p.current } rest) := by
  have hk : (n.isTerm "NOT" && !p.begun && !p.negated) = false := by
    cases hn : n.isTerm "NOT" with
    | false => rfl
    | true => rcases hnot hn with h | h <;> simp [h]
  rw [readGroup]
  simp [hk, hor]

/-- Reading on after the end of a run. -/
theorem readGroup_or (text : String) (p : Progress) (rest : List Node)
    (hp : p.current.isEmpty = false) :
    readGroup accept text p (.term "OR" :: rest) = readGroup accept text p.turn rest := by
  rw [readGroup]
  simp [Node.isTerm, hp, Progress.turn]

theorem readGroup_nil (text : String) (p : Progress) (hp : p.current.isEmpty = false) :
    readGroup accept text p [] = pure p.finish := by
  rw [readGroup]
  simp [hp]

theorem Part.isTerm_or {p : Part String} (h : p.Proper) : p.node.isTerm "OR" = false := by
  cases p with
  | condition c => simpa [Part.node, Node.isTerm] using h.2.2
  | group e => rfl

theorem Part.head_of_isTerm {p : Part String} {token : String} (h : p.node.isTerm token = true) :
    p.tokens.head? = some token := by
  cases p with
  | condition c => simpa [Part.node, Node.isTerm, Part.tokens] using h
  | group e => simp [Part.node, Node.isTerm] at h

variable [LawfulMonad m]

mutual

theorem readNode_node (q : Part String) (h : q.Proper) :
    readNode accept q.node = Part.filter <$> q.mapM accept := by
  cases q with
  | condition c => simp [Part.node, readNode, Part.mapM, Part.filter]
  | group e => simp [Part.node, readNode, Part.mapM, Part.filter, readGroup_expression e h]

theorem readGroup_run (r : Run String) (h : r.Proper) (text : String) (p : Progress)
    (rest : List Node)
    (hnot : r.tokens.head? = some "NOT" → p.begun = true ∨ p.negated = true) :
    readGroup accept text p (r.nodes ++ rest) = (do
      let g ← r.mapM accept
      readGroup accept text (p.meet g) rest) := by
  cases r with
  | last q =>
    have hq : q.node.isTerm "NOT" = true → p.begun = true ∨ p.negated = true :=
      fun hq => hnot (by simpa [Run.tokens] using Part.head_of_isTerm hq)
    rw [Run.nodes, List.singleton_append,
      readGroup_part accept text p q.node rest hq (Part.isTerm_or h), readNode_node q h]
    simp [Run.mapM, Progress.meet, Run.filters]
  | and q others =>
    have hq : q.node.isTerm "NOT" = true → p.begun = true ∨ p.negated = true :=
      fun hq => hnot (by simp [Run.tokens, Part.head_of_isTerm hq])
    rw [Run.nodes, List.cons_append,
      readGroup_part accept text p q.node _ hq (Part.isTerm_or h.1), readNode_node q h.1]
    simp [Run.mapM, Progress.meet, Run.filters, readGroup_run others h.2]

theorem readGroup_alternatives (a : Alternatives String) (h : a.Proper) (text : String)
    (p : Progress) (hp : p.current = [])
    (hnot : a.tokens.head? = some "NOT" → p.begun = true ∨ p.negated = true) :
    readGroup accept text p a.nodes = p.close <$> a.mapM accept := by
  cases a with
  | last run =>
    have key := readGroup_run run h text p [] hnot
    rw [List.append_nil] at key
    rw [Alternatives.nodes, key]
    simp [Alternatives.mapM, readGroup_nil, Progress.finish_meet hp]
  | or run rest =>
    have hrun : run.tokens.head? = some "NOT" → p.begun = true ∨ p.negated = true :=
      fun hr => hnot (by simp [Alternatives.tokens, hr])
    have hturn (g : Run Filter) : (p.meet g).turn.begun = true ∨ (p.meet g).turn.negated = true :=
      .inl rfl
    rw [Alternatives.nodes, readGroup_run run h.1 text p _ hrun]
    simp only [readGroup_or, Progress.meet_current_isEmpty]
    simp only [fun g => readGroup_alternatives rest h.2 text (p.meet g).turn rfl fun _ => hturn g]
    simp [Alternatives.mapM, ← Progress.close_or hp]

theorem readGroup_expression (e : Expression String) (h : e.Proper) (text : String) :
    readGroup accept text .start e.nodes = Expression.filter <$> e.mapM accept := by
  cases e with
  | plain alternatives =>
    rw [Expression.nodes,
      readGroup_alternatives alternatives h.2 text .start rfl fun hn => absurd hn h.1]
    simp only [Expression.mapM, map_eq_pure_bind, bind_assoc, pure_bind, Progress.close_start]
    rfl
  | negated alternatives =>
    have hneg : readGroup accept text .start (.term "NOT" :: alternatives.nodes) =
        readGroup accept text { Progress.start with negated := true } alternatives.nodes := by
      rw [readGroup]
      rfl
    rw [Expression.nodes, hneg, readGroup_alternatives alternatives h text _ rfl fun _ => .inr rfl]
    simp only [Expression.mapM, map_eq_pure_bind, bind_assoc, pure_bind, Progress.close_negated]
    rfl

end

theorem readWithText_tokens (find : String → m (Except FieldError (Option Field)))
    (settings : Settings) {e : Expression String} (h : e.Proper) (text : String) :
    readWithText find settings e.tokens text =
      Expression.filter <$> e.mapM (readOne find settings) := by
  rw [readWithText, ← e.listTokens_nodes, Node.nest_listTokens (Expression.bracketFree_nodes h)]
  exact readGroup_expression _ e h text

/-- Reading the tokens of an expression is reading its conditions from the left. -/
theorem readTokens_tokens (find : String → m (Except FieldError (Option Field)))
    (settings : Settings) {e : Expression String} (h : e.Proper) :
    readTokens find settings e.tokens = Expression.filter <$> e.mapM (readOne find settings) :=
  readWithText_tokens find settings h _

/-- Keywords have no equals sign. -/
theorem ne_keyword_of_equals {condition : String} (h : '=' ∈ condition.toList) :
    ∀ keyword ∈ ["NOT", "OR", "[", "]"], condition ≠ keyword := by
  have hfree : ∀ keyword ∈ ["NOT", "OR", "[", "]"], '=' ∉ keyword.toList := by decide
  rintro keyword hk rfl
  exact hfree _ hk h

/-- A single condition is read as all of its filter. -/
theorem readWithText_singleton (find : String → m (Except FieldError (Option Field)))
    (settings : Settings) {condition : String}
    (h : ∀ keyword ∈ ["NOT", "OR", "[", "]"], condition ≠ keyword) (text : String) :
    readWithText find settings [condition] text =
      (fun f => .all [f]) <$> readOne find settings condition := by
  have hproper : (Expression.plain (.last (.last (.condition condition)))).Proper :=
    ⟨by simpa [Alternatives.tokens, Run.tokens, Part.tokens] using h "NOT" (by decide),
      h "[" (by decide), h "]" (by decide), h "OR" (by decide)⟩
  refine (readWithText_tokens find settings hproper text).trans ?_
  simp [Expression.mapM, Alternatives.mapM, Run.mapM, Part.mapM, Expression.filter,
    Alternatives.filter, Run.filters, Part.filter]

end

/-! ## What is accepted is derived -/

/-- A lookup of fields, which may keep a state as a catalogue does that grows. -/
abbrev Lookup (σ : Type) := String → StateM σ (Except FieldError (Option Field))

/-- Reading with a lookup. What the lookup has left behind stays also when reading fails. -/
abbrev Reader (σ : Type) := ExceptT ConditionError (StateM σ)

/-- Finds fields by a lookup. -/
def Lookup.find {σ : Type} (lookup : Lookup σ) (name : String) :
    Reader σ (Except FieldError (Option Field)) :=
  ExceptT.lift (lookup name)

theorem findIn_eq : findIn = Lookup.find fun name c => c.lookup name := rfl

section
variable {σ α β : Type}

theorem Reader.run_bind {ε : Type} (x : ExceptT ε (StateM σ) α) (k : α → ExceptT ε (StateM σ) β)
    (s : σ) :
    (x >>= k).run s =
      match x.run s with
      | (.ok a, s) => (k a).run s
      | (.error e, s) => (.error e, s) := by
  rw [ExceptT.run_bind]
  change StateT.run (x.run >>= _) s = _
  rw [StateT.run_bind]
  rcases hx : x.run s with ⟨_ | a, s₁⟩ <;>
    (have hx : StateT.run x.run s = _ := hx; rw [hx]; rfl)

theorem Reader.bind_ok {x : Reader σ α} {k : α → Reader σ β} {b : β} {s s' : σ}
    (h : (x >>= k).run s = (.ok b, s')) :
    ∃ a s₁, x.run s = (.ok a, s₁) ∧ (k a).run s₁ = (.ok b, s') := by
  rw [Reader.run_bind] at h
  split at h
  · next a s₁ hx => exact ⟨a, s₁, hx, h⟩
  · cases h

theorem Reader.throw_ne_ok {e : ConditionError} {b : β} {s s' : σ} :
    (throw e : Reader σ β).run s ≠ (.ok b, s') :=
  fun h => nomatch (congrArg Prod.fst h : Except.error e = Except.ok b)

variable (accept : String → Reader σ Filter)

/-- Puts a part in front of the first run. -/
def Alternatives.push (q : Part String) : Alternatives String → Alternatives String
  | .last run => .last (.and q run)
  | .or run rest => .or (.and q run) rest

theorem Alternatives.nodes_push (q : Part String) (a : Alternatives String) :
    (a.push q).nodes = q.node :: a.nodes := by
  cases a <;> simp [push, Alternatives.nodes, Run.nodes]

theorem Alternatives.proper_push {q : Part String} {a : Alternatives String} (hq : q.Proper)
    (ha : a.Proper) : (a.push q).Proper := by
  cases a with
  | last run => exact ⟨hq, ha⟩
  | or run rest => exact ⟨⟨hq, ha.1⟩, ha.2⟩

/-- Alternatives whose nodes do not start with a term do not start with its token. -/
theorem Alternatives.head_ne {a : Alternatives String}
    (h : ∀ n ∈ a.nodes.head?, n.isTerm "NOT" = false) : a.tokens.head? ≠ some "NOT" := by
  rw [← a.listTokens_nodes]
  revert h
  rcases a.nodes with _ | ⟨⟨token⟩ | ⟨nodes⟩, rest⟩ <;> intro h
  · simp [Node.listTokens]
  · simpa [Node.listTokens, Node.tokens, Node.isTerm] using h
  · simp [Node.listTokens, Node.tokens]

theorem eq_term_of_isTerm {n : Node} {token : String} (h : n.isTerm token = true) :
    n = .term token := by
  cases n with
  | term t => simpa [Node.isTerm] using h
  | group nodes => simp [Node.isTerm] at h

mutual

theorem part_of_readNode (n : Node) (hb : Node.BracketFree n) (hor : n.isTerm "OR" = false)
    {s s' : σ} {f : Filter} (h : (readNode accept n).run s = (.ok f, s')) :
    ∃ q : Part String, q.Proper ∧ q.node = n := by
  cases n with
  | term token =>
    exact ⟨.condition token, ⟨hb.1, hb.2, by simpa [Node.isTerm] using hor⟩, rfl⟩
  | group nodes =>
    rw [readNode] at h
    obtain ⟨e, he, rfl⟩ := expression_of_readGroup nodes hb h
    exact ⟨.group e, he, rfl⟩
termination_by (sizeOf n, 0)

theorem expression_of_readGroup (nodes : List Node) (hb : Node.ListBracketFree nodes)
    {text : String} {s s' : σ} {f : Filter}
    (h : (readGroup accept text .start nodes).run s = (.ok f, s')) :
    ∃ e : Expression String, e.Proper ∧ e.nodes = nodes := by
  by_cases hnot : ∃ n ∈ nodes.head?, n.isTerm "NOT" = true
  · obtain ⟨n, hn, hterm⟩ := hnot
    obtain ⟨rest, rfl⟩ := List.head?_eq_some_iff.1 hn
    obtain rfl := eq_term_of_isTerm hterm
    have hstep : readGroup accept text .start (.term "NOT" :: rest) =
        readGroup accept text { Progress.start with negated := true } rest := by
      rw [readGroup]
      rfl
    rw [hstep] at h
    obtain ⟨a, ha, rfl⟩ := (alternatives_of_readGroup rest hb.2 (fun _ _ _ => .inr rfl) h).1 rfl
    exact ⟨.negated a, ha, rfl⟩
  · have hfirst : ∀ n ∈ nodes.head?, n.isTerm "NOT" = false := by simpa using hnot
    obtain ⟨a, ha, rfl⟩ := (alternatives_of_readGroup nodes hb
      (fun n hn ht => by simp [hfirst n hn] at ht) h).1 rfl
    exact ⟨.plain a, ⟨Alternatives.head_ne hfirst, ha⟩, rfl⟩
termination_by (sizeOf nodes, 1)

/-- The invariant of reading on: what is left are alternatives, of which the first has begun if the
current run has. -/
theorem alternatives_of_readGroup (nodes : List Node) (hb : Node.ListBracketFree nodes)
    {text : String} {p : Progress} {s s' : σ} {f : Filter}
    (hnot : ∀ n ∈ nodes.head?, n.isTerm "NOT" = true → p.begun = true ∨ p.negated = true)
    (h : (readGroup accept text p nodes).run s = (.ok f, s')) :
    (p.current = [] → ∃ a : Alternatives String, a.Proper ∧ a.nodes = nodes) ∧
      (p.current ≠ [] → ∀ q : Part String, q.Proper →
        ∃ a : Alternatives String, a.Proper ∧ a.nodes = q.node :: nodes) := by
  cases nodes with
  | nil =>
    refine ⟨fun hp => ?_, fun _ q hq => ⟨.last (.last q), hq, rfl⟩⟩
    rw [readGroup] at h
    simp only [hp, List.isEmpty_nil, if_true] at h
    split_ifs at h <;> exact absurd h Reader.throw_ne_ok
  | cons n rest =>
    cases hor : n.isTerm "OR" with
    | true =>
      obtain rfl := eq_term_of_isTerm hor
      cases hp : p.current.isEmpty with
      | true =>
        rw [readGroup] at h
        simp only [Node.isTerm, hp, Bool.false_and, Bool.false_eq_true, if_false, if_true,
          beq_self_eq_true, (by decide : ("OR" == "NOT") = false)] at h
        exact absurd h Reader.throw_ne_ok
      | false =>
        rw [readGroup_or accept text p rest hp] at h
        have hturn : ∀ n ∈ rest.head?, n.isTerm "NOT" = true →
            p.turn.begun = true ∨ p.turn.negated = true := fun _ _ _ => .inl rfl
        obtain ⟨a, ha, rfl⟩ := (alternatives_of_readGroup rest hb.2 hturn h).1 rfl
        exact ⟨fun hn => by simp [hn] at hp, fun _ q hq => ⟨.or (.last q) a, ⟨hq, ha⟩, rfl⟩⟩
    | false =>
      rw [readGroup_part accept text p n rest (hnot n rfl) hor] at h
      obtain ⟨g, s₁, hg, hrest⟩ := Reader.bind_ok h
      obtain ⟨u, hu, rfl⟩ := part_of_readNode n hb.1 hor hg
      obtain ⟨a, ha, han⟩ := (alternatives_of_readGroup rest hb.2 (fun _ _ _ => .inl rfl) hrest).2
        (by simp) u hu
      refine ⟨fun _ => ⟨a, ha, han⟩, fun _ q hq => ⟨a.push q, Alternatives.proper_push hq ha, ?_⟩⟩
      rw [Alternatives.nodes_push, han]
termination_by (sizeOf nodes, 0)

end

/-- The grammar derives whatever the reader accepts. -/
theorem derives_of_readWithText {lookup : Lookup σ} {settings : Settings} {tokens : List String}
    {text : String} {s s' : σ} {f : Filter}
    (h : (readWithText lookup.find settings tokens text).run s = (.ok f, s')) :
    ∃ e : Expression String, e.Derives tokens := by
  rw [readWithText] at h
  cases hn : Node.nest tokens with
  | error u => rw [hn] at h; exact absurd h Reader.throw_ne_ok
  | ok nodes =>
    rw [hn] at h
    obtain ⟨ht, hb⟩ := Node.listTokens_of_nest hn
    obtain ⟨e, he, rfl⟩ := expression_of_readGroup _ nodes hb h
    exact ⟨e, he, by rw [← e.listTokens_nodes, ht]⟩

end

end Condition
end DownloadQuery
