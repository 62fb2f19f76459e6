import DownloadQuery.Condition.Node
import DownloadQuery.Condition.Operator
import DownloadQuery.Condition.Token
import DownloadQuery.Condition.Values
import DownloadQuery.Field.Catalogue
import DownloadQuery.Filter.Basic

/-!
# Reading conditions

A group of conditions is a sequence of alternatives with OR between them, and an alternative a
sequence of conditions and bracketed groups that must all match. NOT at the start of a group negates
the whole group.

How fields are found is left open: reading runs in any monad with errors, so that finding a field may
leave something behind.
-/

namespace DownloadQuery
namespace Condition

/-- What conditions are read with: the clock for times, and the field of conditions that name none. -/
structure Settings where
  clock : Clock
  defaultField? : Option String

/-- The field name and the values of a condition. -/
def split (settings : Settings) (condition : String) :
    Except ConditionError (String × List Char) :=
  let chars := condition.toList
  match Operator.readInline? chars with
  | some (name, op, values) =>
    match values with
    | '+' :: _ => .error (.ambiguousSign '+' condition)
    | '-' :: _ => .error (.ambiguousSign '-' condition)
    | _ => .ok (String.ofList name, op.apply values)
  | none =>
    match Text.cutAt? ['='] chars with
    | some (name, values) => .ok (String.ofList name, values)
    | none =>
      match settings.defaultField? with
      | some name => .ok (name, chars)
      | none => .error (.missingFieldName condition)

/-- The family by which a field that was asked for is compared. -/
def familyOf (name condition : String) (found : Except FieldError (Option Field)) :
    Except ConditionError (Field × Family) :=
  match found with
  | .error e => .error (.badField name condition e)
  | .ok none => .error (.unknownField name condition)
  | .ok (some field) =>
    match field.family? with
    | some family => .ok (field, family)
    | none => .error (.notFilterable name)

/-- The filter of one value. -/
def valueFilter (clock : Clock) (field : Field) (family : Family) (value : List Char) :
    Except ConditionError Filter :=
  let (negated, literal) := Values.splitNegation value
  match Leaf.read clock family field (String.ofList literal) with
  | .ok l => .ok (if negated then .not (.leaf l) else .leaf l)
  | .error e => .error e

/-- The filters of several values. -/
def valueFilters (clock : Clock) (field : Field) (family : Family) :
    List (List Char) → Except ConditionError (List Filter)
  | [] => .ok []
  | value :: rest =>
    match valueFilter clock field family value with
    | .error e => .error e
    | .ok f => (valueFilters clock field family rest).map (f :: ·)

/-- The filter of a list of values: of one alone, or any of several. -/
def ofValues (clock : Clock) (field : Field) (family : Family) (values : List Char)
    (condition : String) : Except ConditionError Filter :=
  match if values = [] then [[]] else Values.split values with
  | [] => .error (.noValues (String.ofList values) condition)
  | [value] => valueFilter clock field family value
  | list => (valueFilters clock field family list).map .any

/-- What has been read of a group: whether it is negated, whether a node has been met since, the
alternatives before and the members of the current one, both last first. -/
structure Progress where
  negated : Bool
  begun : Bool
  alternatives : List (List Filter)
  current : List Filter

namespace Progress

def start : Progress := ⟨false, false, [], []⟩

/-- A single member, or all of several. -/
def ofRun : List Filter → Filter
  | [f] => f
  | run => .all run

/-- The filter of a group that has been read. -/
def finish (p : Progress) : Filter :=
  let root :=
    if p.alternatives = [] then .all p.current.reverse
    else .any ((p.current :: p.alternatives).reverse.map fun run => ofRun run.reverse)
  if p.negated then .not root else root

end Progress

section
variable {m : Type → Type} [Monad m] [MonadExceptOf ConditionError m]

mutual

/-- The filter of a node. -/
def readNode (condition : String → m Filter) : Node → m Filter
  | .term token => condition token
  | .group nodes => readGroup condition (Node.groupText nodes) .start nodes

/-- The filter of the nodes of a group, of which the text is shown in errors. -/
def readGroup (condition : String → m Filter) (text : String) (p : Progress) :
    List Node → m Filter
  | [] =>
    if p.current.isEmpty then
      if p.begun then throw (.missingRightOperand text)
      else if p.negated then throw .danglingNot
      else throw .empty
    else pure p.finish
  | node :: rest =>
    if node.isTerm "NOT" && !p.begun && !p.negated then
      readGroup condition text { p with negated := true } rest
    else if node.isTerm "OR" then
      if p.current.isEmpty then throw (.missingLeftOperand text)
      else
        readGroup condition text
          { p with begun := true, alternatives := p.current :: p.alternatives, current := [] } rest
    else do
      let f ← readNode condition node
      readGroup condition text { p with begun := true, current := f :: p.current } rest

end

/-- The filter of a single condition; `find` finds fields. -/
def readOne (find : String → m (Except FieldError (Option Field))) (settings : Settings)
    (condition : String) : m Filter := do
  let (name, values) ← MonadExcept.ofExcept (split settings condition)
  let (field, family) ← MonadExcept.ofExcept (familyOf name condition (← find name))
  MonadExcept.ofExcept (ofValues settings.clock field family values condition)

/-- The filter of tokens, of which the text is shown in errors. -/
def readWithText (find : String → m (Except FieldError (Option Field))) (settings : Settings)
    (tokens : List String) (text : String) : m Filter := do
  match Node.nest tokens with
  | .error u => throw (u.error text)
  | .ok nodes => readGroup (readOne find settings) text .start nodes

/-- The filter of a list of tokens. -/
def readTokens (find : String → m (Except FieldError (Option Field))) (settings : Settings)
    (tokens : List String) : m Filter :=
  readWithText find settings tokens (" ".intercalate tokens)

/-- The filter of a condition. -/
def read (find : String → m (Except FieldError (Option Field))) (settings : Settings)
    (condition : String) : m Filter :=
  match Token.split? condition with
  | some tokens => readWithText find settings tokens condition
  | none => throw (.unterminatedQuote condition)

end

/-- Reading with a catalogue, which holds the parametric fields met also when reading fails. -/
abbrev CatalogueReader := ExceptT ConditionError (StateM Catalogue)

/-- Finds a field in the catalogue. -/
def findIn (name : String) : CatalogueReader (Except FieldError (Option Field)) :=
  ExceptT.lift fun c => c.lookup name

end Condition
end DownloadQuery
