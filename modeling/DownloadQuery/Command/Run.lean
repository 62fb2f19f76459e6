import DownloadQuery.Command.Arguments
import DownloadQuery.Command.Help
import DownloadQuery.Condition.Reader
import DownloadQuery.Config
import DownloadQuery.Filter.Canonical
import DownloadQuery.Report.Items

/-!
# Running the command

What the command writes for its arguments, in a world of files and a clock.
-/

namespace DownloadQuery
namespace Command

/-- What a run sees of the world. -/
structure World where
  files : Files
  scene : Scene
  /-- The configuration file of a run whose arguments name none. -/
  config? : Option String

/-- Why a run fails. -/
inductive RunError where
  | config (e : ConfigError)
  | customFields (e : DuplicateField)
  | items (e : ItemsFileError)
  | condition (e : ConditionError)
  | item (e : ItemFailure)
  | field (e : FieldError)
  deriving DecidableEq, Repr

namespace RunError

/-- The error and what caused it, from the outside in. -/
def causes : RunError → List String
  | .config (.unreadable path fault) =>
    ["Failed to load config", (ConfigError.unreadable path fault).message, fault.message]
  | .config (.malformed path) =>
    ["Failed to load config", (ConfigError.malformed path).message]
  | .customFields e => ["Invalid custom field definitions", e.message]
  | .items (.unreadable path fault) =>
    [(ItemsFileError.unreadable path fault).message, fault.message]
  | .items e => [e.message]
  | .condition (.badField name text e) =>
    [(ConditionError.badField name text e).message, e.message]
  | .condition e => [e.message]
  | .item e => [e.message, e.error.message]
  | .field e => [e.message]

def message (e : RunError) : String := "error: " ++ ": ".intercalate e.causes

end RunError

/-- What a run leaves behind: its exit code and what it has written. -/
structure Outcome where
  code : Nat
  stdout : String
  stderr : String
  deriving DecidableEq, Repr

/-- A run that writes notes and may fail or end at once. The notes stay. -/
abbrev Run := ExceptT (Halt RunError) (StateM (List String))

namespace Run

/-- Writes a note. -/
def note (text : String) : Run Unit := fun notes => (.ok (), notes ++ [text])

/-- Goes on with a result or ends. -/
def orHalt {ε α : Type} (wrap : ε → RunError) (result : Except (Halt ε) α) : Run α :=
  ExceptT.mk (pure (result.mapError (Halt.map wrap)))

/-- Goes on with a result or fails. -/
def orFail {ε α : Type} (wrap : ε → RunError) (result : Except ε α) : Run α :=
  orHalt wrap (liftM result)

/-- The catalogue after the conditions are read, the items after they are matched, and the indices of
those that are selected. -/
def select (w : World) (a : Arguments) (c : Config) (catalogue : Catalogue) (items : List Item) :
    Run (Inventory × List Nat) := do
  if a.conditions.isEmpty then return (⟨catalogue, ⟨items, []⟩⟩, List.range items.length)
  let settings : Condition.Settings :=
    { clock := w.scene.clock, defaultField? := some (a.defaultField?.getD c.defaultField) }
  let (result, catalogue) :=
    (Condition.readTokens Condition.findIn settings a.conditions).run catalogue
  let f ← orFail .condition result
  if a.showFilter then note ("Filter: " ++ f.text)
  let (result, stock) := Selection.selectWith w.scene f (a.strict || c.strict) ⟨items, []⟩
  let selection ← orHalt .item result
  if !selection.isClean then
    note s!"Skipped {selection.failures.length} item(s) with unreadable fields"
  return (⟨catalogue, stock⟩, selection.matched)

/-- The report that the arguments ask for. -/
def report (w : World) (a : Arguments) : Run String := do
  let c ← orFail .config (Config.load w.files a.config?)
  let catalogue ← orFail .customFields c.catalogue
  if a.listFields then return Report.fieldList catalogue
  let items ← orFail .items (Item.load w.files (a.items?.getD ""))
  let (inventory, indices) ← select w a c catalogue items
  let names := if a.fields.isEmpty then c.outputFields else a.fields
  let reader :=
    match a.format with
    | .text => Report.itemsText w.scene indices names
    | .json => Report.itemsJson w.scene indices names
  orHalt .field (reader.run inventory).1

end Run

/-- Lines as they are written. -/
def written (lines : List String) : String := String.join (lines.map (· ++ "\n"))

/-- What is said about a sum that is too great. -/
def overflowText : String := "attempt to add with overflow"

/-- What a run with arguments that are understood leaves behind. -/
def perform (w : World) (a : Arguments) : Outcome :=
  match (Run.report w a).run [] with
  | (.ok text, notes) => ⟨0, written [text], written notes⟩
  | (.error (.error e), notes) => ⟨1, "", written (notes ++ [e.message])⟩
  | (.error .overflow, notes) => ⟨101, "", written (notes ++ [overflowText])⟩

/-- What is said about arguments that are not understood. -/
def refusalText : Refusal → String
  | .invalidValue => "invalid value"
  | .conflict => "an argument cannot be used multiple times"
  | .unknownArgument => "unexpected argument"
  | .tooManyValues => "unexpected value"
  | .missingArgument => "a required argument was not provided"
  | .help _ => ""
  | .version => ""

/-- What the command leaves behind. -/
def run (w : World) (arguments : List String) : Outcome :=
  match Arguments.read w.config? arguments with
  | .ok a => perform w a
  | .error (.help long) => ⟨0, helpText w.config? long, ""⟩
  | .error .version => ⟨0, versionText, ""⟩
  | .error refusal => ⟨2, "", written ["error: " ++ refusalText refusal]⟩

end Command
end DownloadQuery
