import DownloadQuery.Text.Split

/-!
# Arguments

The arguments of the command. Options have long and short names; a short name may be followed by more
of them in the same argument, and a value may be in the argument of its option. Values that no option
takes are the items file and the conditions. Values are stored when the next option or the end comes.
-/

namespace DownloadQuery
namespace Command

/-- How selected items are shown. -/
inductive OutputFormat where
  | text
  | json
  deriving DecidableEq, Repr

namespace OutputFormat

def name : OutputFormat → String
  | .text => "text"
  | .json => "json"

def ofName? (name : String) : Option OutputFormat := [text, json].find? (·.name == name)

end OutputFormat

/-- What the arguments ask for. -/
structure Arguments where
  items? : Option String
  conditions : List String
  config? : Option String
  defaultField? : Option String
  format? : Option OutputFormat
  fields : List String
  strict : Bool
  showFilter : Bool
  listFields : Bool
  verbosity : Nat
  deriving DecidableEq, Repr

namespace Arguments

/-- No arguments at all. -/
def empty : Arguments := ⟨none, [], none, none, none, [], false, false, false, 0⟩

/-- The format, text if none is given. -/
def format (a : Arguments) : OutputFormat := a.format?.getD .text

end Arguments

/-- Why arguments lead to no run. -/
inductive Refusal where
  | invalidValue
  | conflict
  | unknownArgument
  | tooManyValues
  | missingArgument
  | help (long : Bool)
  | version
  deriving DecidableEq, Repr

/-- What takes values. -/
inductive Slot where
  | items
  | conditions
  | config
  | defaultField
  | format
  | fields
  deriving DecidableEq, Repr

/-- Options without values. -/
inductive Flag where
  | strict
  | showFilter
  | listFields
  | verbose
  | help
  | version
  deriving DecidableEq, Repr

inductive CommandOption where
  | slot (s : Slot)
  | flag (f : Flag)
  deriving DecidableEq, Repr

namespace CommandOption

def ofLongName? (name : String) : Option CommandOption :=
  [("config", slot .config), ("default-field", slot .defaultField), ("output-format", slot .format),
    ("fields", slot .fields), ("strict", flag .strict), ("show-filter", flag .showFilter),
    ("list-fields", flag .listFields), ("verbose", flag .verbose), ("help", flag .help),
    ("version", flag .version)].lookup name

def ofShortName? (name : Char) : Option CommandOption :=
  [('c', slot .config), ('d', slot .defaultField), ('O', slot .format), ('o', slot .fields),
    ('v', flag .verbose), ('h', flag .help), ('V', flag .version)].lookup name

end CommandOption

namespace Arguments

/-- Sets a value that may be given once. -/
def once {α : Type} (old : Option α) (new : Option α) : Except Refusal (Option α) :=
  if old.isSome then .error .conflict
  else if new.isSome then .ok new
  else .error .invalidValue

/-- A path, which is not empty. -/
def path? (text : String) : Option String := if text = "" then none else some text

/-- The parts of a list with commas. -/
def listed (text : String) : List String := (Text.splitAt ',' text.toList).map String.ofList

/-- Stores the values of a slot, of which there is at least one. -/
def store (a : Arguments) (s : Slot) (values : List String) : Except Refusal Arguments :=
  match values with
  | [] => .error .invalidValue
  | value :: _ =>
    match s with
    | .items => do return { a with items? := ← once a.items? (path? value) }
    | .conditions => .ok { a with conditions := a.conditions ++ values }
    | .config => do return { a with config? := ← once a.config? (path? value) }
    | .defaultField => do return { a with defaultField? := ← once a.defaultField? (some value) }
    | .format => do return { a with format? := ← once a.format? (OutputFormat.ofName? value) }
    | .fields => .ok { a with fields := a.fields ++ values.flatMap listed }

/-- Raises a flag; only verbosity may be raised again. -/
def raise (a : Arguments) (f : Flag) (long : Bool) : Except Refusal Arguments :=
  let once (raised : Bool) (a : Arguments) : Except Refusal Arguments :=
    if raised then .error .conflict else .ok a
  match f with
  | .strict => once a.strict { a with strict := true }
  | .showFilter => once a.showFilter { a with showFilter := true }
  | .listFields => once a.listFields { a with listFields := true }
  | .verbose => .ok { a with verbosity := min 255 (a.verbosity + 1) }
  | .help => .error (.help long)
  | .version => .error .version

end Arguments

/-- Arguments that are being read. -/
structure Progress where
  stored : Arguments
  /-- Values that are not stored yet. -/
  pending? : Option (Slot × List String)
  /-- Whether there has been a value that no option takes; the first one is the items file. -/
  hasItems : Bool
  /-- Whether all that follows are values. -/
  onlyValues : Bool
  deriving DecidableEq, Repr

namespace Progress

def start : Progress := ⟨.empty, none, false, false⟩

/-- Stores the pending values. -/
def settle (p : Progress) : Except Refusal Progress :=
  match p.pending? with
  | none => .ok p
  | some (s, values) => do return { p with stored := ← p.stored.store s values, pending? := none }

/-- Reads an option with the value in its own argument, if there is one. -/
def readOption (p : Progress) (long : Bool) (attached? : Option String) :
    CommandOption → Except Refusal Progress
  | .flag f =>
    if attached?.isSome then .error .tooManyValues
    else do
      let p ← p.settle
      return { p with stored := ← p.stored.raise f long }
  | .slot s => do
    let p ← p.settle
    match attached? with
    | some value => return { p with stored := ← p.stored.store s [value] }
    | none => return { p with pending? := some (s, []) }

/-- Reads what follows two dashes. -/
def readLong (p : Progress) (text : List Char) : Except Refusal Progress :=
  let name := text.takeWhile (· != '=')
  let attached? :=
    match text.drop name.length with
    | _ :: value => some (String.ofList value)
    | [] => none
  match CommandOption.ofLongName? (String.ofList name) with
  | some option => p.readOption true attached? option
  | none => .error .unknownArgument

/-- Reads what follows one dash: short names, and a value after one that takes it. -/
def readShort : List Char → Progress → Except Refusal Progress
  | [], p => .ok p
  | c :: rest, p =>
    match CommandOption.ofShortName? c, rest with
    | none, _ => .error .unknownArgument
    | some (.flag f), _ => do readShort rest (← p.readOption false none (.flag f))
    | some option, [] => p.readOption false none option
    | some option, '=' :: value => p.readOption false (some (String.ofList value)) option
    | some option, value => p.readOption false (some (String.ofList value)) option

/-- Reads a value that no option takes. -/
def readFree (p : Progress) (value : String) : Except Refusal Progress :=
  match p.hasItems, p.pending? with
  | true, some (.conditions, values) =>
    .ok { p with pending? := some (.conditions, values ++ [value]) }
  | hasItems, _ => do
    let s := if hasItems then Slot.conditions else Slot.items
    return { ← p.settle with pending? := some (s, [value]), hasItems := true }

/-- Reads an argument. -/
def read (p : Progress) (argument : String) : Except Refusal Progress :=
  if p.onlyValues then p.readFree argument
  else
    match argument.toList with
    | ['-', '-'] => .ok { p with onlyValues := true }
    | '-' :: '-' :: text => p.readLong text
    | '-' :: c :: text => readShort (c :: text) p
    | _ =>
      match p.pending? with
      | some (s, []) => .ok { p with pending? := some (s, [argument]) }
      | _ => p.readFree argument

end Progress

namespace Arguments

/-- Reads arguments. A configuration file may also come from outside, and an items file must be given
unless fields are to be listed. -/
def read (config? : Option String) (arguments : List String) : Except Refusal Arguments := do
  let a := (← (← arguments.foldlM Progress.read .start).settle).stored
  let a ←
    match a.config?, config? with
    | none, some path => a.store .config [path]
    | _, _ => .ok a
  if a.items?.isNone ∧ !a.listFields then throw .missingArgument
  return a

end Arguments
end Command
end DownloadQuery
