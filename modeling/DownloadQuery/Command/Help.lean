/-!
# Help

What the command says about itself: its version, and its arguments in a short and a long form.
-/

namespace DownloadQuery
namespace Command

def programName : String := "rtquery"

def versionText : String := programName ++ " 0.1.0\n"

/-- What is said about an argument. -/
structure HelpEntry where
  head : String
  about : String
  /-- Remarks in brackets. -/
  remarks : List String
  /-- The values that are possible and what they mean. -/
  choices : List (String × String)

namespace HelpEntry

def plain (head about : String) : HelpEntry := ⟨head, about, [], []⟩

/-- How far the text of an entry is indented on a line of its own. -/
def indent : String := "          "

/-- The possible values as a remark. -/
def choiceRemarks (e : HelpEntry) : List String :=
  if e.choices.isEmpty then []
  else ["[possible values: " ++ ", ".intercalate (e.choices.map (·.1)) ++ "]"]

/-- The text of the short form. -/
def summary (e : HelpEntry) : String := " ".intercalate (e.about :: e.remarks ++ e.choiceRemarks)

/-- An entry in the short form, the text next to the head. -/
def besideHead (width : Nat) (e : HelpEntry) : String :=
  "  " ++ e.head ++ String.ofList (List.replicate (width + 2 - e.head.length) ' ') ++ e.summary

/-- An entry in the short form, the text below the head. -/
def belowHead (e : HelpEntry) : String := "  " ++ e.head ++ "\n" ++ indent ++ e.summary

/-- An entry in the long form. -/
def long (e : HelpEntry) : String :=
  let remarks := if e.remarks.isEmpty then [] else indent :: e.remarks.map (indent ++ ·)
  let choices :=
    if e.choices.isEmpty then []
    else "" :: (indent ++ "Possible values:") ::
      e.choices.map fun (name, about) => indent ++ "- " ++ name ++ ": " ++ about
  "\n".intercalate (("  " ++ e.head) :: (indent ++ e.about) :: remarks ++ choices)

end HelpEntry

def argumentEntries : List HelpEntry :=
  [.plain "[ITEMS]" "JSON (or JSON5) file holding an array of item objects",
    .plain "[CONDITIONS]..." ("Filter conditions, e.g. 'ratio=+1' 'size>4g' '[' 'alias=foo' OR " ++
      "'is_complete=no' ']'")]

/-- The options; the configuration file that comes from outside is shown. -/
def optionEntries (config? : Option String) (long : Bool) : List HelpEntry :=
  [⟨"-c, --config <CONFIG>", "Path to a TOML configuration file",
      ["[env: RTQUERY_CONFIG=" ++ config?.getD "" ++ "]"], []⟩,
    .plain "-d, --default-field <DEFAULT_FIELD>"
      "Field compared against conditions without '=' (overrides the config)",
    ⟨"-O, --output-format <OUTPUT_FORMAT>", "Output format", ["[default: text]"],
      [("text", "A table for humans"), ("json", "A JSON array of objects")]⟩,
    .plain "-o, --fields <FIELDS>" "Comma separated list of fields to show for each matched item",
    .plain "    --strict" "Abort on the first item whose fields cannot be read",
    .plain "    --show-filter" "Print the parsed filter in canonical form before the results",
    .plain "    --list-fields" "List all known fields and exit",
    .plain "-v, --verbose..." "Increase log verbosity (-v info, -vv debug, -vvv trace)",
    .plain "-h, --help"
      (if long then "Print help (see a summary with '-h')"
        else "Print help (see more with '--help')"),
    .plain "-V, --version" "Print version"]

/-- The help text in either form. -/
def helpText (config? : Option String) (long : Bool) : String :=
  let options := optionEntries config? long
  let sections :=
    if long then
      ["\n\n".intercalate (argumentEntries.map HelpEntry.long),
        "\n\n".intercalate (options.map HelpEntry.long)]
    else
      ["\n".intercalate (argumentEntries.map (HelpEntry.besideHead "[CONDITIONS]...".length)),
        "\n".intercalate (options.map HelpEntry.belowHead)]
  "\n\n".intercalate (
    ["Select download items from a JSON snapshot using filter conditions",
      "Usage: " ++ programName ++ " [OPTIONS] [ITEMS] [CONDITIONS]..."] ++
    List.zipWith (fun title body => title ++ "\n" ++ body) ["Arguments:", "Options:"] sections) ++
    "\n"

end Command
end DownloadQuery
