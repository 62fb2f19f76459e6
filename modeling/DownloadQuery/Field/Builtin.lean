import DownloadQuery.Field.Basic

/-!
# Built-in fields

The fields that every catalogue starts with, and the two families of fields that are made when their
name is first asked for: `kind_N`, the file types with a share of at least `N` percent, and
`custom_KEY`, a custom attribute.
-/

namespace DownloadQuery
namespace Field

/-- A text that is compared with patterns. -/
def textual (freshness : Freshness) (name doc : String) (source : Source) : Field :=
  ⟨name, doc, .text, freshness, source, some .pattern, none⟩

/-- A yes or no. -/
def flag (freshness : Freshness) (name doc : String) (source : Source) : Field :=
  ⟨name, doc, .boolean, freshness, source, some .bool, some .yesNo⟩

/-- A number of bytes. -/
def bytes (freshness : Freshness) (name doc : String) (source : Source) : Field :=
  ⟨name, doc, .integer, freshness, source, some .byteSize, some .humanSize⟩

def timestamp (name doc : String) : Field :=
  ⟨name, doc, .timestamp, .dynamic, .stored, some .timeNotNull, some .isoDatetime⟩

def duration (name doc : String) (d : Derivation) : Field :=
  ⟨name, doc, .duration, .dynamic, .derived d, some .duration, some .humanDuration⟩

def tags (freshness : Freshness) (name doc : String) (source : Source) : Field :=
  ⟨name, doc, .tags, freshness, source, some .tagged, none⟩

/-- The file types that make up a share of the bytes. -/
def kinds (name : String) (percent : Nat) : Field :=
  let doc :=
    if percent = 0 then "ALL kinds of files in this item (the same as kind_0)"
    else s!"kinds of files that make up at least {percent}% of this item's size"
  tags .onDemand name doc (.derived (.kinds percent))

/-- A custom attribute; the literal decides how it is compared. -/
def custom (name key : String) : Field :=
  ⟨name, s!"custom attribute '{key}'", .untyped, .onDemand, .stored, some .magic, none⟩

/-- The built-in fields for the trackers of a site. -/
def builtins (table : AnnounceTable) (themes : List (String × String)) : List Field :=
  [textual .constant "hash" "info hash" .stored,
   textual .constant "name" "name (file or root directory)" .stored,
   flag .constant "is_private" "private flag set (no DHT/PEX)?" .stored,
   flag .constant "is_multi_file" "single- or multi-file download?" .stored,
   flag .dynamic "is_open" "download open?" .stored,
   flag .dynamic "is_active" "download active?" .stored,
   flag .dynamic "is_complete" "download complete?" .stored,
   flag .dynamic "is_ignored" "ignore commands?" .stored,
   flag .dynamic "is_ghost" "has no data file or directory?" (.derived .ghost),
   bytes .constant "size" "data size" .stored,
   ⟨"done", "completion in percent", .float, .dynamic, .stored, some .float, some .percent⟩,
   ⟨"ratio", "normalized ratio (1:1 = 1.0)", .ratio, .dynamic, .stored, some .float, none⟩,
   bytes .dynamic "up" "upload rate" .stored,
   bytes .dynamic "down" "download rate" .stored,
   bytes .dynamic "xfer" "transfer rate" (.derived .transferRate),
   bytes .dynamic "uploaded" "amount of uploaded data" .stored,
   ⟨"prio", "priority (0=off, 1=low, 2=normal, 3=high)", .integer, .dynamic, .stored, some .float,
     none⟩,
   textual .dynamic "throttle" "throttle group name" .stored,
   timestamp "loaded" "time metafile was loaded",
   timestamp "started" "time download was FIRST started",
   timestamp "completed" "time download was finished",
   duration "age" "time since metafile was loaded" .age,
   duration "leechtime" "time taken from start to completion" .leechTime,
   duration "seedtime" "total seeding time after completion" .seedTime,
   textual .dynamic "path" "path to download data" .stored,
   textual .dynamic "realpath" "real path to download data" (.derived .realPath),
   textual .dynamic "metafile" "path to torrent file" .stored,
   textual .onDemand "directory" "directory containing download data" .stored,
   ⟨"files", "list of files in this item", .files, .onDemand, .stored, some .files, none⟩,
   textual .dynamic "tracker" "first in the list of announce URLs" (.derived .tracker),
   textual .onDemand "message" "current tracker message" .stored,
   tags .dynamic "tagged" "has certain tags? (not related to the 'tagged' view)" .stored,
   tags .onDemand "views" "views this item is attached to" .stored,
   kinds "kind" 0,
   textual .constant "alias" "tracker alias or domain" (.derived (.trackerAlias table)),
   ⟨"traits", "automatic classification of this item (audio, video, tv, movie, etc.)", .list,
     .dynamic, .derived (.traits table themes), some .tagged, some .traitPath⟩]

/-- The digits of a `kind_N` name. -/
def kindDigits? (name : String) : Option (List Char) :=
  match Text.stripFront? "kind_".toList name.toList with
  | some digits => if digits != [] && digits.all Whole.isDigit then some digits else none
  | none => none

/-- The percentage that digits stand for, a 32-bit word of at most 100. -/
def percent? (digits : List Char) : Option Nat :=
  match Whole.readNat (Nat.pow 2 32 - 1) digits with
  | .ok percent => if percent ≤ 100 then some percent else none
  | .error _ => none

/-- The field that a name stands for on its own, if it is of one of the two families. -/
def parametric? (name : String) : Except FieldError (Option Field) :=
  match kindDigits? name with
  | some digits =>
    match percent? digits with
    | some percent => .ok (some (kinds name percent))
    | none => .error (.percentOutOfRange name (String.ofList digits))
  | none =>
    match Snapshot.customKey? name with
    | some key =>
      if key = "" then .ok none
      else .ok (some (custom name key))
    | none => .ok none

end Field
end DownloadQuery
