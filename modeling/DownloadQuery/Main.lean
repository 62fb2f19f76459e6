import DownloadQuery.Calendar.ZoneText
import DownloadQuery.Command.Run
import Std.Time.DateTime.Timestamp

/-!
# The command

The outer layer of the command: it looks at the clock, the environment and the files that a run asks
for, and writes what the run leaves behind.
-/

namespace DownloadQuery
namespace Command

/-- Why a file could not be read, by the error of the system. -/
def faultOf : IO.Error → FileFault
  | .noFileOrDirectory .. => .absent
  | .permissionDenied .. => .denied
  | .inappropriateType _ code _ => if code = 21 then .isDirectory else .notInDirectory
  | e => .other (toString e)

/-- The content of a text file. -/
def readFile (path : String) : IO (Except FileFault String) := do
  try
    match String.fromUTF8? (← IO.FS.readBinFile path) with
    | some text => return .ok text
    | none => return .error .notText
  catch e => return .error (faultOf e)

/-- The canonical path of a file that is there. -/
def canonicalPath? (path : String) : IO (Option String) := do
  try return some (← IO.FS.realPath path).toString
  catch _ => return none

/-- The answers for some keys. -/
def gather {α : Type} (ask : String → IO α) (keys : List String) : IO (List (String × α)) :=
  keys.mapM fun key => do return (key, ← ask key)

/-- The world as a run with some arguments sees it. -/
def lookAround (arguments : List String) : IO World := do
  let config? ← IO.getEnv "RTQUERY_CONFIG"
  let zone := Zone.ofText ((← IO.getEnv "TZ").getD "UTC0")
  let now ← Std.Time.Timestamp.now
  let wanted :=
    match Arguments.read config? arguments with
    | .ok a => a.config?.toList ++ a.items?.toList
    | .error _ => []
  let contents ← gather readFile wanted
  let files : Files := fun path => (contents.lookup path).getD (.error .absent)
  let items := wanted.flatMap fun path => ((Item.load files path).toOption).getD []
  let paths := items.filterMap fun item => (Derivation.pathOf item.raw).toOption
  let canonical ← gather canonicalPath? paths
  let scene : Scene :=
    { clock := ⟨zone, now.toMillisecondsSinceUnixEpoch.val⟩
      fileExists := fun path => ((canonical.lookup path).bind id).isSome
      canonicalPath? := fun path => (canonical.lookup path).bind id }
  return { files, scene, config? }

end Command
end DownloadQuery

/-- Runs the command. -/
def main (arguments : List String) : IO UInt32 := do
  let world ← DownloadQuery.Command.lookAround arguments
  let outcome := DownloadQuery.Command.run world arguments
  IO.print outcome.stdout
  IO.eprint outcome.stderr
  return outcome.code.toUInt32
