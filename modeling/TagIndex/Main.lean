import Std.Time
import TagIndex.Command.Form
import TagIndex.Command.Run
import TagIndex.Usage.Synopsis

/-!
The command line. Files are read before a command is carried out, and its database is written after
it; paths are below the working directory.
-/
namespace TagIndex.Main

def environment : IO Environment := do
  return {
    database := ← IO.getEnv "TAGDB_DATABASE"
    searchLimit := ← IO.getEnv "TAGDB_SEARCH_LIMIT"
    caseSensitive := ← IO.getEnv "TAGDB_CASE_SENSITIVE" }

def readText? (path : String) : IO (Option String) := do
  try return some (← IO.FS.readFile path) catch _ => return none

def userSettings? : IO (Option String) := do
  let folder ← match ← IO.getEnv "XDG_CONFIG_HOME" with
    | some folder => pure folder
    | none => pure (((← IO.getEnv "HOME").getD "") ++ "/.config")
  readText? (folder ++ "/tagdb/config.yaml")

def now : IO Int := return (← Std.Time.Timestamp.now).toSecondsSinceUnixEpoch.val

def isDirectory (path : String) : IO Bool := do
  ((← IO.currentDir) / path).isDir

/-- Puts a directory on the disk, if it is one. -/
def loadDirectory (d : Disk) (path : String) : IO Disk := do
  match d.locate { path } with
  | some (.inside parts) =>
    if ← isDirectory path then return { d with directories := parts :: d.directories } else return d
  | _ => return d

/-- Puts a file on the disk, or a directory with all that is below it. -/
partial def load (d : Disk) (path : String) : IO Disk := do
  if ← isDirectory path then
    let mut d ← loadDirectory d path
    for entry in ← ((← IO.currentDir) / path).readDir do
      d ← load d (path ++ "/" ++ entry.fileName)
    return d
  else
    match ← readText? path with
    | some text => return d.write path text
    | none => return d

/-- Takes the text of the file at an address for a database, if it is one. -/
def loadDatabase (d : Disk) (address : String) : IO Disk := do
  let some (.inside parts) := d.placeOf? address | return d
  let path := Text.joined "/" parts
  let d ← loadDirectory (← loadDirectory d (Text.joined "/" parts.dropLast)) path
  let some text ← readText? path | return d
  match Database.ofText? text with
  | some db => return d.put (.inside parts) (.database db)
  | none => return d.put (.inside parts) (.text text)

def saveDatabase (d : Disk) (address : String) : IO Unit := do
  let some (.inside parts) := d.placeOf? address | return
  match d.content? (.inside parts) with
  | some (.database db) => IO.FS.writeFile (Text.joined "/" parts) db.toText
  | _ => return

def pathsOf : Command → List String
  | .take paths _ => paths
  | _ => []

def carryOut (i : Invocation) : IO UInt32 := do
  let env ← environment
  let user ← userSettings?
  let mut disk : Disk := {}
  for path in pathsOf i.command ++ i.settings.toList do
    disk ← load disk path
  let settings := Settings.load user (i.settings.map fun path => (path, disk.readText path)) env
  let database := i.database.getD (settings.toOption.getD {}).databasePath
  disk ← loadDatabase disk database
  let (report, after) := i.run env user (← now) disk
  IO.print report.out
  saveDatabase after database
  match report.failure with
  | none => return 0
  | some f =>
    IO.eprintln ("Error: " ++ f.message)
    return 1

def refuse (r : Usage.Refusal) : IO UInt32 := do
  match r with
  | .help =>
    for line in Command.form.synopsis "" do
      IO.println line
    return 0
  | .version =>
    IO.println currentVersion
    return 0
  | _ =>
    IO.eprintln ("error: " ++ r.message)
    return 2

end TagIndex.Main

def main (args : List String) : IO UInt32 :=
  match TagIndex.Command.ofLine args with
  | .ok i => TagIndex.Main.carryOut i
  | .error r => TagIndex.Main.refuse r
