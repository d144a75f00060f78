import TagIndex.Disk.Reading
import TagIndex.Store
import TagIndex.Yaml.Document

/-!
Settings come in layers: the user's file, an explicit file, and the environment. A field has the
value of the last layer that sets it.
-/
namespace TagIndex

structure Settings where
  database : Option String := none
  busyTimeoutMs : Option Nat := none
  searchLimit : Option Nat := none
  caseSensitive : Option Bool := none
  useCache : Option Bool := none
  deriving DecidableEq, Repr, Inhabited

/-- The variables that bear on the settings, as far as they are set. -/
structure Environment where
  database : Option String := none
  searchLimit : Option String := none
  caseSensitive : Option String := none
  deriving DecidableEq, Repr, Inhabited

inductive SettingsError where
  | unreadable (path : String) (f : ReadFault)
  | invalid (path : String)
  deriving DecidableEq, Repr

def SettingsError.message : SettingsError → String
  | unreadable path f => "Failed to read config file " ++ path ++ ": " ++ f.message
  | invalid path => "Invalid config file " ++ path

/-- Words that switch an option on, in lower case. -/
def switchedOn : List String := ["1", "true", "yes", "on"]

/-- What the variables set; a limit that is no number sets nothing, nor does an empty path. -/
def Environment.settings (e : Environment) : Settings where
  database := e.database.filter (· ≠ "")
  searchLimit := e.searchLimit.bind fun s => Text.natural? Text.wordBound s.toList
  caseSensitive := e.caseSensitive.map fun s => switchedOn.contains s.toLower

namespace Settings

/-- The database file when no layer names one. -/
def defaultDatabase : String := "tags.db"

/-- The settings with those of a later layer on top. -/
def overlay (earlier later : Settings) : Settings where
  database := later.database.or earlier.database
  busyTimeoutMs := later.busyTimeoutMs.or earlier.busyTimeoutMs
  searchLimit := later.searchLimit.or earlier.searchLimit
  caseSensitive := later.caseSensitive.or earlier.caseSensitive
  useCache := later.useCache.or earlier.useCache

/-- The settings in a document, which has to be a mapping; unknown members are ignored. -/
def ofYaml? : Yaml → Option Settings
  | .mapping ms => do
    return {
      database := ← Yaml.member ms "database" Yaml.text?
      busyTimeoutMs := ← Yaml.member ms "busy_timeout_ms" Yaml.nat?
      searchLimit := ← Yaml.member ms "search_limit" Yaml.nat?
      caseSensitive := ← Yaml.member ms "case_sensitive" Yaml.bool?
      useCache := ← Yaml.member ms "use_cache" Yaml.bool? }
  | _ => none

def ofText? (s : String) : Option Settings := (Yaml.read s).bind ofYaml?

/-- The user's file sets nothing when it is absent or invalid. -/
def ofUser (text : Option String) : Settings := (text.bind ofText?).getD {}

/-- An explicit file has to be there and to be valid. -/
def ofExplicit (path : String) : Except ReadFault String → Except SettingsError Settings
  | .error f => .error (.unreadable path f)
  | .ok text =>
    match ofText? text with
    | some s => .ok s
    | none => .error (.invalid path)

/-- All layers. The explicit file, if one is given, comes with what reading it gave. -/
def load (user : Option String) (explicit : Option (String × Except ReadFault String))
    (env : Environment) : Except SettingsError Settings := do
  let middle ← match explicit with
    | some (path, text) => ofExplicit path text
    | none => .ok {}
  return ((ofUser user).overlay middle).overlay env.settings

def databasePath (s : Settings) : String := s.database.getD defaultDatabase

/-- The options of a session; the search limit is at least one. -/
def options (s : Settings) : Options :=
  let d : Options := {}
  { busyTimeoutMs := s.busyTimeoutMs.getD d.busyTimeoutMs
    searchLimit := max (s.searchLimit.getD d.searchLimit) 1
    caseSensitive := s.caseSensitive.getD d.caseSensitive
    useCache := s.useCache.getD d.useCache }

end Settings
end TagIndex
