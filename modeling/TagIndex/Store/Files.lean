import TagIndex.Store.Fetch

/-! Lookups of files and macros; their answers are never kept. -/
namespace TagIndex

namespace Text

/-- The text from the first place on where `part` occurs. -/
def fromFirst (part : List Char) : List Char → Option (List Char)
  | [] => if part.isEmpty then some [] else none
  | c :: cs => if part.isPrefixOf (c :: cs) then some (c :: cs) else fromFirst part cs

def isSlash (c : Char) : Bool := c = '/' || c = '\\'

def slashed (s : String) : String := s.map fun c => if c = '\\' then '/' else c

end Text

namespace Database

def sortedFiles (db : Database) : List FileEntry :=
  db.files.mergeSort fun a b => decide (a.file ≤ b.file)

/-- The files whose path fits a pattern, after `f` was applied to it; ordered by path. -/
def filesLike (pattern : String) (f : String → String) (db : Database) :
    Except Fault (List FileEntry) :=
  if Text.maxPatternBytes < pattern.utf8ByteSize && !db.files.isEmpty then .error .patternTooLong
  else
    .ok (db.sortedFiles.filter fun e =>
      Text.matchesPattern (some Text.escapeMark) pattern (f e.file))

end Database

/-- Whether a file's name starts with a text, or its whole path when the text ends in a slash. -/
def FileEntry.startsWith (e : FileEntry) (text : String) : Bool :=
  let cs := e.file.toList
  let whole := text.toList.getLast?.any Text.isSlash
  text.toList.isPrefixOf (if whole then cs else Text.afterLast Text.isSlash cs)

/-- The path from the first occurrence of the typed text on, with slashes only. -/
def FileEntry.completion (e : FileEntry) (typed : String) : Option String :=
  (Text.fromFirst (Text.slashed typed).toList (Text.slashed e.file).toList).map String.ofList

namespace Store

def files : Lookup (List FileEntry) :=
  return (← askDatabase fun db => .ok db.sortedFiles).getD []

def filesMatching (text : String) : Lookup (List FileEntry) := do
  let found ← askDatabase (Database.filesLike (Text.containing text) id)
  return (found.getD []).filter (·.startsWith text)

def filesForCompletion (typed : String) : Lookup (List String) := do
  let found ← askDatabase (Database.filesLike (Text.containing (Text.slashed typed)) Text.slashed)
  return (found.getD []).filterMap (·.completion typed)

def getMacro (name : String) : Lookup (Option Macro.Token) := do
  let found ← askDatabase fun db => .ok (db.macros.find? (·.name = name))
  return (found.bind id).map Macro.token

/-- The simple macros of a file, in the order in which they were stored. -/
def simpleMacrosForFile (file : String) : Lookup (List String) := do
  let found ← askDatabase fun db => .ok ((db.simpleMacros.filter (·.file = file)).map (·.name))
  return found.getD []

end Store
end TagIndex
