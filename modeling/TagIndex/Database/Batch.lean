import TagIndex.Database.Work

/-!
Batches of tags. A batch replaces all tags of every file that it names: the old rows are removed
first, and a tag whose key its file had just before gets its old id again. Of tags with one key the
last one stays.
-/
namespace TagIndex

structure StoreStats where
  filesReplaced : Nat := 0
  tagsRemoved : Nat := 0
  tagsInserted : Nat := 0
  tagsSkipped : Nat := 0
  deriving DecidableEq, Repr

def StoreStats.add (a b : StoreStats) : StoreStats where
  filesReplaced := a.filesReplaced + b.filesReplaced
  tagsRemoved := a.tagsRemoved + b.tagsRemoved
  tagsInserted := a.tagsInserted + b.tagsInserted
  tagsSkipped := a.tagsSkipped + b.tagsSkipped

namespace Batch

/-- The ids that the keys of replaced rows had. -/
abbrev Memory := List (Tag.Key × Nat)

def Memory.id? (m : Memory) (k : Tag.Key) : Option Nat := (m.find? (·.1 = k)).map (·.2)

/-- Each id is given back once. -/
def Memory.spend (m : Memory) (k : Tag.Key) : Memory := m.filter (·.1 ≠ k)

/-- Puts a text into its place in an ascending list without repeats. -/
def insertDistinct (s : String) : List String → List String
  | [] => [s]
  | t :: ts => if s < t then s :: t :: ts else if s = t then t :: ts else t :: insertDistinct s ts

def files (tags : List Tag) : List String :=
  ((tags.map (·.file)).filter (· ≠ "")).foldr insertDistinct []

/-- Removes the tags of a file, their global names and the file's entry; counts the tags. -/
def removeFile (file : String) : Work Nat := do
  Work.change (·.dropGlobalsOf file)
  let removed ← Work.statement .writes fun db => .ok ((db.rowsOf file).length, db.dropTagsOf file)
  Work.change (·.dropFileEntry file)
  return removed

def removeFiles : List String → Work (Memory × Nat)
  | [] => pure ([], 0)
  | file :: rest => do
    let known ← Work.ask (·.keysOf file)
    let removed ← removeFile file
    let (memory, more) ← removeFiles rest
    return (known ++ memory, removed + more)

/-- Adds a tag, or overwrites the row that holds its key; its global name follows its scope. -/
def putTag (t : Tag) (reuse : Option Nat) : Work Unit := do
  match ← Work.ask (·.idOf? t.key) with
  | some id =>
    Work.change (·.overwriteTag id t)
    Work.change (·.dropGlobal id)
    if t.isGlobal then Work.change (·.addGlobal t.name id)
  | none =>
    let id ← Work.statement .writes (·.addTag t reuse)
    if t.isGlobal then Work.change (·.addGlobal t.name id)

/-- Puts the accepted tags in order; counts those that were put and those that were skipped. -/
def putTags : List Tag → Memory → Work (Nat × Nat)
  | [], _ => pure (0, 0)
  | t :: ts, memory =>
    if t.isAccepted then do
      putTag t (memory.id? t.key)
      let (inserted, skipped) ← putTags ts (memory.spend t.key)
      return (inserted + 1, skipped)
    else do
      let (inserted, skipped) ← putTags ts memory
      return (inserted, skipped + 1)

def putFileEntries (now : Int) : List String → Work Unit
  | [] => pure ()
  | file :: rest => do
    Work.change (·.putFileEntry file now)
    putFileEntries now rest

def store (tags : List Tag) (now : Int) : Work StoreStats := do
  let (memory, removed) ← removeFiles (files tags)
  let (inserted, skipped) ← putTags tags memory
  putFileEntries now (files tags)
  return {
    filesReplaced := (files tags).length
    tagsRemoved := removed
    tagsInserted := inserted
    tagsSkipped := skipped }

/-- Empties every table but that of versions. -/
def clear : Work Unit := do
  Work.change fun db => { db with globalTable := db.globalTable.emptied }
  Work.change ({ · with tags := [] })
  Work.change ({ · with files := [] })
  Work.change fun db => { db with macroTable := db.macroTable.emptied }
  Work.change fun db => { db with simpleMacroTable := db.simpleMacroTable.emptied }

def putMacros : List Macro → Work Unit
  | [] => pure ()
  | m :: ms => do
    Work.change (·.putMacro m)
    putMacros ms

def putSimpleMacros (file : String) : List String → Work Unit
  | [] => pure ()
  | name :: names => do
    Work.change (·.addSimpleMacro file name)
    putSimpleMacros file names

def storeSimpleMacros (file : String) (names : List String) : Work Nat := do
  Work.change (·.dropSimpleMacros file)
  putSimpleMacros file names
  return names.length

def storeMacros (ms : List Macro) : Work Nat := do
  putMacros ms
  return ms.length

end Batch
end TagIndex
