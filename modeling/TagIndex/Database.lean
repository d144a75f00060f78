import TagIndex.Fault
import TagIndex.FileEntry
import TagIndex.Ledger
import TagIndex.Macro
import TagIndex.Tag

/-!
The tables of an index and what each single statement does to them. Rows are kept by ascending id;
a new row's id is one more than the largest that its table ever held.
-/
namespace TagIndex

/-- The version that this library writes into every database it opens. -/
def currentVersion : String := "tagdb v1.0.0"

/-- An entry of the projection of the global scope: the name of a tag, and the tag's id. -/
structure GlobalName where
  name : String
  tagId : Nat
  deriving DecidableEq, Repr

/-- A macro that is defined without a text, as one file defines it. -/
structure SimpleMacro where
  file : String
  name : String
  deriving DecidableEq, Repr

structure Database where
  tags : List Row := []
  lastTagId : Nat := 0
  globalTable : Ledger GlobalName := {}
  files : List FileEntry := []
  lastFileId : Nat := 0
  /-- There is an index that lets no two entries have the same file. -/
  filesUnique : Bool := false
  macroTable : Ledger Macro := {}
  /-- There is an index that lets no two macros have the same name. -/
  macrosUnique : Bool := false
  simpleMacroTable : Ledger SimpleMacro := {}
  versions : List String := []
  rejected : List String := []
  deriving DecidableEq, Repr, Inhabited

/-- Puts a row before the first one with a larger id. -/
def Row.insert (r : Row) : List Row → List Row
  | [] => [r]
  | s :: ss => if r.id < s.id then r :: s :: ss else s :: Row.insert r ss

namespace Database

def globals (db : Database) : List GlobalName := db.globalTable.values
def macros (db : Database) : List Macro := db.macroTable.values
def simpleMacros (db : Database) : List SimpleMacro := db.simpleMacroTable.values

/-! ## Tags -/

def rowsOf (db : Database) (file : String) : List Row := db.tags.filter (·.tag.file = file)

def keysOf (db : Database) (file : String) : List (Tag.Key × Nat) :=
  (db.rowsOf file).map fun r => (r.tag.key, r.id)

def idOf? (db : Database) (k : Tag.Key) : Option Nat :=
  (db.tags.find? (·.tag.key = k)).map (·.id)

def dropTagsOf (db : Database) (file : String) : Database :=
  { db with tags := db.tags.filter (·.tag.file ≠ file) }

/-- Adds a tag under the given id, or under a new one; a rejected name is no new row. -/
def addTag (db : Database) (t : Tag) (id? : Option Nat) : Except Fault (Nat × Database) :=
  if db.rejected.contains t.name then .error .rejected
  else
    let id := id?.getD (db.lastTagId + 1)
    .ok (id, { db with
      tags := Row.insert ⟨id, t.settled⟩ db.tags
      lastTagId := max db.lastTagId id })

def overwriteTag (db : Database) (id : Nat) (t : Tag) : Database :=
  { db with tags := db.tags.map fun r => if r.id = id then ⟨id, t.settled⟩ else r }

/-! ## The projection of the global scope -/

def dropGlobalsOf (db : Database) (file : String) : Database :=
  { db with globalTable := db.globalTable.keep fun g => (db.rowsOf file).all (·.id ≠ g.tagId) }

def dropGlobal (db : Database) (id : Nat) : Database :=
  { db with globalTable := db.globalTable.keep (·.tagId ≠ id) }

def addGlobal (db : Database) (name : String) (id : Nat) : Database :=
  { db with globalTable := db.globalTable.add ⟨name, id⟩ }

/-! ## Files -/

def dropFileEntry (db : Database) (file : String) : Database :=
  { db with files := db.files.filter (·.file ≠ file) }

/-- Adds an entry with a new id. It replaces the one that the file has, if the index tells of that. -/
def putFileEntry (db : Database) (file : String) (time : Int) : Database :=
  { db with
    files := (if db.filesUnique then (db.dropFileEntry file).files else db.files) ++
      [⟨db.lastFileId + 1, file, time⟩]
    lastFileId := db.lastFileId + 1 }

def setFileTime (db : Database) (file : String) (time : Int) : Database :=
  { db with
    files := db.files.map fun e => if e.file = file then { e with lastRetagged := time } else e }

/-! ## Macros -/

/-- Adds a macro. It replaces the one of its name, if the index tells of that. -/
def putMacro (db : Database) (m : Macro) : Database :=
  { db with macroTable :=
      (if db.macrosUnique then db.macroTable.keep (·.name ≠ m.name) else db.macroTable).add m }

def dropSimpleMacros (db : Database) (file : String) : Database :=
  { db with simpleMacroTable := db.simpleMacroTable.keep (·.file ≠ file) }

def addSimpleMacro (db : Database) (file name : String) : Database :=
  { db with simpleMacroTable := db.simpleMacroTable.add ⟨file, name⟩ }

end Database
end TagIndex
