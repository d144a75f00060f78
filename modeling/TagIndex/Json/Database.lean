import TagIndex.Database
import TagIndex.Json.Printer
import TagIndex.Json.Reader
import TagIndex.Json.Tags

/-! Databases as texts, so that they can be kept in files. -/
namespace TagIndex

open Json

def Json.nat? (j : Json) : Option Nat := j.int?.bind fun n => if 0 ≤ n then some n.toNat else none

/-- The value of a member that has to be there. -/
def Json.need {α : Type} (ms : List (String × Json)) (name : String) (read : Json → Option α) :
    Option α :=
  (member ms name none fun j => (read j).map some).bind id

def Json.listOf? {α : Type} (read : Json → Option α) (j : Json) : Option (List α) :=
  j.list?.bind fun xs => xs.mapM read

def Row.ofJson? (j : Json) : Option Row := do
  let ms ← j.object?
  return { id := ← need ms "id" nat?, tag := ← Tag.ofMembers ms }

def GlobalName.toJson (g : GlobalName) : Json :=
  .object [("name", .text g.name), ("tag_id", .int g.tagId)]

def GlobalName.ofJson? (j : Json) : Option GlobalName := do
  let ms ← j.object?
  return { name := ← need ms "name" text?, tagId := ← need ms "tag_id" nat? }

def Ledger.toJson {α : Type} (write : α → Json) (l : Ledger α) : Json :=
  .object
    [("last_id", .int l.lastId),
     ("rows", .list (l.rows.map fun r => .object [("id", .int r.1), ("row", write r.2)]))]

def Ledger.ofJson? {α : Type} (read : Json → Option α) (j : Json) : Option (Ledger α) := do
  let ms ← j.object?
  return {
    lastId := ← need ms "last_id" nat?
    rows := ← need ms "rows" (listOf? fun j => do
      let ms ← j.object?
      return (← need ms "id" nat?, ← need ms "row" read)) }

def FileEntry.toJson (e : FileEntry) : Json :=
  .object [("id", .int e.id), ("file", .text e.file), ("last_retagged", .int e.lastRetagged)]

def FileEntry.ofJson? (j : Json) : Option FileEntry := do
  let ms ← j.object?
  return {
    id := ← need ms "id" nat?
    file := ← need ms "file" text?
    lastRetagged := ← need ms "last_retagged" int? }

def Macro.toJson (m : Macro) : Json :=
  .object
    [("name", .text m.name), ("file", .text m.file), ("line", .int m.line),
     ("is_function_like", .bool m.isFunctionLike), ("replacement", .text m.replacement),
     ("signature", .text m.signature)]

def SimpleMacro.toJson (m : SimpleMacro) : Json :=
  .object [("file", .text m.file), ("name", .text m.name)]

def SimpleMacro.ofJson? (j : Json) : Option SimpleMacro := do
  let ms ← j.object?
  return { file := ← need ms "file" text?, name := ← need ms "name" text? }

namespace Database

def toJson (db : Database) : Json :=
  .object
    [("versions", .list (db.versions.map .text)), ("last_tag_id", .int db.lastTagId),
     ("tags", .list (db.tags.map Row.toJson)),
     ("globals", db.globalTable.toJson GlobalName.toJson),
     ("last_file_id", .int db.lastFileId), ("files", .list (db.files.map FileEntry.toJson)),
     ("files_unique", .bool db.filesUnique),
     ("macros", db.macroTable.toJson Macro.toJson), ("macros_unique", .bool db.macrosUnique),
     ("simple_macros", db.simpleMacroTable.toJson SimpleMacro.toJson)]

def ofJson? (j : Json) : Option Database := do
  let ms ← j.object?
  return {
    versions := ← need ms "versions" texts?
    lastTagId := ← need ms "last_tag_id" nat?
    tags := ← need ms "tags" (listOf? Row.ofJson?)
    globalTable := ← need ms "globals" (Ledger.ofJson? GlobalName.ofJson?)
    lastFileId := ← need ms "last_file_id" nat?
    files := ← need ms "files" (listOf? FileEntry.ofJson?)
    filesUnique := ← need ms "files_unique" bool?
    macroTable := ← need ms "macros" (Ledger.ofJson? Macro.ofJson?)
    macrosUnique := ← need ms "macros_unique" bool?
    simpleMacroTable := ← need ms "simple_macros" (Ledger.ofJson? SimpleMacro.ofJson?) }

def toText (db : Database) : String := db.toJson.pretty ++ "\n"

def ofText? (s : String) : Option Database := (Json.read s).bind ofJson?

end Database
end TagIndex
