import TagIndex.Command
import TagIndex.Json.Database
import TagIndex.Store.Statistics
import TagIndex.Table

/-! How answers are printed. -/
namespace TagIndex

def Json.printed (j : Json) : String := j.pretty ++ "\n"

def Format.render (f : Format) (t : Table) (j : Json) : String :=
  match f with
  | .json => j.printed
  | .md => t.barred
  | .auto | .tsv => t.tabbed

namespace Output

def tagHeader : List String := ["NAME", "KIND", "SCOPE", "FILE", "LINE"]

def tagCells (t : Tag) : List String := [t.name, t.kind, t.scope, t.file, toString t.line]

def tags (f : Format) (rows : List Row) : String :=
  f.render ⟨tagHeader, rows.map fun r => tagCells r.tag⟩ (.list (rows.map Row.toJson))

def fileHeader : List String := ["FILE", "LAST RETAGGED"]

def files (f : Format) (es : List FileEntry) : String :=
  f.render ⟨fileHeader, es.map fun e => [e.file, e.dateText]⟩ (.list (es.map FileEntry.toJson))

def lines (f : Format) (ss : List String) : String :=
  if f = .json then (Json.list (ss.map .text)).printed
  else String.join (ss.map (· ++ "\n"))

def typeScope (f : Format) (t : TypeScope) : String :=
  if f = .json then (Json.object [("name", .text t.name), ("scope", .text t.scope)]).printed
  else t.name ++ "\t" ++ t.scope ++ "\n"

/-- The definition of a macro; only one that is used like a function shows parameters. -/
def definition (f : Format) (t : Macro.Token) : String :=
  if f = .json then t.toJson.printed
  else
    t.name ++ (if t.isFunctionLike then t.params else "") ++ " " ++ t.replacement ++ "\n" ++
      "line " ++ toString t.line ++ "\n"

def rule : String := String.ofList (List.replicate 40 '─')

def statisticsJson (s : Statistics) (bytes : Nat) : Json :=
  .object
    [("version", (s.version.map Json.text).getD .null), ("tags", .int s.tags),
     ("global_tags", .int s.globalTags), ("files", .int s.files), ("macros", .int s.macros),
     ("simple_macros", .int s.simpleMacros), ("db_size_bytes", .int bytes)]

/-- The counts of a database at a path, of which `bytes` is the size. -/
def statistics (f : Format) (path : String) (bytes : Nat) (s : Statistics) : String :=
  if f = .json then (statisticsJson s bytes).printed
  else
    String.join (
      ["Tags Database",
       rule,
       "  Location:      " ++ path,
       "  Version:       " ++ s.version.getD "unknown",
       "  Tags:          " ++ toString s.tags,
       "  Global tags:   " ++ toString s.globalTags,
       "  Files:         " ++ toString s.files,
       "  Macros:        " ++ toString s.macros,
       "  Simple macros: " ++ toString s.simpleMacros,
       "  Database size: " ++ toString (bytes / 1024) ++ " KB"].map (· ++ "\n"))

def removal (file : String) (count : Nat) : String :=
  if count = 0 then "! " ++ file ++ " has no tags\n"
  else "✓ Removed " ++ toString count ++ " tag(s) of " ++ file ++ "\n"

/-- What an import did; counts that are zero are left out, but for the first ones. -/
def summary (inputs : Nat) (s : StoreStats) (macros : Nat) : String :=
  let unlessZero (label : String) (n : Nat) : List String :=
    if n = 0 then [] else [label ++ toString n]
  String.join (
    (["✓ Imported " ++ toString inputs ++ " tag file(s)",
      "  Source files:  " ++ toString s.filesReplaced,
      "  Tags stored:   " ++ toString s.tagsInserted] ++
      unlessZero "  Tags replaced: " s.tagsRemoved ++
      unlessZero "  Tags skipped:  " s.tagsSkipped ++
      unlessZero "  Macros:        " macros).map (· ++ "\n"))

end Output
end TagIndex
