import TagIndex.Json
import TagIndex.Macro
import TagIndex.Tag

/-!
Tags and macros as JSON values: objects in which every member may be left out, or lists of the
values in the order of the members, where those at the end may be left out.
-/
namespace TagIndex

open Json

/-- Ids are given by the index alone; one that is written down only has to be well formed. -/
def Json.id? : Json → Option Unit
  | null => some ()
  | j => j.int?.map fun _ => ()

namespace Tag

def ofMembers (ms : List (String × Json)) : Option Tag := do
  member ms "id" () id?
  return {
    name := ← member ms "name" "" text?
    file := ← member ms "file" "" text?
    line := ← member ms "line" 0 int?
    kind := ← member ms "kind" "" text?
    access := ← member ms "access" "" text?
    signature := ← member ms "signature" "" text?
    pattern := ← member ms "pattern" "" text?
    parent := ← member ms "parent" "" text?
    inherits := ← member ms "inherits" [] texts?
    path := ← member ms "path" "" text?
    typeref := ← member ms "typeref" "" text?
    scope := ← member ms "scope" "" text?
    templateDefinition := ← member ms "template_definition" "" text?
    properties := ← member ms "tag_properties" "" text?
    macroDefinition := ← member ms "macrodef" "" text? }

def ofItems (xs : List Json) : Option Tag := do
  if xs.length > 16 then none
  position xs 0 () id?
  return {
    name := ← position xs 1 "" text?
    file := ← position xs 2 "" text?
    line := ← position xs 3 0 int?
    kind := ← position xs 4 "" text?
    access := ← position xs 5 "" text?
    signature := ← position xs 6 "" text?
    pattern := ← position xs 7 "" text?
    parent := ← position xs 8 "" text?
    inherits := ← position xs 9 [] texts?
    path := ← position xs 10 "" text?
    typeref := ← position xs 11 "" text?
    scope := ← position xs 12 "" text?
    templateDefinition := ← position xs 13 "" text?
    properties := ← position xs 14 "" text?
    macroDefinition := ← position xs 15 "" text? }

def ofJson? : Json → Option Tag
  | object ms => ofMembers ms
  | list xs => ofItems xs
  | _ => none

def members (t : Tag) : List (String × Json) :=
  [("name", .text t.name), ("file", .text t.file), ("line", .int t.line), ("kind", .text t.kind),
   ("access", .text t.access), ("signature", .text t.signature), ("pattern", .text t.pattern),
   ("parent", .text t.parent), ("inherits", .list (t.inherits.map .text)), ("path", .text t.path),
   ("typeref", .text t.typeref), ("scope", .text t.scope),
   ("template_definition", .text t.templateDefinition), ("tag_properties", .text t.properties),
   ("macrodef", .text t.macroDefinition)]

def listOfJson? (j : Json) : Option (List Tag) := j.list?.bind fun xs => xs.mapM ofJson?

end Tag

def Row.toJson (r : Row) : Json := .object (("id", .int r.id) :: r.tag.members)

namespace Macro

def ofMembers (ms : List (String × Json)) : Option Macro := do
  return {
    name := ← member ms "name" "" text?
    file := ← member ms "file" "" text?
    line := ← member ms "line" 0 int?
    isFunctionLike := ← member ms "is_function_like" false bool?
    replacement := ← member ms "replacement" "" text?
    signature := ← member ms "signature" "" text? }

def ofItems (xs : List Json) : Option Macro := do
  if xs.length > 6 then none
  return {
    name := ← position xs 0 "" text?
    file := ← position xs 1 "" text?
    line := ← position xs 2 0 int?
    isFunctionLike := ← position xs 3 false bool?
    replacement := ← position xs 4 "" text?
    signature := ← position xs 5 "" text? }

def ofJson? : Json → Option Macro
  | object ms => ofMembers ms
  | list xs => ofItems xs
  | _ => none

def listOfJson? (j : Json) : Option (List Macro) := j.list?.bind fun xs => xs.mapM ofJson?

def Token.toJson (t : Token) : Json :=
  .object
    [("name", .text t.name), ("replacement", .text t.replacement), ("line", .int t.line),
     ("is_function_like", .bool t.isFunctionLike), ("args", .list (t.args.map .text))]

end Macro
end TagIndex
