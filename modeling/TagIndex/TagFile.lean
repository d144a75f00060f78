import TagIndex.Json.Reader
import TagIndex.Json.Tags

/-!
Tag files: a list of tags, or a bundle of tags, macros, and the simple macros of files. Tags without
scope or path are completed when they are taken from a file.
-/
namespace TagIndex

structure TagFile where
  tags : List Tag := []
  macros : List Macro := []
  /-- The names of each file, files ascending. -/
  simpleMacros : List (String × List String) := []
  deriving DecidableEq, Repr, Inhabited

namespace TagFile

/-- The names of such files end so. -/
def ending : String := ".tags.json"

/-- Sets the value of a key in a list with ascending keys. -/
def setKey {α : Type} (key : String) (a : α) : List (String × α) → List (String × α)
  | [] => [(key, a)]
  | e :: es =>
    if key < e.1 then (key, a) :: e :: es
    else if key = e.1 then (key, a) :: es
    else e :: setKey key a es

/-- Sets one key after another, so that the last value of a key stays. -/
def setKeys {α : Type} (es : List (String × α)) (known : List (String × α)) : List (String × α) :=
  es.foldl (fun known e => setKey e.1 e.2 known) known

def simpleMacrosOfJson? (j : Json) : Option (List (String × List String)) := do
  let ms ← j.object?
  let es ← ms.mapM fun (file, names) => names.texts?.map (file, ·)
  return setKeys es []

/-- A list at the top holds tags; unknown members of a bundle are ignored. -/
def ofJson? : Json → Option TagFile
  | .list xs => (Tag.listOfJson? (.list xs)).map fun tags => { tags }
  | .object ms => do
    return {
      tags := ← Json.member ms "tags" [] Tag.listOfJson?
      macros := ← Json.member ms "macros" [] Macro.listOfJson?
      simpleMacros := ← Json.member ms "simple_macros" [] simpleMacrosOfJson? }
  | _ => none

/-- The file as it is stored, with its tags completed. -/
def ofText? (s : String) : Option TagFile :=
  ((Json.read s).bind ofJson?).map fun f => { f with tags := f.tags.map Tag.completed }

end TagFile
end TagIndex
