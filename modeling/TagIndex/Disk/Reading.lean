import TagIndex.Disk

/-! Reading files and walking through directories. -/
namespace TagIndex

inductive ReadFault where
  | missing
  | notDirectory
  | directory
  | longName
  | nullCharacter
  | notText
  deriving DecidableEq, Repr

def ReadFault.message : ReadFault → String
  | missing => "No such file or directory (os error 2)"
  | notDirectory => "Not a directory (os error 20)"
  | directory => "Is a directory (os error 21)"
  | longName => "File name too long (os error 36)"
  | nullCharacter => "file name contained an unexpected NUL byte"
  | notText => "stream did not contain valid UTF-8"

inductive Node where
  | directory (parts : List String)
  | file (c : Content)

namespace Disk

/-- What is found when parts are followed from a directory, one after the other. Every part but the
last has to be a directory. -/
def visit (d : Disk) (dir : List String) : List String → Except ReadFault Node
  | [] => .ok (.directory dir)
  | p :: ps =>
    if Path.isIdle p then d.visit dir ps
    else if p = ".." then d.visit (Path.above dir) ps
    else if Path.isTooLong p then .error .longName
    else if d.isDirectory (dir ++ [p]) then d.visit (dir ++ [p]) ps
    else
      match d.content? (.inside (dir ++ [p])) with
      | none => .error .missing
      | some c => if ps.isEmpty then .ok (.file c) else .error .notDirectory

/-- What is found at a path; absolute paths lead nowhere. -/
def node (d : Disk) (path : String) : Except ReadFault Node :=
  if (Path.nullPosition? path).isSome then .error .nullCharacter
  else if Path.maxBytes < path.utf8ByteSize then .error .longName
  else
    match Path.parts path with
    | "" :: _ => .error .missing
    | parts => d.visit [] parts

/-- The text of a file; a database is no text. -/
def readText (d : Disk) (path : String) : Except ReadFault String :=
  match d.node path with
  | .error f => .error f
  | .ok (.directory _) => .error .directory
  | .ok (.file (.text s)) => .ok s
  | .ok (.file (.database _)) => .error .notText

/-- The order of paths goes part by part. -/
def partsLE : List String → List String → Bool
  | [], _ => true
  | _ :: _, [] => false
  | p :: ps, q :: qs => decide (p < q) || (p = q && partsLE ps qs)

/-- The parts of the files below a directory, in ascending order. -/
def partsBelow (d : Disk) (parts : List String) : List (List String) :=
  (d.files.filterMap fun f =>
    match f.1 with
    | .inside ps => if parts.isPrefixOf ps && parts != ps then some (ps.drop parts.length) else none
    | .scratch => none).mergeSort partsLE

/-- The paths of the files below a directory whose names end in a text, in ascending order. -/
def filesBelow (d : Disk) (path : String) (parts : List String) (ending : String) : List String :=
  let start := if path.endsWith "/" then path else path ++ "/"
  ((d.partsBelow parts).filter fun ps => (ps.getLast?.getD "").endsWith ending).map fun ps =>
    start ++ Text.joined "/" ps

end Disk
end TagIndex
