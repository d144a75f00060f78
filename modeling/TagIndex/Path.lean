import TagIndex.Text.Pieces

/-! Paths of files: the names of directories and files with slashes between them. -/
namespace TagIndex.Path

/-- The parts between the slashes of a path. -/
def parts (path : String) : List String :=
  (Text.splitBy (· == '/') path.toList).map String.ofList

/-- A part that stays in its directory. -/
def isIdle (part : String) : Bool := part = "" || part = "."

/-- Whether two paths are written alike, up to repeated slashes and inner dots. -/
def alike (p q : String) : Bool :=
  let tidy (path : String) : List String :=
    match parts path with
    | first :: rest => first :: rest.filter fun part => !isIdle part
    | [] => []
  tidy p == tidy q

/-- Whether a directory is the working one or contains it. -/
def isAbove (dir : List String) : Bool := dir.all (· = "..")

/-- The directory that contains a directory. -/
def above (dir : List String) : List String :=
  if isAbove dir then ".." :: dir else dir.dropLast

def maxPartBytes : Nat := 255

def maxBytes : Nat := 4095

def isTooLong (part : String) : Bool := maxPartBytes < part.utf8ByteSize

/-- How many bytes stand before the first null character, if there is one. -/
def nullPosition? (path : String) : Option Nat :=
  let before := path.toList.takeWhile (· ≠ '\x00')
  if before.length = path.length then none else some (String.ofList before).utf8ByteSize

end TagIndex.Path
