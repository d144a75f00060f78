import TagIndex.Yaml.Scalar

/-!
Scalars in blocks of their own. The lines below the header that are indented as far as the first one
are the text, either as they stand or folded into paragraphs.
-/
namespace TagIndex.Yaml.Paragraph

/-- What becomes of the line breaks at the end. -/
inductive Ending where
  | dropped
  | single
  | kept
  deriving DecidableEq, Repr

structure Header where
  folds : Bool
  /-- How far the lines are indented, when it is said. -/
  depth : Option Nat := none
  ending : Option Ending := none

/-- Takes account of a character of the header; each of its two parts can stand once. -/
def Header.with? (h : Header) (c : Char) : Option Header :=
  if c = '-' && h.ending.isNone then some { h with ending := some .dropped }
  else if c = '+' && h.ending.isNone then some { h with ending := some .kept }
  else if '1' ≤ c && c ≤ '9' && h.depth.isNone then
    some { h with depth := some (Text.digitsValue [c]) }
  else none

/-- Reads the header after its first character, and the rest of its line. -/
def readHeader (folds : Bool) : Reader Header := fun cs => do
  let marks := cs.takeWhile fun c => !isSpace c && c ≠ '\n'
  let h ← marks.foldlM Header.with? { folds }
  let rest ← endLine (cs.drop marks.length)
  return (h, rest)

/-- The column of the first line with something on it; blank lines before it are no deeper. -/
def findColumn (leastColumn : Nat) (deepest indent : Nat) : List Char → Option Nat
  | [] => some (max leastColumn deepest)
  | c :: cs =>
    if c = ' ' then findColumn leastColumn deepest (indent + 1) cs
    else if c = '\n' then findColumn leastColumn (max deepest indent) 0 cs
    else if indent < leastColumn then some (max leastColumn deepest)
    else if indent < deepest then none
    else some indent

/-- The lines of the text without their indentation, what follows them, and whether the last one
ends with a break. -/
def takeLines (column : Nat) : (fuel : Nat) → List Char → List (List Char) × List Char × Bool
  | 0, cs => ([], cs, true)
  | fuel + 1, cs =>
    let indent := min column (cs.takeWhile (· = ' ')).length
    let line := (cs.drop indent).takeWhile (· ≠ '\n')
    let after := cs.drop (indent + line.length)
    if cs.isEmpty || (line.isEmpty && after.isEmpty) then ([], [], true)
    else if !line.isEmpty && (indent < column || (column = 0 && isMarker cs)) then ([], cs, true)
    else
      match after with
      | [] => ([line], [], false)
      | _ :: below =>
        let (lines, rest, ended) := takeLines column fuel below
        (line :: lines, rest, ended)

/-- A line that starts with white space is not folded. -/
def isSet (line : List Char) : Bool := line.head?.any isSpace

/-- Folded lines: what comes after the blank lines at the start, their number, and whether the first
line after them is set apart. -/
def fold : List (List Char) → List Char × Nat × Option Bool
  | [] => ([], 0, none)
  | line :: lines =>
    let (below, blanks, next) := fold lines
    if line.isEmpty then (below, blanks + 1, next)
    else
      let gap := match next with
        | none => []
        | some set =>
          if set || isSet line then List.replicate (blanks + 1) '\n' else folded (blanks + 1)
      (line ++ gap ++ below, 0, some (isSet line))

def foldedText (lines : List (List Char)) : List Char :=
  let (below, blanks, _) := fold lines
  List.replicate blanks '\n' ++ below

/-- The breaks at the end of a text that had some lines and then `blanks` empty ones. -/
def endingText (ending : Ending) (isBlank ended : Bool) (blanks : Nat) : List Char :=
  match ending with
  | .dropped => []
  | .single => if isBlank || !ended then [] else ['\n']
  | .kept => List.replicate (if isBlank || !ended then blanks else blanks + 1) '\n'

/-- Reads a block after its first character; what it leaves starts a line. -/
def read (folds : Bool) (leastColumn : Nat) : Reader String := fun cs => do
  let (h, below) ← readHeader folds cs
  let column ← match h.depth with
    | some depth => some (leastColumn - 1 + depth)
    | none => findColumn leastColumn 0 0 below
  let (lines, rest, ended) := takeLines column (below.length + 1) below
  let blanks := (lines.reverse.takeWhile (·.isEmpty)).length
  let body := lines.take (lines.length - blanks)
  let content := if h.folds then foldedText body else List.intercalate ['\n'] body
  let ending := endingText (h.ending.getD .single) body.isEmpty ended blanks
  return (String.ofList (content ++ ending), rest)

example : foldedText ["a".toList, "b".toList, [], "c".toList, " d".toList, "e".toList] =
    "a b\nc\n d\ne".toList := by decide

end TagIndex.Yaml.Paragraph
