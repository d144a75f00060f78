import TagIndex.Text.Pieces
import TagIndex.Yaml.Block

/-!
Reading the first document of a text. Directives can stand before it, and nothing is said of what
stands after its end.
-/
namespace TagIndex.Yaml

/-- The sign that a text can start with to tell the order of its bytes. -/
def byteOrderMark : Char := Char.ofNat 0xFEFF

/-- The text without a byte order mark, and with line breaks of one character. -/
def normalized : List Char → List Char
  | c :: cs => if c = byteOrderMark then breaks cs else breaks (c :: cs)
  | [] => []
where
  breaks : List Char → List Char
    | '\r' :: '\n' :: cs => '\n' :: breaks cs
    | c :: cs => c :: breaks cs
    | [] => []

/-- Whether a directive is acceptable; the version of the language can be given once. -/
def checkDirective (hasVersion : Bool) (line : List Char) : Option Bool :=
  let words := (Text.splitBy isSpace line).filter (!·.isEmpty)
  match words with
  | name :: rest =>
    if name = "%YAML".toList then
      match hasVersion, rest with
      | false, version :: more =>
        if "1.".toList.isPrefixOf version && (Text.digits? (version.drop 2)).isSome &&
            (more.isEmpty || more.head?.any (·.head? = some '#')) then some true
        else none
      | _, _ => none
    else some hasVersion
  | [] => some hasVersion

/-- How a document starts: at a mark that stands before it, or at its first line. -/
inductive Start where
  | marked (rest : List Char)
  | bare (l : Line)

/-- Finds the start of the first document. A document after directives needs a mark. -/
def findStart (hasDirective hasVersion : Bool) : (fuel : Nat) → List Char → Option Start
  | 0, _ => none
  | fuel + 1, cs =>
    let l := Line.next cs
    if l.indent = 0 && !l.tabbed && l.text.head? = some '%' then
      let line := l.text.takeWhile (· ≠ '\n')
      match checkDirective hasVersion line with
      | none => none
      | some hasVersion => findStart true hasVersion fuel (l.text.drop (line.length + 1))
    else if l.isMarker then
      if l.text.head? = some '-' then some (.marked (l.text.drop 3))
      else if hasDirective then none
      else (endLine (l.text.drop 3)).bind (findStart false false fuel)
    else if hasDirective then none
    else some (.bare l)

def readStart (fuel : Nat) : Start → Option (Node × List Char)
  | .marked rest => Block.readOnward { least := 0 } fuel false rest
  | .bare l =>
    if l.text.isEmpty then some (.plain "", [])
    else Block.readHere { least := 0 } fuel l.indent (!l.tabbed) false l.text

/-- The value of the first document of a text. Every step of the readers uses a character or stands
before one that does, so steps in a multiple of the length are enough. -/
def read (s : String) : Option Yaml := do
  let cs := normalized s.toList
  let (n, rest) ← readStart (8 * cs.length + 8) (← findStart false false (cs.length + 1) cs)
  if (Line.next rest).isEnd then n.value? else none

end TagIndex.Yaml
