/-!
Lines of YAML documents: how deep they are indented, and which characters have a meaning of their
own in them. Only spaces indent a line; tabs may follow them where no block starts.
-/
namespace TagIndex.Yaml

/-- What a reader leaves is what it did not use of the document. -/
abbrev Reader (α : Type) := List Char → Option (α × List Char)

def isSpace (c : Char) : Bool := c = ' ' || c = '\t'

def skipSpace (cs : List Char) : List Char := cs.dropWhile isSpace

/-- A space, a line break or the end of the document comes next. -/
def atGap : List Char → Bool
  | [] => true
  | c :: _ => isSpace c || c = '\n'

/-- Characters that end a scalar or a mark inside brackets. -/
def isBracketMark (c : Char) : Bool :=
  c = ',' || c = '[' || c = ']' || c = '\x7b' || c = '\x7d'

/-- Whether a mark of one character, with nothing plain after it, starts here. -/
def startsWithMark (mark : Char) (inBrackets : Bool) : List Char → Bool
  | c :: cs => c = mark && (atGap cs || (inBrackets && cs.head?.any isBracketMark))
  | [] => false

/-- Three dashes or dots at the start of a line end a document. -/
def isMarker (cs : List Char) : Bool :=
  ("---".toList.isPrefixOf cs || "...".toList.isPrefixOf cs) && atGap (cs.drop 3)

/-- A line with something on it, or the end of the document. -/
structure Line where
  indent : Nat
  tabbed : Bool
  /-- The document from the text of the line on. -/
  text : List Char
  /-- How many line breaks were skipped before it. -/
  breaks : Nat

namespace Line

/-- Skips blank lines, and lines with a comment as well when `comments` is set. The document starts
inside the white space at the start of a line. -/
def find (comments : Bool) (breaks indent : Nat) (tabbed inComment : Bool) : List Char → Line
  | [] => ⟨indent, tabbed, [], breaks⟩
  | c :: cs =>
    if c = '\n' then find comments (breaks + 1) 0 false false cs
    else if inComment then find comments breaks indent tabbed true cs
    else if c = '\t' then find comments breaks indent true false cs
    else if c = ' ' then
      find comments breaks (if tabbed then indent else indent + 1) tabbed false cs
    else if comments && c = '#' then find comments breaks indent tabbed true cs
    else ⟨indent, tabbed, c :: cs, breaks⟩

/-- The next line with something else than a comment on it. -/
def next (cs : List Char) : Line := find true 0 0 false false cs

/-- The next line with something on it inside a scalar. -/
def nextInScalar (cs : List Char) : Line := find false 0 0 false false cs

def isMarker (l : Line) : Bool := l.indent = 0 && !l.tabbed && Yaml.isMarker l.text

def isEnd (l : Line) : Bool := l.text.isEmpty || l.isMarker

/-- Whether a block that started in a column can go on in this line. -/
def isAt (l : Line) (column : Nat) : Bool := l.indent = column && !l.tabbed && !l.isEnd

end Line

/-- The document after the rest of a line on which only a comment can stand; a space stands before
a comment. -/
def endLine (cs : List Char) : Option (List Char) :=
  match skipSpace cs with
  | [] => some []
  | '\n' :: rest => some rest
  | '#' :: rest => if atGap cs then some (rest.dropWhile (· ≠ '\n')).tail else none
  | _ => none

end TagIndex.Yaml
