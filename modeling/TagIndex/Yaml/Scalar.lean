import TagIndex.Text.Digits
import TagIndex.Text.Surrogates
import TagIndex.Yaml.Line

/-!
Scalars on the lines of other nodes: plain ones and those in quotes. A scalar can go on over several
lines: one line break counts as a space, and each blank line as a break. The lines of a scalar in
quotes are indented at least to a given column.
-/
namespace TagIndex.Yaml

/-- What a number of line breaks in a row stands for. -/
def folded (breaks : Nat) : List Char :=
  if breaks ≤ 1 then [' '] else List.replicate (breaks - 1) '\n'

/-! ## Plain scalars -/

/-- Characters that start something else than a plain scalar. -/
def isIndicator (c : Char) : Bool := isBracketMark c || "#&*!|>'\"".toList.contains c

def startsPlain (inBrackets : Bool) : List Char → Bool
  | [] => false
  | c :: cs =>
    if c = '-' || c = '?' || c = ':' then !startsWithMark c inBrackets (c :: cs)
    else !isIndicator c && !isSpace c && c ≠ '\n'

/-- The plain text up to the end of the line, a comment, the end of a key or a bracket mark. -/
def plainLine (inBrackets : Bool) : List Char → List Char × List Char
  | [] => ([], [])
  | c :: cs =>
    if c = '\n' || startsWithMark ':' inBrackets (c :: cs) || (inBrackets && isBracketMark c) ||
        (isSpace c && (skipSpace cs).head? = some '#') then ([], c :: cs)
    else
      let (word, rest) := plainLine inBrackets cs
      (c :: word, rest)

def dropSpaceEnd (cs : List Char) : List Char := (cs.reverse.dropWhile isSpace).reverse

/-- Whether a plain scalar goes on in a line. A tab is as good as any indentation. -/
def goesOn (inBrackets : Bool) (leastColumn : Nat) (l : Line) : Bool :=
  !l.isEnd && l.text.head? ≠ some '#' && (leastColumn ≤ l.indent || l.tabbed) &&
    !(plainLine inBrackets l.text).1.isEmpty

def readPlain (inBrackets : Bool) (leastColumn : Nat) : (fuel : Nat) → Reader (List Char)
  | 0, _ => none
  | fuel + 1, cs =>
    let (line, rest) := plainLine inBrackets cs
    let word := dropSpaceEnd line
    match skipSpace rest with
    | '\n' :: below =>
      let l := Line.nextInScalar below
      if goesOn inBrackets leastColumn l then
        (readPlain inBrackets leastColumn fuel l.text).map fun (more, rest) =>
          (word ++ folded (l.breaks + 1) ++ more, rest)
      else some (word, rest)
    | _ => some (word, rest)

/-! ## Scalars in quotes -/

def nextQuotedLine (leastColumn : Nat) (cs : List Char) : Option Line :=
  let l := Line.nextInScalar cs
  if l.isEnd || l.indent < leastColumn then none else some l

/-- Reads up to the closing single quote; two quotes stand for one. -/
def readSingle (leastColumn : Nat) : (fuel : Nat) → Reader (List Char)
  | 0, _ => none
  | fuel + 1, cs =>
    match cs with
    | [] => none
    | '\'' :: '\'' :: cs => (readSingle leastColumn fuel cs).map fun (s, rest) => ('\'' :: s, rest)
    | '\'' :: cs => some ([], cs)
    | c :: cs =>
      match skipSpace (c :: cs) with
      | '\n' :: below =>
        match nextQuotedLine leastColumn below with
        | none => none
        | some l => (readSingle leastColumn fuel l.text).map fun (s, rest) =>
          (folded (l.breaks + 1) ++ s, rest)
      | _ => (readSingle leastColumn fuel cs).map fun (s, rest) => (c :: s, rest)

def ofEscape : Char → Option Char
  | '0' => some '\x00'
  | 'a' => some '\x07'
  | 'b' => some '\x08'
  | 't' | '\t' => some '\t'
  | 'n' => some '\n'
  | 'v' => some '\x0b'
  | 'f' => some '\x0c'
  | 'r' => some '\r'
  | 'e' => some '\x1b'
  | ' ' => some ' '
  | '"' => some '"'
  | '/' => some '/'
  | '\\' => some '\\'
  | 'N' => some (Char.ofNat 0x85)
  | '_' => some (Char.ofNat 0xA0)
  | 'L' => some (Char.ofNat 0x2028)
  | 'P' => some (Char.ofNat 0x2029)
  | _ => none

/-- Reads a hexadecimal number of the given width. -/
def readHex (width : Nat) : Reader Nat := fun cs =>
  if (cs.take width).length < width then none
  else (Text.hexDigits? (cs.take width)).map fun n => (n, cs.drop width)

/-- Reads an escape by number; two surrogates in a row stand for one character. -/
def readNumbered (width : Nat) : Reader Char := fun cs => do
  let (n, rest) ← readHex width cs
  if Text.isHighSurrogate n then
    match rest with
    | '\\' :: 'u' :: rest =>
      let (m, rest) ← readHex 4 rest
      if Text.isLowSurrogate m then some (Text.ofPair n m, rest) else none
    | _ => none
  else if Nat.isValidChar n then some (Char.ofNat n, rest)
  else none

def readEscape : Reader Char
  | [] => none
  | 'x' :: cs => readNumbered 2 cs
  | 'u' :: cs => readNumbered 4 cs
  | 'U' :: cs => readNumbered 8 cs
  | c :: cs => (ofEscape c).map (·, cs)

/-- Reads up to the closing double quote; a backslash starts an escape, or hides a line break. -/
def readDouble (leastColumn : Nat) : (fuel : Nat) → Reader (List Char)
  | 0, _ => none
  | fuel + 1, cs =>
    match cs with
    | [] => none
    | '"' :: cs => some ([], cs)
    | '\\' :: '\n' :: below =>
      match nextQuotedLine leastColumn below with
      | none => none
      | some l => (readDouble leastColumn fuel l.text).map fun (s, rest) =>
        (List.replicate l.breaks '\n' ++ s, rest)
    | '\\' :: cs =>
      match readEscape cs with
      | none => none
      | some (c, next) => (readDouble leastColumn fuel next).map fun (s, rest) => (c :: s, rest)
    | c :: cs =>
      match skipSpace (c :: cs) with
      | '\n' :: below =>
        match nextQuotedLine leastColumn below with
        | none => none
        | some l => (readDouble leastColumn fuel l.text).map fun (s, rest) =>
          (folded (l.breaks + 1) ++ s, rest)
      | _ => (readDouble leastColumn fuel cs).map fun (s, rest) => (c :: s, rest)

/-! ## Marks -/

def isNameChar (c : Char) : Bool := !isSpace c && c ≠ '\n' && !isBracketMark c

def readName : Reader String := fun cs =>
  let name := cs.takeWhile isNameChar
  if name.isEmpty then none else some (String.ofList name, cs.dropWhile isNameChar)

/-- Reads a tag after its exclamation mark. A tag in angle brackets can hold any mark. -/
def readTag : Reader String
  | '<' :: cs =>
    let uri := cs.takeWhile fun c => c ≠ '>' && !isSpace c && c ≠ '\n'
    match cs.drop uri.length with
    | '>' :: rest => some ("!<" ++ String.ofList uri ++ ">", rest)
    | _ => none
  | cs => some (String.ofList ('!' :: cs.takeWhile isNameChar), cs.dropWhile isNameChar)

end TagIndex.Yaml
