import TagIndex.Yaml.Node
import TagIndex.Yaml.Scalar

/-!
Collections in brackets. They can go on over several lines, which are indented at least to a given
column.
-/
namespace TagIndex.Yaml.Bracket

/-- Where a reader is that skips what stands between two nodes. -/
structure Gap where
  /-- The indentation of the line, unless it is the one that the gap starts in. -/
  indent : Option Nat := none
  /-- Only spaces stand before this place in the line. -/
  indents : Bool := false
  /-- A comment can start here. -/
  isSpaced : Bool := false
  isComment : Bool := false

def Gap.admits (g : Gap) (leastColumn : Nat) (cs : List Char) : Bool :=
  match g.indent with
  | none => true
  | some n => leastColumn ≤ n && !(n = 0 && g.indents && isMarker cs)

def skipFrom (leastColumn : Nat) (g : Gap) : List Char → Option (List Char)
  | [] => some []
  | c :: cs =>
    if c = '\n' then
      skipFrom leastColumn { indent := some 0, indents := true, isSpaced := true } cs
    else if g.isComment then skipFrom leastColumn g cs
    else if c = ' ' then
      let indent := if g.indents then g.indent.map (· + 1) else g.indent
      skipFrom leastColumn { g with indent, isSpaced := true } cs
    else if c = '\t' then skipFrom leastColumn { g with indents := false, isSpaced := true } cs
    else if c = '#' && g.isSpaced then skipFrom leastColumn { g with isComment := true } cs
    else if g.admits leastColumn (c :: cs) then some (c :: cs)
    else none

def skip (leastColumn : Nat) (cs : List Char) : Option (List Char) := skipFrom leastColumn {} cs

/-- Whether a node ends here at the latest. -/
def atEnd (cs : List Char) : Bool :=
  cs.isEmpty || cs.head?.any isBracketMark && !(cs.head? = some '[' || cs.head? = some '\x7b') ||
    startsWithMark ':' true cs

/-- Whether a colon can follow the node at once. -/
def bindsColon : Node → Bool
  | .quoted _ | .list _ | .mapping _ => true
  | .named _ n | .tagged _ n => bindsColon n
  | _ => false

/-- The text after a colon that follows a key, if there is one. -/
def afterColon (key : Node) (cs : List Char) : Option (List Char) :=
  match cs with
  | ':' :: rest => if bindsColon key || startsWithMark ':' true cs then some rest else none
  | _ => none

def breaksBetween (start stop : List Char) : Bool :=
  (start.take (start.length - stop.length)).contains '\n'

/-- A key, its value if there is a colon, and where that colon is. -/
structure Pair where
  key : Node
  value : Option Node := none
  colon : List Char := []

def Pair.member (p : Pair) : Node × Node := (p.key, p.value.getD (.plain ""))

mutual

/-- Reads a node that starts with the first character; `isMarked` says that a mark stands before
it. -/
def readNode (leastColumn : Nat) : (fuel : Nat) → (isMarked : Bool) → Reader Node
  | 0, _, _ => none
  | fuel + 1, isMarked, cs =>
    match cs with
    | '[' :: rest => do
      let (xs, rest) ← readItems leastColumn fuel (← skip leastColumn rest)
      return (.list xs, rest)
    | '\x7b' :: rest => do
      let (ms, rest) ← readPairs leastColumn fuel (← skip leastColumn rest)
      return (.mapping ms, rest)
    | '"' :: rest =>
      (readDouble leastColumn (cs.length + 1) rest).map fun (s, r) => (.quoted (String.ofList s), r)
    | '\'' :: rest =>
      (readSingle leastColumn (cs.length + 1) rest).map fun (s, r) => (.quoted (String.ofList s), r)
    | '*' :: rest =>
      if isMarked then none else (readName rest).map fun (name, r) => (.reference name, r)
    | '&' :: rest => do
      let (name, rest) ← readName rest
      let (n, rest) ← readMarked leastColumn fuel rest
      return (.named name n, rest)
    | '!' :: rest => do
      let (tag, rest) ← readTag rest
      let (n, rest) ← readMarked leastColumn fuel rest
      return (.tagged tag n, rest)
    | _ =>
      if startsPlain true cs then
        (readPlain true leastColumn (cs.length + 1) cs).map fun (s, r) =>
          (.plain (String.ofList s), r)
      else none

/-- Reads the node after a mark, which can be empty. -/
def readMarked (leastColumn : Nat) : (fuel : Nat) → Reader Node
  | 0, _ => none
  | fuel + 1, cs =>
    match skip leastColumn cs with
    | none => none
    | some rest =>
      if atEnd rest then some (.plain "", cs)
      else if rest.length < cs.length then readNode leastColumn fuel true rest
      else none

/-- Reads the key of a pair, which can be empty, and the value if there is a colon. -/
def readPair (leastColumn : Nat) : (fuel : Nat) → Reader Pair
  | 0, _ => none
  | fuel + 1, cs => do
    let (key, rest) ←
      if startsWithMark ':' true cs then some (.plain "", cs)
      else readNode leastColumn fuel false cs
    let colon ← skip leastColumn rest
    match afterColon key colon with
    | none => return ({ key }, rest)
    | some after =>
      let next ← skip leastColumn after
      if atEnd next then return ({ key, value := some (.plain ""), colon }, after)
      let (value, rest) ← readNode leastColumn fuel false next
      return ({ key, value := some value, colon }, rest)

/-- Reads an item of a list: a node, or a pair as a mapping of its own. The key of a pair stands on
one line with its colon, unless a question mark stands before it. -/
def readItem (leastColumn : Nat) : (fuel : Nat) → Reader Node
  | 0, _ => none
  | fuel + 1, cs => do
    if startsWithMark '?' true cs then
      let (p, rest) ← readPair leastColumn fuel (← skip leastColumn cs.tail)
      return (.mapping [p.member], rest)
    let (p, rest) ← readPair leastColumn fuel cs
    if p.value.isNone then return (p.key, rest)
    if breaksBetween cs p.colon then none
    return (.mapping [p.member], rest)

/-- Reads the items of a list and its closing bracket. -/
def readItems (leastColumn : Nat) : (fuel : Nat) → Reader (List Node)
  | 0, _ => none
  | fuel + 1, cs =>
    match cs with
    | ']' :: rest => some ([], rest)
    | _ => do
      let (x, rest) ← readItem leastColumn fuel cs
      match ← skip leastColumn rest with
      | ',' :: rest =>
        let (xs, rest) ← readItems leastColumn fuel (← skip leastColumn rest)
        return (x :: xs, rest)
      | ']' :: rest => return ([x], rest)
      | _ => none

/-- Reads the pairs of a mapping and its closing brace; a key alone has a null value. -/
def readPairs (leastColumn : Nat) : (fuel : Nat) → Reader (List (Node × Node))
  | 0, _ => none
  | fuel + 1, cs =>
    match cs with
    | '\x7d' :: rest => some ([], rest)
    | _ => do
      let start ← if startsWithMark '?' true cs then skip leastColumn cs.tail else some cs
      let (p, rest) ← readPair leastColumn fuel start
      match ← skip leastColumn rest with
      | ',' :: rest =>
        let (ms, rest) ← readPairs leastColumn fuel (← skip leastColumn rest)
        return (p.member :: ms, rest)
      | '\x7d' :: rest => return ([p.member], rest)
      | _ => none

end

/-- Reads a node on the lines of a block. Every step uses a character or stands before one that
does. -/
def read (leastColumn : Nat) : Reader Node := fun cs =>
  readNode leastColumn (4 * cs.length + 4) false cs

end TagIndex.Yaml.Bracket
