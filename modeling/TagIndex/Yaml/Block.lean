import TagIndex.Yaml.Bracket
import TagIndex.Yaml.Paragraph

/-!
Nodes in blocks, where the indentation says what belongs together. The items of a list and the pairs
of a mapping each start in one column, and what belongs to them is indented further.
-/
namespace TagIndex.Yaml.Block

def startsItem (cs : List Char) : Bool := startsWithMark '-' false cs

/-- Whether the key of a pair has a mark of its own and can be any node. -/
def startsLongKey (cs : List Char) : Bool := startsWithMark '?' false cs

/-- Reads a key that stands on one line, after the marks before it. -/
def readKeyScalar (isMarked : Bool) (line : List Char) : Option (Node × List Char) :=
  match line with
  | '"' :: rest =>
    (readDouble 0 (line.length + 1) rest).map fun (s, r) => (.quoted (String.ofList s), r)
  | '\'' :: rest =>
    (readSingle 0 (line.length + 1) rest).map fun (s, r) => (.quoted (String.ofList s), r)
  | '*' :: rest =>
    if isMarked then none else (readName rest).map fun (name, r) => (.reference name, r)
  | _ =>
    if startsWithMark ':' false line then some (.plain "", line)
    else if startsPlain false line then
      let (word, rest) := plainLine false line
      some (.plain (String.ofList (dropSpaceEnd word)), rest)
    else none

/-- Reads a key with the marks before it; there are at most two. -/
def readKeyNode : (marks : Nat) → (isMarked : Bool) → List Char → Option (Node × List Char)
  | marks, isMarked, line =>
    match marks, line with
    | marks + 1, '&' :: rest => do
      let (name, rest) ← readName rest
      let (n, rest) ← readKeyNode marks true (skipSpace rest)
      return (.named name n, rest)
    | marks + 1, '!' :: rest => do
      let (tag, rest) ← readTag rest
      let (n, rest) ← readKeyNode marks true (skipSpace rest)
      return (.tagged tag n, rest)
    | _, _ => readKeyScalar isMarked line

def readKey (cs : List Char) : Option (Node × List Char) := do
  let line := cs.takeWhile (· ≠ '\n')
  let (key, rest) ← readKeyNode 2 false line
  let colon := skipSpace rest
  if startsWithMark ':' false colon then return (key, colon.tail ++ cs.drop line.length) else none

/-- Reads a node that is no collection in a block and has no mark, and the rest of its last line. -/
def readInline (leastColumn : Nat) (cs : List Char) : Option (Node × List Char) :=
  match cs with
  | '|' :: rest => (Paragraph.read false leastColumn rest).map fun (s, r) => (.quoted s, r)
  | '>' :: rest => (Paragraph.read true leastColumn rest).map fun (s, r) => (.quoted s, r)
  | _ => do
    let (n, rest) ←
      match cs.head? with
      | some '[' | some '\x7b' | some '"' | some '\'' | some '*' => Bracket.read leastColumn cs
      | _ =>
        if startsPlain false cs then
          (readPlain false leastColumn (cs.length + 1) cs).map fun (s, r) =>
            (Node.plain (String.ofList s), r)
        else none
    return (n, ← endLine rest)

structure Spot where
  /-- The column before which nothing belongs to the node. -/
  least : Nat
  /-- The column in which the items of a list belong to the node all the same. -/
  items : Option Nat := none

mutual

/-- Reads a node that starts in a column; a collection in a block starts there only if `opens` is
set. What it leaves starts a line. -/
def readHere (spot : Spot) : (fuel column : Nat) → (opens isMarked : Bool) → Reader Node
  | 0, _, _, _, _ => none
  | fuel + 1, column, opens, isMarked, cs =>
    if opens && startsItem cs then (readItems column fuel cs).map fun (xs, r) => (.list xs, r)
    else if opens && (startsLongKey cs || (readKey cs).isSome) then
      (readPairs column fuel cs).map fun (ms, r) => (.mapping ms, r)
    else
      match cs with
      | '&' :: rest => do
        let (name, rest) ← readName rest
        let (n, rest) ← readOnward spot fuel true rest
        return (.named name n, rest)
      | '!' :: rest => do
        let (tag, rest) ← readTag rest
        let (n, rest) ← readOnward spot fuel true rest
        return (.tagged tag n, rest)
      | '*' :: _ => if isMarked then none else readInline spot.least cs
      | _ => readInline spot.least cs

/-- Reads the node after a key or a mark, on the same line or below it. -/
def readOnward (spot : Spot) : (fuel : Nat) → (isMarked : Bool) → Reader Node
  | 0, _, _ => none
  | fuel + 1, isMarked, cs =>
    match endLine cs with
    | some below => readBelow spot fuel below
    | none => if atGap cs then readHere spot fuel 0 false isMarked (skipSpace cs) else none

/-- Reads a node on the lines that follow; it is null when none of them belongs to it. -/
def readBelow (spot : Spot) : (fuel : Nat) → Reader Node
  | 0, _ => none
  | fuel + 1, cs =>
    let l := Line.next cs
    if spot.items.any l.isAt && startsItem l.text then
      (readItems l.indent fuel l.text).map fun (xs, r) => (.list xs, r)
    else if l.isEnd || l.indent < spot.least then some (.plain "", cs)
    else readHere spot fuel l.indent (!l.tabbed) false l.text

/-- Reads what follows a mark of one character, which a node can start right after. -/
def readAfterMark (column : Nat) : (fuel : Nat) → Reader Node
  | 0, _ => none
  | fuel + 1, cs =>
    match endLine cs.tail with
    | some below => readBelow { least := column + 1 } fuel below
    | none =>
      let gap := cs.tail.takeWhile isSpace
      readHere { least := column + 1 } fuel (column + 1 + gap.length) (!gap.contains '\t') false
        (cs.tail.drop gap.length)

/-- Reads the items of a list whose dashes stand in one column. -/
def readItems (column : Nat) : (fuel : Nat) → Reader (List Node)
  | 0, _ => none
  | fuel + 1, cs => do
    let (x, rest) ← readAfterMark column fuel cs
    let l := Line.next rest
    if l.isAt column && startsItem l.text then
      let (xs, rest) ← readItems column fuel l.text
      return (x :: xs, rest)
    if !l.isEnd && column < l.indent then none
    return ([x], rest)

def readPair (column : Nat) : (fuel : Nat) → Reader (Node × Node)
  | 0, _ => none
  | fuel + 1, cs =>
    if startsLongKey cs then do
      let (key, rest) ← readAfterMark column fuel cs
      let l := Line.next rest
      if l.isAt column && startsWithMark ':' false l.text then
        let (value, rest) ← readAfterMark column fuel l.text
        return ((key, value), rest)
      return ((key, .plain ""), rest)
    else do
      let (key, rest) ← readKey cs
      let (value, rest) ← readOnward { least := column + 1, items := some column } fuel false rest
      return ((key, value), rest)

/-- Reads the pairs of a mapping whose keys stand in one column. -/
def readPairs (column : Nat) : (fuel : Nat) → Reader (List (Node × Node))
  | 0, _ => none
  | fuel + 1, cs => do
    let (p, rest) ← readPair column fuel cs
    let l := Line.next rest
    if l.isAt column then
      let (ps, rest) ← readPairs column fuel l.text
      return (p :: ps, rest)
    if !l.isEnd && (column < l.indent || (l.indent = column && l.tabbed)) then none
    return ([p], rest)

end

end TagIndex.Yaml.Block
