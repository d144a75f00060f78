import TagIndex.Database
import TagIndex.Text.Pattern
import TagIndex.Text.PrefixRange

/-!
Queries on the tags: conditions that a row has to meet, an order, and a limit. `Query.run` is the
plain meaning: the rows in the order in which they are visited, those that meet every condition,
sorted stably, and of these the first ones.
-/
namespace TagIndex

inductive TextColumn where
  | name | file | kind | scope | path
  deriving DecidableEq, Repr

def TextColumn.of : TextColumn → Tag → String
  | name, t => t.name
  | file, t => t.file
  | kind, t => t.kind
  | scope, t => t.scope
  | path, t => t.path

inductive Test where
  | is (s : String)
  | oneOf (ss : List String)
  /-- A pattern with `Text.escapeMark` before literal characters. -/
  | like (pattern : String)
  | unlike (pattern : String)
  /-- A pattern without an escape mark. -/
  | likePlain (pattern : String)
  /-- From the first text up to, and not including, the second, if there is one. -/
  | range (low : String) (high : Option String)
  deriving DecidableEq, Repr

namespace Test

def holds : Test → String → Bool
  | is s, t => t = s
  | oneOf ss, t => ss.contains t
  | like p, t => Text.matchesPattern (some Text.escapeMark) p t
  | unlike p, t => !Text.matchesPattern (some Text.escapeMark) p t
  | likePlain p, t => Text.matchesPattern none p t
  | range low high, t =>
    decide (low ≤ t) && match high with
      | some high => decide (t < high)
      | none => true

def isTooLong : Test → Bool
  | like p | unlike p | likePlain p => Text.maxPatternBytes < p.utf8ByteSize
  | _ => false

def isExact : Test → Bool
  | is _ => true
  | _ => false

def isOneOf : Test → Bool
  | oneOf _ => true
  | _ => false

/-- Whether the test names at least two texts, alike or not. -/
def isSeveral : Test → Bool
  | oneOf (_ :: _ :: _) => true
  | _ => false

def isRange : Test → Bool
  | range .. => true
  | _ => false

/-- How many other texts one has to look for before a visit of this range is the cheaper one. -/
def rangeWorth? : Test → Option Nat
  | range _ (some _) => some 1280
  | range _ none => some 20480
  | _ => none

/-- Whether a visit of the range is cheaper than one of the texts of this test. -/
def isBeatenBy (t range : Test) : Bool :=
  match t, range.rangeWorth? with
  | oneOf ss, some n => n ≤ ss.length
  | _, _ => false

def valueCount : Test → Nat
  | oneOf ss => ss.length
  | range _ (some _) => 2
  | _ => 1

/-- The test for a whole name or for the start of one. With `caseSensitive` a start is a range of
texts, otherwise it is a pattern. -/
def forName (name : String) (isPartial caseSensitive : Bool) : Test :=
  if !isPartial then is name
  else if caseSensitive then range name (Text.upperEndOf name)
  else like (Text.startingWith name)

end Test

inductive Condition where
  | column (c : TextColumn) (t : Test)
  | onLine (n : Int)
  | atOrBefore (n : Int)
  /-- The row is in the projection of the global scope, under a name that meets the test. -/
  | globalNamed (t : Test)
  deriving DecidableEq, Repr

namespace Condition

def holds (db : Database) (r : Row) : Condition → Bool
  | column c t => t.holds (c.of r.tag)
  | onLine n => r.tag.line = n
  | atOrBefore n => r.tag.line ≤ n
  | globalNamed t => db.globals.any fun g => g.tagId = r.id && t.holds g.name

def valueCount : Condition → Nat
  | column _ t | globalNamed t => t.valueCount
  | onLine _ | atOrBefore _ => 1

/-- Whether an overlong pattern is compared with the row; conditions are tried in order. -/
def meetsTooLong (db : Database) (r : Row) : List Condition → Bool
  | [] => false
  | column c t :: rest => t.isTooLong || (t.holds (c.of r.tag) && meetsTooLong db r rest)
  | c :: rest => c.holds db r && meetsTooLong db r rest

/-- Names of the projection are compared even when no row is. -/
def meetsTooLongGlobal (db : Database) : Condition → Bool
  | globalNamed t => t.isTooLong && !db.globals.isEmpty
  | _ => false

end Condition

inductive SortColumn where
  | id | name | file | line | kind | scope | path
  deriving DecidableEq, Repr

inductive Direction where
  | ascending
  | descending
  /-- Not said, which means ascending. -/
  | unspecified
  deriving DecidableEq, Repr

structure Sorting where
  column : SortColumn
  direction : Direction
  deriving DecidableEq, Repr

namespace Sorting

def ascending (c : SortColumn) : Sorting := ⟨c, .ascending⟩
def descending (c : SortColumn) : Sorting := ⟨c, .descending⟩

def compareColumn (a b : Row) : SortColumn → Ordering
  | .id => compare a.id b.id
  | .name => compare a.tag.name b.tag.name
  | .file => compare a.tag.file b.tag.file
  | .line => compare a.tag.line b.tag.line
  | .kind => compare a.tag.kind b.tag.kind
  | .scope => compare a.tag.scope b.tag.scope
  | .path => compare a.tag.path b.tag.path

def le (s : Sorting) (a b : Row) : Bool :=
  match s.direction with
  | .descending => (compareColumn b a s.column).isLE
  | _ => (compareColumn a b s.column).isLE

end Sorting

inductive Walk where
  | byId
  | byKind
  | byKey
  | byPath
  | byScope
  | byName
  deriving DecidableEq, Repr

namespace Walk

def compare (a b : Row) : Walk → Ordering
  | byId => Ord.compare a.id b.id
  | byKind => (Ord.compare a.tag.kind b.tag.kind).then (Ord.compare a.id b.id)
  | byKey =>
    (Ord.compare a.tag.kind b.tag.kind).then <|
    (Ord.compare a.tag.path b.tag.path).then <|
    (Ord.compare a.tag.signature b.tag.signature).then <|
    (Ord.compare a.tag.typeref b.tag.typeref).then <|
    (Ord.compare a.tag.templateDefinition b.tag.templateDefinition).then <|
    Ord.compare a.id b.id
  | byPath => (Ord.compare a.tag.path b.tag.path).then (Ord.compare a.id b.id)
  | byScope => (Ord.compare a.tag.scope b.tag.scope).then (Ord.compare a.id b.id)
  | byName => (Ord.compare a.tag.name b.tag.name).then (Ord.compare a.id b.id)

end Walk

structure Query where
  conditions : List Condition
  sorting : Option Sorting := none
  limit : Nat
  deriving DecidableEq, Repr

namespace Query

/-- A larger limit is no number to the database. -/
def maxLimit : Nat := 9223372036854775807

/-- More conditions than this nest too deeply. -/
def maxConditions : Nat := 999

def maxValues : Nat := 32766

/-- A query of more conditions or values than the database takes is not even asked. -/
def isTooLarge (q : Query) : Bool :=
  maxConditions < q.conditions.length ||
    maxValues < q.conditions.foldl (fun n c => n + c.valueCount) 0

def tests (q : Query) (c : TextColumn) (p : Test → Bool) : Bool :=
  q.conditions.any fun
    | .column c' t => c' = c && p t
    | _ => false

def walk (q : Query) : Walk :=
  if q.tests .kind Test.isOneOf then
    if q.tests .file Test.isExact then
      if q.sorting.map (·.column) = some .id then .byId else .byKey
    else if q.tests .scope Test.isExact || q.tests .path Test.isExact || q.tests .name Test.isExact
    then .byId
    else .byKind
  else if q.tests .path Test.isOneOf then .byPath
  else if q.tests .scope fun t => q.tests .name t.isBeatenBy then .byName
  else if q.tests .scope Test.isOneOf && !q.tests .name Test.isExact then .byScope
  else if q.tests .name Test.isRange && !q.tests .scope Test.isExact then .byName
  else .byId

/-- A descending order can be had by a visit that goes backwards: one by several kinds, or, inside a
file, one by paths. A single kind needs no order. -/
def isBackward (q : Query) : Bool :=
  if q.sorting = some ⟨.kind, .descending⟩ then
    q.tests .kind Test.isSeveral && (q.walk = .byKind || q.walk = .byKey)
  else q.sorting = some ⟨.path, .descending⟩ && q.walk = .byKey

def accepts (q : Query) (db : Database) (r : Row) : Bool := q.conditions.all (·.holds db r)

/-- The rows that meet every condition, in the order of the visit. -/
def visited (q : Query) (db : Database) : List Row :=
  let rows := (db.tags.filter (q.accepts db)).mergeSort fun a b => (q.walk.compare a b).isLE
  if q.isBackward then rows.reverse else rows

def answers (q : Query) (db : Database) : List Row :=
  match q.sorting with
  | some s => (q.visited db).mergeSort s.le
  | none => q.visited db

def meetsTooLong (q : Query) (db : Database) : Bool :=
  q.conditions.any (·.meetsTooLongGlobal db) ||
    db.tags.any fun r => Condition.meetsTooLong db r q.conditions

def run (q : Query) (db : Database) : Except Fault (List Row) :=
  if maxLimit < q.limit then .error .limitTooLarge
  else if q.limit = 0 then .ok []
  else if q.meetsTooLong db then .error .patternTooLong
  else .ok ((q.answers db).take q.limit)

end Query
end TagIndex
