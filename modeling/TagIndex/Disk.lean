import TagIndex.Address
import TagIndex.Database.Schema

/-!
The files that an index can be kept in. A file is a database or some other text; another process can
hold it, and any statement can meet trouble of its own.
-/
namespace TagIndex

/-- Where a database is. The parts of a place start from the working directory; a scratch place is
empty whenever it is connected to. -/
inductive Place where
  | inside (parts : List String)
  | scratch
  deriving DecidableEq, Repr, Inhabited

/-- An open database: where it is, and whether it can only be read. -/
structure Handle where
  place : Place
  readOnly : Bool := false
  deriving DecidableEq, Repr, Inhabited

inductive Content where
  | text (s : String)
  | database (db : Database)
  deriving Repr, Inhabited

structure Disk where
  files : List (Place × Content) := []
  /-- Directories that are there even when no file is in them. -/
  directories : List (List String) := []
  /-- The places that another process holds. -/
  locked : List Place := []
  /-- The trouble that single statements meet, by their number. -/
  trouble : Nat → Option Fault := fun _ => none
  /-- How many statements there were so far. -/
  statements : Nat := 0
  deriving Inhabited

inductive OpenFault where
  | unopenable
  | notDatabase
  | locked
  | unreadable
  | nullCharacter (position : Nat)
  | address (f : AddressFault)
  deriving DecidableEq, Repr

def OpenFault.message (path : String) : OpenFault → String
  | unopenable => "unable to open database file: " ++ path
  | notDatabase => Fault.notDatabase.message
  | locked => Fault.locked.message
  | unreadable => Fault.diskError.message
  | nullCharacter n => "nul byte found in provided data at position: " ++ toString n
  | address f => f.message

namespace Disk

def content? (d : Disk) (p : Place) : Option Content := (d.files.find? (·.1 = p)).map (·.2)

def put (d : Disk) (p : Place) (c : Content) : Disk :=
  { d with files :=
      if d.files.any (·.1 = p) then d.files.map fun f => if f.1 = p then (p, c) else f
      else d.files ++ [(p, c)] }

/-- The database in a file. A text that is empty, or a single byte, is an empty database. -/
def database? (d : Disk) (p : Place) : Option Database :=
  match d.content? p with
  | some (.database db) => some db
  | some (.text s) => if s.utf8ByteSize ≤ 1 then some {} else none
  | none => none

/-- Directories are there because they contain the working one, because of the files in them, or
without any. -/
def isDirectory (d : Disk) (parts : List String) : Bool :=
  Path.isAbove parts || d.directories.contains parts || d.files.any fun f =>
    match f.1 with
    | .inside ps => parts.isPrefixOf ps && parts != ps
    | .scratch => false

def isFile (d : Disk) (parts : List String) : Bool := (d.content? (.inside parts)).isSome

/-- The place that parts lead to from a directory. A directory on the way need not be there, but
nothing is below a file, and no name in a directory is too long. -/
def follow (d : Disk) (dir : List String) : List String → Option (List String)
  | [] => some dir
  | p :: ps =>
    if Path.isIdle p then d.follow dir ps
    else if p = ".." then d.follow (Path.above dir) ps
    else if d.isFile dir || (Path.isTooLong p && d.isDirectory dir) then none
    else d.follow (dir ++ [p]) ps

/-- The place of an address; absolute paths lead nowhere. -/
def locate (d : Disk) (a : Address) : Option Place :=
  if a.isScratch then some .scratch
  else
    match Path.parts a.path with
    | "" :: _ => none
    | parts => (d.follow [] parts).map .inside

/-- Takes a database through the statements of the schema, each of which can meet trouble. -/
def prepare (d : Disk) (p : Place) (db : Database) : Handle × Disk :=
  let o := Schema.ensure (fun _ n => d.trouble n) d.statements db
  ({ place := p }, { d with statements := o.next }.put p (.database o.db))

def connectFile (d : Disk) (access : Access) (parts : List String) :
    Except OpenFault (Handle × Disk) :=
  let place := .inside parts
  if d.isDirectory parts then .error (if access = .reading then .unreadable else .unopenable)
  else if !d.isDirectory parts.dropLast then .error .unopenable
  else if d.locked.contains place then .error .locked
  else if !d.isFile parts then
    if access = .creating then .ok (d.prepare place {}) else .error .unopenable
  else
    match d.database? place with
    | none => .error .notDatabase
    | some db =>
      if access = .reading then .ok ({ place, readOnly := true }, d) else .ok (d.prepare place db)

def connect (d : Disk) (text : String) : Except OpenFault (Handle × Disk) :=
  match Path.nullPosition? text, Address.ofText text with
  | some n, _ => .error (.nullCharacter n)
  | none, .error f => .error (.address f)
  | none, .ok a =>
    match d.locate a with
    | none => .error .unopenable
    | some .scratch =>
      if a.access = .reading then
        .ok ({ place := .scratch, readOnly := true }, d.put .scratch (.database {}))
      else .ok (d.prepare .scratch {})
    | some (.inside parts) => d.connectFile a.access parts

/-! ## What other processes do -/

def write (d : Disk) (path text : String) : Disk :=
  match d.locate { path } with
  | some p => d.put p (.text text)
  | none => d

def placeOf? (d : Disk) (text : String) : Option Place :=
  (Address.ofText text).toOption.bind d.locate

def lock (d : Disk) (path : String) : Disk :=
  match d.placeOf? path with
  | some p => { d with locked := p :: d.locked }
  | none => d

def unlock (d : Disk) : Disk := { d with locked := [] }

def alter (d : Disk) (path : String) (f : Database → Database) : Disk :=
  match d.placeOf? path with
  | some p =>
    match d.database? p with
    | some db => d.put p (.database (f db))
    | none => d
  | none => d

def reject (d : Disk) (path name : String) : Disk :=
  d.alter path fun db => { db with rejected := name :: db.rejected }

def accept (d : Disk) (path name : String) : Disk :=
  d.alter path fun db => { db with rejected := db.rejected.filter (· ≠ name) }

def setVersions (d : Disk) (path : String) (versions : List String) : Disk :=
  d.alter path fun db => { db with versions }

end Disk
end TagIndex
