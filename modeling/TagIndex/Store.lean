import TagIndex.Cache
import TagIndex.Database.Batch
import TagIndex.Disk

/-!
A store is a session on one database file: at most one connection, an open transaction or none, the
options, and the kept answers. Writes of a transaction are seen by the session alone until it
commits.
-/
namespace TagIndex

structure Options where
  busyTimeoutMs : Nat := 10
  searchLimit : Nat := 250
  caseSensitive : Bool := false
  useCache : Bool := true
  deriving DecidableEq, Repr, Inhabited

/-- A begun transaction has not touched the file yet; a working one has its own view of it. -/
inductive Transaction where
  | none
  | begun
  | working (db : Database)
  deriving Inhabited

structure Connection extends Handle where
  transaction : Transaction := .none
  deriving Inhabited

/-- No transaction is open on the connection. -/
def Connection.isIdle (c : Connection) : Bool := c.transaction matches .none

structure Store where
  disk : Disk := {}
  options : Options := {}
  connection : Option Connection := none
  path : Option String := none
  cache : Cache := {}
  deriving Inhabited

inductive StoreError where
  | notOpen
  | cannotOpen (path : String) (reason : OpenFault)
  | query (f : Fault)
  | mutation (f : Fault)
  | corruption (f : Fault)
  deriving DecidableEq, Repr

namespace StoreError

def message : StoreError → String
  | notOpen => "tags database is not open"
  | cannotOpen path reason =>
    "failed to open tags database " ++ Text.display path ++ ": " ++ reason.message path
  | query f => "query failed: " ++ f.message
  | mutation f => "mutation failed: " ++ f.message
  | corruption f => "storage I/O error or corruption: " ++ f.message

/-- The error of a query or of a mutation that met a fault; damage is told apart. -/
def ofQuery (f : Fault) : StoreError := if f.isDamage then corruption f else query f
def ofMutation (f : Fault) : StoreError := if f.isDamage then corruption f else mutation f

def isCorruption : StoreError → Bool
  | corruption _ => true
  | _ => false

end StoreError

namespace Store

def isOpen (s : Store) : Bool := s.connection.isSome

/-- The statements that the file of a connection refuses. -/
def refusals (s : Store) (c : Connection) : Refusals := fun use n =>
  if c.readOnly && use = .writes then some .readOnly
  else if s.disk.locked.contains c.place then some .locked
  else if (s.disk.database? c.place).isNone then some .notDatabase
  else s.disk.trouble n

/-- The database as a connection sees it, its uncommitted writes included. -/
def view (s : Store) (c : Connection) : Database :=
  match c.transaction with
  | .working db => db
  | _ => (s.disk.database? c.place).getD {}

/-- The database as the session sees it. -/
def database (s : Store) : Database :=
  match s.connection with
  | some c => s.view c
  | none => {}

/-- The fault that ended work takes the transaction back that the connection is in. -/
def losesTransaction {α : Type} (c : Connection) : Except Fault α → Bool
  | .error f => !c.isIdle && f.endsTransaction
  | .ok _ => false

/-- Does work in the open transaction, or else statement by statement for good. A connection that
can only read leaves everything as it is. -/
def perform {α : Type} (s : Store) (c : Connection) (w : Work α) : Except Fault α × Store :=
  let o := w (s.refusals c) s.disk.statements (s.view c)
  let counted := { s with disk := { s.disk with statements := o.next } }
  let untouched :=
    c.readOnly || o.next = s.disk.statements || (s.refusals c .reads s.disk.statements).isSome
  if losesTransaction c o.result then
    (o.result, { counted with connection := some { c with transaction := .none } })
  else if untouched then (o.result, counted)
  else
    match c.transaction with
    | .none => (o.result, { counted with disk := counted.disk.put c.place (.database o.db) })
    | _ => (o.result, { counted with connection := some { c with transaction := .working o.db } })

/-- Makes the writes of a transaction last; one that touched nothing commits in any case. Where the
file is held by another process the transaction stays open; any other fault takes it back. -/
def commitOn (s : Store) (c : Connection) : Except Fault Unit × Store :=
  match c.transaction with
  | .none => (.error .nothingToCommit, s)
  | .begun => (.ok (), { s with connection := some { c with transaction := .none } })
  | .working db =>
    let counted := { s with disk := { s.disk with statements := s.disk.statements + 1 } }
    match s.refusals c .writes s.disk.statements with
    | some .locked => (.error .locked, counted)
    | some fault =>
      (.error fault, { counted with connection := some { c with transaction := .none } })
    | none =>
      (.ok (), { counted with
        disk := counted.disk.put c.place (.database db)
        connection := some { c with transaction := .none } })

def abandon (s : Store) : Store :=
  { s with connection := s.connection.map ({ · with transaction := .none }) }

/-- Does work in a transaction of its own: all of it lasts, or nothing. -/
def transact {α : Type} (s : Store) (c : Connection) (w : Work α) : Except Fault α × Store :=
  match c.transaction with
  | .none =>
    let c := { c with transaction := .begun }
    match ({ s with connection := some c }).perform c w with
    | (.error fault, s) => (.error fault, s.abandon)
    | (.ok a, s) =>
      match s.connection with
      | none => (.ok a, s)
      | some c =>
        match s.commitOn c with
        | (.ok (), s) => (.ok a, s)
        | (.error fault, s) => (.error fault, s.abandon)
  | _ => (.error .alreadyBegun, s)

def work {α : Type} (s : Store) (c : Connection) (autoCommit : Bool) (w : Work α) :
    Except Fault α × Store :=
  if autoCommit then s.transact c w else s.perform c w

end Store
end TagIndex
