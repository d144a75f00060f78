/-! Why a statement on a database can fail. -/
namespace TagIndex

inductive Fault where
  | locked
  | rejected
  | readOnly
  | notDatabase
  | diskError
  | malformed
  /-- There is no room on the disk for what is written, or none in memory to go on with. An open
  transaction is given up for it as a whole, or just the statement. -/
  | full (wholly : Bool)
  | outOfMemory (wholly : Bool)
  | noTable (name : String)
  | alreadyBegun
  | nothingToCommit
  | nothingToRollBack
  | limitTooLarge
  | patternTooLong
  deriving DecidableEq, Repr

namespace Fault

def message : Fault → String
  | locked => "database is locked"
  | rejected => "rejected"
  | readOnly => "attempt to write a readonly database"
  | notDatabase => "file is not a database"
  | diskError => "disk I/O error"
  | malformed => "database disk image is malformed"
  | full _ => "database or disk is full"
  | outOfMemory _ => "out of memory"
  | noTable name => "no such table: " ++ name
  | alreadyBegun => "cannot start a transaction within a transaction"
  | nothingToCommit => "cannot commit - no transaction is active"
  | nothingToRollBack => "cannot rollback - no transaction is active"
  | limitTooLarge => "datatype mismatch"
  | patternTooLong => "LIKE or GLOB pattern too complex"

/-- The faults that say that the file itself is damaged. -/
def isDamage : Fault → Bool
  | notDatabase | diskError | malformed => true
  | _ => false

/-- The faults after which an open transaction is gone, with all that was written in it. -/
def endsTransaction : Fault → Bool
  | diskError => true
  | full wholly | outOfMemory wholly => wholly
  | _ => false

end Fault
end TagIndex
