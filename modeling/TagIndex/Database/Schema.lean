import TagIndex.Database.Work

/-!
The schema. A connection that can write goes through all its statements; one that fails is passed
over, so a database can be without an index. A table that could not be made shows in the statements
that come later, which are refused. The indexes for searching only make it faster; they are taken
to be there.
-/
namespace TagIndex

/-- Work that fails is passed over. -/
def Work.tried {α : Type} (w : Work α) : Work Unit := fun refusals n db =>
  let o := w refusals n db
  ⟨.ok (), o.next, o.db⟩

namespace Schema

/-- An index that keeps entries apart is made unless two of them are alike. -/
def indexFiles (db : Database) : Database :=
  { db with filesUnique := db.filesUnique || decide (db.files.map (·.file)).Nodup }

def indexMacros (db : Database) : Database :=
  { db with macrosUnique := db.macrosUnique || decide (db.macros.map (·.name)).Nodup }

/-- What the statements do, in their order: four settings, six tables, four indexes that keep rows
apart, of files, tags, macros and versions, and ten for searching. -/
@[irreducible]
def statements : List (Database → Database) :=
  List.replicate 10 id ++ [indexFiles, id, indexMacros, id] ++ List.replicate 10 id

def tryAll : List (Database → Database) → Work Unit
  | [] => pure ()
  | f :: fs => do
    (Work.change f).tried
    tryAll fs

/-- Leaves the current version as the only one recorded. -/
def recordVersion : Work Unit := do
  Work.change fun db => { db with versions := db.versions.filter (· = currentVersion) }
  Work.change ({ · with versions := [currentVersion] })

def ensure : Work Unit := do
  tryAll statements
  recordVersion.tried

end Schema
end TagIndex
