import TagIndex.Database

/-!
Work on a database is a sequence of statements. Each statement can be refused; a refused or failing
statement changes nothing and ends the work, and what earlier statements did stays.
-/
namespace TagIndex

/-- What a statement does with the database. -/
inductive Use where
  | reads
  | writes
  deriving DecidableEq, Repr

/-- Which of the coming statements are refused, by their use of the database and their number. -/
abbrev Refusals := Use → Nat → Option Fault

/-- How work ended: its result, the number of the next statement, and the database. -/
structure Outcome (α : Type) where
  result : Except Fault α
  next : Nat
  db : Database

def Work (α : Type) : Type := Refusals → Nat → Database → Outcome α

namespace Work

variable {α β : Type}

protected def pure (a : α) : Work α := fun _ n db => ⟨.ok a, n, db⟩

protected def bind (w : Work α) (f : α → Work β) : Work β := fun refusals n db =>
  match w refusals n db with
  | ⟨.ok a, n, db⟩ => f a refusals n db
  | ⟨.error e, n, db⟩ => ⟨.error e, n, db⟩

instance : Monad Work where
  pure := Work.pure
  bind := Work.bind

def statement (use : Use) (f : Database → Except Fault (α × Database)) : Work α :=
  fun refusals n db =>
  match refusals use n with
  | some fault => ⟨.error fault, n + 1, db⟩
  | none =>
    match f db with
    | .ok (a, db') => ⟨.ok a, n + 1, db'⟩
    | .error fault => ⟨.error fault, n + 1, db⟩

def query (f : Database → Except Fault α) : Work α := statement .reads fun db => (f db).map (·, db)

def ask (f : Database → α) : Work α := query fun db => .ok (f db)

def change (f : Database → Database) : Work Unit := statement .writes fun db => .ok ((), f db)

end Work
end TagIndex
