import TagIndex.Store.Session

/-! Counts of what a store holds. -/
namespace TagIndex

structure Statistics where
  version : Option String
  tags : Nat
  globalTags : Nat
  files : Nat
  macros : Nat
  simpleMacros : Nat
  deriving DecidableEq, Repr

def Statistics.read : Work Statistics := do
  let version ← Work.ask (·.versions.head?)
  let tags ← Work.ask (·.tags.length)
  let globalTags ← Work.ask (·.globals.length)
  let files ← Work.ask (·.files.length)
  let macros ← Work.ask (·.macros.length)
  let simpleMacros ← Work.ask (·.simpleMacros.length)
  return { version, tags, globalTags, files, macros, simpleMacros }

namespace Store

def statistics (s : Store) : Except StoreError Statistics × Store :=
  match s.connection with
  | none => (.error .notOpen, s)
  | some c =>
    let (r, s) := s.perform c Statistics.read
    (r.mapError .ofQuery, s)

/-- The version that the open file records first. -/
def schemaVersion (s : Store) : Option String × Store :=
  match s.connection with
  | none => (none, s)
  | some c =>
    let (r, s) := s.perform c (Work.ask (·.versions.head?))
    (r.toOption.bind id, s)

end Store
end TagIndex
