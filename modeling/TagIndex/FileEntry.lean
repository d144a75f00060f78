import TagIndex.Calendar

/-! The files that the index knows, and when their tags were last taken. -/
namespace TagIndex

structure FileEntry where
  id : Nat
  file : String
  lastRetagged : Int
  deriving DecidableEq, Repr, Inhabited

def FileEntry.dateText (e : FileEntry) : String := Calendar.momentText e.lastRetagged

end TagIndex
