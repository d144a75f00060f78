import TagIndex.Store.Session

/-!
Writes to a store. A write of tags forgets the kept answers, also when it fails; writes of file
entries and macros keep them.
-/
namespace TagIndex.Store

/-- Does work and tells what kind of error a fault is; nothing happens when no file is open. -/
def mutate {α : Type} (s : Store) (autoCommit : Bool) (w : Work α) : Except StoreError α × Store :=
  match s.connection with
  | none => (.error .notOpen, s)
  | some c =>
    let (r, s) := s.work c autoCommit w
    (r.mapError .ofMutation, s)

/-- Replaces the tags of every file that the batch names. -/
def storeTags (s : Store) (tags : List Tag) (now : Int) (autoCommit : Bool) :
    Except StoreError StoreStats × Store :=
  if tags.isEmpty then (.ok {}, s)
  else
    let (r, s) := s.mutate autoCommit (Batch.store tags now)
    let s := s.clearCache
    match r with
    | .error (.corruption _) => (r, s.reopen.2)
    | _ => (r, s)

/-- Deletes the tags of a file and its entry; answers the number of tags. -/
def deleteByFile (s : Store) (file : String) (autoCommit : Bool) : Except StoreError Nat × Store :=
  let (r, s) := s.mutate autoCommit (Batch.removeFile file)
  (r, s.clearCache)

def clear (s : Store) : Except StoreError Unit × Store :=
  let (r, s) := s.mutate false Batch.clear
  (r, s.clearCache)

/-! ## File entries -/

def insertFileEntry (s : Store) (file : String) (time : Int) : Except StoreError Unit × Store :=
  s.mutate false (Work.change (·.putFileEntry file time))

def updateFileEntry (s : Store) (file : String) (time : Int) : Except StoreError Unit × Store :=
  s.mutate false (Work.change (·.setFileTime file time))

def deleteFileEntry (s : Store) (file : String) : Except StoreError Unit × Store :=
  s.mutate false (Work.change (·.dropFileEntry file))

/-! ## Macros -/

def storeMacros (s : Store) (macros : List Macro) : Except StoreError Nat × Store :=
  s.mutate true (Batch.storeMacros macros)

def storeSimpleMacros (s : Store) (file : String) (names : List String) :
    Except StoreError Nat × Store :=
  s.mutate true (Batch.storeSimpleMacros file names)

end TagIndex.Store
