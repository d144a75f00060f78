import TagIndex.Store

/-! Opening, closing and tuning a store, and its transactions. -/
namespace TagIndex.Store

/-- Connects to a file; on failure the store stays as it is. -/
def connect (s : Store) (path : String) : Except OpenFault Store :=
  match s.disk.connect path with
  | .ok (handle, disk) =>
    .ok { s with disk, connection := some { toHandle := handle }, path := some path }
  | .error reason => .error reason

def close (s : Store) : Store := { s with connection := none, path := none, cache := {} }

/-- Opens a file, unless it is open already. When that fails, the file before it is opened again. -/
def openPath (s : Store) (path : String) : Except StoreError Unit × Store :=
  if s.isOpen && s.path.any (Path.alike · path) then (.ok (), s)
  else
    let previous := s.path
    let s := if s.isOpen then s.close else s
    match s.connect path with
    | .ok s => (.ok (), s)
    | .error reason =>
      let back := match previous with
        | some p => (s.connect p).toOption.getD s
        | none => s
      (.error (.cannotOpen path reason), back)

/-- Gives up the connection and opens the same file again. -/
def reopen (s : Store) : Except StoreError Unit × Store :=
  match s.path with
  | none => (.error .notOpen, s)
  | some path =>
    let s := { s with connection := none, cache := {} }
    match s.connect path with
    | .ok s => (.ok (), s)
    | .error reason => (.error (.cannotOpen path reason), s)

/-- Tries to get over a fault: a damaged file is opened again, once. -/
def heal (s : Store) (f : Fault) : Store := if f.isDamage then s.reopen.2 else s

/-! ## Options -/

def setBusyTimeout (s : Store) (ms : Nat) : Store :=
  { s with options := { s.options with busyTimeoutMs := ms } }

def setSearchLimit (s : Store) (limit : Nat) : Store :=
  { s with options := { s.options with searchLimit := max limit 1 } }

def setCaseSensitive (s : Store) (on : Bool) : Store :=
  { s with options := { s.options with caseSensitive := on } }

/-- Switching the cache off forgets the kept answers. -/
def setUseCache (s : Store) (on : Bool) : Store :=
  { s with
    options := { s.options with useCache := on }
    cache := if on then s.cache else {} }

def clearCache (s : Store) : Store := { s with cache := {} }

/-! ## Transactions -/

def begin (s : Store) : Except StoreError Unit × Store :=
  match s.connection with
  | none => (.error .notOpen, s)
  | some c =>
    match c.transaction with
    | .none => (.ok (), { s with connection := some { c with transaction := .begun } })
    | _ => (.error (.mutation .alreadyBegun), s)

def commit (s : Store) : Except StoreError Unit × Store :=
  match s.connection with
  | none => (.error .notOpen, s)
  | some c =>
    let (r, s) := s.commitOn c
    (r.mapError .ofMutation, s)

/-- Takes the writes of the transaction back; answers may have seen them, so none is kept. -/
def rollback (s : Store) : Except StoreError Unit × Store :=
  match s.connection with
  | none => (.error .notOpen, s)
  | some c =>
    match c.transaction with
    | .none => (.error (.mutation .nothingToRollBack), s.clearCache)
    | _ => (.ok (), s.abandon.clearCache)

end TagIndex.Store
