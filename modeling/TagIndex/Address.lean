import TagIndex.Path
import TagIndex.Text.Octets

/-!
Addresses of databases. An address is a path, or a path after `file:` with parameters that say how
the file is to be used.
-/
namespace TagIndex

/-- What a database is opened for. -/
inductive Access where
  | memory
  | reading
  | writing
  /-- A file that is not there is made. -/
  | creating
  deriving DecidableEq, Repr

namespace Access

def ofWord? : String → Option Access
  | "memory" => some memory
  | "ro" => some reading
  | "rw" => some writing
  | "rwc" => some creating
  | _ => none

/-- What access is at most as wide as another; memory is not bound to what a file allows. -/
def rank : Access → Nat
  | memory => 0
  | reading => 1
  | writing => 2
  | creating => 3

def allows (a b : Access) : Bool := a = memory || b.rank ≤ a.rank

end Access

inductive AddressFault where
  | unknownAuthority (s : String)
  | unknownAccess (word : String)
  | wideAccess (word : String)
  | unknownSharing (word : String)
  | unknownSystem (name : String)
  deriving DecidableEq, Repr

def AddressFault.message : AddressFault → String
  | unknownAuthority s => "invalid uri authority: " ++ s
  | unknownAccess word => "no such access mode: " ++ word
  | wideAccess word => "access mode not allowed: " ++ word
  | unknownSharing word => "no such cache mode: " ++ word
  | unknownSystem name => "no such vfs: " ++ name

structure Address where
  path : String
  access : Access := .creating
  /-- The file system that was asked for. -/
  system : Option String := none
  deriving DecidableEq, Repr

namespace Address

/-- The file system that keeps everything in memory. -/
def memorySystem : String := "memdb"

def systems : List String := ["unix", "unix-none", "unix-dotfile", "unix-excl", memorySystem]

def memoryPath : String := ":memory:"

/-- Whether the database is in no file, and empty whenever it is opened. -/
def isScratch (a : Address) : Bool :=
  a.access = .memory || a.path = "" || a.path = memoryPath || a.system = some memorySystem

/-- Takes account of a parameter; the last one of a name counts, and unknown names are ignored. -/
def withParameter (a : Address) : String × String → Except AddressFault Address
  | ("vfs", name) => .ok { a with system := some name }
  | ("cache", word) =>
    if word = "shared" || word = "private" then .ok a else .error (.unknownSharing word)
  | ("mode", word) =>
    match Access.ofWord? word with
    | none => .error (.unknownAccess word)
    | some access =>
      if a.access.allows access then .ok { a with access } else .error (.wideAccess word)
  | _ => .ok a

def checkSystem (a : Address) : Except AddressFault Address :=
  match a.system with
  | some name => if systems.contains name then .ok a else .error (.unknownSystem name)
  | none => .ok a

/-- The text before the first character `c`, and the text after it. -/
def cutAt (c : Char) (cs : List Char) : List Char × List Char :=
  (cs.takeWhile (· ≠ c), (cs.dropWhile (· ≠ c)).tail)

def parameter (cs : List Char) : String × String :=
  let (name, value) := cutAt '=' cs
  (Text.unescaped name, Text.unescaped value)

/-- The parameters between the ampersands; those without a name are dropped. -/
def parameters (cs : List Char) : List (String × String) :=
  ((Text.splitBy (· == '&') cs).map parameter).filter (·.1 ≠ "")

/-- The text after the authority, which may only name the machine itself. -/
def afterAuthority : List Char → Except AddressFault (List Char)
  | '/' :: '/' :: cs =>
    let authority := String.ofList (cs.takeWhile (· ≠ '/'))
    if authority = "" || authority = "localhost" then .ok (cs.dropWhile (· ≠ '/'))
    else .error (.unknownAuthority authority)
  | cs => .ok cs

/-- Reads what follows `file:`; a part after `#` is ignored. -/
def ofParts (cs : List Char) : Except AddressFault Address := do
  let (path, query) := cutAt '?' (cutAt '#' (← afterAuthority cs)).1
  let a ← (parameters query).foldlM withParameter { path := Text.unescaped path }
  a.checkSystem

def ofText (s : String) : Except AddressFault Address :=
  match s.toList with
  | 'f' :: 'i' :: 'l' :: 'e' :: ':' :: cs => ofParts cs
  | _ => .ok { path := s }

end Address
end TagIndex
