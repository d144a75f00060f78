import TagIndex.Settings

/-! Why a command can fail. -/
namespace TagIndex

inductive Failure where
  | settings (e : SettingsError)
  | cannotOpen (path : String) (e : StoreError)
  | store (e : StoreError)
  | noSuchPath (path : String)
  | unreadable (path : String) (f : ReadFault)
  | invalidTagFile (path : String)
  | importOf (path : String) (e : StoreError)
  | unresolved (typeName scope : String)
  | noDefinition (name : String)
  | severalScopes
  deriving DecidableEq, Repr

def Failure.message : Failure → String
  | settings e => e.message
  | cannotOpen path e => "Cannot open tags database " ++ path ++ ": " ++ e.message
  | store e => e.message
  | noSuchPath path => "No such file or directory: " ++ path
  | unreadable path f => "Failed to read " ++ path ++ ": " ++ f.message
  | invalidTagFile path => "Invalid tag file " ++ path
  | importOf path e => "Import of " ++ path ++ " failed: " ++ e.message
  | unresolved typeName scope => "Cannot resolve '" ++ typeName ++ "' from scope '" ++ scope ++ "'"
  | noDefinition name => "Macro '" ++ name ++ "' not found"
  | severalScopes => "--name with --kind takes a single scope"

structure Report where
  out : String := ""
  failure : Option Failure := none
  deriving DecidableEq, Repr

def Report.printed (out : String) : Report := { out }
def Report.failed (f : Failure) : Report := { failure := some f }

end TagIndex
