import TagIndex.Command.Import
import TagIndex.Store.Files
import TagIndex.Store.Lookup
import TagIndex.Store.Resolve

/-! Carrying out commands. -/
namespace TagIndex

namespace TagQuery

open Store

/-- The tags of several scopes, one scope after the other. -/
def tagsOfEach : List String → Lookup (List Row)
  | [] => return []
  | s :: ss => do return (← tagsByScope s) ++ (← tagsOfEach ss)

def refusal? : TagQuery → Option Failure
  | scope [_] (some _) _ _ => none
  | scope _ (some _) _ kinds => if kinds.isEmpty then none else some .severalScopes
  | _ => none

def byScopes (scopes : List String) (name : Option String) (exact : Bool) (kinds : List String) :
    Lookup (List Row) :=
  match name, scopes with
  | some n, [s] =>
    if kinds.isEmpty then tagsByScopeAndName s n (!exact) else tagsByScopeAndKind s kinds n
  | some n, ss => tagsByScopesAndName ss n (!exact)
  | none, [s] => if kinds.isEmpty then tagsByScope s else tagsByScopesAndKind [s] kinds
  | none, ss =>
    if kinds.isEmpty then do return (← tagsOfEach ss).take (← searchLimit)
    else tagsByScopesAndKind ss kinds

def byFile (file : String) (line : Option Int) (kinds : List String) (visible : Option String) :
    Lookup (List Row) :=
  match visible, line with
  | some start, _ => fileScopedTags file start []
  | none, some line => tagsByFileAndLine file line
  | none, none =>
    if kinds.isEmpty then tagsByFile file
    else tagsByKindAndFile kinds file (some (.ascending .line))

/-- The segments of a path that are not empty. -/
def pathSegments (path : String) : List String :=
  ((Text.segments path.toList).filter (!·.isEmpty)).map String.ofList

def byPath (path : String) (kinds : List String) (parts : Bool) : Lookup (List Row) :=
  if parts then tagsByPathParts (pathSegments path)
  else if kinds.isEmpty then tagsByPath [path]
  else do tagsByPathAndKind path kinds (← searchLimit)

def rows : TagQuery → Lookup (List Row)
  | name n _ _ (some parent) => tagsByNameAndParent n parent
  | name n exact contains none => if contains then tagsByPartName n else tagsByName n (!exact)
  | scope scopes n exact kinds => byScopes scopes n exact kinds
  | file f line kinds visible => byFile f line kinds visible
  | kind kinds sorting => tagsByKind kinds sorting
  | path p kinds parts => byPath p kinds parts
  | enclosing f line => return (← scopeAt f line).toList
  | params function => parameters function

end TagQuery

namespace Command

open Store

/-- Removes files one after the other; what was said of those before a failure stays. -/
def removeAll : List String → (out : String) → Store → Report × Store
  | [], out, s => (.printed out, s)
  | file :: rest, out, s =>
    match s.deleteByFile file true with
    | (.error e, s) => (⟨out, some (.store e)⟩, s)
    | (.ok count, s) => removeAll rest (out ++ Output.removal file count) s

def listFiles (f : Format) (typed : Option String) (complete : Bool) : Lookup Report :=
  match typed with
  | some typed =>
    if complete then return .printed (Output.lines f (← filesForCompletion typed))
    else return .printed (Output.files f (← filesMatching typed))
  | none => return .printed (Output.files f (← Store.files))

/-- Prints a value, or fails when there is none. -/
def found {α : Type} (print : α → String) (failure : Failure) : Option α → Report
  | some a => .printed (print a)
  | none => .failed failure

def listTags (f : Format) (q : TagQuery) : Lookup Report :=
  match q.refusal? with
  | some failure => return .failed failure
  | none => return .printed (Output.tags f (← q.rows))

/-- Carries out a command on an open store. For an import, `inputs` are the files to import. -/
def runOn (f : Format) (now : Int) (inputs : List String) : Command → Store → Report × Store
  | take _ noCache, s => Import.run now inputs (if noCache then s.setUseCache false else s)
  | tags q, s => (listTags f q).run s
  | resolve typeName scope, s =>
    let (t, s) := (resolveTypeScope typeName scope).run s
    (found (Output.typeScope f) (.unresolved typeName scope) t, s)
  | definition name, s =>
    let (t, s) := (getMacro name).run s
    (found (Output.definition f) (.noDefinition name) t, s)
  | files typed complete, s => (listFiles f typed complete).run s
  | remove paths, s => removeAll paths "" s
  | status, s =>
    match s.statistics with
    | (.error e, s) => (.failed (.store e), s)
    | (.ok stats, s) => (.printed (Output.statistics f (s.path.getD "") 0 stats), s)
  | clear, s =>
    match s.clear with
    | (.error e, s) => (.failed (.store e), s)
    | (.ok (), s) => (.printed "✓ Tags database cleared\n", s)
  | completions _, s => ({}, s)

end Command

namespace Invocation

/-- Opens the database that the command line or the settings name. -/
def openStore (i : Invocation) (env : Environment) (user : Option String) (d : Disk) :
    Except Failure Store × Disk :=
  match Settings.load user (i.settings.map fun path => (path, d.readText path)) env with
  | .error e => (.error (.settings e), d)
  | .ok settings =>
    let path := i.database.getD settings.databasePath
    match Store.openPath { disk := d, options := settings.options } path with
    | (.error e, s) => (.error (.cannotOpen path e), s.disk)
    | (.ok (), s) => (.ok s, s.disk)

def runOpened (i : Invocation) (env : Environment) (user : Option String) (now : Int)
    (inputs : List String) (d : Disk) : Report × Disk :=
  match i.openStore env user d with
  | (.error f, d) => (.failed f, d)
  | (.ok s, _) =>
    let (report, s) := i.command.runOn i.format now inputs s
    (report, s.disk)

/-- Carries out a command. An import looks for its files before the database is opened, and leaves
it alone when there are none. -/
def run (i : Invocation) (env : Environment) (user : Option String) (now : Int) (d : Disk) :
    Report × Disk :=
  match i.command with
  | .take paths _ =>
    match Import.inputs d paths with
    | .error f => (.failed f, d)
    | .ok [] => (.printed "! No tag files found\n", d)
    | .ok inputs => i.runOpened env user now inputs d
  | .completions _ => ({}, d)
  | _ => i.runOpened env user now [] d

end Invocation
end TagIndex
