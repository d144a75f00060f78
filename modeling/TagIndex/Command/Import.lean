import TagIndex.Command.Failure
import TagIndex.Command.Output
import TagIndex.Store.Mutation
import TagIndex.TagFile

/-!
Importing tag files. The tags of all files are stored in one transaction, which a bad file undoes;
macros are stored after it.
-/
namespace TagIndex.Import

/-- The tag files that a path stands for: the file itself, or those below a directory. -/
def inputsOf (d : Disk) (path : String) : Except Failure (List String) :=
  match d.node path with
  | .error _ => .error (.noSuchPath path)
  | .ok (.file _) => .ok [path]
  | .ok (.directory parts) => .ok (d.filesBelow path parts TagFile.ending)

def inputs (d : Disk) : List String → Except Failure (List String)
  | [] => .ok []
  | path :: paths => do return (← inputsOf d path) ++ (← inputs d paths)

def readFile (d : Disk) (path : String) : Except Failure TagFile :=
  match d.readText path with
  | .error f => .error (.unreadable path f)
  | .ok text =>
    match TagFile.ofText? text with
    | some f => .ok f
    | none => .error (.invalidTagFile path)

structure Gathered where
  stats : StoreStats := {}
  macros : List Macro := []
  simpleMacros : List (String × List String) := []

/-- Stores the tags of one file after another in the open transaction. -/
def storeFiles (now : Int) : List String → Gathered → Store → Except Failure Gathered × Store
  | [], g, s => (.ok g, s)
  | path :: paths, g, s =>
    match readFile s.disk path with
    | .error f => (.error f, s)
    | .ok file =>
      match s.storeTags file.tags now false with
      | (.error e, s) => (.error (.importOf path e), s)
      | (.ok stats, s) =>
        storeFiles now paths
          { stats := g.stats.add stats
            macros := g.macros ++ file.macros
            simpleMacros := TagFile.setKeys file.simpleMacros g.simpleMacros } s

def storeSimpleMacros : List (String × List String) → Store → Except Failure Unit × Store
  | [], s => (.ok (), s)
  | (file, names) :: rest, s =>
    match s.storeSimpleMacros file names with
    | (.error e, s) => (.error (.store e), s)
    | (.ok _, s) => storeSimpleMacros rest s

/-- Stores macros; answers the number of those with a definition. -/
def storeMacros (g : Gathered) (s : Store) : Except Failure Nat × Store :=
  match s.storeMacros g.macros with
  | (.error e, s) => (.error (.store e), s)
  | (.ok count, s) =>
    match storeSimpleMacros g.simpleMacros s with
    | (.error f, s) => (.error f, s)
    | (.ok (), s) => (.ok count, s)

/-- Stores all tags, or none when a file is bad. -/
def storeAllTags (now : Int) (paths : List String) (s : Store) : Except Failure Gathered × Store :=
  match s.begin with
  | (.error e, s) => (.error (.store e), s)
  | (.ok (), s) =>
    match storeFiles now paths {} s with
    | (.error f, s) => (.error f, s.rollback.2)
    | (.ok g, s) =>
      match s.commit with
      | (.error e, s) => (.error (.store e), s)
      | (.ok (), s) => (.ok g, s)

def run (now : Int) (paths : List String) (s : Store) : Report × Store :=
  match storeAllTags now paths s with
  | (.error f, s) => (.failed f, s)
  | (.ok g, s) =>
    match storeMacros g s with
    | (.error f, s) => (.failed f, s)
    | (.ok macros, s) => (.printed (Output.summary paths.length g.stats macros), s)

end TagIndex.Import
