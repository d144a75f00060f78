import TagIndex.Command
import TagIndex.Tag
import TagIndex.Usage

/-! The command line of the index: its forms, and the command that a line stands for. -/
namespace TagIndex.Command

open Usage

/-! ## Forms -/

def positional (name : String) (value : ValueType) (repeats : Bool) (required : Bool) : Argument :=
  { name, style := .positional, value := some value, required, repeats }

def switch (name : String) : Argument := { name, value := none }

def option (name : String) (short : Option Char) (value : ValueType) : Argument :=
  { name, style := .named short, value := some value }

/-- The kinds to keep: comma lists, any number of them. -/
def kindOption : Argument := { option "kind" (some 'k') .list with repeats := true }

def formatWords : List String := ["auto", "tsv", "json", "md"]

def columnWords : List String := ["id", "name", "file", "line", "kind", "scope", "path"]

def shells : List String := ["bash", "elvish", "fish", "powershell", "zsh"]

/-- Options that can stand at every level. -/
def sharedArguments : List Argument :=
  [option "format" (some 'f') (.oneOf formatWords),
   { switch "verbose" with style := .named (some 'v') },
   option "db" none .path,
   option "config" none .path]

def queryForms : List Form :=
  [.mk "name"
     [positional "name" .text false true,
      { switch "exact" with excludes := ["contains"] },
      switch "contains",
      option "parent" none .text] [],
   .mk "scope"
     [positional "scopes" .text true true,
      option "name" (some 'n') .text,
      switch "exact",
      kindOption] [],
   .mk "file"
     [positional "file" .text false true,
      option "line" none .integer,
      kindOption,
      { option "visible" none .text with excludes := ["line", "kind"] }] [],
   .mk "kind"
     [positional "kinds" .list true true,
      option "order-by" none (.oneOf columnWords),
      { switch "desc" with needs := some "order-by" }] [],
   .mk "path"
     [positional "path" .text false true,
      kindOption,
      switch "parts"] [],
   .mk "at"
     [positional "file" .text false true,
      positional "line" .integer false true] [],
   .mk "resolve"
     [positional "type-name" .text false true,
      option "scope" (some 's') .text] [],
   .mk "params" [positional "function" .text false true] [],
   .mk "macro" [positional "name" .text false true] []]

def form : Form :=
  .mk "tagdb" []
    [.mk "import"
       [positional "paths" .path true true,
        switch "no-cache"] [],
     .mk "query" [] queryForms,
     .mk "files"
       [positional "partial" .text false false,
        { switch "complete" with needs := some "partial" }] [],
     .mk "remove" [positional "files" .text true true] [],
     .mk "status" [] [],
     .mk "clear" [] [],
     .mk "completions" [positional "shell" (.oneOf shells) false true] []]

/-! ## Commands -/

def column? : String → Option SortColumn
  | "id" => some .id
  | "name" => some .name
  | "file" => some .file
  | "line" => some .line
  | "kind" => some .kind
  | "scope" => some .scope
  | "path" => some .path
  | _ => none

def format? : String → Option Format
  | "auto" => some .auto
  | "tsv" => some .tsv
  | "json" => some .json
  | "md" => some .md
  | _ => none

def text (g : Given) (name : String) : String := (g.value? name).getD ""

def integer? (g : Given) (name : String) : Option Int :=
  (g.value? name).bind fun s => Text.integer? s.toList

/-- The order asked for; it is ascending unless said otherwise. -/
def sorting? (g : Given) : Option Sorting :=
  ((g.value? "order-by").bind column?).map fun c =>
    if g.isGiven "desc" then .descending c else .ascending c

def ofQuery? (name : String) (g : Given) : Option Command :=
  match name with
  | "name" =>
    some (.tags (.name (text g "name") (g.isGiven "exact") (g.isGiven "contains")
      (g.value? "parent")))
  | "scope" =>
    some (.tags (.scope (g.values "scopes") (g.value? "name") (g.isGiven "exact")
      (g.values "kind")))
  | "file" =>
    some (.tags (.file (text g "file") (integer? g "line") (g.values "kind") (g.value? "visible")))
  | "kind" => some (.tags (.kind (g.values "kinds") (sorting? g)))
  | "path" => some (.tags (.path (text g "path") (g.values "kind") (g.isGiven "parts")))
  | "at" => some (.tags (.enclosing (text g "file") ((integer? g "line").getD 0)))
  | "resolve" => some (.resolve (text g "type-name") ((g.value? "scope").getD globalScope))
  | "params" => some (.tags (.params (text g "function")))
  | "macro" => some (.definition (text g "name"))
  | _ => none

def ofGiven? (commands : List String) (g : Given) : Option Command :=
  match commands with
  | ["import"] => some (.take (g.values "paths") (g.isGiven "no-cache"))
  | ["query", name] => ofQuery? name g
  | ["files"] => some (.files (g.value? "partial") (g.isGiven "complete"))
  | ["remove"] => some (.remove (g.values "files"))
  | ["status"] => some .status
  | ["clear"] => some .clear
  | ["completions"] => some (.completions (text g "shell"))
  | _ => none

def ofLine (texts : List String) : Except Refusal Invocation := do
  let p ← Usage.read sharedArguments form texts
  match ofGiven? p.commands p.own with
  | none => .error .missingCommand
  | some command =>
    return {
      command
      format := ((p.shared? "format").bind format?).getD .auto
      verbose := p.levels.any (·.isGiven "verbose")
      database := p.shared? "db"
      settings := p.shared? "config" }

end TagIndex.Command
