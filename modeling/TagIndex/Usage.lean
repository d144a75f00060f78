import TagIndex.Text.Digits
import TagIndex.Text.Pieces

/-!
Command lines. A form says which switches, options, positional arguments and inner commands can be
given; `read` takes a command line apart from left to right and reports the first thing that
does not fit, and after that whether arguments exclude each other or are missing.
-/
namespace TagIndex.Usage

/-- What the text of a value has to be. -/
inductive ValueType where
  | text
  /-- Not empty. -/
  | path
  /-- A signed integer of 64 bits. -/
  | integer
  | oneOf (words : List String)
  /-- Texts with commas between them. -/
  | list
  deriving DecidableEq, Repr

inductive Style where
  | positional
  /-- By its name, or by one letter. -/
  | named (short : Option Char)
  deriving DecidableEq, Repr

structure Argument where
  name : String
  style : Style := .named none
  /-- The type of the value; a switch has none. -/
  value : Option ValueType := some .text
  required : Bool := false
  repeats : Bool := false
  /-- An argument that has to be given as well. -/
  needs : Option String := none
  /-- Arguments that cannot be given as well. -/
  excludes : List String := []
  deriving DecidableEq, Repr

inductive Refusal where
  | unknownCommand
  | unknownArgument
  | noCommand
  | missingCommand
  | missingArgument
  | badValue
  | badNumber
  | surplusValue
  | conflict
  | help
  | version
  deriving DecidableEq, Repr

inductive Form where
  | mk (name : String) (arguments : List Argument) (inner : List Form)
  deriving Repr

namespace Form

def name : Form → String
  | mk name _ _ => name

def arguments : Form → List Argument
  | mk _ arguments _ => arguments

def inner : Form → List Form
  | mk _ _ inner => inner

def find? (f : Form) (name : String) : Option Form := f.inner.find? (·.name = name)

end Form

/-- The values that were given, by the names of their arguments; a switch has no value. -/
abbrev Given := List (String × List String)

namespace Given

def isGiven (g : Given) (name : String) : Bool := g.any (·.1 = name)

def values (g : Given) (name : String) : List String := (g.filter (·.1 = name)).flatMap (·.2)

def value? (g : Given) (name : String) : Option String := (g.values name).head?

end Given

/-- What was read so far of the arguments of one form. -/
structure Progress where
  given : Given := []
  /-- An argument whose values are not checked yet. -/
  pending : Option (Argument × List String) := none
  /-- The next text is the value of the pending argument. -/
  awaiting : Bool := false
  /-- How many positional arguments are complete. -/
  position : Nat := 0
  /-- Only positional arguments follow. -/
  literal : Bool := false

/-! ## Values -/

def checkValue (t : ValueType) (s : String) : Except Refusal Unit :=
  match t with
  | .text | .list => .ok ()
  | .path => if s = "" then .error .badValue else .ok ()
  | .integer => if (Text.integer? s.toList).isSome then .ok () else .error .badNumber
  | .oneOf words => if words.contains s then .ok () else .error .badValue

/-- The values in a text: a list has one more than commas. -/
def valuesIn (t : ValueType) (s : String) : List String :=
  match t with
  | .list => (Text.splitBy (· == ',') s.toList).map String.ofList
  | _ => [s]

/-- Records an argument, unless it was given before or a value of it is bad. -/
def Progress.record (p : Progress) (a : Argument) (texts : List String) :
    Except Refusal Progress := do
  if a.value.isSome && texts.isEmpty then throw .badValue
  if p.given.isGiven a.name && !a.repeats then throw .conflict
  let values := match a.value with
    | some t => texts.flatMap (valuesIn t)
    | none => []
  for v in values do
    checkValue (a.value.getD .text) v
  return { p with given := p.given ++ [(a.name, values)] }

def Progress.settle (p : Progress) : Except Refusal Progress :=
  match p.pending with
  | none => .ok p
  | some (a, texts) => { p with pending := none, awaiting := false }.record a texts

/-! ## Arguments -/

inductive Meaning where
  | argument (a : Argument)
  | help
  | version

def meaningOfName? (as : List Argument) (name : String) : Option Meaning :=
  match as.find? fun a => a.style ≠ .positional && a.name = name with
  | some a => some (.argument a)
  | none =>
    if name = "help" then some .help else if name = "version" then some .version else none

def meaningOfLetter? (as : List Argument) (c : Char) : Option Meaning :=
  match as.find? fun a => a.style = .named (some c) with
  | some a => some (.argument a)
  | none => if c = 'h' then some .help else if c = 'V' then some .version else none

/-- Takes a switch, or an option with the value that is attached to it, or else awaits its value. -/
def Progress.take (p : Progress) (a : Argument) (attached : Option String) :
    Except Refusal Progress := do
  match a.value, attached with
  | none, some _ => throw .surplusValue
  | none, none => (← p.settle).record a []
  | some _, some s => (← p.settle).record a [s]
  | some _, none => return { ← p.settle with pending := some (a, []), awaiting := true }

/-- The parts of a text before and after its first equals sign. -/
def splitAtEquals (cs : List Char) : String × Option String :=
  match cs.dropWhile (· ≠ '=') with
  | [] => (String.ofList cs, none)
  | _ :: rest => (String.ofList (cs.takeWhile (· ≠ '=')), some (String.ofList rest))

/-- Takes an argument by its name; the text is what follows the two dashes. -/
def Progress.takeNamed (p : Progress) (as : List Argument) (cs : List Char) :
    Except Refusal Progress :=
  let (name, attached) := splitAtEquals cs
  match meaningOfName? as name with
  | none => .error .unknownArgument
  | some (.argument a) => p.take a attached
  | some .help =>
    if attached.isSome then .error .surplusValue else p.settle.bind fun _ => .error .help
  | some .version =>
    if attached.isSome then .error .surplusValue else p.settle.bind fun _ => .error .version

/-- Takes arguments by their letters; what follows the letter of an option is its value. -/
def Progress.takeLetters (p : Progress) (as : List Argument) : List Char → Except Refusal Progress
  | [] => .ok p
  | c :: cs =>
    match meaningOfLetter? as c with
    | none => .error .unknownArgument
    | some .help => p.settle.bind fun _ => .error .help
    | some .version => p.settle.bind fun _ => .error .version
    | some (.argument a) =>
      if a.value.isNone then (p.take a none).bind fun p => p.takeLetters as cs
      else
        match cs with
        | [] => p.take a none
        | '=' :: rest => p.take a (some (String.ofList rest))
        | rest => p.take a (some (String.ofList rest))

def Progress.place (p : Progress) (a : Argument) (s : String) : Progress :=
  { p with
    pending := some (a, [s])
    awaiting := false
    position := if a.repeats then p.position else p.position + 1 }

/-- Takes a positional argument; `surplus` is the refusal when none is left. -/
def Progress.takePositional (p : Progress) (as : List Argument) (surplus : Refusal) (s : String) :
    Except Refusal Progress :=
  match (as.filter (·.style = .positional))[p.position]? with
  | none => .error surplus
  | some a =>
    match p.pending with
    | some (b, texts) =>
      if b.name = a.name && a.repeats then .ok { p with pending := some (b, texts ++ [s]) }
      else p.settle.map fun p => p.place a s
    | none => .ok (p.place a s)

/-! ## Forms -/

/-- An inner command, with the texts that follow its name. -/
abbrev Descent := Option (Form × List String)

/-- The refusal of a text that is no positional argument of the form. A command's name that stands
where no command can is taken for an argument. -/
def surplusOf (f : Form) (p : Progress) (s : String) : Refusal :=
  if p.literal && (s = "help" || (f.find? s).isSome) then .unknownArgument
  else if f.inner.isEmpty then .unknownArgument
  else .unknownCommand

/-- Whether words name a command inside the form; `help` is one beside every inner command. -/
def isCommand : Form → List String → Bool
  | _, [] => true
  | f, w :: ws =>
    if w = "help" && !f.inner.isEmpty then ws.isEmpty
    else (f.find? w).any fun g => isCommand g ws

/-- Reads the arguments of a form up to the end, or to the name of an inner command. -/
def readArguments (f : Form) (as : List Argument) :
    List String → Progress → Except Refusal (Progress × Descent)
  | [], p => .ok (p, none)
  | s :: rest, p =>
    let positional := p.takePositional as (surplusOf f p s) s
    if p.literal then positional.bind (readArguments f as rest)
    else
      match if p.awaiting then none else f.find? s with
      | some g => .ok (p, some (g, rest))
      | none =>
        if s = "help" && !p.awaiting && !f.inner.isEmpty then
          .error (if isCommand f rest then .help else .unknownCommand)
        else
          match s.toList with
          | ['-', '-'] => readArguments f as rest { p with literal := true }
          | '-' :: '-' :: cs => (p.takeNamed as cs).bind (readArguments f as rest)
          | '-' :: c :: cs => (p.takeLetters as (c :: cs)).bind (readArguments f as rest)
          | _ =>
            match p.awaiting, p.pending with
            | true, some (a, texts) =>
              readArguments f as rest
                { p with pending := some (a, texts ++ [s]), awaiting := false }
            | _, _ => positional.bind (readArguments f as rest)

def checkGiven (f : Form) (as : List Argument) (g : Given) : Except Refusal Unit := do
  if !f.inner.isEmpty then
    throw (if g.isEmpty then .noCommand else .missingCommand)
  let present := as.filter fun a => g.isGiven a.name
  if present.any fun a => a.excludes.any g.isGiven then throw .conflict
  if as.any fun a => a.required && !g.isGiven a.name then throw .missingArgument
  if present.any fun a => a.needs.any fun n => !g.isGiven n then throw .missingArgument

/-- A command line taken apart: the names of the commands, and what was given at each level. -/
structure Parsed where
  commands : List String
  levels : List Given

/-- Reads a command line by a form. The `shared` arguments can be given at every level. Each inner
command uses up a text, so `fuel` texts are enough for as many levels. -/
def readLevels (shared : List Argument) : (fuel : Nat) → Form → List String → Except Refusal Parsed
  | 0, _, _ => .error .missingCommand
  | fuel + 1, f, texts => do
    let as := f.arguments ++ shared
    match ← readArguments f as texts {} with
    | (p, some (g, rest)) =>
      let below ← readLevels shared fuel g rest
      let p ← p.settle
      return ⟨g.name :: below.commands, p.given :: below.levels⟩
    | (p, none) =>
      let p ← p.settle
      checkGiven f as p.given
      return ⟨[], [p.given]⟩

def read (shared : List Argument) (f : Form) (texts : List String) : Except Refusal Parsed :=
  readLevels shared (texts.length + 1) f texts

namespace Parsed

def own (p : Parsed) : Given := p.levels.getLast?.getD []

/-- The value of a shared argument: the one given at the innermost level. -/
def shared? (p : Parsed) (name : String) : Option String :=
  p.levels.reverse.findSome? (·.value? name)

end Parsed
end TagIndex.Usage
