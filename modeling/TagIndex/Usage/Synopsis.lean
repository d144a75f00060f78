import TagIndex.Usage

/-! What a user is told about command lines. -/
namespace TagIndex.Usage

def Refusal.message : Refusal → String
  | unknownCommand => "unknown command"
  | unknownArgument => "unknown argument"
  | noCommand | missingCommand => "a command is missing"
  | missingArgument => "a required argument is missing"
  | badValue => "a value is missing or not allowed"
  | badNumber => "a value is no number"
  | surplusValue => "a switch takes no value"
  | conflict => "arguments cannot be used together"
  | help => "help"
  | version => "version"

/-- An argument as it stands in a synopsis; brackets are around one that can be left out. -/
def Argument.synopsis (a : Argument) : String :=
  let word := a.name.toUpper ++ (if a.repeats then " ..." else "")
  let shown := match a.style, a.value with
    | .positional, _ => word
    | .named _, none => "--" ++ a.name
    | .named _, some _ => "--" ++ a.name ++ " " ++ word
  if a.required then shown else "[" ++ shown ++ "]"

mutual

/-- One line for each command that a form leads to. -/
def Form.synopsis (before : String) : Form → List String
  | .mk name as [] => [Text.joined " " ((before ++ name) :: as.map Argument.synopsis)]
  | .mk name _ (f :: fs) => synopses (before ++ name ++ " ") (f :: fs)

def synopses (before : String) : List Form → List String
  | [] => []
  | f :: fs => f.synopsis before ++ synopses before fs

end

end TagIndex.Usage
