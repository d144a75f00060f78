import TagIndex.Text.Pieces

/-! Macro definitions, and the form in which a definition is looked up. -/
namespace TagIndex

structure Macro where
  name : String := ""
  file : String := ""
  line : Int := 0
  isFunctionLike : Bool := false
  replacement : String := ""
  signature : String := ""
  deriving DecidableEq, Repr, Inhabited

/-- A macro as the preprocessor needs it, with its parameters apart. -/
structure Macro.Token where
  name : String
  replacement : String
  line : Int
  isFunctionLike : Bool
  args : List String
  deriving DecidableEq, Repr

namespace Macro

/-- The parameters in a signature such as `(a, b)`. -/
def args (signature : String) : List String :=
  Text.itemsOf (String.ofList (signature.toList.filter fun c => c ≠ '(' && c ≠ ')'))

def token (m : Macro) : Token where
  name := m.name
  replacement := m.replacement
  line := m.line
  isFunctionLike := m.isFunctionLike
  args := args m.signature

def Token.params (t : Token) : String := "(" ++ Text.joined ", " t.args ++ ")"

end Macro
end TagIndex
