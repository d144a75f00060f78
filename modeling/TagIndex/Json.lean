/-!
JSON values. Members of objects keep their order and may repeat a name; of numbers only the integers
of 64 bits matter here.
-/
namespace TagIndex

inductive Json where
  | null
  | bool (b : Bool)
  | int (n : Int)
  /-- A number that is no integer of 64 bits, or is not written as one. -/
  | real
  | text (s : String)
  | list (xs : List Json)
  | object (members : List (String × Json))
  deriving Repr, Inhabited

namespace Json

def minInt : Int := -9223372036854775808
def maxInt : Int := 9223372036854775807

def isSmall (n : Int) : Bool := minInt ≤ n && n ≤ maxInt

def text? : Json → Option String
  | text s => some s
  | _ => none

def bool? : Json → Option Bool
  | bool b => some b
  | _ => none

/-- The number, if it is a signed integer of 64 bits. -/
def int? : Json → Option Int
  | int n => if isSmall n then some n else none
  | _ => none

def list? : Json → Option (List Json)
  | list xs => some xs
  | _ => none

def object? : Json → Option (List (String × Json))
  | object ms => some ms
  | _ => none

def texts? (j : Json) : Option (List String) := j.list?.bind fun xs => xs.mapM text?

/-- The value of a member that may stand once; a member that is not there has the value `dflt`. -/
def member {α : Type} (ms : List (String × Json)) (name : String) (dflt : α)
    (read : Json → Option α) : Option α :=
  match ms.filter (·.1 = name) with
  | [] => some dflt
  | [(_, j)] => read j
  | _ => none

/-- The value at a position of a list; a position after its end has the value `dflt`. -/
def position {α : Type} (xs : List Json) (i : Nat) (dflt : α) (read : Json → Option α) : Option α :=
  match xs[i]? with
  | none => some dflt
  | some j => read j

end Json
end TagIndex
