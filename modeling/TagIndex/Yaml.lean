import TagIndex.Binary64
import TagIndex.Text.Decimal

/-!
Values of YAML documents. What a plain scalar means is told by its text: a few words, integers of 64
bits and other numbers have a meaning, and everything else is a text.
-/
namespace TagIndex

inductive Yaml where
  | null
  | bool (b : Bool)
  | int (n : Int)
  | real (d : Text.Decimal)
  /-- A number that is infinite, or none at all. -/
  | unbounded
  | text (s : String)
  | list (xs : List Yaml)
  | mapping (members : List (String × Yaml))
  deriving Repr, Inhabited

namespace Yaml

/-! ## Plain scalars -/

def nullWords : List String := ["", "~", "null", "Null", "NULL"]
def trueWords : List String := ["true", "True", "TRUE"]
def falseWords : List String := ["false", "False", "FALSE"]

/-- The words for numbers that are infinite or none, where a sign can stand before the infinite. -/
def infiniteWords : List String := [".inf", ".Inf", ".INF"]
def notNumberWords : List String := [".nan", ".NaN", ".NAN"]

/-- Words for the same that can be in any case. -/
def bareWords : List String := ["inf", "infinity", "nan"]

def isUnbounded (s : String) : Bool :=
  let word := String.ofList (Text.cutSign s.toList).2
  notNumberWords.contains s || infiniteWords.contains word || bareWords.contains word.toLower

/-- The value of digits of a base, if there is at least one and they give an integer of 64 bits. -/
def based? (base : Nat) (cs : List Char) : Option Int :=
  if cs.isEmpty then none
  else
    let value := cs.foldlM (fun n c => (Text.hexValue c).bind fun d =>
      if d < base then some (n * base + d) else none) 0
    (value.filter (· < Text.signBound)).map Int.ofNat

/-- An integer in digits, or in those of another base after a mark. -/
def integer? : List Char → Option Int
  | '0' :: 'x' :: cs => based? 16 cs
  | '0' :: 'o' :: cs => based? 8 cs
  | cs => Text.integer? cs

def ofPlain (s : String) : Yaml :=
  if nullWords.contains s then null
  else if trueWords.contains s then bool true
  else if falseWords.contains s then bool false
  else
    match integer? s.toList, Text.decimal? s.toList with
    | some n, _ => int n
    | none, some d => real d
    | none, none => if isUnbounded s then unbounded else text s

/-! ## Values that are asked for -/

def text? : Yaml → Option String
  | text s => some s
  | _ => none

def bool? : Yaml → Option Bool
  | bool b => some b
  | _ => none

/-- The natural number of 64 bits that a number stands for. One that is no integer of 64 bits counts
as the nearest one of double precision, which has to be natural; the bound itself counts as the
number below it. -/
def nat? : Yaml → Option Nat
  | int n => if 0 ≤ n then some n.toNat else none
  | real d => do
    let n ← Binary64.ofDecimal? d.significand d.exponent
    if (d.negative && n ≠ 0) || Text.wordBound < n then none else some (min n (Text.wordBound - 1))
  | _ => none

/-- The value of a member that may stand once and may be null. -/
def member {α : Type} (ms : List (String × Yaml)) (name : String) (read : Yaml → Option α) :
    Option (Option α) :=
  match ms.filter (·.1 = name) with
  | [] => some none
  | [(_, null)] => some none
  | [(_, y)] => (read y).map some
  | _ => none

end Yaml
end TagIndex
