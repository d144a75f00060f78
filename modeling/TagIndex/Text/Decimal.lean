import TagIndex.Text.Digits

/-!
Numbers written in decimal with a point or an exponent, each of which can be left out.
-/
namespace TagIndex.Text

/-- A decimal number: the significand times a power of ten, and a sign. -/
structure Decimal where
  negative : Bool
  significand : Nat
  exponent : Int
  deriving DecidableEq, Repr

/-- Whether a minus stands before a text, and the text without its sign. -/
def cutSign : List Char → Bool × List Char
  | '-' :: cs => (true, cs)
  | '+' :: cs => (false, cs)
  | cs => (false, cs)

/-- The exponent in a text that is empty or starts with the letter `e`. -/
def exponent? : List Char → Option Int
  | [] => some 0
  | c :: cs =>
    if c = 'e' || c = 'E' then
      let (negative, cs) := cutSign cs
      (digits? cs).map fun n => if negative then -(n : Int) else n
    else none

/-- Reads a decimal number; there is a digit before the point or after it. -/
def decimal? (cs : List Char) : Option Decimal :=
  let (negative, cs) := cutSign cs
  let whole := cs.takeWhile isDigit
  let (fraction, rest) := match cs.dropWhile isDigit with
    | '.' :: cs => (cs.takeWhile isDigit, cs.dropWhile isDigit)
    | cs => ([], cs)
  if whole.isEmpty && fraction.isEmpty then none
  else
    (exponent? rest).map fun e =>
      { negative, significand := digitsValue (whole ++ fraction), exponent := e - fraction.length }

example : decimal? "-12.5e3".toList = some ⟨true, 125, 2⟩ := by decide
example : decimal? ".5".toList = some ⟨false, 5, -1⟩ := by decide
example : decimal? "5.".toList = some ⟨false, 5, 0⟩ := by decide
example : decimal? ".".toList = none ∧ decimal? "1e".toList = none := by decide

end TagIndex.Text
