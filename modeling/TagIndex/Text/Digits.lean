/-! Numbers written in digits of ASCII. -/
namespace TagIndex.Text

def isDigit (c : Char) : Bool := '0' ≤ c && c ≤ '9'

/-- The value of a row of digits. -/
def digitsValue (ds : List Char) : Nat := ds.foldl (fun n c => n * 10 + (c.toNat - '0'.toNat)) 0

/-- The value of a row of digits, if it is one. -/
def digits? (cs : List Char) : Option Nat :=
  if !cs.isEmpty && cs.all isDigit then some (digitsValue cs) else none

/-- Reads a natural number below `bound`; a plus sign may stand before it. -/
def natural? (bound : Nat) (cs : List Char) : Option Nat :=
  (digits? (if cs.head? = some '+' then cs.tail else cs)).filter (· < bound)

/-- Natural numbers of 64 bits are below this bound. -/
def wordBound : Nat := 18446744073709551616

/-- Signed integers of 64 bits are below this bound. -/
def signBound : Nat := 9223372036854775808

/-- Reads a signed integer of 64 bits; either sign may stand before the digits. -/
def integer? : List Char → Option Int
  | '-' :: cs => ((digits? cs).filter (· ≤ signBound)).map fun n => -(n : Int)
  | cs => (natural? signBound cs).map Int.ofNat

def hexValue (c : Char) : Option Nat :=
  if isDigit c then some (c.toNat - '0'.toNat)
  else if 'a' ≤ c && c ≤ 'f' then some (c.toNat - 'a'.toNat + 10)
  else if 'A' ≤ c && c ≤ 'F' then some (c.toNat - 'A'.toNat + 10)
  else none

def hexDigits? (cs : List Char) : Option Nat :=
  cs.foldlM (fun n c => (hexValue c).map (n * 16 + ·)) 0

example : natural? wordBound "+7".toList = some 7 := by decide
example : natural? wordBound "18446744073709551616".toList = none := by decide
example : integer? "-9223372036854775808".toList = some (-9223372036854775808) := by decide

end TagIndex.Text
