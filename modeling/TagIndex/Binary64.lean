/-!
The numbers of double precision: a natural number of 53 bits times a power of two. A fraction is
rounded to the nearest of them, and a tie goes to the even one.
-/
namespace TagIndex.Binary64

def precision : Nat := 53

/-- The place of the last bit of the smallest numbers. -/
def leastPlace : Int := -1074

/-- From here on a number is too large: half a unit above the largest one. -/
def bound : Nat := Nat.pow 2 1024 - Nat.pow 2 970

/-- The natural number nearest to a quotient; a tie goes to the even one. -/
def roundDiv (n d : Nat) : Nat :=
  let rest := 2 * (n % d)
  if rest < d ∨ (rest = d ∧ n / d % 2 = 0) then n / d else n / d + 1

def scaled (n d : Nat) (place : Int) : Nat × Nat :=
  (n * Nat.pow 2 (-place).toNat, d * Nat.pow 2 place.toNat)

/-- The place of the last bit that is kept of a fraction. -/
def placeOf (n d : Nat) : Int :=
  let guess : Int := (n.log2 : Int) - d.log2
  let (a, b) := scaled n d guess
  max leastPlace ((if a < b then guess - 1 else guess) - (precision - 1 : Nat))

/-- The number nearest to a fraction, as a significand and the place of its last bit. -/
def nearest (n d : Nat) : Nat × Int :=
  let place := placeOf n d
  let (a, b) := scaled n d place
  (roundDiv a b, place)

/-- The value of a significand at a place, if it is natural. -/
def natural? : Nat × Int → Option Nat
  | (m, place) =>
    let unit := Nat.pow 2 (-place).toNat
    if m % unit = 0 then some (m / unit * Nat.pow 2 place.toNat) else none

/-- The number nearest to a natural one, which is natural as well. -/
def ofNat (n : Nat) : Nat := (natural? (nearest n 1)).getD n

/-- Powers of ten beyond this exponent decide on their own that a number is too large or rounds to
zero. -/
def maxExponent : Nat := 400

/-- The number nearest to `n` times a power of ten, if it is natural and in range. -/
def ofDecimal? (n : Nat) (exponent : Int) : Option Nat :=
  let size : Int := (Nat.toDigits 10 n).length + exponent
  if n = 0 ∨ size < -maxExponent then some 0
  else if maxExponent < size then none
  else natural? (nearest (n * Nat.pow 10 exponent.toNat) (Nat.pow 10 (-exponent).toNat))

example : roundDiv 5 2 = 2 ∧ roundDiv 7 2 = 4 ∧ roundDiv 5 3 = 2 := by decide
example : ofNat 18446744073709551615 = 18446744073709551616 := by decide +kernel
example : ofDecimal? 120 (-1) = some 12 ∧ ofDecimal? 15 (-1) = none := by decide +kernel
example : ofDecimal? 9007199254740993 0 = some 9007199254740992 := by decide +kernel

end TagIndex.Binary64
