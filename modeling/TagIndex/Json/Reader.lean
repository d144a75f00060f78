import TagIndex.Binary64
import TagIndex.Json
import TagIndex.Text.Digits
import TagIndex.Text.Surrogates

/-!
Reading JSON texts. Control characters and unpaired surrogates are refused in texts, numbers beyond
the range of double precision everywhere, and so is nesting deeper than `maxDepth`.
-/
namespace TagIndex.Json

open Text (isDigit digitsValue hexDigits? isHighSurrogate isLowSurrogate ofPair)

/-- What a reader leaves is what it did not use of the text. -/
abbrev Reader (α : Type) := List Char → Option (α × List Char)

/-- Lists and objects may be nested up to this number, less one. -/
def maxDepth : Nat := 128

def isSpace (c : Char) : Bool := c = ' ' || c = '\t' || c = '\n' || c = '\r'

def skipSpace (cs : List Char) : List Char := cs.dropWhile isSpace

/-! ## Texts -/

def ofShortEscape : Char → Option Char
  | '"' => some '"'
  | '\\' => some '\\'
  | '/' => some '/'
  | 'b' => some '\x08'
  | 'f' => some '\x0c'
  | 'n' => some '\n'
  | 'r' => some '\r'
  | 't' => some '\t'
  | _ => none

/-- Reads the characters up to the closing quote; `acc` holds those before, in reverse. -/
def readBody (acc : List Char) : Reader String
  | '"' :: cs => some (String.ofList acc.reverse, cs)
  | '\\' :: 'u' :: a :: b :: c :: d :: '\\' :: 'u' :: e :: f :: g :: h :: cs => do
    let n ← hexDigits? [a, b, c, d]
    if isLowSurrogate n then none
    else if isHighSurrogate n then
      let m ← hexDigits? [e, f, g, h]
      if isLowSurrogate m then readBody (ofPair n m :: acc) cs else none
    else readBody (Char.ofNat n :: acc) ('\\' :: 'u' :: e :: f :: g :: h :: cs)
  | '\\' :: 'u' :: a :: b :: c :: d :: cs => do
    let n ← hexDigits? [a, b, c, d]
    if isLowSurrogate n || isHighSurrogate n then none
    else readBody (Char.ofNat n :: acc) cs
  | '\\' :: c :: cs => do readBody ((← ofShortEscape c) :: acc) cs
  | c :: cs => if c.toNat < 0x20 || c = '\\' then none else readBody (c :: acc) cs
  | [] => none
  termination_by cs => cs.length

/-! ## Numbers -/

/-- Appends a digit to a significand, unless it leaves 64 bits. -/
def withDigit? (n : Nat) (d : Char) : Option Nat :=
  let m := n * 10 + digitsValue [d]
  if m < Text.wordBound then some m else none

/-- The significand that digits before the point give, and how many of them it has no room for. -/
def takeWhole (n : Nat) : List Char → Nat × Nat
  | [] => (n, 0)
  | d :: ds =>
    match withDigit? n d with
    | some m => takeWhole m ds
    | none => (n, ds.length + 1)

/-- The significand that digits after the point give, and how many of them it has room for. -/
def takeFraction (n : Nat) : List Char → Nat × Nat
  | [] => (n, 0)
  | d :: ds =>
    match withDigit? n d with
    | some m => let (k, used) := takeFraction m ds; (k, used + 1)
    | none => (n, 0)

/-- The largest power of ten of double precision. -/
def maxExponent : Int := 308

/-- Whether a significand times a power of ten is finite in double precision, when both are rounded
before they are multiplied. -/
def isFinite (significand : Nat) (exponent : Int) : Bool :=
  significand = 0 || exponent < 0 ||
    (exponent ≤ maxExponent &&
      Binary64.ofNat significand * Binary64.ofNat (Nat.pow 10 exponent.toNat) < Binary64.bound)

/-- Whether the number that digits before and after the point and an exponent give is finite. -/
def isInRange (whole fraction : List Char) (exponent : Int) : Bool :=
  let (n, left) := takeWhole 0 whole
  let (significand, used) := takeFraction n fraction
  isFinite significand (exponent + left - used)

def readFraction : Reader (Option (List Char))
  | '.' :: cs =>
    match cs.takeWhile isDigit with
    | [] => none
    | ds => some (some ds, cs.dropWhile isDigit)
  | cs => some (none, cs)

def readExponent : Reader (Option Int)
  | c :: cs =>
    if c = 'e' || c = 'E' then
      let (negative, cs) := match cs with
        | '-' :: cs => (true, cs)
        | '+' :: cs => (false, cs)
        | cs => (false, cs)
      match cs.takeWhile isDigit with
      | [] => none
      | ds =>
        let n : Int := digitsValue ds
        some (some (if negative then -n else n), cs.dropWhile isDigit)
    else some (none, c :: cs)
  | [] => some (none, [])

/-- Reads a number without its sign. A zero cannot be followed by another digit. -/
def readNumber (negative : Bool) : Reader Json := fun cs => do
  let whole := cs.takeWhile isDigit
  if whole.isEmpty || (whole.length > 1 && whole.head? = some '0') then none
  else
    let (fraction, cs) ← readFraction (cs.dropWhile isDigit)
    let (exponent, cs) ← readExponent cs
    let n := digitsValue whole
    if !isInRange whole (fraction.getD []) (exponent.getD 0) then none
    else if fraction.isSome || exponent.isSome then some (real, cs)
    else if negative then
      some (if n ≠ 0 && minInt ≤ -(n : Int) then int (-(n : Int)) else real, cs)
    else some (if n < Text.wordBound then int n else real, cs)

/-! ## Values -/

def literal (word : String) (j : Json) : Reader Json := fun cs =>
  if word.toList.isPrefixOf cs then some (j, cs.drop word.length) else none

mutual

def readValue : (fuel depth : Nat) → Reader Json
  | 0, _, _ => none
  | fuel + 1, depth, cs =>
    match cs with
    | 'n' :: _ => literal "null" null cs
    | 't' :: _ => literal "true" (bool true) cs
    | 'f' :: _ => literal "false" (bool false) cs
    | '"' :: cs => (readBody [] cs).map fun (s, cs) => (text s, cs)
    | '-' :: cs => readNumber true cs
    | '[' :: cs =>
      if depth ≤ 1 then none
      else
        match skipSpace cs with
        | ']' :: cs => some (list [], cs)
        | cs => (readItems fuel (depth - 1) cs).map fun (xs, cs) => (list xs, cs)
    | '\x7b' :: cs =>
      if depth ≤ 1 then none
      else
        match skipSpace cs with
        | '\x7d' :: cs => some (object [], cs)
        | cs => (readMembers fuel (depth - 1) cs).map fun (ms, cs) => (object ms, cs)
    | cs => readNumber false cs

def readItems : (fuel depth : Nat) → Reader (List Json)
  | 0, _, _ => none
  | fuel + 1, depth, cs =>
    match readValue fuel depth (skipSpace cs) with
    | none => none
    | some (j, cs) =>
      match skipSpace cs with
      | ',' :: cs => (readItems fuel depth cs).map fun (js, cs) => (j :: js, cs)
      | ']' :: cs => some ([j], cs)
      | _ => none

def readMembers : (fuel depth : Nat) → Reader (List (String × Json))
  | 0, _, _ => none
  | fuel + 1, depth, cs =>
    match skipSpace cs with
    | '"' :: cs =>
      match readBody [] cs with
      | none => none
      | some (name, cs) =>
        match skipSpace cs with
        | ':' :: cs =>
          match readValue fuel depth (skipSpace cs) with
          | none => none
          | some (j, cs) =>
            match skipSpace cs with
            | ',' :: cs => (readMembers fuel depth cs).map fun (ms, cs) => ((name, j) :: ms, cs)
            | '\x7d' :: cs => some ([(name, j)], cs)
            | _ => none
        | _ => none
    | _ => none

end

/-- The value that a whole text stands for. Every step of the reader uses a character or stands
before one that does, so twice the length of the text are steps enough. -/
def read (s : String) : Option Json :=
  let cs := s.toList
  match readValue (2 * cs.length + 2) maxDepth (skipSpace cs) with
  | some (j, rest) => if (skipSpace rest).isEmpty then some j else none
  | none => none

end TagIndex.Json
