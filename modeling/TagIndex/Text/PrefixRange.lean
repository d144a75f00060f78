/-!
The range of the texts that start with a given one, in code point order: from the text itself up to,
and not including, the least text above all its extensions.
-/
namespace TagIndex.Text

/-- The next character in code point order; the surrogate gap is stepped over. -/
def nextChar (c : Char) : Option Char :=
  if c.toNat = 0xD7FF then some (Char.ofNat 0xE000)
  else if c.toNat = 0x10FFFF then none
  else some (Char.ofNat (c.toNat + 1))

/-- The least text above every extension of `cs`; there is none when all characters are maximal. -/
def upperEnd : List Char → Option (List Char)
  | [] => none
  | c :: cs =>
    match upperEnd cs with
    | some ds => some (c :: ds)
    | none => (nextChar c).map ([·])

example : upperEnd ['f', 'o', 'o'] = some ['f', 'o', 'p'] := by decide
example : upperEnd ['a', Char.ofNat 0x10FFFF] = some ['b'] := by decide
example : upperEnd ['a', Char.ofNat 0xD7FF] = some ['a', Char.ofNat 0xE000] := by decide

def upperEndOf (s : String) : Option String := (upperEnd s.toList).map String.ofList

end TagIndex.Text
