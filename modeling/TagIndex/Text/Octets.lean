import TagIndex.Text.Digits

/-!
Texts as octets of UTF-8, and texts with octets written as `%` and two hexadecimal digits. Octets
that are no text are read as replacement signs.
-/
namespace TagIndex.Text

/-- The sign that stands for a character that is none. -/
def replacementSign : Char := Char.ofNat 0xFFFD

/-- The ranges of the octets that follow a first octet. -/
def followers (first : Nat) : List (Nat × Nat) :=
  let any := (0x80, 0xBF)
  if 0xC2 ≤ first && first ≤ 0xDF then [any]
  else if first = 0xE0 then [(0xA0, 0xBF), any]
  else if first = 0xED then [(0x80, 0x9F), any]
  else if 0xE1 ≤ first && first ≤ 0xEF then [any, any]
  else if first = 0xF0 then [(0x90, 0xBF), any, any]
  else if 0xF1 ≤ first && first ≤ 0xF3 then [any, any, any]
  else if first = 0xF4 then [(0x80, 0x8F), any, any]
  else []

/-- The octets at the start that lie in the ranges, one in each. -/
def takeFollowers : List (Nat × Nat) → List UInt8 → List UInt8
  | (low, high) :: rs, b :: bs =>
    if low ≤ b.toNat && b.toNat ≤ high then b :: takeFollowers rs bs else []
  | _, _ => []

/-- The bits of a first octet that belong to the character. -/
def firstBits (first count : Nat) : Nat :=
  match count with
  | 0 => first
  | 1 => first % 0x20
  | 2 => first % 0x10
  | _ => first % 0x08

/-- The characters that octets stand for. An octet that starts no character counts as a replacement
sign, together with those after it that could still have belonged to one. -/
def ofOctets : List UInt8 → List Char
  | [] => []
  | b :: bs =>
    let first := b.toNat
    let ranges := followers first
    let taken := takeFollowers ranges bs
    let start := firstBits first taken.length
    let c :=
      if taken.length < ranges.length || (0x80 ≤ first && ranges.isEmpty) then replacementSign
      else Char.ofNat (taken.foldl (fun n b => n * 0x40 + b.toNat % 0x40) start)
    c :: ofOctets (bs.drop taken.length)
  termination_by bs => bs.length
  decreasing_by simp only [List.length_drop, List.length_cons]; omega

/-- The octets of a text in which `%` and two digits stand for one octet. A zero octet ends it. -/
def unescapedOctets : List Char → List UInt8
  | [] => []
  | '%' :: a :: b :: cs =>
    match hexValue a, hexValue b with
    | some x, some y =>
      if x = 0 ∧ y = 0 then [] else UInt8.ofNat (x * 16 + y) :: unescapedOctets cs
    | _, _ => 0x25 :: unescapedOctets (a :: b :: cs)
  | c :: cs => String.utf8EncodeChar c ++ unescapedOctets cs

def unescaped (cs : List Char) : String := String.ofList (ofOctets (unescapedOctets cs))

example : ofOctets (unescapedOctets "a%C3%A9%zz".toList) = "aé%zz".toList := by decide +kernel
example : ofOctets (unescapedOctets "a%00b".toList) = ['a'] := by decide +kernel
example : ofOctets [0xF0, 0x9F, 0x41] = [replacementSign, 'A'] := by decide +kernel

end TagIndex.Text
