import TagIndex.Text.Octets

/-!
Search patterns: `%` stands for any run of characters, `_` for any one, and letters of ASCII match
in either case. Escaping a text makes a pattern that stands for the text itself, as far as texts are
compared at all: `comparable` says what of a text a comparison sees.
-/
namespace TagIndex.Text

/-- The mark before a character that stands for itself. -/
def escapeMark : Char := '^'

def sameLetter (a b : Char) : Bool := a.toLower == b.toLower

/-- Whether some end of the text, the whole and the empty one included, satisfies `f`. -/
def anyEnd (f : List Char → Bool) : List Char → Bool
  | [] => f []
  | c :: cs => f (c :: cs) || anyEnd f cs

/-- Whether a text fits a pattern; `escape` is the mark before literal characters, if any. -/
def fits (escape : Option Char) : List Char → List Char → Bool
  | [], cs => cs.isEmpty
  | p :: ps, cs =>
    if some p = escape then
      match ps with
      | [] => false
      | q :: qs =>
        match cs with
        | [] => false
        | c :: cs => sameLetter q c && fits escape qs cs
    else if p = '%' then anyEnd (fits escape ps) cs
    else
      match cs with
      | [] => false
      | c :: cs => (p = '_' || sameLetter p c) && fits escape ps cs

/-- The last two code points of the basic plane are no characters. -/
def isNoCharacter (c : Char) : Bool := c.toNat = 0xFFFE || c.toNat = 0xFFFF

/-- What a comparison sees of a text or a pattern: the part before the first null character, with
the replacement sign for what is no character. -/
def comparable : List Char → List Char
  | [] => []
  | c :: cs =>
    if c = '\x00' then []
    else (if isNoCharacter c then replacementSign else c) :: comparable cs

/-- Whether the comparable part of a text fits that of a pattern. -/
def matchesPattern (escape : Option Char) (pattern text : String) : Bool :=
  fits escape (comparable pattern.toList) (comparable text.toList)

/-- The pattern that stands for `cs` itself. -/
def escaped : List Char → List Char
  | [] => []
  | c :: cs =>
    if c = escapeMark ∨ c = '_' ∨ c = '%' then escapeMark :: c :: escaped cs else c :: escaped cs

def startingWith (s : String) : String := String.ofList (escaped s.toList ++ ['%'])

def containing (s : String) : String := String.ofList ('%' :: escaped s.toList ++ ['%'])

/-- Longer patterns, counted in bytes, are refused. -/
def maxPatternBytes : Nat := 50000

end TagIndex.Text
