import TagIndex.Text.Classes
import TagIndex.Text.Pieces

/-!
How many columns a text takes on a screen. A line is read from its end, because a character can be
drawn together with what stands to its right: pictures behind joiners and under selectors, flags
made of two letters, and the ligatures of some scripts.
-/
namespace TagIndex.Text

/-- What stands to the right of a character, as far as they can be drawn together; `joined` says
whether a joiner stands between. -/
inductive Neighbour where
  | other
  | picture
  | tone
  | flagLetter
  | flagLetters
  /-- Something behind a joiner that the next picture is drawn into. -/
  | joinedPicture
  | joinedKeycap
  | joinedFlagLetter
  | joinedFlagEven
  | joinedFlagOdd
  | joinedTagEnd
  | joinedTagLetters (count : Nat)
  | joinedTagDigits (count : Nat)
  | alef
  | lamed (joined : Bool)
  | coengLetter
  | ya (joined : Bool)
  | yaWithVowel
  | consonant (joined : Bool)
  | tiedConsonant
  | toneLetter
  | orkhonI (joined : Bool)
  | vowelE
  | vowelAi
  deriving DecidableEq, Repr

namespace Neighbour

def isLetter : Neighbour → Bool
  | alef | lamed _ | coengLetter | ya _ | yaWithVowel | consonant _ | tiedConsonant | toneLetter
  | orkhonI _ | vowelE | vowelAi => true
  | _ => false

/-- Whether a picture to the left, also one made by a selector, is drawn into what is joined. -/
def isJoined (n : Neighbour) : Bool := n = joinedPicture || n = joinedKeycap

/-- The neighbour with a joiner before it. -/
def behindJoiner : Neighbour → Neighbour
  | lamed _ => lamed true
  | ya _ => ya true
  | consonant _ => consonant true
  | orkhonI _ => orkhonI true
  | n => n

end Neighbour

/-- What is known of the text to the right: its first character, and the selectors before it. -/
structure Surroundings where
  right : Neighbour := .other
  asPicture : Bool := false
  asSign : Bool := false
  deriving DecidableEq, Repr

namespace Surroundings

/-- A selector for pictures comes next to the left. -/
def selectPicture (s : Surroundings) : Surroundings :=
  if s.right.isLetter || s.right.isJoined then { s with asPicture := true }
  else { asPicture := true }

/-- A selector for signs comes next to the left. -/
def selectSign (s : Surroundings) : Surroundings :=
  if s.right.isLetter then { s with asSign := true } else { asSign := true }

/-- A selector that does not fit what it follows has no effect, but parts pictures. -/
def dropPicture (s : Surroundings) : Surroundings :=
  if !s.asPicture then s else if s.right.isLetter then { s with asPicture := false } else {}

def dropSign (s : Surroundings) : Surroundings :=
  if !s.asSign then s else if s.right.isLetter then { s with asSign := false } else {}

end Surroundings

/-! ## Classes -/

def isIn (low high : Nat) (c : Char) : Bool := low ≤ c.toNat && c.toNat ≤ high

def isCode (n : Nat) (c : Char) : Bool := c.toNat = n

def isFlagLetter (c : Char) : Bool := isIn 0x1F1E6 0x1F1FF c

def isTone (c : Char) : Bool := isIn 0x1F3FB 0x1F3FF c

def isPicture (c : Char) : Bool := inRanges pictureRanges c

def isSelectable (c : Char) : Bool := inRanges selectableRanges c

/-- Pictures that become narrow when they are shown as signs; framed ideographs stay wide. -/
def isNarrowSign (c : Char) : Bool :=
  isPicture c && isSelectable c && !isIn 0x1F200 0x1F2FF c

def joiner : Nat := 0x200D

def isTransparent (c : Char) : Bool :=
  inRanges [(0x34F, 0x34F), (0x17B4, 0x17B5), (0x180B, 0x180D), (0x180F, 0x180F), (0x200D, 0x200D),
    (0xFE00, 0xFE0F), (0xE0100, 0xE01EF)] c

def isAlef (c : Char) : Bool :=
  inRanges [(0x622, 0x623), (0x625, 0x625), (0x627, 0x627), (0x671, 0x673), (0x675, 0x675),
    (0x773, 0x774), (0x870, 0x882)] c

def isLam (c : Char) : Bool :=
  inRanges [(0x644, 0x644), (0x6B5, 0x6B8), (0x76A, 0x76A), (0x8A6, 0x8A6), (0x8C7, 0x8C7)] c

/-- Letters that are written below the line after a coeng. -/
def isCoengLetter (c : Char) : Bool :=
  inRanges [(0x1780, 0x1782), (0x1784, 0x1787), (0x1789, 0x178C), (0x178E, 0x1793),
    (0x1795, 0x1798), (0x179B, 0x179D), (0x17A0, 0x17A0), (0x17A2, 0x17A2), (0x17A7, 0x17A7),
    (0x17AB, 0x17AC), (0x17AF, 0x17AF)] c

def isConsonant (c : Char) : Bool := inRanges [(0x2D31, 0x2D65), (0x2D6F, 0x2D6F)] c

/-! ## Widths -/

/-- The columns that a character takes on its own. Two Khmer signs are as wide as the letters that
they stand for. -/
def charWidth (c : Char) : Nat :=
  if c.toNat ≤ 0xA0 || isCode 0x2D7F c then 1
  else if isCode 0x17D8 c then 3
  else if isCode 0x17A4 c then 2
  else if inRanges zeroRanges c then 0
  else if isPicture c || isTone c || inRanges wideRanges c then 2
  else 1

/-- What a character is to the one on its left. -/
def neighbourOf (c : Char) : Neighbour :=
  if isFlagLetter c then .flagLetter
  else if isTone c then .tone
  else if isPicture c then .picture
  else if isAlef c then .alef
  else if isCode 0x5DC c then .lamed false
  else if isCoengLetter c then .coengLetter
  else if isCode 0x1A10 c then .ya false
  else if isConsonant c then .consonant false
  else if isIn 0xA4FC 0xA4FD c then .toneLetter
  else if isCode 0x10C03 c then .orkhonI false
  else if isCode 0x16D67 c then .vowelE
  else if isCode 0x16D68 c then .vowelAi
  else .other

/-- What a joined tag is drawn into when a character comes to its left. -/
def joinTag (c : Char) (letters digits : Nat) (done : Bool) : Option (Int × Neighbour) :=
  if digits = 0 && letters < 6 && isIn 0xE0061 0xE007A c then
    some (0, .joinedTagLetters (letters + 1))
  else if digits < 3 && letters ≤ 4 && isIn 0xE0030 0xE0039 c then
    some (0, .joinedTagDigits (digits + 1))
  else if done && isCode 0x1F3F4 c then some (0, .picture)
  else none

/-- The change of width when a character is drawn together with its neighbour, and what both of them
are then to the next character. -/
def join? (c : Char) : Neighbour → Option (Int × Neighbour)
  | .other => none
  | .picture => if isCode joiner c then some (0, .joinedPicture) else none
  | .tone =>
    if inRanges toneableRanges c then some (0, .picture)
    else if isCode joiner c then some (0, .joinedPicture)
    else none
  | .flagLetter => if isFlagLetter c then some (1, .flagLetters) else none
  | .flagLetters =>
    if isFlagLetter c then some (1, .flagLetters)
    else if isCode joiner c then some (0, .joinedPicture)
    else none
  | .joinedPicture =>
    if isCode 0x20E3 c then some (0, .joinedKeycap)
    else if isFlagLetter c then some (1, .joinedFlagLetter)
    else if isTone c then some (0, .tone)
    else if isCode 0xE007F c then some (0, .joinedTagEnd)
    else if isPicture c then some (0, .picture)
    else none
  | .joinedKeycap => none
  | .joinedFlagLetter => if isFlagLetter c then some (-1, .joinedFlagEven) else none
  | .joinedFlagEven =>
    if isFlagLetter c then some (3, .joinedFlagOdd)
    else if isCode joiner c then some (0, .joinedPicture)
    else none
  | .joinedFlagOdd =>
    if isFlagLetter c then some (-1, .joinedFlagEven)
    else if isCode joiner c then some (0, .joinedPicture)
    else none
  | .joinedTagEnd => joinTag c 0 0 false
  | .joinedTagLetters n => joinTag c n 0 (3 ≤ n)
  | .joinedTagDigits n => joinTag c 0 n (n = 3)
  | .alef =>
    if charWidth c = 0 && !inRanges partingRanges c then some (0, .alef)
    else if isLam c then some (0, .other)
    else none
  | .lamed joined => if joined && isCode 0x5D0 c then some (0, .other) else none
  | .coengLetter => if isCode 0x17D2 c then some (-1, .other) else none
  | .ya joined => if joined && isCode 0x1A17 c then some (0, .yaWithVowel) else none
  | .yaWithVowel => if isCode 0x1A15 c then some (0, .other) else none
  | .consonant joined =>
    if isCode 0x2D7F c then some (1, .tiedConsonant)
    else if joined && isConsonant c then some (0, .other)
    else none
  | .tiedConsonant => if isConsonant c then some (-1, .other) else none
  | .toneLetter => if isIn 0xA4F8 0xA4FB c then some (0, .other) else none
  | .orkhonI joined => if joined && isCode 0x10C32 c then some (0, .other) else none
  | .vowelE =>
    if isCode 0x16D63 c || isCode 0x16D69 c then some (0, .other)
    else if isCode 0x16D67 c then some (0, .vowelAi)
    else if isCode 0x16D68 c then some (1, .vowelE)
    else none
  | .vowelAi => if isCode 0x16D63 c then some (0, .other) else none

/-- The columns that a character adds to the text on its right. -/
def widthBefore (c : Char) (s : Surroundings) : Int × Surroundings :=
  if s.asPicture && isSelectable c then (if s.right.isJoined then 0 else 2, { right := .picture })
  else
    let s := s.dropPicture
    if c.toNat ≤ 0xA0 then (1, {})
    else if isCode 0xFE0F c then (0, s.selectPicture)
    else if isCode 0xFE0E c then (0, s.selectSign)
    else if s.asSign && isNarrowSign c then (1, {})
    else
      let s := s.dropSign
      if s.right.isLetter && s.right ≠ .alef && isTransparent c then
        (0, if isCode joiner c then { right := s.right.behindJoiner } else s)
      else
        match join? c s.right with
        | some (n, right) => (n, { right })
        | none => (charWidth c, { right := neighbourOf c })

/-- The columns of a line, and what its start is to a character before it. -/
def measure : List Char → Int × Surroundings
  | [] => (0, {})
  | c :: cs =>
    let (rest, s) := measure cs
    let (n, s) := widthBefore c s
    (n + rest, s)

def lineWidth (cs : List Char) : Nat := (measure cs).1.toNat

/-- The lines of a text; there is always at least one. -/
def lines (cs : List Char) : List (List Char) := splitBy (· == '\n') cs

def width (s : String) : Nat := ((lines s.toList).map lineWidth).foldl max 0

end TagIndex.Text
