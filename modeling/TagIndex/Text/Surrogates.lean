/-!
Pairs of surrogates: how a character beyond the basic plane is written by two numbers of 16 bits.
-/
namespace TagIndex.Text

def isHighSurrogate (n : Nat) : Bool := 0xD800 ≤ n && n ≤ 0xDBFF
def isLowSurrogate (n : Nat) : Bool := 0xDC00 ≤ n && n ≤ 0xDFFF

def ofPair (high low : Nat) : Char :=
  Char.ofNat (0x10000 + (high - 0xD800) * 0x400 + (low - 0xDC00))

example : ofPair 0xD83D 0xDE00 = '😀' := by decide

end TagIndex.Text
