import TagIndex.Text.Hidden

/-!
Texts in double quotes, for messages and keys: quotes and backslashes get a backslash, and characters
that cannot be seen are written by their numbers.
-/
namespace TagIndex.Text

def hexText (n : Nat) : String := String.ofList (Nat.toDigits 16 n)

def displayChar (c : Char) : String :=
  if c = '\x00' then "\\0"
  else if c = '\t' then "\\t"
  else if c = '\n' then "\\n"
  else if c = '\r' then "\\r"
  else if c = '"' || c = '\\' then "\\" ++ String.singleton c
  else if isHidden c then "\\u" ++ "\x7b" ++ hexText c.toNat ++ "\x7d"
  else String.singleton c

def display (s : String) : String := "\"" ++ String.join (s.toList.map displayChar) ++ "\""

end TagIndex.Text
