import TagIndex.Json

/-! Writing JSON values over several lines, two spaces deeper at each level. -/
namespace TagIndex.Json

def hexDigit (n : Nat) : Char := Nat.digitChar n

/-- Only quotes, backslashes and control characters are escaped. -/
def escapeChar (c : Char) : List Char :=
  if c = '"' then ['\\', '"']
  else if c = '\\' then ['\\', '\\']
  else if c = '\x08' then ['\\', 'b']
  else if c = '\x0c' then ['\\', 'f']
  else if c = '\n' then ['\\', 'n']
  else if c = '\r' then ['\\', 'r']
  else if c = '\t' then ['\\', 't']
  else if c.toNat < 0x20 then
    ['\\', 'u', '0', '0', hexDigit (c.toNat / 16), hexDigit (c.toNat % 16)]
  else [c]

def textLiteral (s : String) : String :=
  "\"" ++ String.ofList (s.toList.flatMap escapeChar) ++ "\""

def newLine (depth : Nat) : String := "\n" ++ String.ofList (List.replicate (2 * depth) ' ')

mutual

def prettyAt (depth : Nat) : Json → String
  | null => "null"
  | bool b => if b then "true" else "false"
  | int n => toString n
  | real => "0.0"
  | text s => textLiteral s
  | list [] => "[]"
  | list (x :: xs) =>
    "[" ++ newLine (depth + 1) ++ prettyAt (depth + 1) x ++ prettyItems (depth + 1) xs ++
      newLine depth ++ "]"
  | object [] => "\x7b\x7d"
  | object (m :: ms) =>
    "\x7b" ++ newLine (depth + 1) ++ prettyMember (depth + 1) m ++ prettyMembers (depth + 1) ms ++
      newLine depth ++ "\x7d"

def prettyItems (depth : Nat) : List Json → String
  | [] => ""
  | x :: xs => "," ++ newLine depth ++ prettyAt depth x ++ prettyItems depth xs

def prettyMember (depth : Nat) : String × Json → String
  | (name, j) => textLiteral name ++ ": " ++ prettyAt depth j

def prettyMembers (depth : Nat) : List (String × Json) → String
  | [] => ""
  | m :: ms => "," ++ newLine depth ++ prettyMember depth m ++ prettyMembers depth ms

end

def pretty (j : Json) : String := prettyAt 0 j

end TagIndex.Json
