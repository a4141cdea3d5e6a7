import ClusterLink.Json.Basic

/-! Writing JSON on one line without blanks. Of the characters of a text the quote, the backslash
and those below U+0020 are escaped. -/

namespace ClusterLink.Json

/-- The hexadecimal digit of a number below 16. -/
def hexDigit (n : Nat) : Char :=
  if n < 10 then Char.ofNat ('0'.toNat + n) else Char.ofNat ('a'.toNat + (n - 10))

/-- The spelling of a character between quotes. -/
def escape (c : Char) : List Char :=
  if c = '"' then ['\\', '"']
  else if c = '\\' then ['\\', '\\']
  else if c = '\x08' then ['\\', 'b']
  else if c = '\x0c' then ['\\', 'f']
  else if c = '\n' then ['\\', 'n']
  else if c = '\r' then ['\\', 'r']
  else if c = '\t' then ['\\', 't']
  else if c.toNat < 0x20 then
    ['\\', 'u', '0', '0', hexDigit (c.toNat / 16), hexDigit (c.toNat % 16)]
  else [c]

/-- A text with its quotes. -/
def writeText (content : String) : List Char :=
  '"' :: content.toList.flatMap escape ++ ['"']

/-- A text's content with its quotes; half of a surrogate pair where there is none. -/
def writeContent : Option String → List Char
  | some content => writeText content
  | none => ['"', '\\', 'u', 'd', '8', '0', '0', '"']

mutual

def write : Json → List Char
  | .null => ['n', 'u', 'l', 'l']
  | .bool true => ['t', 'r', 'u', 'e']
  | .bool false => ['f', 'a', 'l', 's', 'e']
  | .number literal => literal.toList
  | .text content => writeContent content
  | .array items => '[' :: writeItems items
  | .object members => '\x7b' :: writeMembers members

/-- The items of an array, up to its end. -/
def writeItems : List Json → List Char
  | [] => [']']
  | [item] => write item ++ [']']
  | item :: items => write item ++ ',' :: writeItems items

/-- The members of an object, up to its end. -/
def writeMembers : List (Option String × Json) → List Char
  | [] => ['\x7d']
  | [(key, value)] => writeContent key ++ ':' :: (write value ++ ['\x7d'])
  | (key, value) :: members =>
    writeContent key ++ ':' :: (write value ++ ',' :: writeMembers members)

end

def render (v : Json) : String := String.ofList (write v)

end ClusterLink.Json
