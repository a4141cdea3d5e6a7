import ClusterLink.Text.Scan

/-! Texts in TOML: between double quotes with escapes, or between single quotes as they stand; on
one line, or between three quotes on several. -/

namespace ClusterLink.Toml.Grammar

def isBlank (c : Char) : Bool := c == ' ' || c == '\t'

/-- The characters that may stand in a text and in a comment: the tab, and all that are no controls
of ASCII. -/
def isPlain (c : Char) : Bool :=
  let n := c.toNat
  n == 0x9 || (0x20 ≤ n && n ≤ 0x7E) || 0x80 ≤ n

def newline : Scan Unit := Scan.char '\n' <|> Scan.word ['\r', '\n']

def hexValue (c : Char) : Nat :=
  if c.isDigit then c.toNat - '0'.toNat
  else if 'a' ≤ c then c.toNat - 'a'.toNat + 10
  else c.toNat - 'A'.toNat + 10

/-- Whether a character is a hexadecimal digit. -/
def isHexDigit (c : Char) : Bool :=
  c.isDigit || ('a' ≤ c && c ≤ 'f') || ('A' ≤ c && c ≤ 'F')

/-- A character named by so many hexadecimal digits. -/
def codePoint (count : Nat) : Scan Char := do
  let digits ← Scan.charsIn isHexDigit count
  let code := digits.foldl (fun n c => n * 16 + hexValue c) 0
  if code.isValidChar then return Char.ofNat code else failure

/-- What follows a backslash: a letter that stands for a character, or a code. -/
def escaped : Scan Char := do
  match ← Scan.charIn fun _ => true with
  | 'b' => return '\x08'
  | 't' => return '\t'
  | 'n' => return '\n'
  | 'f' => return '\x0c'
  | 'r' => return '\r'
  | '"' => return '"'
  | '\\' => return '\\'
  | 'u' => codePoint 4
  | 'U' => codePoint 8
  | _ => failure

/-- One character of a text between double quotes. -/
def basicChar : Scan Char :=
  Scan.charIn (fun c => isPlain c && c != '"' && c != '\\') <|> do Scan.char '\\'; escaped

/-- A text between double quotes on one line. -/
def basic : Scan String := do
  Scan.char '"'
  let content ← Scan.many basicChar
  Scan.char '"'
  return String.ofList content

/-- A text between single quotes on one line. -/
def literal : Scan String := do
  Scan.char '\''
  let content ← Scan.chars fun c => isPlain c && c != '\''
  Scan.char '\''
  return String.ofList content

/-- One or two quotes within a text that three quotes close. -/
def innerQuotes (quote : Char) : Scan (List Char) := do
  let found ← Scan.someChars (· == quote)
  if found.length < 3 then return found else failure

/-- The three quotes that close a text, and up to two before them that belong to it. -/
def closingQuotes (quote : Char) : Scan (List Char) := do
  let found ← Scan.someChars (· == quote)
  if 3 ≤ found.length ∧ found.length ≤ 5 then return found.drop 3 else failure

/-- A backslash at the end of a line, with all blanks and line ends up to the next character. -/
def continuation : Scan (List Char) := do
  Scan.char '\\'
  let _ ← Scan.chars isBlank
  newline
  let _ ← Scan.many (newline <|> do let _ ← Scan.someChars isBlank)
  return []

/-- A text between three quotes each, made of the given pieces. A line end right after the opening
quotes does not belong to it, and all others are single characters. -/
def multiline (quote : Char) (piece : Scan (List Char)) : Scan String := do
  Scan.word [quote, quote, quote]
  let _ ← Scan.optional newline
  let pieces ← Scan.many (piece <|> (do newline; return ['\n']) <|> innerQuotes quote)
  let last ← closingQuotes quote
  return String.ofList (pieces.flatten ++ last)

/-- A text in any of its forms. -/
def quoted : Scan String :=
  multiline '"' (continuation <|> do return [← basicChar]) <|>
    multiline '\'' (Scan.someChars fun c => isPlain c && c != '\'') <|>
    basic <|> literal

end ClusterLink.Toml.Grammar
