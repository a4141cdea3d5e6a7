import ClusterLink.Toml.Scalar

/-! Reading TOML. Arrays and inline tables lie in one another at most so deep, which also bounds the
recursion; a document is a list of lines. -/

namespace ClusterLink.Toml.Grammar

/-- How deep arrays and inline tables may lie in one another, and how many names a key may have. -/
def deepest : Nat := 79

/-- A comment up to the end of the line. -/
def comment : Scan Unit := do
  Scan.char '#'
  let _ ← Scan.chars isPlain

/-- The blanks, line ends and comments between the items of an array. -/
def gap : Scan Unit := do
  let _ ← Scan.many (newline <|> comment <|> do let _ ← Scan.someChars isBlank)

/-- A scanner with blanks before and after. -/
def amongBlanks (p : Scan α) : Scan α := do
  let _ ← Scan.chars isBlank
  let a ← p
  let _ ← Scan.chars isBlank
  return a

/-- One name of a key. -/
def name : Scan String :=
  basic <|> literal <|> do
    return String.ofList (← Scan.someChars fun c => c.isAlphanum || c == '_' || c == '-')

/-- A key: names with points between them, as a path and the last name. -/
def key : Scan (List String × String) := do
  let names ← Scan.separated (amongBlanks name) (Scan.char '.')
  match names.reverse with
  | last :: path => if names.length ≤ deepest then return (path.reverse, last) else failure
  | [] => failure

/-- An array; a comma may follow the last item. -/
def array (item : Scan Toml) : Scan Toml := do
  Scan.char '['
  let items ← Scan.optional do
    let items ← Scan.separated (do gap; let v ← item; gap; return v) (Scan.char ',')
    let _ ← Scan.optional (Scan.char ',')
    return items
  gap
  Scan.char ']'
  return .array (items.getD [])

def pair (item : Scan Toml) : Scan (List String × String × Toml) := do
  let (path, last) ← key
  Scan.char '='
  return (path, last, ← amongBlanks item)

def inlineTable (item : Scan Toml) : Scan Toml := do
  Scan.char '\x7b'
  let pairs ← Scan.optional (Scan.separated (pair item) (Scan.char ','))
  let _ ← Scan.chars isBlank
  Scan.char '\x7d'
  match ofPairs? (pairs.getD []) with
  | some result => return result
  | none => failure

/-- A value in which arrays and inline tables lie at most so deep. -/
def value : Nat → Scan Toml
  | 0 => scalar
  | depth + 1 => array (value depth) <|> inlineTable (value depth) <|> scalar

/-- The end of a line, after blanks and a comment. -/
def lineEnd : Scan Unit := do
  let _ ← Scan.chars isBlank
  let _ ← Scan.optional comment
  newline <|> Scan.finish

/-- What a line says before its end. -/
def lineContent : Scan Line :=
  (do
    Scan.word ['[', '[']
    let (path, last) ← key
    Scan.word [']', ']']
    return .nextHeader path last) <|>
  (do
    Scan.char '['
    let (path, last) ← key
    Scan.char ']'
    return .header path last) <|>
  (do
    let (path, last, v) ← pair (value deepest)
    return .value path last v)

/-- A line, which takes at least one character. -/
def line : Scan Line := do
  let _ ← Scan.chars isBlank
  match ← Scan.optional lineContent with
  | some content => lineEnd; return content
  | none =>
    let _ ← Scan.optional comment
    newline
    return .blank

/-- A whole document, after the mark of byte order that may open it. -/
def document : Scan (List Line) := do
  let _ ← Scan.optional (Scan.char '\uFEFF')
  let lines ← Scan.many line
  lineEnd
  return lines

end ClusterLink.Toml.Grammar

namespace ClusterLink.Toml

/-- The table that a TOML text holds. -/
def read? (text : String) : Option (List (String × Toml)) :=
  (Scan.all? Grammar.document text.toList).bind ofLines?

end ClusterLink.Toml
