import ClusterLink.Json.Basic

/-! Reading JSON. The reader takes one character at a time and keeps what is open on a stack of its
own, so nesting may be of any depth. `step` is the whole grammar; `read?` folds it over the text. -/

namespace ClusterLink.Json

/-- Something begun and not yet closed. -/
inductive Frame where
  /-- An array with its items so far, the last first. -/
  | array (done : List Json)
  /-- An object with its members so far, the last first. -/
  | object (done : List (Option String × Json))
  /-- An object that has read a key and waits for the value. -/
  | member (done : List (Option String × Json)) (key : Option String)

/-- Where the reader stands inside an escape. -/
inductive Escape where
  | plain
  | backslash
  /-- So many hexadecimal digits are due; the number so far. -/
  | hex (due : Nat) (code : Nat)

/-- A text begun: its characters so far, the last first. -/
structure Content where
  chars : List Char := []
  /-- The first half of a surrogate pair whose second half is due. -/
  high : Option Nat := none
  /-- Half of a pair stood alone. -/
  broken : Bool := false
  escape : Escape := .plain

namespace Content

/-- The content that a finished text has. -/
def result (t : Content) : Option String :=
  if t.broken || t.high.isSome then none else some (String.ofList t.chars.reverse)

/-- Adds a character; a first half that waits is thereby alone. -/
def push (t : Content) (c : Char) : Content :=
  { chars := c :: t.chars, broken := t.broken || t.high.isSome }

/-- Adds a code that an escape names, pairing halves. -/
def pushCode (t : Content) (code : Nat) : Content :=
  match t.high with
  | some high =>
    if 0xDC00 ≤ code ∧ code < 0xE000 then
      { chars := Char.ofNat (0x10000 + (high - 0xD800) * 0x400 + (code - 0xDC00)) :: t.chars,
        broken := t.broken }
    else
      { chars := t.chars, broken := true }
  | none =>
    if 0xD800 ≤ code ∧ code < 0xDC00 then
      { chars := t.chars, high := some code, broken := t.broken }
    else if 0xDC00 ≤ code ∧ code < 0xE000 then
      { chars := t.chars, broken := true }
    else
      { chars := Char.ofNat code :: t.chars, broken := t.broken }

end Content

/-- Where the reader stands inside a number. -/
inductive NumberPart where
  | sign
  | zero
  | whole
  | point
  | fraction
  | mark
  | markSign
  | exponent

def NumberPart.complete : NumberPart → Bool
  | .zero | .whole | .fraction | .exponent => true
  | .sign | .point | .mark | .markSign => false

/-- The part of a number that a further character leads to. -/
def NumberPart.next? (part : NumberPart) (c : Char) : Option NumberPart :=
  match part with
  | .sign => if c = '0' then some .zero else if (digit? c).isSome then some .whole else none
  | .zero => if c = '.' then some .point else if c = 'e' ∨ c = 'E' then some .mark else none
  | .whole =>
    if (digit? c).isSome then some .whole
    else if c = '.' then some .point
    else if c = 'e' ∨ c = 'E' then some .mark
    else none
  | .point => if (digit? c).isSome then some .fraction else none
  | .fraction =>
    if (digit? c).isSome then some .fraction
    else if c = 'e' ∨ c = 'E' then some .mark
    else none
  | .mark =>
    if (digit? c).isSome then some .exponent
    else if c = '+' ∨ c = '-' then some .markSign
    else none
  | .markSign => if (digit? c).isSome then some .exponent else none
  | .exponent => if (digit? c).isSome then some .exponent else none

/-- What the reader expects next. -/
inductive Place where
  /-- A value; the array just opened may also close. -/
  | value (mayClose : Bool)
  /-- A key; the object just opened may also close. -/
  | key (mayClose : Bool)
  | colon
  /-- The rest of a text, which is a key or a value. -/
  | text (isKey : Bool) (content : Content)
  /-- The rest of a number, with its characters so far, the last first. -/
  | number (part : NumberPart) (chars : List Char)
  /-- The rest of a word. -/
  | word (rest : List Char) (meaning : Json)
  /-- A comma or the end of the innermost array or object. -/
  | separator
  /-- Nothing but blanks after the whole value. -/
  | finish (result : Json)

/-- A reader: what is open, innermost first, and what is expected. -/
structure Reader where
  frames : List Frame := []
  place : Place := .value false

def isBlank (c : Char) : Bool := c = ' ' || c = '\t' || c = '\n' || c = '\r'

def hexDigit? (c : Char) : Option Nat :=
  if '0' ≤ c ∧ c ≤ '9' then some (c.toNat - '0'.toNat)
  else if 'a' ≤ c ∧ c ≤ 'f' then some (c.toNat - 'a'.toNat + 10)
  else if 'A' ≤ c ∧ c ≤ 'F' then some (c.toNat - 'A'.toNat + 10)
  else none

namespace Reader

/-- Hands a complete value to what is open. -/
def deliver (frames : List Frame) (v : Json) : Reader :=
  match frames with
  | [] => ⟨[], .finish v⟩
  | .array done :: rest => ⟨.array (v :: done) :: rest, .separator⟩
  | .object done :: rest => ⟨.object done :: rest, .separator⟩
  | .member done key :: rest => ⟨.object ((key, v) :: done) :: rest, .separator⟩

def stepValue (frames : List Frame) (mayClose : Bool) (c : Char) : Option Reader :=
  if isBlank c then some ⟨frames, .value mayClose⟩
  else if c = '"' then some ⟨frames, .text false {}⟩
  else if c = '[' then some ⟨.array [] :: frames, .value true⟩
  else if c = '\x7b' then some ⟨.object [] :: frames, .key true⟩
  else if c = ']' then
    match mayClose, frames with
    | true, .array done :: rest => some (deliver rest (.array done.reverse))
    | _, _ => none
  else if c = 't' then some ⟨frames, .word ['r', 'u', 'e'] (.bool true)⟩
  else if c = 'f' then some ⟨frames, .word ['a', 'l', 's', 'e'] (.bool false)⟩
  else if c = 'n' then some ⟨frames, .word ['u', 'l', 'l'] .null⟩
  else if c = '-' then some ⟨frames, .number .sign [c]⟩
  else (NumberPart.sign.next? c).map fun part => ⟨frames, .number part [c]⟩

def stepKey (frames : List Frame) (mayClose : Bool) (c : Char) : Option Reader :=
  if isBlank c then some ⟨frames, .key mayClose⟩
  else if c = '"' then some ⟨frames, .text true {}⟩
  else if c = '\x7d' then
    match mayClose, frames with
    | true, .object done :: rest => some (deliver rest (.object done.reverse))
    | _, _ => none
  else none

def stepSeparator (frames : List Frame) (c : Char) : Option Reader :=
  if isBlank c then some ⟨frames, .separator⟩
  else
    match frames with
    | .array done :: rest =>
      if c = ',' then some ⟨.array done :: rest, .value false⟩
      else if c = ']' then some (deliver rest (.array done.reverse))
      else none
    | .object done :: rest =>
      if c = ',' then some ⟨.object done :: rest, .key false⟩
      else if c = '\x7d' then some (deliver rest (.object done.reverse))
      else none
    | _ => none

def endText (frames : List Frame) (isKey : Bool) (content : Option String) : Option Reader :=
  if isKey then
    match frames with
    | .object done :: rest => some ⟨.member done content :: rest, .colon⟩
    | _ => none
  else some (deliver frames (.text content))

/-- What a single letter after a backslash stands for. -/
def escaped? (c : Char) : Option Char :=
  if c = '"' ∨ c = '\\' ∨ c = '/' then some c
  else if c = 'b' then some '\x08'
  else if c = 'f' then some '\x0c'
  else if c = 'n' then some '\n'
  else if c = 'r' then some '\r'
  else if c = 't' then some '\t'
  else none

def stepText (frames : List Frame) (isKey : Bool) (t : Content) (c : Char) : Option Reader :=
  match t.escape with
  | .plain =>
    if c = '"' then endText frames isKey t.result
    else if c = '\\' then some ⟨frames, .text isKey { t with escape := .backslash }⟩
    else if c.toNat < 0x20 then none
    else some ⟨frames, .text isKey (t.push c)⟩
  | .backslash =>
    if c = 'u' then some ⟨frames, .text isKey { t with escape := .hex 4 0 }⟩
    else (escaped? c).map fun e => ⟨frames, .text isKey (t.push e)⟩
  | .hex due code => do
    let code := code * 16 + (← hexDigit? c)
    if due ≤ 1 then some ⟨frames, .text isKey (t.pushCode code)⟩
    else some ⟨frames, .text isKey { t with escape := .hex (due - 1) code }⟩

def stepFinish (result : Json) (c : Char) : Option Reader :=
  if isBlank c then some ⟨[], .finish result⟩ else none

/-- After a value of known length, which an open array or object may follow up. -/
def stepAfter (r : Reader) (c : Char) : Option Reader :=
  match r.place with
  | .separator => stepSeparator r.frames c
  | .finish result => stepFinish result c
  | _ => none

/-- Reads one character; `none` where no JSON text goes on with it. -/
def step (r : Reader) (c : Char) : Option Reader :=
  match r.place with
  | .value mayClose => stepValue r.frames mayClose c
  | .key mayClose => stepKey r.frames mayClose c
  | .colon =>
    if isBlank c then some r
    else if c = ':' then some ⟨r.frames, .value false⟩
    else none
  | .text isKey content => stepText r.frames isKey content c
  | .number part chars =>
    match part.next? c with
    | some part => some ⟨r.frames, .number part (c :: chars)⟩
    | none =>
      if part.complete then
        stepAfter (deliver r.frames (.number (String.ofList chars.reverse))) c
      else none
  | .word rest meaning =>
    match rest with
    | [] => none
    | [last] => if c = last then some (deliver r.frames meaning) else none
    | next :: rest => if c = next then some ⟨r.frames, .word rest meaning⟩ else none
  | .separator => stepSeparator r.frames c
  | .finish result => stepFinish result c

def feed (r : Reader) : List Char → Option Reader
  | [] => some r
  | c :: cs =>
    match r.step c with
    | some r => r.feed cs
    | none => none

/-- The value read, if the text may end here. -/
def result? (r : Reader) : Option Json :=
  match r.frames, r.place with
  | [], .finish result => some result
  | [], .number part chars =>
    if part.complete then some (.number (String.ofList chars.reverse)) else none
  | _, _ => none

end Reader

/-- The value that a JSON text holds. -/
def read? (text : String) : Option Json :=
  (({} : Reader).feed text.toList).bind Reader.result?

end ClusterLink.Json
