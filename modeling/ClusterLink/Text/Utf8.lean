/-! Text as octets. Decoding is a machine that takes one octet at a time; it finds the characters
and, for every maximal part that no character starts with or that breaks off, one gap. A gap reads
as U+FFFD in `decodeLossy` and refuses the whole in `decode?`. -/

namespace ClusterLink.Utf8

def encode (text : String) : List UInt8 :=
  text.toList.flatMap String.utf8EncodeChar

/-- A character begun: its bits so far, the range of the next octet, and how many octets follow
that one. -/
structure Begun where
  bits : Nat
  low : UInt8
  high : UInt8
  more : Nat
  deriving DecidableEq, Repr

/-- What an octet starts between two characters: a character or a gap of its own, or a longer
character. -/
def start (b : UInt8) : Option Char ⊕ Begun :=
  if b < 0x80 then .inl (some (Char.ofNat b.toNat))
  else if b < 0xC2 then .inl none
  else if b < 0xE0 then .inr ⟨b.toNat - 0xC0, 0x80, 0xBF, 0⟩
  else if b = 0xE0 then .inr ⟨0, 0xA0, 0xBF, 1⟩
  else if b = 0xED then .inr ⟨0xD, 0x80, 0x9F, 1⟩
  else if b < 0xF0 then .inr ⟨b.toNat - 0xE0, 0x80, 0xBF, 1⟩
  else if b = 0xF0 then .inr ⟨0, 0x90, 0xBF, 2⟩
  else if b < 0xF4 then .inr ⟨b.toNat - 0xF0, 0x80, 0xBF, 2⟩
  else if b = 0xF4 then .inr ⟨4, 0x80, 0x8F, 2⟩
  else .inl none

/-- The characters of an octet sequence, with `none` for each gap. -/
def scan : Option Begun → List UInt8 → List (Option Char)
  | none, [] => []
  | some _, [] => [none]
  | none, b :: rest =>
    match start b with
    | .inl found => found :: scan none rest
    | .inr begun => scan (some begun) rest
  | some p, b :: rest =>
    if p.low ≤ b ∧ b ≤ p.high then
      let bits := p.bits * 64 + (b.toNat - 0x80)
      match p.more with
      | 0 => some (Char.ofNat bits) :: scan none rest
      | more + 1 => scan (some ⟨bits, 0x80, 0xBF, more⟩) rest
    else
      match start b with
      | .inl found => none :: found :: scan none rest
      | .inr begun => none :: scan (some begun) rest

/-- The text of an octet sequence, with U+FFFD for every gap. -/
def decodeLossy (octets : List UInt8) : String :=
  String.ofList ((scan none octets).map (·.getD '\uFFFD'))

/-- The text of an octet sequence without gaps. -/
def decode? (octets : List UInt8) : Option String :=
  ((scan none octets).mapM id).map String.ofList

end ClusterLink.Utf8
