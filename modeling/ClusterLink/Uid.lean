import ClusterLink.Json.Reader

/-! Unique identifiers of 128 bits. Their text is 32 hexadecimal digits in five groups; reading also
takes the digits without hyphens, braces around the groups, and the `urn:uuid:` form. -/

namespace ClusterLink

/-- An identifier that tells one incarnation of an object from the next. -/
structure Uid where
  bits : BitVec 128
  deriving DecidableEq, Inhabited

namespace Uid

/-- The identifier made at the `n`th request: a version 4 identifier whose free bits count. -/
def generated (n : Nat) : Uid :=
  let high := n / 0x4000000000000000 % 0x1000000000000000
  ⟨BitVec.ofNat 128 ((high / 0x1000 * 0x10000 + 0x4000 + high % 0x1000) * 0x10000000000000000
    + 0x8000000000000000 + n % 0x4000000000000000)⟩

def digits (uid : Uid) : List Char :=
  let ds := Nat.toDigits 16 uid.bits.toNat
  List.replicate (32 - ds.length) '0' ++ ds

/-- The text of an identifier, in groups of 8, 4, 4, 4 and 12 lower-case digits. -/
def text (uid : Uid) : String :=
  let ds := uid.digits
  String.ofList (ds.take 8 ++ '-' :: (ds.drop 8).take 4 ++ '-' :: (ds.drop 12).take 4 ++
    '-' :: (ds.drop 16).take 4 ++ '-' :: ds.drop 20)

/-- The identifier with the given hexadecimal digits. -/
def ofDigits? (ds : List Char) : Option Uid :=
  if ds.length = 32 then
    (ds.foldlM (fun n c => (Json.hexDigit? c).map (n * 16 + ·)) 0).map fun n =>
      ⟨BitVec.ofNat 128 n⟩
  else none

/-- The identifier written in hyphenated groups. -/
def ofGroups? (cs : List Char) : Option Uid :=
  match cs.drop 8, cs.drop 13, cs.drop 18, cs.drop 23 with
  | '-' :: _, '-' :: _, '-' :: _, '-' :: _ =>
    if cs.length = 36 then
      ofDigits? (cs.take 8 ++ (cs.drop 9).take 4 ++ (cs.drop 14).take 4 ++ (cs.drop 19).take 4
        ++ cs.drop 24)
    else none
  | _, _, _, _ => none

def read? (s : String) : Option Uid :=
  let cs := s.toList
  if cs.length = 32 then ofDigits? cs
  else if cs.length = 36 then ofGroups? cs
  else if cs.take 1 = ['\x7b'] ∧ cs.drop 37 = ['\x7d'] then ofGroups? ((cs.drop 1).take 36)
  else if cs.take 9 = ['u', 'r', 'n', ':', 'u', 'u', 'i', 'd', ':'] then ofGroups? (cs.drop 9)
  else none

end Uid

end ClusterLink
