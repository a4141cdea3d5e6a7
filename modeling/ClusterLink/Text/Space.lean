/-! The characters with the Unicode property White_Space. -/

namespace ClusterLink.Text

def isSpace (c : Char) : Bool :=
  let n := c.toNat
  (0x9 ≤ n && n ≤ 0xD) || n == 0x20 || n == 0x85 || n == 0xA0 || n == 0x1680 ||
    (0x2000 ≤ n && n ≤ 0x200A) || n == 0x2028 || n == 0x2029 || n == 0x202F || n == 0x205F ||
    n == 0x3000

/-- The characters from the first that is no white space. -/
def skipSpace (cs : List Char) : List Char := cs.dropWhile isSpace

end ClusterLink.Text
